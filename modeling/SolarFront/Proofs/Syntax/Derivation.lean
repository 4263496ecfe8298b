import Mathlib
import SolarFront.Syntax.Parse.Grammar

/-!
# The expression and type grammar

The grammar of expressions and types, as relations between token lists and syntax trees.
`ExprDerives level toks e` says that `toks` derive `e` at one level of the expression grammar,
loosest first: comma expressions, assignments and conditionals grouped to the right, ten levels
of binary operators each grouped to the left, prefix operators and `sizeof`, then calls,
indexing, member access and casts after an atom. Parentheses leave no node, and `p->m` reads as
the member `m` of `*p`. `TypeDerives` is the type grammar, which the expression grammar reaches
through casts and `sizeof`, and which reaches it back through array lengths and `typeof`.

The relations fix the form of each node and leave its identifier and span free.
-/

set_option autoImplicit false
set_option linter.all false

namespace SolarFront

open SolarFront.Parser

/-- The levels of the expression grammar, loosest first. -/
inductive ExprLevel where
  /-- `expr := assign (',' assign)*` -/
  | expr
  /-- `assign := ternary (ASSIGNOP assign)?`, grouped to the right. -/
  | assign
  /-- `ternary := binary ('?' expr ':' ternary)?`, grouped to the right. -/
  | ternary
  /-- The binary operators binding at least as tightly as `prec`, each level grouped to the
  left. -/
  | binary (prec : Nat)
  /-- `unary := ('+' | '-' | '~' | '!' | '*' | '&') unary | 'sizeof' ... | suffixed` -/
  | unary
  /-- An atom followed by calls, indexing, member accesses and casts. -/
  | suffixed
  /-- `atom := NAME | INT | STR+ | '(' expr ')'` -/
  | atom
  deriving DecidableEq

/-- Adjacent string literals of one encoding, their units one after the other. -/
inductive StringPieces (enc : Encoding) : List Token → List Nat → Prop where
  | nil : StringPieces enc [] []
  | cons {t : Token} {ts : List Token} {units rest : List Nat} :
      t.kind = .str → t.value = .str units enc → StringPieces enc ts rest →
      StringPieces enc (t :: ts) (units ++ rest)

mutual

/-- `ExprDerives level toks e`: the tokens `toks` derive `e` at `level` of the expression
grammar. Only the forms of the nodes are fixed; their identifiers and spans are not. -/
inductive ExprDerives : ExprLevel → List Token → Expr → Prop where
  | ofAssign {t : List Token} {e : Expr} : ExprDerives .assign t e → ExprDerives .expr t e
  | comma {t ts : List Token} {a b e : Expr} {bs : List Expr} :
      ExprDerives .assign t a → CommaTail ts (b :: bs) → e.kind = .comma (a :: b :: bs) →
      ExprDerives .expr (t ++ ts) e
  | ofTernary {t : List Token} {e : Expr} : ExprDerives .ternary t e → ExprDerives .assign t e
  | assign {t₁ t₂ : List Token} {o : Token} {target value e : Expr} :
      ExprDerives .ternary t₁ target → o.kind.isAssign = true → ExprDerives .assign t₂ value →
      e.kind = .assign (compoundOp o.kind) target value → ExprDerives .assign (t₁ ++ o :: t₂) e
  | ofBinary {t : List Token} {e : Expr} : ExprDerives (.binary 1) t e → ExprDerives .ternary t e
  | ternary {t₁ t₂ t₃ : List Token} {q k : Token} {c a b e : Expr} :
      ExprDerives (.binary 1) t₁ c → q.kind = .question → ExprDerives .expr t₂ a →
      k.kind = .colon → ExprDerives .ternary t₃ b → e.kind = .ternary c a b →
      ExprDerives .ternary (t₁ ++ q :: t₂ ++ k :: t₃) e
  | ofUnary {p : Nat} {t : List Token} {e : Expr} :
      ExprDerives .unary t e → ExprDerives (.binary p) t e
  | binop {p q : Nat} {t₁ t₂ : List Token} {o : Token} {op : Infix} {l r e : Expr} :
      ExprDerives (.binary q) t₁ l → infixOp o.kind = some (q, op) → p ≤ q →
      ExprDerives (.binary (q + 1)) t₂ r → e.kind = op.node l r →
      ExprDerives (.binary p) (t₁ ++ o :: t₂) e
  | ofSuffixed {t : List Token} {e : Expr} : ExprDerives .suffixed t e → ExprDerives .unary t e
  | unop {t : List Token} {o : Token} {op : Prefix} {x e : Expr} :
      prefixOp o.kind = some op → ExprDerives .unary t x → e.kind = op.node x →
      ExprDerives .unary (o :: t) e
  | sizeofExpr {t : List Token} {k : Token} {x e : Expr} :
      k.kind = .kwSizeof → ExprDerives .unary t x → e.kind = .sizeofExpr x →
      ExprDerives .unary (k :: t) e
  | sizeofType {t : List Token} {k l r : Token} {ty : TypeExpr} {e : Expr} :
      k.kind = .kwSizeof → l.kind = .lParen → TypeDerives t ty → r.kind = .rParen →
      e.kind = .sizeofType ty → ExprDerives .unary (k :: l :: t ++ [r]) e
  | ofAtom {t : List Token} {e : Expr} : ExprDerives .atom t e → ExprDerives .suffixed t e
  | callNone {t : List Token} {l r : Token} {f e : Expr} :
      ExprDerives .suffixed t f → l.kind = .lParen → r.kind = .rParen → e.kind = .call f [] →
      ExprDerives .suffixed (t ++ [l, r]) e
  | call {t ts : List Token} {l r : Token} {f e : Expr} {args : List Expr} :
      ExprDerives .suffixed t f → l.kind = .lParen → ArgsDerive ts args → r.kind = .rParen →
      e.kind = .call f args → ExprDerives .suffixed (t ++ l :: ts ++ [r]) e
  | index {t ti : List Token} {l r : Token} {a i e : Expr} :
      ExprDerives .suffixed t a → l.kind = .lBracket → ExprDerives .expr ti i →
      r.kind = .rBracket → e.kind = .index a i → ExprDerives .suffixed (t ++ l :: ti ++ [r]) e
  | access {t : List Token} {d m : Token} {n : String} {r e : Expr} :
      ExprDerives .suffixed t r → d.kind = .dot → m.kind = .ident → m.value = .name n →
      e.kind = .access r n m.span → ExprDerives .suffixed (t ++ [d, m]) e
  | arrow {t : List Token} {a m : Token} {n : String} {p r e : Expr} :
      ExprDerives .suffixed t p → a.kind = .arrow → m.kind = .ident → m.value = .name n →
      r.kind = .deref p → e.kind = .access r n m.span → ExprDerives .suffixed (t ++ [a, m]) e
  | cast {t tt : List Token} {a : Token} {x e : Expr} {ty : TypeExpr} :
      ExprDerives .suffixed t x → (a.kind = .kwAs ∨ a.kind = .kwAsSigned) → TypeDerives tt ty →
      e.kind = .cast x ty (a.kind == .kwAsSigned) → ExprDerives .suffixed (t ++ a :: tt) e
  | name {k : Token} {n : String} {e : Expr} :
      k.kind = .ident → k.value = .name n → e.kind = .name n → ExprDerives .atom [k] e
  | int {k : Token} {v : Nat} {w : LitWidth} {e : Expr} :
      k.kind = .int → k.value = .int v w → e.kind = .int v w → ExprDerives .atom [k] e
  | str {k : Token} {ts : List Token} {units rest : List Nat} {enc : Encoding} {e : Expr} :
      k.kind = .str → k.value = .str units enc → StringPieces enc ts rest →
      e.kind = .str (units ++ rest) enc → ExprDerives .atom (k :: ts) e
  | paren {t : List Token} {l r : Token} {e : Expr} :
      l.kind = .lParen → ExprDerives .expr t e → r.kind = .rParen →
      ExprDerives .atom (l :: t ++ [r]) e

/-- `(',' assign)*`, after the first operand of a comma expression. -/
inductive CommaTail : List Token → List Expr → Prop where
  | nil : CommaTail [] []
  | cons {c : Token} {t ts : List Token} {a : Expr} {as : List Expr} :
      c.kind = .comma → ExprDerives .assign t a → CommaTail ts as →
      CommaTail (c :: t ++ ts) (a :: as)

/-- Call arguments, `assign (',' assign)*`. -/
inductive ArgsDerive : List Token → List Expr → Prop where
  | last {t : List Token} {a : Expr} : ExprDerives .assign t a → ArgsDerive t [a]
  | cons {t ts : List Token} {c : Token} {a : Expr} {as : List Expr} :
      ExprDerives .assign t a → c.kind = .comma → ArgsDerive ts as →
      ArgsDerive (t ++ c :: ts) (a :: as)

/-- `type := volatile* base`; a type is volatile when one `volatile` or more stands before
its base. -/
inductive TypeDerives : List Token → TypeExpr → Prop where
  | mk {vs t : List Token} {k : TypeExprKind} {ty : TypeExpr} :
      (∀ v ∈ vs, v.kind = .kwVolatile) → BaseDerives t k → ty.volatile = !vs.isEmpty →
      ty.kind = k → TypeDerives (vs ++ t) ty

/-- The base of a type, after its `volatile` marks. -/
inductive BaseDerives : List Token → TypeExprKind → Prop where
  | void {k : Token} : k.kind = .kwVoid → BaseDerives [k] .void
  | int16 {k : Token} : k.kind = .kwInt16 → BaseDerives [k] (.int .w16)
  | int32 {k : Token} : k.kind = .kwInt32 → BaseDerives [k] (.int .w32)
  | ref {k : Token} {n : String} : k.kind = .ident → k.value = .name n → BaseDerives [k] (.ref n)
  | pointer {k : Token} {t : List Token} {inner : TypeExpr} :
      k.kind = .star → TypeDerives t inner → BaseDerives (k :: t) (.array inner none)
  | unsized {l r : Token} {t : List Token} {inner : TypeExpr} :
      l.kind = .lBracket → r.kind = .rBracket → TypeDerives t inner →
      BaseDerives (l :: r :: t) (.array inner none)
  | sized {l r : Token} {ts t : List Token} {size : Expr} {inner : TypeExpr} :
      l.kind = .lBracket → ExprDerives .expr ts size → r.kind = .rBracket → TypeDerives t inner →
      BaseDerives (l :: ts ++ r :: t) (.array inner (some size))
  | funcNone {k l r : Token} {t : List Token} {ret : TypeExpr} :
      k.kind = .kwFun → l.kind = .lParen → r.kind = .rParen → ReturnDerives t ret →
      BaseDerives (k :: l :: r :: t) (.func ret [] false)
  | func {k l r : Token} {ts t : List Token} {params : List TypeExpr} {variadic : Bool}
      {ret : TypeExpr} :
      k.kind = .kwFun → l.kind = .lParen → ParamsDerive ts params variadic → r.kind = .rParen →
      ReturnDerives t ret → BaseDerives (k :: l :: ts ++ r :: t) (.func ret params variadic)
  | struct {k : Token} {t : List Token} {ms : List MemberDecl} :
      k.kind = .kwStruct → RecordDerives t ms → BaseDerives (k :: t) (.record .struct ms)
  | union {k : Token} {t : List Token} {ms : List MemberDecl} :
      k.kind = .kwUnion → RecordDerives t ms → BaseDerives (k :: t) (.record .union ms)
  | typeOf {k l r : Token} {t : List Token} {e : Expr} :
      k.kind = .kwTypeof → l.kind = .lParen → ExprDerives .expr t e → r.kind = .rParen →
      BaseDerives (k :: l :: t ++ [r]) (.typeOf e)

/-- The parameter types of a function type, the last possibly `...`. -/
inductive ParamsDerive : List Token → List TypeExpr → Bool → Prop where
  | variadic {d : Token} : d.kind = .ellipsis → ParamsDerive [d] [] true
  | last {t : List Token} {ty : TypeExpr} : TypeDerives t ty → ParamsDerive t [ty] false
  | cons {t ts : List Token} {c : Token} {ty : TypeExpr} {tys : List TypeExpr} {v : Bool} :
      TypeDerives t ty → c.kind = .comma → ParamsDerive ts tys v →
      ParamsDerive (t ++ c :: ts) (ty :: tys) v

/-- `'->' type`, or nothing for a `void` return type. -/
inductive ReturnDerives : List Token → TypeExpr → Prop where
  | arrow {a : Token} {t : List Token} {ty : TypeExpr} :
      a.kind = .arrow → TypeDerives t ty → ReturnDerives (a :: t) ty
  | void {ty : TypeExpr} : ty.kind = .void → ty.volatile = false → ReturnDerives [] ty

/-- `record := '{' member (',' member)* ','? '}'` -/
inductive RecordDerives : List Token → List MemberDecl → Prop where
  | mk {l r : Token} {t : List Token} {ms : List MemberDecl} :
      l.kind = .lBrace → MembersDerive t ms → ms ≠ [] → r.kind = .rBrace →
      RecordDerives (l :: t ++ [r]) ms

/-- Members separated by commas, with a comma allowed after the last. -/
inductive MembersDerive : List Token → List MemberDecl → Prop where
  | nil : MembersDerive [] []
  | last {t : List Token} {m : MemberDecl} : MemberDerives t m → MembersDerive t [m]
  | cons {t ts : List Token} {c : Token} {m : MemberDecl} {ms : List MemberDecl} :
      MemberDerives t m → c.kind = .comma → MembersDerive ts ms →
      MembersDerive (t ++ c :: ts) (m :: ms)

/-- `member := NAME ':' type (':' INT)?` -/
inductive MemberDerives : List Token → MemberDecl → Prop where
  | plain {k c : Token} {t : List Token} {n : String} {ty : TypeExpr} {m : MemberDecl} :
      k.kind = .ident → k.value = .name n → c.kind = .colon → TypeDerives t ty →
      m.name = n → m.ty = ty → m.bits = none → MemberDerives (k :: c :: t) m
  | bits {k c c' i : Token} {t : List Token} {n : String} {ty : TypeExpr} {v : Nat}
      {w : LitWidth} {m : MemberDecl} :
      k.kind = .ident → k.value = .name n → c.kind = .colon → TypeDerives t ty →
      c'.kind = .colon → i.kind = .int → i.value = .int v w →
      m.name = n → m.ty = ty → m.bits = some v → MemberDerives (k :: c :: t ++ [c', i]) m

end

end SolarFront
