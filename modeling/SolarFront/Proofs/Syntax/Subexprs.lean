import Mathlib.Data.List.Nodup
import Mathlib.Data.List.Pairwise
import SolarFront.Syntax.Tree

/-!
# The expression nodes of a tree

Every expression node of a module, those inside its types included, listed in the order the
checker finishes them: the nodes inside an expression come before it, left to right, and a
declaration's type before its value or body.

The parser numbers all nodes from one counter, so no two nodes of a module share an identifier,
and the lexer gives an integer literal only a value that fits its width. `Module.Numbered` states
these two promises about a module, and `Numbered` states them about a list of expression nodes,
so that every part of a tree inherits them from the whole.
-/

set_option autoImplicit false
set_option linter.all false

namespace SolarFront

mutual

/-- The expression nodes of an expression: those inside it, then the expression itself. -/
def Expr.subexprs : Expr → List Expr
  | .mk id span kind => ExprKind.subexprs kind ++ [.mk id span kind]

/-- The expression nodes inside an expression of the form, operands in order. -/
def ExprKind.subexprs : ExprKind → List Expr
  | .name _ | .int _ _ | .str _ _ => []
  | .sizeofExpr e | .access e _ _ | .deref e | .addrOf e | .unary _ e | .not e => e.subexprs
  | .sizeofType t => t.subexprs
  | .call f args => f.subexprs ++ Expr.subexprsOf args
  | .index a b | .binary _ a b | .cond _ a b | .assign _ a b => a.subexprs ++ b.subexprs
  | .cast e t _ => e.subexprs ++ t.subexprs
  | .ternary c t e => c.subexprs ++ t.subexprs ++ e.subexprs
  | .comma es | .arrayInit es => Expr.subexprsOf es
  | .recordInit _ fs => FieldInit.subexprsOf fs

def Expr.subexprsOf : List Expr → List Expr
  | [] => []
  | e :: es => e.subexprs ++ Expr.subexprsOf es

def FieldInit.subexprsOf : List FieldInit → List Expr
  | [] => []
  | .mk _ v _ :: fs => v.subexprs ++ FieldInit.subexprsOf fs

/-- The expression nodes of a type: array sizes, `typeof` operands and those in member types. -/
def TypeExpr.subexprs : TypeExpr → List Expr
  | .mk _ _ _ kind => TypeExprKind.subexprs kind

def TypeExprKind.subexprs : TypeExprKind → List Expr
  | .void | .int _ | .ref _ => []
  | .array inner none => inner.subexprs
  | .array inner (some size) => inner.subexprs ++ size.subexprs
  | .func ret params _ => ret.subexprs ++ TypeExpr.subexprsOf params
  | .record _ members => MemberDecl.subexprsOf members
  | .typeOf e => e.subexprs

def TypeExpr.subexprsOf : List TypeExpr → List Expr
  | [] => []
  | t :: ts => t.subexprs ++ TypeExpr.subexprsOf ts

def MemberDecl.subexprsOf : List MemberDecl → List Expr
  | [] => []
  | .mk _ t _ _ :: ms => t.subexprs ++ MemberDecl.subexprsOf ms

end

mutual

/-- The expression nodes of a statement, those of its declarations included. -/
def Stmt.subexprs : Stmt → List Expr
  | .mk _ _ kind => StmtKind.subexprs kind

def StmtKind.subexprs : StmtKind → List Expr
  | .empty | .jump _ _ | .ret none => []
  | .decl d => d.subexprs
  | .block stmts => Stmt.subexprsOf stmts
  | .expr e | .ret (some e) => e.subexprs
  | .branch _ c t elseS => c.subexprs ++ t.subexprs ++ Stmt.subexprsOpt elseS
  | .loop _ init cond step body elseS =>
    (init.map Expr.subexprs).getD [] ++ (cond.map Expr.subexprs).getD [] ++
      (step.map Expr.subexprs).getD [] ++ body.subexprs ++ Stmt.subexprsOpt elseS

def Stmt.subexprsOpt : Option Stmt → List Expr
  | none => []
  | some s => s.subexprs

def Stmt.subexprsOf : List Stmt → List Expr
  | [] => []
  | s :: ss => s.subexprs ++ Stmt.subexprsOf ss

/-- The expression nodes of a declaration: its type's, then its value's or its body's. -/
def Decl.subexprs : Decl → List Expr
  | .mk _ _ _ _ ty _ _ kind => ty.subexprs ++ DeclKind.subexprs kind

def DeclKind.subexprs : DeclKind → List Expr
  | .var none _ | .type => []
  | .var (some v) _ | .const v _ => v.subexprs
  | .func _ body _ _ => Stmt.subexprsOpt body

end

theorem Expr.subexprs_eq (e : Expr) : e.subexprs = e.kind.subexprs ++ [e] := by
  obtain ⟨id, span, kind⟩ := e
  rfl

theorem Expr.mem_subexprs_self (e : Expr) : e ∈ e.subexprs := by
  simp [Expr.subexprs_eq]

theorem TypeExpr.subexprs_eq (t : TypeExpr) : t.subexprs = t.kind.subexprs := by
  obtain ⟨id, span, volatile, kind⟩ := t
  rfl

theorem Decl.subexprs_eq (d : Decl) : d.subexprs = d.ty.subexprs ++ d.kind.subexprs := by
  obtain ⟨id, name, nameSpan, span, ty, isDeclare, description, kind⟩ := d
  rfl

/-- The values of a struct or union initializer, as a list of expressions. -/
theorem Expr.subexprsOf_values (fs : List FieldInit) :
    Expr.subexprsOf (fs.map (·.value)) = FieldInit.subexprsOf fs := by
  induction fs with
  | nil => rfl
  | cons f fs ih =>
    obtain ⟨name, value, span⟩ := f
    rw [List.map_cons, Expr.subexprsOf, ih]
    rfl

/-- An integer literal whose value fits its width, or an expression of another form. -/
def Expr.literalFits : Expr → Bool
  | .mk _ _ (.int value width) => decide (value ≤ width.maxValue)
  | _ => true

/-- Expression nodes on identifiers of their own, whose integer literals fit their widths. -/
def Numbered (X : List Expr) : Prop := (X.map Expr.id).Nodup ∧ ∀ x ∈ X, x.literalFits

instance (X : List Expr) : Decidable (Numbered X) :=
  inferInstanceAs (Decidable (_ ∧ _))

namespace Numbered

variable {A B : List Expr}

theorem append_iff :
    Numbered (A ++ B) ↔
      Numbered A ∧ Numbered B ∧ ∀ a ∈ A, ∀ b ∈ B, a.id ≠ b.id := by
  simp only [Numbered, List.map_append, List.nodup_append, List.mem_append, List.mem_map]
  constructor
  · rintro ⟨⟨hA, hB, hAB⟩, hlit⟩
    exact ⟨⟨hA, fun x hx => hlit x (.inl hx)⟩, ⟨hB, fun x hx => hlit x (.inr hx)⟩,
      fun a ha b hb => hAB a.id ⟨a, ha, rfl⟩ b.id ⟨b, hb, rfl⟩⟩
  · rintro ⟨⟨hA, hlA⟩, ⟨hB, hlB⟩, hAB⟩
    refine ⟨⟨hA, hB, ?_⟩, fun x hx => hx.elim (hlA x) (hlB x)⟩
    rintro _ ⟨a, ha, rfl⟩ _ ⟨b, hb, rfl⟩
    exact hAB a ha b hb

theorem left (h : Numbered (A ++ B)) : Numbered A := (append_iff.mp h).1

theorem right (h : Numbered (A ++ B)) : Numbered B := (append_iff.mp h).2.1

/-- A node of the second part has an identifier that no node of the first part has. -/
theorem apart (h : Numbered (A ++ B)) : ∀ b ∈ B, b.id ∉ A.map Expr.id := by
  intro b hb ha
  obtain ⟨a, ha, hab⟩ := List.mem_map.mp ha
  exact (append_iff.mp h).2.2 a ha b hb hab

theorem apart_left (h : Numbered (A ++ B)) : ∀ a ∈ A, a.id ∉ B.map Expr.id := by
  intro a ha hb
  obtain ⟨b, hb, hab⟩ := List.mem_map.mp hb
  exact (append_iff.mp h).2.2 a ha b hb hab.symm

theorem of_sublist (h : Numbered B) (hAB : List.Sublist A B) : Numbered A :=
  ⟨h.1.sublist (hAB.map _), fun x hx => h.2 x (hAB.subset hx)⟩

end Numbered

/-- The expression nodes of a module, declaration by declaration. -/
def Module.subexprs (m : Module) : List Expr := m.decls.flatMap Decl.subexprs

/-- What parsing promises of a module: its expression nodes have identifiers of their own and
literals that fit, and its declarations have identifiers of their own. -/
structure Module.Numbered (m : Module) : Prop where
  exprs : SolarFront.Numbered m.subexprs
  decls : (m.decls.map Decl.id).Nodup

namespace Module.Numbered

variable {m : Module} (h : m.Numbered)
include h

/-- The nodes of one declaration are numbered. -/
theorem decl {d : Decl} (hd : d ∈ m.decls) : SolarFront.Numbered d.subexprs :=
  h.exprs.of_sublist (List.sublist_flatten_of_mem (List.mem_map_of_mem hd))

/-- Two declarations of the module have nodes on different identifiers. -/
theorem apart {d d' : Decl} (hd : d ∈ m.decls) (hd' : d' ∈ m.decls) (hne : d ≠ d') :
    ∀ x ∈ d.subexprs, x.id ∉ d'.subexprs.map Expr.id := by
  have hnodup := h.exprs.1
  rw [Module.subexprs, List.map_flatMap, List.nodup_flatMap] at hnodup
  have : Std.Symm (Function.onFun List.Disjoint fun d : Decl => d.subexprs.map Expr.id) :=
    ⟨fun _ _ h => List.disjoint_symm h⟩
  intro x hx hx'
  exact hnodup.2.forall hd hd' hne (List.mem_map_of_mem hx) hx'

/-- Two declarations of the module on one identifier are one declaration. -/
theorem eq_of_id {d d' : Decl} (hd : d ∈ m.decls) (hd' : d' ∈ m.decls) (hid : d.id = d'.id) :
    d = d' :=
  List.inj_on_of_nodup_map h.decls hd hd' hid

end Module.Numbered

end SolarFront
