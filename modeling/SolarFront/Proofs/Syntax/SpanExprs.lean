import SolarFront.Proofs.Syntax.FuelExpr
import SolarFront.Proofs.Syntax.SpanRuns

/-!
# The nodes of the expression grammar lie where they were read

`Spans toks n` says, for every grammar function run with fuel `n` over the tokens `toks`, where
the nodes it returns lie: a function that builds a node returns one that is nested and lies,
nonempty, in the text it read (`Yields`); one that builds a list returns trees laid one after
the other there (`YieldsAll`); one handed a node to extend (the left operand of a binary tail,
the operand of a postfix tail) returns a node that lies wherever the given one began
(`Extends`); and one handed a remembered start returns a node from that start (`YieldsFrom`).

For each expression function, the step from `Spans toks n` to one level more follows the
function's text through `Parser.Wp`; every node it builds comes from `Occupies.node` or
`Occupies.after`.
-/

set_option autoImplicit false
set_option linter.all false

namespace SolarFront

namespace ParseState

/-- A state of a parse of `toks`: on one of them. -/
structure On (toks : Array Token) (s : ParseState) : Prop where
  inside : s.Inside
  tokens : s.tokens = toks

namespace On

variable {toks : Array Token} {s s' : ParseState}

theorem kept (h : s.On toks) (hk : s.Kept s') : s'.On toks :=
  ⟨hk.inside, hk.tokens.trans h.tokens⟩

theorem next (h : s.On toks) : s.next.On toks :=
  h.kept (Kept.next h.inside)

theorem lt (h : s.On toks) : s.pos < toks.size :=
  h.tokens ▸ h.inside.pos_lt

theorem deeper (h : s.On toks) (d : Nat) : ({ s with depth := d } : ParseState).On toks :=
  ⟨⟨h.inside.1, h.inside.2⟩, h.tokens⟩

theorem renumber (h : s.On toks) (k : Nat) : ({ s with nextId := k } : ParseState).On toks :=
  ⟨⟨h.inside.1, h.inside.2⟩, h.tokens⟩

theorem le_next (h : s.On toks) : s.pos ≤ s.next.pos :=
  (Kept.next h.inside).pos

theorem span (h : s.On toks) : (Parser.peekAt s 0).span = spanAt toks s.pos := by
  rw [h.inside.peek_span, h.tokens]

/-- Past a token that is not the end of file the cursor moves on, short of the last token. -/
theorem next_lt (h : s.On toks) (hk : (Parser.peekAt s 0).kind ≠ .eof) :
    s.next.pos = s.pos + 1 ∧ s.pos + 1 < toks.size :=
  ⟨pos_next hk, h.tokens ▸ h.inside.lt_pred_of_ne_eof hk⟩

end On

end ParseState

namespace Parser

open ParseState SpanTree

variable (toks : Array Token)

/-- From every state of a parse of `toks`, a successful run of `x` returns a nonempty node that
lies in the text it read. -/
def Yields {α : Type} (x : Parser α) (view : α → SpanTree) : Prop :=
  ∀ s, s.On toks → Wp x s fun a s' => Occupies toks s.pos (view a) s'.pos

/-- From every state of a parse of `toks`, a successful run of `x` returns trees laid one after
the other in the text it read. -/
def YieldsAll {α : Type} (x : Parser α) (view : α → List SpanTree) : Prop :=
  ∀ s, s.On toks → Wp x s fun a s' => LaidAll toks s.pos (view a) s'.pos

/-- A successful run of `x` extends the node `t`: read from any `p` up to where `x` starts, it
gives a node read from `p` up to where `x` ends. -/
def Extends {α : Type} (x : Parser α) (t : SpanTree) (view : α → SpanTree) : Prop :=
  ∀ s, s.On toks → Wp x s fun a s' => ∀ p, Occupies toks p t s.pos → Occupies toks p (view a) s'.pos

/-- A successful run of `x` returns a node that starts at `start`, the span of a token at or
before where `x` starts. -/
def YieldsFrom {α : Type} (x : Parser α) (start : Span) (view : α → SpanTree) : Prop :=
  ∀ s, s.On toks → Wp x s fun a s' =>
    ∀ p ≤ s.pos, start = spanAt toks p → Occupies toks p (view a) s'.pos

/-- Where every grammar function's nodes lie, run with fuel `n` over the tokens `toks`. -/
structure Spans (n : Nat) : Prop where
  expr : Yields toks (parseExpr n) Expr.spanTree
  commaTail : ∀ s, s.On toks → Wp (parseCommaTail n) s fun es s' =>
    LaidAll toks s.next.pos (es.map Expr.spanTree) s'.pos ∧
      ((peekAt s 0).kind = .comma → s.pos < s'.pos)
  assign : Yields toks (parseAssign n) Expr.spanTree
  ternary : Yields toks (parseTernary n) Expr.spanTree
  binary : ∀ minPrec, Yields toks (parseBinary n minPrec) Expr.spanTree
  binaryTail : ∀ minPrec left,
    Extends toks (parseBinaryTail n minPrec left) left.spanTree Expr.spanTree
  unary : Yields toks (parsePrefix n) Expr.spanTree
  sizeof : Yields toks (parseSizeof n) Expr.spanTree
  operand : Yields toks (parsePostfix n) Expr.spanTree
  operandTail : ∀ e, Extends toks (parsePostfixTail n e) e.spanTree Expr.spanTree
  callArgs : YieldsAll toks (parseCallArgs n) (·.map Expr.spanTree)
  argList : YieldsAll toks (parseArgList n) (·.map Expr.spanTree)
  primary : Yields toks (parsePrimary n) Expr.spanTree
  stringTail : ∀ enc first acc s, s.Inside → Wp (parseStringTail n enc first acc) s fun _ _ => True
  type : Yields toks (parseType n) TypeExpr.spanTree
  typeInner : Yields toks (parseTypeInner n) TypeExpr.spanTree
  funType : YieldsAll toks (parseFunType n) TypeExprKind.spanTrees
  typeParams : YieldsAll toks (parseTypeParams n) (·.1.map TypeExpr.spanTree)
  returnType : ∀ s, s.On toks → Wp (parseReturnType n) s fun t s' =>
    Occupies toks s.pos t.spanTree s'.pos ∨
      (t.spanTree = .node .type (Span.point (lastRead toks s.pos).stop) [] ∧ s'.pos = s.pos)
  recordBody : YieldsAll toks (parseRecordBody n) (·.map (·.ty.spanTree))
  members : YieldsAll toks (parseMembers n) (·.map (·.ty.spanTree))
  block : Yields toks (parseBlock n) Stmt.spanTree
  blockItems : ∀ open_, YieldsAll toks (parseBlockItems n open_) (·.map Stmt.spanTree)
  stmt : Yields toks (parseStmt n) Stmt.spanTree
  stmtInner : Yields toks (parseStmtInner n) Stmt.spanTree
  keywordStmt : ∀ label start,
    YieldsFrom toks (parseKeywordStmt n label start) start Stmt.spanTree
  condition : Yields toks (parseCondition n) Expr.spanTree
  elseBranch : YieldsAll toks (parseElse n) (·.toList.map Stmt.spanTree)
  optionalExpr : ∀ terminator,
    YieldsAll toks (parseOptionalExpr n terminator) (·.toList.map Expr.spanTree)
  init : Yields toks (parseInit n) Expr.spanTree
  initInner : Yields toks (parseInitInner n) Expr.spanTree
  elements : YieldsAll toks (parseElements n) (·.map Expr.spanTree)
  fieldInits : YieldsAll toks (parseFieldInits n) (·.map (·.value.spanTree))
  fieldList : ∀ seen, YieldsAll toks (parseFieldList n seen) (·.map (·.value.spanTree))
  decl : Yields toks (parseDecl n) Decl.spanTree
  localDecl : Yields toks (parseLocalDecl n) Decl.spanTree
  declBody : ∀ head, YieldsFrom toks (parseDeclBody n head) head.start Decl.spanTree
  function : ∀ head, YieldsFrom toks (parseFun n head) head.start Decl.spanTree
  params : YieldsAll toks (parseParams n) (·.2.1.map TypeExpr.spanTree)

variable {toks}

/-! ## Reading the grammar's steps -/

section Steps

variable {α β : Type} {toks : Array Token} {s : ParseState} {Q : β → ParseState → Prop}

theorem Yields.bind {x : Parser α} {view : α → SpanTree} {k : α → Parser β}
    (hx : Yields toks x view) (hs : s.On toks)
    (hk : ∀ a s₁, s.Kept s₁ → Occupies toks s.pos (view a) s₁.pos → Wp (k a) s₁ Q) :
    Wp (x >>= k) s Q :=
  Wp.bind ((hx s hs).mono hk)

theorem YieldsAll.bind {x : Parser α} {view : α → List SpanTree} {k : α → Parser β}
    (hx : YieldsAll toks x view) (hs : s.On toks)
    (hk : ∀ a s₁, s.Kept s₁ → LaidAll toks s.pos (view a) s₁.pos → Wp (k a) s₁ Q) :
    Wp (x >>= k) s Q :=
  Wp.bind ((hx s hs).mono hk)

/-- Nesting leaves where a node lies unchanged. -/
theorem Yields.nested {x : Parser α} {view : α → SpanTree} (hx : Yields toks x view) :
    Yields toks (nested x) view := fun _ hs =>
  Wp.nested hs.inside ((hx _ (hs.deeper _)).mono fun _ _ _ h => h)

/-- An expression node built after reading up to `s`, read from `p`. -/
theorem Wp.mkExpr_occupies {kind : ExprKind} {start : Span} {p : Nat} (hs : s.On toks)
    (h : Occupies toks p (.node .expr (start.merge (lastRead toks s.pos)) kind.spanTrees) s.pos) :
    Wp (Parser.mkExpr kind start) s fun (e : Expr) s' => Occupies toks p e.spanTree s'.pos :=
  Wp.mkExpr hs.inside fun e s' _ hpos he => by
    show Occupies toks p e.spanTree s'.pos
    rw [hpos, he, hs.tokens]
    exact h

/-- A condition whose two arms go on the same way. -/
theorem Wp.ite_bind {c : Prop} [Decidable c] {x y : Parser α} {k : α → Parser β}
    {P : α → ParseState → Prop} (hx : c → Wp x s P) (hy : ¬c → Wp y s P)
    (hk : ∀ a s₁, s.Kept s₁ → P a s₁ → Wp (k a) s₁ Q) :
    Wp (if c then x >>= k else y >>= k) s Q :=
  Wp.ite (fun hc => Wp.bind ((hx hc).mono hk)) fun hc => Wp.bind ((hy hc).mono hk)

/-- `if ← eat t then x else y`, where both arms go on the same way. -/
theorem Wp.eat_ite_bind {t : TokenKind} {x y : Parser α} {k : α → Parser β}
    {P : α → ParseState → Prop} (hs : s.Inside) (hx : (peekAt s 0).kind = t → Wp x s.next P)
    (hy : (peekAt s 0).kind ≠ t → Wp y s P) (hk : ∀ a s₁, s.Kept s₁ → P a s₁ → Wp (k a) s₁ Q) :
    Wp (eat t >>= fun b => if b = true then x >>= k else y >>= k) s Q :=
  Wp.eat_ite hs (fun h => Wp.bind ((hx h).mono fun a s₁ hk₁ hP =>
    hk a s₁ ((Kept.next hs).trans hk₁) hP)) fun h => Wp.bind ((hy h).mono hk)

/-- A type node built after reading up to `s`, read from `p`. -/
theorem Wp.typeNode {start : Span} {volatile : Bool} {kind : TypeExprKind} {p : Nat}
    (hs : s.On toks)
    (h : Occupies toks p (.node .type (start.merge (lastRead toks s.pos)) kind.spanTrees) s.pos) :
    Wp (do let span ← Parser.spanFrom start; return TypeExpr.mk (← Parser.freshId) span volatile kind)
      s fun t s' => Occupies toks p t.spanTree s'.pos := by
  refine Wp.spanFrom_bind hs.inside (Wp.freshId_bind hs.inside (Wp.pure (hs.renumber _).inside ?_))
  show Occupies toks p (.node .type (start.merge (lastRead s.tokens s.pos)) kind.spanTrees) s.pos
  rw [hs.tokens]
  exact h

/-- An expression node handed on to a tail that extends it, read from any `p` the node can be
read from. -/
theorem Wp.mkExpr_extends {kind : ExprKind} {start : Span} {tail : Expr → Parser Expr}
    {P : Nat → Prop} (hs : s.On toks) (htail : ∀ e, Extends toks (tail e) e.spanTree Expr.spanTree)
    (h : ∀ p, P p →
      Occupies toks p (.node .expr (start.merge (lastRead toks s.pos)) kind.spanTrees) s.pos) :
    Wp (Parser.mkExpr kind start >>= tail) s fun a s' =>
      ∀ p, P p → Occupies toks p a.spanTree s'.pos :=
  Wp.bind (Wp.mkExpr hs.inside fun e s' hk hpos he =>
    (htail e s' (hs.kept hk)).mono fun _ _ _ ha p hp => ha p (by
      rw [hpos, he, hs.tokens]
      exact h p hp))

end Steps

@[simp] theorem Infix.spanTrees_node (op : Infix) (l r : Expr) :
    (op.node l r).spanTrees = [l.spanTree, r.spanTree] := by
  cases op <;> rfl

@[simp] theorem Prefix.spanTrees_node (op : Prefix) (e : Expr) :
    (op.node e).spanTrees = [e.spanTree] := by
  cases op <;> rfl

theorem Occupies.widen {toks : Array Token} (ho : InOrder toks) {p p' q q' : Nat} {t : SpanTree}
    (h : Occupies toks p t q) (hp : p' ≤ p) (hq : q ≤ q') (hp₁ : p < toks.size)
    (hq' : q' ≤ toks.size) : Occupies toks p' t q' :=
  ⟨h.1.widen ho hp hq hp₁ hq', h.2⟩

/-- A nonempty tree read before `r` ends with the last token read, after its own start. -/
theorem Occupies.merge_lastRead {toks : Array Token} (ho : InOrder toks) {p q r : Nat}
    {t : SpanTree} (h : Occupies toks p t q) (hqr : q < r) (hr : r < toks.size) :
    t.span.merge (lastRead toks r) = ⟨t.span.start, (lastRead toks r).stop⟩ := by
  have := h.1.stop
  have := h.2
  have := ho.readEnd_le_start (show q < toks.size by omega)
  have := ho.start_le_lastRead hqr hr
  have := ho.start_lt_readEnd hqr hr
  exact Span.merge_of_le (by omega) (by omega)

theorem Occupies.lt_pos {toks : Array Token} (ho : InOrder toks) {p q : Nat} {t : SpanTree}
    (h : Occupies toks p t q) (hp : p < toks.size) : p < q :=
  ho.lt_of_start_lt_readEnd hp (by have := h.1.start; have := h.1.stop; have := h.2; omega)

/-- A signature's parameter types, read up to the closing parenthesis at `s`, then its return
type: read after the parenthesis, or the empty type at the parenthesis's end. -/
theorem LaidAll.signature {toks : Array Token} (ho : InOrder toks) {p : Nat}
    {tys : List SpanTree} {ret : SpanTree} {s s' : ParseState} (hs : s.On toks)
    (hne : (peekAt s 0).kind ≠ .eof) (hk : s.next.Kept s') (hps : LaidAll toks p tys s.pos)
    (hp : p ≤ s.pos)
    (hret : Occupies toks s.next.pos ret s'.pos ∨
      (ret = .node .type (Span.point (lastRead toks s.next.pos).stop) [] ∧ s'.pos = s.next.pos)) :
    LaidAll toks p (tys ++ [ret]) s'.pos := by
  have hnext := (hs.next_lt hne).1
  have hs' := hs.next.kept hk
  have := hk.pos
  rcases hret with hret | ⟨rfl, hpos⟩
  · exact LaidAll.append ho hps (.single hret.1) (by omega) (by omega) (by omega) hs.next.lt
      hs'.lt
  · rw [hpos]
    exact LaidAll.append ho hps (.single (Laid.void ho (p := s.pos) (by omega) hs.next.lt))
      hp le_rfl (by omega) hs.lt hs.next.lt

theorem TypeExprKind.spanTrees_array (inner : TypeExpr) (size : Option Expr) :
    (TypeExprKind.array inner size).spanTrees = (size.map Expr.spanTree).toList ++ [inner.spanTree] := by
  cases size <;> rfl

/-- A run of trees that starts with one tree. -/
theorem LaidAll.cons {toks : Array Token} (ho : InOrder toks) {p p' q r : Nat} {t : SpanTree}
    {ts : List SpanTree} (h₁ : Laid toks p t q) (h₂ : LaidAll toks p' ts r) (hp : p ≤ p')
    (hq : q ≤ p') (hqr : q ≤ r) (hp' : p' < toks.size) (hr : r < toks.size) :
    LaidAll toks p (t :: ts) r :=
  LaidAll.append ho (.single h₁) h₂ hp hq hqr hp' hr

/-- With no fuel every grammar function fails where it starts. -/
theorem spans_zero : Spans toks 0 := by
  constructor <;> intros <;> simp only [Yields, YieldsAll, Extends, YieldsFrom, parseExpr,
    parseCommaTail, parseAssign, parseTernary, parseBinary, parseBinaryTail, parsePrefix,
    parseSizeof, parsePostfix, parsePostfixTail, parseCallArgs, parseArgList, parsePrimary,
    parseStringTail, parseType, parseTypeInner, parseFunType, parseTypeParams, parseReturnType,
    parseRecordBody, parseMembers, parseBlock, parseBlockItems, parseStmt, parseStmtInner,
    parseKeywordStmt, parseCondition, parseElse, parseOptionalExpr, parseInit, parseInitInner,
    parseElements, parseFieldInits, parseFieldList, parseDecl, parseLocalDecl, parseDeclBody,
    parseFun, parseParams] <;> intros <;>
    first | exact Wp.exhausted (On.inside ‹_›) | exact Wp.exhausted ‹_›


/-! ## The expression grammar -/

namespace Spans

variable {n : Nat} (ho : InOrder toks)
include ho

theorem expr_step (h : Spans toks n) : Yields toks (parseExpr (n + 1)) Expr.spanTree := by
  intro s hs
  simp only [parseExpr]
  refine h.assign.bind hs fun first s₁ hk₁ hfirst => ?_
  have hs₁ := hs.kept hk₁
  refine Wp.check_bind hs₁.inside (Wp.ite (fun _ => Wp.pure hs₁.inside hfirst) fun hc => ?_)
  have hcomma : (peekAt s₁ 0).kind = .comma := by simpa using hc
  refine Wp.bind ((h.commaTail s₁ hs₁).mono fun rest s₂ hk₂ htail => ?_)
  obtain ⟨hrest, hmoved⟩ := htail
  have hs₂ := hs₁.kept hk₂
  have := hmoved hcomma
  have := (hs₁.next_lt (by rw [hcomma]; decide)).1
  refine Wp.mkExpr_occupies hs₂ ?_
  simp only [ExprKind.spanTrees, Expr.spanTreesOf_eq, List.map_cons]
  exact Occupies.after ho hfirst (by simp) (by simp) (by omega) (by omega) le_rfl hs₁.next.lt
    hs₂.lt hrest

theorem commaTail_step (h : Spans toks n) : ∀ s, s.On toks →
    Wp (parseCommaTail (n + 1)) s fun es s' =>
      LaidAll toks s.next.pos (es.map Expr.spanTree) s'.pos ∧
        ((peekAt s 0).kind = .comma → s.pos < s'.pos) := by
  intro s hs
  simp only [parseCommaTail]
  refine Wp.eat_ite hs.inside (fun hc => ?_) fun hc =>
    Wp.pure hs.inside ⟨LaidAll.nil, fun h => absurd h hc⟩
  have hnext := (hs.next_lt (by rw [hc]; decide)).1
  refine h.assign.bind hs.next fun e s₁ hk₁ he => ?_
  have hs₁ := hs.next.kept hk₁
  refine Wp.bind ((h.commaTail s₁ hs₁).mono fun rest s₂ hk₂ htail => ?_)
  have hrest := htail.1
  have := hk₁.pos
  have := hk₂.pos
  have := hs₁.le_next
  refine Wp.pure (hs₁.kept hk₂).inside ⟨?_, fun _ => by omega⟩
  exact LaidAll.cons ho he.1 hrest (by omega) (by omega) (by omega) hs₁.next.lt
    (hs₁.kept hk₂).lt

theorem assign_step (h : Spans toks n) : Yields toks (parseAssign (n + 1)) Expr.spanTree := by
  intro s hs
  simp only [parseAssign]
  refine h.ternary.bind hs fun target s₁ hk₁ htarget => ?_
  have hs₁ := hs.kept hk₁
  refine Wp.currentKind_bind hs₁.inside
    (Wp.ite (fun _ => Wp.pure hs₁.inside htarget) fun hk => ?_)
  have hnext := (hs₁.next_lt (ne_eof_of_isAssign (by simpa using hk))).1
  refine Wp.advance_bind hs₁.inside (h.assign.nested.bind hs₁.next fun value s₂ hk₂ hvalue => ?_)
  have hs₂ := hs₁.next.kept hk₂
  have := hk₂.pos
  exact Wp.mkExpr_occupies hs₂ (Occupies.after ho htarget (by simp) (by simp) (by omega)
    (by omega) le_rfl hs₁.next.lt hs₂.lt (.single hvalue.1))

theorem ternary_step (h : Spans toks n) : Yields toks (parseTernary (n + 1)) Expr.spanTree := by
  intro s hs
  simp only [parseTernary]
  refine (h.binary 1).bind hs fun c s₁ hk₁ hc => ?_
  have hs₁ := hs.kept hk₁
  refine Wp.eat_not_ite hs₁.inside (fun hq => ?_) fun _ => Wp.pure hs₁.inside hc
  have hnext₁ := (hs₁.next_lt (by rw [hq]; decide)).1
  refine h.expr.nested.bind hs₁.next fun t s₂ hk₂ ht => ?_
  have hs₂ := hs₁.next.kept hk₂
  refine Wp.expect_bind hs₂.inside fun hcolon => ?_
  have hnext₂ := (hs₂.next_lt (by rw [hcolon]; decide)).1
  refine h.ternary.nested.bind hs₂.next fun e s₃ hk₃ he => ?_
  have hs₃ := hs₂.next.kept hk₃
  have := hk₂.pos
  have := hk₃.pos
  have hte : LaidAll toks s₁.next.pos [t.spanTree, e.spanTree] s₃.pos :=
    LaidAll.cons ho ht.1 (.single he.1) (by omega) (by omega) (by omega) hs₂.next.lt hs₃.lt
  exact Wp.mkExpr_occupies hs₃ (Occupies.after ho hc (by simp) (by simp) (by omega) (by omega)
    le_rfl hs₁.next.lt hs₃.lt hte)

omit ho in
theorem binary_step (h : Spans toks n) (minPrec : Nat) :
    Yields toks (parseBinary (n + 1) minPrec) Expr.spanTree := by
  intro s hs
  simp only [parseBinary]
  refine h.unary.bind hs fun left s₁ hk₁ hleft => ?_
  exact (h.binaryTail minPrec left s₁ (hs.kept hk₁)).mono fun _ _ _ ha => ha s.pos hleft

theorem binaryTail_step (h : Spans toks n) (minPrec : Nat) (left : Expr) :
    Extends toks (parseBinaryTail (n + 1) minPrec left) left.spanTree Expr.spanTree := by
  intro s hs
  simp only [parseBinaryTail]
  refine Wp.currentKind_bind hs.inside ?_
  split
  · next prec op hop =>
    refine Wp.ite (fun _ => Wp.pure hs.inside fun _ hp => hp) fun _ => ?_
    have hnext := (hs.next_lt (ne_eof_of_infixOp hop)).1
    refine Wp.advance_bind hs.inside
      ((h.binary _).nested.bind hs.next fun right s₁ hk₁ hright => ?_)
    have hs₁ := hs.next.kept hk₁
    have := hk₁.pos
    -- the node is built once, but lies wherever the left operand began
    refine Wp.mkExpr_extends hs₁ (h.binaryTail minPrec) fun p hp => ?_
    rw [Infix.spanTrees_node]
    exact Occupies.after ho hp (by simp) (by simp) (by omega) (by omega) le_rfl hs.next.lt hs₁.lt
      (.single hright.1)
  · exact Wp.pure hs.inside fun _ hp => hp

theorem unary_step (h : Spans toks n) : Yields toks (parsePrefix (n + 1)) Expr.spanTree := by
  intro s hs
  simp only [parsePrefix]
  refine Wp.check_bind hs.inside (Wp.ite (fun _ => h.sizeof s hs) fun _ => ?_)
  refine Wp.currentKind_bind hs.inside ?_
  split
  · exact h.operand s hs
  · next op hop =>
    have hnext := (hs.next_lt (ne_eof_of_prefixOp hop)).1
    refine Wp.advance_bind hs.inside
      (h.unary.nested.bind hs.next fun operand s₁ hk₁ hoperand => ?_)
    have hs₁ := hs.next.kept hk₁
    have := hk₁.pos
    rw [hs.span]
    exact Wp.mkExpr_occupies hs₁ (by
      rw [Prefix.spanTrees_node]
      exact Occupies.node ho (by omega) hk₁.pos le_rfl (by omega) hs₁.lt (.inl (by omega))
        (.single hoperand.1))

theorem sizeof_step (h : Spans toks n) : Yields toks (parseSizeof (n + 1)) Expr.spanTree := by
  intro s hs
  simp only [parseSizeof]
  refine Wp.expect_bind hs.inside fun hk => ?_
  have hnext := (hs.next_lt (by rw [hk]; decide)).1
  rw [hs.span]
  refine Wp.get_bind hs.next.inside
    (Wp.check_bind hs.next.inside (Wp.ite (fun hc => ?_) fun _ => ?_))
  · -- `sizeof (type)`
    have hparen : (peekAt s.next 0).kind = .lParen := by
      simp only [Bool.and_eq_true, beq_iff_eq] at hc
      exact hc.1
    have hnext₁ := (hs.next.next_lt (by rw [hparen]; decide)).1
    refine Wp.advance_bind hs.next.inside (h.type.bind hs.next.next fun ty s₁ hk₁ hty => ?_)
    have hs₁ := hs.next.next.kept hk₁
    refine Wp.expect_bind hs₁.inside fun hr => ?_
    have hnext₂ := (hs₁.next_lt (by rw [hr]; decide)).1
    have := hk₁.pos
    exact Wp.mkExpr_occupies hs₁.next (Occupies.node ho (by omega) (by omega) (by omega)
      (by omega) hs₁.next.lt (.inl (by omega)) (.single hty.1))
  · -- `sizeof` of an operand
    refine h.unary.nested.bind hs.next fun e s₁ hk₁ he => ?_
    have hs₁ := hs.next.kept hk₁
    have := hk₁.pos
    exact Wp.mkExpr_occupies hs₁ (Occupies.node ho (by omega) hk₁.pos le_rfl (by omega) hs₁.lt
      (.inl (by omega)) (.single he.1))

omit ho in
theorem operand_step (h : Spans toks n) : Yields toks (parsePostfix (n + 1)) Expr.spanTree := by
  intro s hs
  simp only [parsePostfix]
  refine h.primary.bind hs fun e s₁ hk₁ he => ?_
  exact (h.operandTail e s₁ (hs.kept hk₁)).mono fun _ _ _ ha => ha s.pos he

theorem operandTail_step (h : Spans toks n) (e : Expr) :
    Extends toks (parsePostfixTail (n + 1) e) e.spanTree Expr.spanTree := by
  intro s hs
  simp only [parsePostfixTail]
  refine Wp.currentKind_bind hs.inside ?_
  -- every suffix starts with a token of its own, which the new node covers
  split
  · next hk =>
    have hnext := (hs.next_lt (by rw [hk]; decide)).1
    refine Wp.advance_bind hs.inside (h.callArgs.bind hs.next fun args s₁ hk₁ hargs => ?_)
    have hs₁ := hs.next.kept hk₁
    have := hk₁.pos
    refine Wp.mkExpr_extends hs₁ h.operandTail fun p hp => ?_
    simp only [ExprKind.spanTrees, Expr.spanTreesOf_eq]
    exact Occupies.after ho hp (by simp) (by simp) (by omega) (by omega) le_rfl hs.next.lt hs₁.lt
      hargs
  · next hk =>
    have hnext := (hs.next_lt (by rw [hk]; decide)).1
    refine Wp.advance_bind hs.inside (h.expr.nested.bind hs.next fun i s₁ hk₁ hi => ?_)
    have hs₁ := hs.next.kept hk₁
    refine Wp.expect_bind hs₁.inside fun hr => ?_
    have hnext₁ := (hs₁.next_lt (by rw [hr]; decide)).1
    have := hk₁.pos
    refine Wp.mkExpr_extends hs₁.next h.operandTail fun p hp => ?_
    exact Occupies.after ho hp (by simp) (by simp) (by omega) (by omega) (by omega) hs.next.lt
      hs₁.next.lt (.single hi.1)
  · next hk =>
    have hnext := (hs.next_lt (by rw [hk]; decide)).1
    refine Wp.advance_bind hs.inside (Wp.expectIdent_bind hs.next.inside fun m hid => ?_)
    have hnext₁ := (hs.next.next_lt (by rw [hid]; decide)).1
    refine Wp.mkExpr_extends hs.next.next h.operandTail fun p hp => ?_
    exact Occupies.after ho hp (by simp) (by simp) (by omega) (by omega) le_rfl hs.next.lt
      hs.next.next.lt (LaidAll.nil (q := s.next.next.pos))
  · next hk =>
    -- `p->m` is the member of a dereference that covers the arrow
    have hnext := (hs.next_lt (by rw [hk]; decide)).1
    refine Wp.advance_bind hs.inside
      (Wp.bind (Wp.mkExpr hs.next.inside fun r s₁ hk₁ hpos₁ hr => ?_))
    have hs₁ := hs.next.kept hk₁
    refine Wp.expectIdent_bind hs₁.inside fun m hid => ?_
    have hnext₁ := (hs₁.next_lt (by rw [hid]; decide)).1
    refine Wp.mkExpr_extends hs₁.next h.operandTail fun p hp => ?_
    have hderef : Occupies toks p r.spanTree s.next.pos := by
      rw [hr, hs.next.tokens]
      exact Occupies.after ho hp (by simp) (by simp) (by omega) (by omega) le_rfl hs.next.lt
        hs.next.lt (LaidAll.nil (q := s.next.pos))
    have hspan : r.span = ⟨e.span.start, (lastRead toks s.next.pos).stop⟩ := by
      rw [← Expr.spanTree_span, hr, hs.next.tokens, span_node, ← Expr.spanTree_span]
      exact Occupies.merge_lastRead ho hp (by omega) hs.next.lt
    have : e.span.stop ≤ (lastRead toks s.pos).stop := by simpa using hp.1.stop
    have := ho.readEnd_mono (show s.pos ≤ s.next.pos by omega) hs.next.lt.le
    exact Occupies.after ho hderef (by simp [hspan]) (by simp [hspan]; omega) (by omega)
      (by omega) le_rfl hs₁.next.lt hs₁.next.lt (LaidAll.nil (q := s₁.next.pos))
  pick_goal 3
  · exact Wp.pure hs.inside fun _ hp => hp
  -- the two cast keywords share their arm
  all_goals
    rename_i hk
    have hnext := (hs.next_lt (by rw [hk]; decide)).1
    refine Wp.advance_bind hs.inside (h.type.bind hs.next fun ty s₁ hk₁ hty => ?_)
    have hs₁ := hs.next.kept hk₁
    have := hk₁.pos
    refine Wp.mkExpr_extends hs₁ h.operandTail fun p hp => ?_
    exact Occupies.after ho hp (by simp) (by simp) (by omega) (by omega) le_rfl hs.next.lt hs₁.lt
      (.single hty.1)

theorem callArgs_step (h : Spans toks n) :
    YieldsAll toks (parseCallArgs (n + 1)) (·.map Expr.spanTree) := by
  intro s hs
  simp only [parseCallArgs]
  refine Wp.eat_ite hs.inside (fun _ => Wp.pure hs.next.inside LaidAll.nil) fun _ => ?_
  refine h.argList.bind hs fun args s₁ hk₁ hargs => ?_
  have hs₁ := hs.kept hk₁
  refine Wp.expect_bind hs₁.inside fun _ => Wp.pure hs₁.next.inside ?_
  exact hargs.widen ho le_rfl hs₁.le_next hs.lt hs₁.next.lt.le

theorem argList_step (h : Spans toks n) :
    YieldsAll toks (parseArgList (n + 1)) (·.map Expr.spanTree) := by
  intro s hs
  simp only [parseArgList]
  refine h.assign.nested.bind hs fun a s₁ hk₁ ha => ?_
  have hs₁ := hs.kept hk₁
  refine Wp.eat_ite hs₁.inside (fun hc => ?_) fun _ => Wp.pure hs₁.inside (.single ha.1)
  refine h.argList.bind hs₁.next fun rest s₂ hk₂ hrest => ?_
  have hs₂ := hs₁.next.kept hk₂
  have := hk₁.pos
  have := hk₂.pos
  have := hs₁.le_next
  exact Wp.pure hs₂.inside (LaidAll.cons ho ha.1 hrest (by omega) (by omega) (by omega)
    hs₁.next.lt hs₂.lt)

theorem primary_step (h : Spans toks n) : Yields toks (parsePrimary (n + 1)) Expr.spanTree := by
  intro s hs
  simp only [parsePrimary]
  refine Wp.current_bind hs.inside ?_
  rw [hs.span]
  split
  · next hk _ =>
    have hnext := (hs.next_lt (by rw [hk]; decide)).1
    exact Wp.advance_bind hs.inside (Wp.mkExpr_occupies hs.next (Occupies.node ho le_rfl
      (by omega) (by omega) (by omega) hs.next.lt (.inr (by omega)) (LaidAll.nil (q := s.pos))))
  · next hk _ =>
    have hnext := (hs.next_lt (by rw [hk]; decide)).1
    exact Wp.advance_bind hs.inside (Wp.mkExpr_occupies hs.next (Occupies.node ho le_rfl
      (by omega) (by omega) (by omega) hs.next.lt (.inr (by omega)) (LaidAll.nil (q := s.pos))))
  · next hk _ =>
    have hnext := (hs.next_lt (by rw [hk]; decide)).1
    refine Wp.advance_bind hs.inside (Wp.bind ((h.stringTail _ _ _ _ hs.next.inside).mono
      fun units s₁ hk₁ _ => ?_))
    have hs₁ := hs.next.kept hk₁
    have := hk₁.pos
    exact Wp.mkExpr_occupies hs₁ (Occupies.node ho le_rfl (by omega) (by omega) (by omega)
      hs₁.lt (.inr (by omega)) (LaidAll.nil (q := s.pos)))
  · next hk =>
    -- a parenthesized expression is its inner node, read from the parenthesis
    have hnext := (hs.next_lt (by rw [hk]; decide)).1
    refine Wp.advance_bind hs.inside (h.expr.nested.bind hs.next fun inner s₁ hk₁ hinner => ?_)
    have hs₁ := hs.next.kept hk₁
    refine Wp.expect_bind hs₁.inside fun _ => Wp.pure hs₁.next.inside ?_
    exact Occupies.widen ho hinner (by omega) hs₁.le_next hs.next.lt hs₁.next.lt.le
  · exact Wp.throw hs.inside _

omit ho in
theorem stringTail_step (h : Spans toks n) (enc : Encoding) (first : Span) (acc : List Nat)
    (s : ParseState) (hs : s.Inside) :
    Wp (parseStringTail (n + 1) enc first acc) s fun _ _ => True := by
  simp only [parseStringTail]
  refine Wp.check_bind hs (Wp.ite (fun _ => ?_) fun _ => Wp.pure hs trivial)
  have hs₁ := (Kept.next hs).inside
  refine Wp.advance_bind hs ?_
  split
  · refine Wp.ite (fun _ => h.stringTail _ _ _ _ hs₁) fun _ => ?_
    exact Wp.keeps_bind (Keeps.report _) hs₁ fun _ s₂ hk₂ => h.stringTail _ _ _ _ hk₂.inside
  · exact h.stringTail _ _ _ _ hs₁

/-! ## The type grammar -/

omit ho in
theorem type_step (h : Spans toks n) : Yields toks (parseType (n + 1)) TypeExpr.spanTree := by
  simp only [parseType]
  exact h.typeInner.nested

theorem typeInner_step (h : Spans toks n) :
    Yields toks (parseTypeInner (n + 1)) TypeExpr.spanTree := by
  intro s hs
  simp only [parseTypeInner]
  refine Wp.currentSpan_bind hs.inside (Wp.get_bind hs.inside
    (Wp.keeps_bind (Keeps.eatRun _ _) hs.inside fun volatile s₀ hk₀ => ?_))
  have hs₀ := hs.kept hk₀
  rw [hs.tokens]
  -- every arm reads a token of its own before what the type holds
  have finish : ∀ kind s₁, (peekAt s₀ 0).kind ≠ .eof → s₀.next.Kept s₁ →
      LaidAll toks s₀.next.pos kind.spanTrees s₁.pos →
      Wp (do let span ← Parser.spanFrom (spanAt toks s.pos)
             return TypeExpr.mk (← Parser.freshId) span volatile kind) s₁
        fun t s' => Occupies toks s.pos t.spanTree s'.pos := by
    intro kind s₁ hne hk₁ hkind
    have := (hs₀.next_lt hne).1
    have := hk₀.pos
    have := hk₁.pos
    exact Wp.typeNode (hs₀.next.kept hk₁) (Occupies.node ho (by omega) hk₁.pos le_rfl (by omega)
      (hs₀.next.kept hk₁).lt (.inl (by omega)) hkind)
  refine Wp.currentKind_bind hs₀.inside ?_
  split
  iterate 3
    · next hk =>
      exact Wp.advance_bind hs₀.inside (Wp.bind (Wp.pure hs₀.next.inside
        (finish _ _ (by rw [hk]; decide) (Kept.refl hs₀.next.inside) LaidAll.nil)))
  · exact Wp.expectIdent_bind hs₀.inside fun _ hid => Wp.bind (Wp.pure hs₀.next.inside
      (finish _ _ (by rw [hid]; decide) (Kept.refl hs₀.next.inside) LaidAll.nil))
  · next hk =>
    exact Wp.advance_bind hs₀.inside (h.type.bind hs₀.next fun inner s₁ hk₁ hinner =>
      Wp.bind (Wp.pure (hs₀.next.kept hk₁).inside
        (finish _ _ (by rw [hk]; decide) hk₁ (.single hinner.1))))
  · next hk =>
    -- an array's size, if any, then its element type
    refine Wp.advance_bind hs₀.inside (Wp.check_bind hs₀.next.inside (Wp.ite_bind
      (P := fun size s₁ => LaidAll toks s₀.next.pos (size.map Expr.spanTree).toList s₁.pos)
      (fun _ => Wp.pure hs₀.next.inside LaidAll.nil)
      (fun _ => Wp.map ((h.expr s₀.next hs₀.next).mono fun _ _ _ he => .single he.1))
      fun size s₁ hk₁ hsize => ?_))
    have hs₁ := hs₀.next.kept hk₁
    refine Wp.expect_bind hs₁.inside fun hr => ?_
    refine h.type.bind hs₁.next fun inner s₂ hk₂ hinner => ?_
    have hs₂ := hs₁.next.kept hk₂
    refine Wp.bind (Wp.pure hs₂.inside
      (finish _ _ (by rw [hk]; decide) (hk₁.trans ((Kept.next hs₁.inside).trans hk₂)) ?_))
    have := hk₁.pos
    have := hk₂.pos
    have := hs₁.le_next
    rw [TypeExprKind.spanTrees_array]
    exact LaidAll.append ho hsize (.single hinner.1) (by omega) (by omega) (by omega)
      hs₁.next.lt hs₂.lt
  · next hk =>
    exact Wp.advance_bind hs₀.inside (h.funType.bind hs₀.next fun _ _ hk₁ hkind =>
      finish _ _ (by rw [hk]; decide) hk₁ hkind)
  iterate 2
    · next hk =>
      refine Wp.advance_bind hs₀.inside (h.recordBody.bind hs₀.next fun ms s₁ hk₁ hms => ?_)
      refine Wp.bind (Wp.pure (hs₀.next.kept hk₁).inside
        (finish _ _ (by rw [hk]; decide) hk₁ ?_))
      simpa only [TypeExprKind.spanTrees, MemberDecl.spanTreesOf_eq] using hms
  · next hk =>
    refine Wp.advance_bind hs₀.inside (Wp.expect_bind hs₀.next.inside fun hl => ?_)
    refine h.expr.bind hs₀.next.next fun e s₁ hk₁ he => ?_
    have hs₁ := hs₀.next.next.kept hk₁
    refine Wp.expect_bind hs₁.inside fun _ => Wp.bind (Wp.pure hs₁.next.inside
      (finish _ _ (by rw [hk]; decide) (((Kept.next hs₀.next.inside).trans hk₁).trans
        (Kept.next hs₁.inside)) ?_))
    exact .single (he.1.widen ho hs₀.next.le_next hs₁.le_next hs₀.next.next.lt hs₁.next.lt.le)
  · exact Wp.currentSpan_bind hs₀.inside (Wp.bind (Wp.throw hs₀.inside _))

theorem funType_step (h : Spans toks n) :
    YieldsAll toks (parseFunType (n + 1)) TypeExprKind.spanTrees := by
  intro s hs
  simp only [parseFunType]
  refine Wp.expect_bind hs.inside fun hl => ?_
  have hnext := (hs.next_lt (by rw [hl]; decide)).1
  refine Wp.check_bind hs.next.inside (Wp.ite_bind
    (P := fun ps s₁ => LaidAll toks s.next.pos (ps.1.map TypeExpr.spanTree) s₁.pos)
    (fun _ => Wp.pure hs.next.inside LaidAll.nil) (fun _ => h.typeParams s.next hs.next)
    fun ps s₁ hk₁ hps => ?_)
  obtain ⟨params, variadic⟩ := ps
  have hs₁ := hs.next.kept hk₁
  refine Wp.expect_bind hs₁.inside fun hr => ?_
  have hnext₁ := (hs₁.next_lt (by rw [hr]; decide)).1
  refine Wp.bind ((h.returnType s₁.next hs₁.next).mono fun ret s₂ hk₂ hret =>
    Wp.pure (hs₁.next.kept hk₂).inside ?_)
  simp only [TypeExprKind.spanTrees, TypeExpr.spanTreesOf_eq]
  have := hk₁.pos
  exact (LaidAll.signature ho hs₁ (by rw [hr]; decide) hk₂ hps hk₁.pos hret).widen ho
    hs.le_next le_rfl hs.next.lt (hs₁.next.kept hk₂).lt.le

theorem typeParams_step (h : Spans toks n) :
    YieldsAll toks (parseTypeParams (n + 1)) (·.1.map TypeExpr.spanTree) := by
  intro s hs
  simp only [parseTypeParams]
  refine Wp.check_bind hs.inside (Wp.ite (fun _ => Wp.keeps_bind Keeps.parseVariadicMarker
    hs.inside fun _ _ hk₁ => Wp.pure hk₁.inside LaidAll.nil) fun _ => ?_)
  refine h.type.bind hs fun t s₁ hk₁ ht => ?_
  have hs₁ := hs.kept hk₁
  refine Wp.eat_ite hs₁.inside (fun _ => ?_) fun _ => Wp.pure hs₁.inside (.single ht.1)
  refine h.typeParams.bind hs₁.next fun ps s₂ hk₂ hps => ?_
  obtain ⟨ts, v⟩ := ps
  have hs₂ := hs₁.next.kept hk₂
  have := hk₁.pos
  have := hk₂.pos
  have := hs₁.le_next
  exact Wp.pure hs₂.inside (LaidAll.cons ho ht.1 hps (by omega) (by omega) (by omega)
    hs₁.next.lt hs₂.lt)

theorem returnType_step (h : Spans toks n) : ∀ s, s.On toks →
    Wp (parseReturnType (n + 1)) s fun t s' =>
      Occupies toks s.pos t.spanTree s'.pos ∨
        (t.spanTree = .node .type (Span.point (lastRead toks s.pos).stop) [] ∧ s'.pos = s.pos) := by
  intro s hs
  simp only [parseReturnType]
  refine Wp.eat_ite hs.inside (fun _ => ?_) fun _ => ?_
  · exact (h.type s.next hs.next).mono fun _ _ hk₁ ht =>
      .inl (Occupies.widen ho ht hs.le_next le_rfl hs.next.lt (hs.next.kept hk₁).lt.le)
  · refine Wp.previousSpan_bind hs.inside
      (Wp.freshId_bind hs.inside (Wp.pure (hs.renumber _).inside (.inr ⟨?_, rfl⟩)))
    rw [hs.tokens]
    rfl

theorem recordBody_step (h : Spans toks n) :
    YieldsAll toks (parseRecordBody (n + 1)) (·.map (·.ty.spanTree)) := by
  intro s hs
  simp only [parseRecordBody]
  refine Wp.expect_bind hs.inside fun _ => ?_
  refine h.members.bind hs.next fun ms s₁ hk₁ hms => ?_
  have hs₁ := hs.next.kept hk₁
  refine Wp.keeps_bind (Keeps.expectCloseBrace _) hs₁.inside fun _ s₂ hk₂ => ?_
  have hs₂ := hs₁.kept hk₂
  have hplaced : LaidAll toks s.pos (ms.map (·.ty.spanTree)) s₂.pos :=
    hms.widen ho hs.le_next hk₂.pos hs.next.lt hs₂.lt.le
  -- an empty record is reported, and the members are returned either way
  exact Wp.ite (fun _ => Wp.spanFrom_bind hs₂.inside (Wp.keeps_bind (Keeps.report _) hs₂.inside
    fun _ _ hk₃ => Wp.pure hk₃.inside (hplaced.widen ho le_rfl hk₃.pos hs.lt
      (hs₂.kept hk₃).lt.le))) fun _ => Wp.pure hs₂.inside hplaced

theorem members_step (h : Spans toks n) :
    YieldsAll toks (parseMembers (n + 1)) (·.map (·.ty.spanTree)) := by
  intro s hs
  simp only [parseMembers]
  refine Wp.check_bind hs.inside (Wp.atEnd_bind hs.inside
    (Wp.ite (fun _ => Wp.pure hs.inside LaidAll.nil) fun _ => ?_))
  refine Wp.expectIdent_bind hs.inside fun _ _ => Wp.expect_bind hs.next.inside fun _ => ?_
  refine h.type.bind hs.next.next fun ty s₁ hk₁ hty => ?_
  have hs₁ := hs.next.next.kept hk₁
  refine Wp.keeps_bind (Keeps.eat _) hs₁.inside fun _ s₂ hk₂ => Wp.ite
    (fun _ => Wp.keeps_bind ((Keeps.expectInt.map _).map _) hk₂.inside fun _ s₃ hk₃ => ?_)
    (fun _ => Wp.keeps_bind (Keeps.pure _) hk₂.inside fun _ s₃ hk₃ => ?_)
  -- with or without a width, the member is its type, then the rest of the list
  all_goals
    have hs₃ := hs₁.kept (hk₂.trans hk₃)
    have := hs.le_next
    have := hs.next.le_next
    have := hk₁.pos
    have := hk₂.pos
    have := hk₃.pos
    have hm : Laid toks s.pos _ s₃.pos :=
      hty.1.widen ho (by omega) (by omega) hs.next.next.lt hs₃.lt.le
    refine Wp.spanFrom_bind hs₃.inside (Wp.eat_ite hs₃.inside (fun _ => ?_) fun _ =>
      Wp.pure hs₃.inside (.single hm))
    refine h.members.bind hs₃.next fun rest s₄ hk₄ hrest => ?_
    have hs₄ := hs₃.next.kept hk₄
    have := hk₄.pos
    have := hs₃.le_next
    exact Wp.pure hs₄.inside (LaidAll.cons ho hm hrest (by omega) (by omega) (by omega)
      hs₃.next.lt hs₄.lt)

end Spans

end Parser

end SolarFront
