import Mathlib.Data.List.Nodup
import SolarFront.Syntax.Tree

/-!
# The spans of a syntax tree

Every expression, type, statement and declaration node that the parser builds carries the span of
the text it was read from. A `SpanTree` keeps only that: each node's family, its span and its
children in source order. `Expr.spanTree`, `TypeExpr.spanTree`, `Stmt.spanTree` and
`Decl.spanTree` take this view of a tree; a `->` access shows its dereference as a child, and a
function type without `-> T` its empty `void` return type.

`SpanTree.Encloses` states the laws of one node: its children lie inside it, one after the other,
and none has its parent's span except the declaration of a declaration statement; a child with an
empty span starts after its parent does. From these laws alone, no two nodes of one family in a
forest of trees laid one after the other share a span (`Nested.nodup_spansOf`), so a span names a
node within its family.
-/

set_option autoImplicit false
set_option linter.all false

namespace SolarFront

/-- The families of syntax nodes. -/
inductive Family where
  | expr
  | type
  | stmt
  | decl
  deriving DecidableEq, Repr

/-- The spans of a syntax tree: each node's family and span, and its children in source order. -/
inductive SpanTree where
  | node (family : Family) (span : Span) (children : List SpanTree)

namespace SpanTree

def family : SpanTree → Family | node f _ _ => f
def span : SpanTree → Span | node _ sp _ => sp
def children : SpanTree → List SpanTree | node _ _ cs => cs

@[simp] theorem family_node (f : Family) (sp : Span) (cs : List SpanTree) :
    (node f sp cs).family = f := rfl

@[simp] theorem span_node (f : Family) (sp : Span) (cs : List SpanTree) :
    (node f sp cs).span = sp := rfl

@[simp] theorem children_node (f : Family) (sp : Span) (cs : List SpanTree) :
    (node f sp cs).children = cs := rfl

/-- Induction over a tree with the hypothesis for each of its children. -/
@[induction_eliminator]
theorem induction {motive : SpanTree → Prop}
    (node : ∀ f sp cs, (∀ c ∈ cs, motive c) → motive (node f sp cs)) : ∀ t, motive t
  | .node f sp cs => node f sp cs fun c _ => induction node c
termination_by t => sizeOf t
decreasing_by
  have := List.sizeOf_lt_of_mem ‹c ∈ cs›
  simp only [SpanTree.node.sizeOf_spec]
  omega

mutual

/-- Every node of a tree in preorder: the tree itself, then its children's nodes in order. -/
def nodes : SpanTree → List SpanTree
  | node f sp cs => node f sp cs :: nodesOf cs

/-- Every node of a forest in preorder. -/
def nodesOf : List SpanTree → List SpanTree
  | [] => []
  | t :: ts => t.nodes ++ nodesOf ts

end

theorem nodesOf_eq_flatMap (ts : List SpanTree) : nodesOf ts = ts.flatMap nodes := by
  induction ts with
  | nil => rfl
  | cons t ts ih => simp [nodesOf, ih]

@[simp] theorem nodes_node (f : Family) (sp : Span) (cs : List SpanTree) :
    (node f sp cs).nodes = node f sp cs :: cs.flatMap nodes := by
  rw [nodes, nodesOf_eq_flatMap]

theorem mem_nodes_self (t : SpanTree) : t ∈ t.nodes := by
  cases t
  simp

/-- The spans of the nodes of one family in a tree, in preorder. -/
def spansIn (F : Family) (t : SpanTree) : List Span :=
  (t.nodes.filter (·.family = F)).map span

/-- The spans of the nodes of one family in a forest, in preorder. -/
def spansOf (F : Family) (ts : List SpanTree) : List Span :=
  ((nodesOf ts).filter (·.family = F)).map span

theorem spansIn_node (F : Family) (f : Family) (sp : Span) (cs : List SpanTree) :
    spansIn F (node f sp cs) = (if f = F then [sp] else []) ++ cs.flatMap (spansIn F) := by
  by_cases hf : f = F <;> simp [spansIn, hf, List.filter_flatMap, List.map_flatMap] <;> rfl

theorem spansOf_eq_flatMap (F : Family) (ts : List SpanTree) :
    spansOf F ts = ts.flatMap (spansIn F) := by
  simp [spansOf, nodesOf_eq_flatMap, List.filter_flatMap, List.map_flatMap]
  rfl

/-! ## The laws of a node -/

/-- `a` ends where or before `b` starts, and before `b` ends. -/
def Before (a b : Span) : Prop := a.stop ≤ b.start ∧ a.stop < b.stop

/-- The laws of one node. Its span is a range; its children lie inside it, pairwise one after
the other; a child has a span other than its parent's unless it is the declaration of a
declaration statement; and a child with an empty span starts after its parent. -/
structure Encloses (t : SpanTree) : Prop where
  range : t.span.start ≤ t.span.stop
  inside : ∀ c ∈ t.children, t.span.start ≤ c.span.start ∧ c.span.stop ≤ t.span.stop
  apart : (t.children.map span).Pairwise Before
  proper : ∀ c ∈ t.children, t.span.start < c.span.start ∨ c.span.stop < t.span.stop ∨
    (t.family = .stmt ∧ c.family = .decl)
  empty : ∀ c ∈ t.children, c.span.stop ≤ c.span.start → t.span.start < c.span.start

/-- Every node of the tree obeys the laws. -/
def Nested (t : SpanTree) : Prop := ∀ n ∈ t.nodes, n.Encloses

theorem nested_node {f : Family} {sp : Span} {cs : List SpanTree} :
    (node f sp cs).Nested ↔ (node f sp cs).Encloses ∧ ∀ c ∈ cs, c.Nested := by
  simp only [Nested, nodes_node, List.mem_cons, List.mem_flatMap, forall_eq_or_imp]
  constructor
  · rintro ⟨h, hcs⟩
    exact ⟨h, fun c hc n hn => hcs n ⟨c, hc, hn⟩⟩
  · rintro ⟨h, hcs⟩
    exact ⟨h, fun n ⟨c, hc, hn⟩ => hcs c hc n hn⟩

theorem Nested.encloses {t : SpanTree} (h : t.Nested) : t.Encloses := h t t.mem_nodes_self

theorem Nested.child {f : Family} {sp : Span} {cs : List SpanTree} (h : (node f sp cs).Nested)
    {c : SpanTree} (hc : c ∈ cs) : c.Nested :=
  (nested_node.1 h).2 c hc

/-! ## A span names a node within its family -/

/-- What the laws give about the spans of one family in a tree: no two are equal, each is a range
inside the tree, an empty one is the tree's own or starts after the tree, and one that is the
tree's own span belongs to the tree, or to the declaration of a declaration statement. -/
structure FamilySpans (F : Family) (t : SpanTree) : Prop where
  nodup : (spansIn F t).Nodup
  range : ∀ x ∈ spansIn F t, x.start ≤ x.stop
  inside : ∀ x ∈ spansIn F t, t.span.start ≤ x.start ∧ x.stop ≤ t.span.stop
  empty : ∀ x ∈ spansIn F t, x.stop ≤ x.start → x = t.span ∨ t.span.start < x.start
  self : ∀ x ∈ spansIn F t, x = t.span → t.family = F ∨ (t.family = .stmt ∧ F = .decl)

/-- Trees laid out one after the other have no span of a family in common. -/
theorem FamilySpans.disjoint {F : Family} {c d : SpanTree} (hc : FamilySpans F c)
    (hd : FamilySpans F d) (hcd : Before c.span d.span) : (spansIn F c).Disjoint (spansIn F d) := by
  intro x hxc hxd
  obtain ⟨hc₁, hc₂⟩ := hc.inside x hxc
  obtain ⟨hd₁, hd₂⟩ := hd.inside x hxd
  have hx := hc.range x hxc
  -- `x` lies inside both, so it is the empty span where `c` ends and `d` starts
  rcases hd.empty x hxd (by unfold Before at hcd; omega) with rfl | hlt
  · unfold Before at hcd
    omega
  · unfold Before at hcd
    omega

theorem FamilySpans.nodup_flatMap {F : Family} {ts : List SpanTree}
    (h : ∀ t ∈ ts, FamilySpans F t) (hts : (ts.map span).Pairwise Before) :
    (ts.flatMap (spansIn F)).Nodup := by
  refine List.nodup_flatMap.2 ⟨fun t ht => (h t ht).nodup, ?_⟩
  rw [List.pairwise_map] at hts
  exact hts.imp_of_mem fun hc hd hcd => (h _ hc).disjoint (h _ hd) hcd

/-- A child's span of its family that is its parent's span: the parent is a declaration statement
and the family that of declarations. -/
theorem FamilySpans.parent {F : Family} {f : Family} {sp : Span} {cs : List SpanTree}
    (he : (node f sp cs).Encloses) {c : SpanTree} (hc : c ∈ cs) (hF : FamilySpans F c)
    (hx : sp ∈ spansIn F c) : f = .stmt ∧ F = .decl := by
  obtain ⟨h₁, h₂⟩ := hF.inside sp hx
  obtain ⟨h₃, h₄⟩ := he.inside c hc
  simp only [span_node] at h₃ h₄
  rcases he.proper c hc with hlt | hlt | ⟨hstmt, hdecl⟩
  · simp only [span_node] at hlt
    omega
  · simp only [span_node] at hlt
    omega
  · have hsp : sp = c.span := by
      cases sp
      cases hcs : c.span
      simp only [hcs] at h₁ h₂ h₃ h₄
      simp only [Span.mk.injEq]
      omega
    refine ⟨hstmt, ?_⟩
    rcases hF.self sp hx hsp with hcF | ⟨hcs, -⟩
    · rw [← hcF, hdecl]
    · rw [hdecl] at hcs
      cases hcs

theorem Encloses.familySpans {F : Family} {f : Family} {sp : Span} {cs : List SpanTree}
    (he : (node f sp cs).Encloses) (hcs : ∀ c ∈ cs, FamilySpans F c) :
    FamilySpans F (node f sp cs) := by
  have hinside := he.inside
  simp only [children_node, span_node] at hinside
  refine ⟨?_, ?_, ?_, ?_, ?_⟩ <;> rw [spansIn_node]
  · -- the node's own span, if of the family, is not among its children's
    refine List.nodup_append.2 ⟨?_, FamilySpans.nodup_flatMap hcs he.apart, ?_⟩
    · split <;> simp
    · intro a ha b hb hab
      split at ha
      · next hfF =>
        rw [List.mem_singleton] at ha
        subst ha hab
        obtain ⟨c, hc, hx⟩ := List.mem_flatMap.1 hb
        obtain ⟨hstmt, hdecl⟩ := FamilySpans.parent he hc (hcs c hc) hx
        rw [hstmt, hdecl] at hfF
        cases hfF
      · cases ha
  · intro x hx
    rcases List.mem_append.1 hx with hx | hx
    · split at hx
      · rw [List.mem_singleton.1 hx]
        exact he.range
      · cases hx
    · obtain ⟨c, hc, hx⟩ := List.mem_flatMap.1 hx
      exact (hcs c hc).range x hx
  · intro x hx
    rcases List.mem_append.1 hx with hx | hx
    · split at hx
      · rw [List.mem_singleton.1 hx]
        exact ⟨Nat.le_refl _, Nat.le_refl _⟩
      · cases hx
    · obtain ⟨c, hc, hx⟩ := List.mem_flatMap.1 hx
      obtain ⟨h₁, h₂⟩ := (hcs c hc).inside x hx
      obtain ⟨h₃, h₄⟩ := hinside c hc
      simp only [span_node]
      exact ⟨by omega, by omega⟩
  · intro x hx hempty
    rcases List.mem_append.1 hx with hx | hx
    · split at hx
      · exact .inl (List.mem_singleton.1 hx)
      · cases hx
    · -- an empty span inside a child is that child, or starts after it
      obtain ⟨c, hc, hx⟩ := List.mem_flatMap.1 hx
      refine .inr ?_
      rcases (hcs c hc).empty x hx hempty with rfl | hlt
      · exact he.empty c hc hempty
      · have := (hinside c hc).1
        simp only [span_node]
        omega
  · intro x hx hsp
    rcases List.mem_append.1 hx with hx | hx
    · split at hx
      · next hfF => exact .inl hfF
      · cases hx
    · obtain ⟨c, hc, hx⟩ := List.mem_flatMap.1 hx
      rw [hsp] at hx
      exact .inr (FamilySpans.parent he hc (hcs c hc) hx)

theorem Nested.familySpans (F : Family) : ∀ t : SpanTree, t.Nested → FamilySpans F t := by
  intro t
  induction t with
  | node f sp cs ih =>
    intro h
    exact (nested_node.1 h).1.familySpans fun c hc => ih c hc (h.child hc)

/-- In a forest of nested trees laid one after the other, no two nodes of one family share a
span. -/
theorem Nested.nodup_spansOf (F : Family) {ts : List SpanTree} (h : ∀ t ∈ ts, t.Nested)
    (hts : (ts.map span).Pairwise Before) : (spansOf F ts).Nodup := by
  rw [spansOf_eq_flatMap]
  exact FamilySpans.nodup_flatMap (fun t ht => Nested.familySpans F t (h t ht)) hts

end SpanTree

/-! ## The span view of syntax trees -/

mutual

/-- An expression node and the nodes inside it. -/
def Expr.spanTree : Expr → SpanTree
  | .mk _ span kind => .node .expr span kind.spanTrees

/-- The children of an expression of the form, in source order. -/
def ExprKind.spanTrees : ExprKind → List SpanTree
  | .name _ | .int _ _ | .str _ _ => []
  | .sizeofExpr e | .access e _ _ | .deref e | .addrOf e | .unary _ e | .not e => [e.spanTree]
  | .sizeofType t => [t.spanTree]
  | .call f args => f.spanTree :: Expr.spanTreesOf args
  | .index a b | .binary _ a b | .cond _ a b | .assign _ a b => [a.spanTree, b.spanTree]
  | .cast e t _ => [e.spanTree, t.spanTree]
  | .ternary c t e => [c.spanTree, t.spanTree, e.spanTree]
  | .comma es | .arrayInit es => Expr.spanTreesOf es
  | .recordInit _ fs => FieldInit.spanTreesOf fs

def Expr.spanTreesOf : List Expr → List SpanTree
  | [] => []
  | e :: es => e.spanTree :: Expr.spanTreesOf es

/-- The values of field initializers. -/
def FieldInit.spanTreesOf : List FieldInit → List SpanTree
  | [] => []
  | .mk _ v _ :: fs => v.spanTree :: FieldInit.spanTreesOf fs

/-- A type node and the nodes inside it. -/
def TypeExpr.spanTree : TypeExpr → SpanTree
  | .mk _ span _ kind => .node .type span kind.spanTrees

/-- The children of a type of the form, in source order: an array's size before its element
type, a function's parameters before its return type. -/
def TypeExprKind.spanTrees : TypeExprKind → List SpanTree
  | .void | .int _ | .ref _ => []
  | .array inner none => [inner.spanTree]
  | .array inner (some size) => [size.spanTree, inner.spanTree]
  | .func ret params _ => TypeExpr.spanTreesOf params ++ [ret.spanTree]
  | .record _ members => MemberDecl.spanTreesOf members
  | .typeOf e => [e.spanTree]

def TypeExpr.spanTreesOf : List TypeExpr → List SpanTree
  | [] => []
  | t :: ts => t.spanTree :: TypeExpr.spanTreesOf ts

/-- The types of record members. -/
def MemberDecl.spanTreesOf : List MemberDecl → List SpanTree
  | [] => []
  | .mk _ t _ _ :: ms => t.spanTree :: MemberDecl.spanTreesOf ms

end

mutual

/-- A statement node and the nodes inside it. -/
def Stmt.spanTree : Stmt → SpanTree
  | .mk _ span kind => .node .stmt span kind.spanTrees

/-- The children of a statement of the form, in source order. -/
def StmtKind.spanTrees : StmtKind → List SpanTree
  | .empty | .jump _ _ => []
  | .decl d => [d.spanTree]
  | .block stmts => Stmt.spanTreesOf stmts
  | .expr e => [e.spanTree]
  | .ret value => (value.map Expr.spanTree).toList
  | .branch _ c t elseS => c.spanTree :: t.spanTree :: Stmt.spanTreesOpt elseS
  | .loop _ init cond step body elseS =>
    (init.map Expr.spanTree).toList ++ (cond.map Expr.spanTree).toList ++
      (step.map Expr.spanTree).toList ++ body.spanTree :: Stmt.spanTreesOpt elseS

def Stmt.spanTreesOpt : Option Stmt → List SpanTree
  | none => []
  | some s => [s.spanTree]

def Stmt.spanTreesOf : List Stmt → List SpanTree
  | [] => []
  | s :: ss => s.spanTree :: Stmt.spanTreesOf ss

/-- A declaration node and the nodes inside it: its type, then its value or body. -/
def Decl.spanTree : Decl → SpanTree
  | .mk _ _ _ span ty _ _ kind => .node .decl span (ty.spanTree :: kind.spanTrees)

def DeclKind.spanTrees : DeclKind → List SpanTree
  | .var value _ => (value.map Expr.spanTree).toList
  | .const value _ => [value.spanTree]
  | .func _ body _ _ => Stmt.spanTreesOpt body
  | .type => []

end

@[simp] theorem Expr.spanTreesOf_eq (es : List Expr) :
    Expr.spanTreesOf es = es.map Expr.spanTree := by
  induction es with
  | nil => rfl
  | cons e es ih => simp [Expr.spanTreesOf, ih]

@[simp] theorem FieldInit.spanTreesOf_eq (fs : List FieldInit) :
    FieldInit.spanTreesOf fs = fs.map (·.value.spanTree) := by
  induction fs with
  | nil => rfl
  | cons f fs ih =>
    obtain ⟨name, value, span⟩ := f
    simp [FieldInit.spanTreesOf, FieldInit.value, ih]

@[simp] theorem TypeExpr.spanTreesOf_eq (ts : List TypeExpr) :
    TypeExpr.spanTreesOf ts = ts.map TypeExpr.spanTree := by
  induction ts with
  | nil => rfl
  | cons t ts ih => simp [TypeExpr.spanTreesOf, ih]

@[simp] theorem MemberDecl.spanTreesOf_eq (ms : List MemberDecl) :
    MemberDecl.spanTreesOf ms = ms.map (·.ty.spanTree) := by
  induction ms with
  | nil => rfl
  | cons m ms ih =>
    obtain ⟨name, ty, bits, span⟩ := m
    simp [MemberDecl.spanTreesOf, MemberDecl.ty, ih]

@[simp] theorem Stmt.spanTreesOf_eq (ss : List Stmt) :
    Stmt.spanTreesOf ss = ss.map Stmt.spanTree := by
  induction ss with
  | nil => rfl
  | cons s ss ih => simp [Stmt.spanTreesOf, ih]

@[simp] theorem Stmt.spanTreesOpt_eq (o : Option Stmt) :
    Stmt.spanTreesOpt o = (o.map Stmt.spanTree).toList := by
  cases o <;> rfl

@[simp] theorem Expr.spanTree_mk (id : Nat) (span : Span) (kind : ExprKind) :
    (Expr.mk id span kind).spanTree = .node .expr span kind.spanTrees := rfl

@[simp] theorem TypeExpr.spanTree_mk (id : Nat) (span : Span) (volatile : Bool)
    (kind : TypeExprKind) :
    (TypeExpr.mk id span volatile kind).spanTree = .node .type span kind.spanTrees := rfl

@[simp] theorem Stmt.spanTree_mk (id : Nat) (span : Span) (kind : StmtKind) :
    (Stmt.mk id span kind).spanTree = .node .stmt span kind.spanTrees := rfl

@[simp] theorem Decl.spanTree_mk (id : Nat) (name : String) (nameSpan span : Span)
    (ty : TypeExpr) (isDeclare : Bool) (description : Option String) (kind : DeclKind) :
    (Decl.mk id name nameSpan span ty isDeclare description kind).spanTree =
      .node .decl span (ty.spanTree :: kind.spanTrees) := rfl

@[simp] theorem Expr.spanTree_span (e : Expr) : e.spanTree.span = e.span := by
  cases e
  rfl

@[simp] theorem TypeExpr.spanTree_span (t : TypeExpr) : t.spanTree.span = t.span := by
  cases t
  rfl

@[simp] theorem Stmt.spanTree_span (s : Stmt) : s.spanTree.span = s.span := by
  cases s
  rfl

@[simp] theorem Decl.spanTree_span (d : Decl) : d.spanTree.span = d.span := by
  cases d
  rfl

end SolarFront
