import SolarFront.Proofs.Check.Passes
import SolarFront.Proofs.Syntax.Subexprs
import SolarFront.Proofs.Typing.Interning

/-!
# Folded values fit their types: the invariant and its frame

A folded value is kept per expression node, and the node's type per node too. A value fits a
type when the type is the error type or folds at a width the value is below
(`TypePool.FoldsIn`). `CheckState.Folds` is what checking a module keeps: every node with both a
value and a type has a value that fits, every symbol with a value is a constant whose value fits
its type, and the type declarations still to be resolved have no node typed or folded yet.

The checker reaches each expression node once. A check of the nodes `X` starts with them
untouched (`CheckState.Fresh`), and with the nodes `R` that are checked after them untouched too;
it leaves `R` untouched, so the value a node ends with is the one its own rule folded, at the type
that rule gave it. The rules that yield a type without folding change nothing that folding reads
(`CheckState.foldView`), and those that fold change the value of their own node only
(`CheckState.SetsConst`).
-/

set_option autoImplicit false
set_option linter.all false

namespace SolarFront

namespace TypePool

/-- A folded value fits a type: any value fits the error type, and a value of another type is
below the modulus of the width that type folds at, which it must have. -/
def FoldsIn (p : TypePool) (ty : TypeId) (v : Nat) : Prop :=
  ty = .error ∨ ∃ w, p.valueWidth ty = some w ∧ v < w.modulus

variable {p q : TypePool} {t ty : TypeId} {v : Nat} {w : Width}

theorem foldsIn_error (p : TypePool) (v : Nat) : p.FoldsIn .error v := .inl rfl

theorem valueWidth_of_intWidth (h : p.intWidth? t = some w) : p.valueWidth t = some w := by
  unfold intWidth? at h
  unfold valueWidth
  split at h <;> simp_all

theorem foldsIn_of_valueWidth (h : p.valueWidth ty = some w) (hv : v < w.modulus) :
    p.FoldsIn ty v :=
  .inr ⟨w, h, hv⟩

theorem foldsIn_of_intWidth (h : p.intWidth? ty = some w) (hv : v < w.modulus) :
    p.FoldsIn ty v :=
  foldsIn_of_valueWidth (valueWidth_of_intWidth h) hv

theorem has_of_valueWidth (h : p.valueWidth t = some w) : p.Has t := by
  by_contra hn
  simp [valueWidth, get_of_not_has hn] at h

theorem Keeps.valueWidth_eq (hk : p.Keeps q) (h : p.valueWidth t = some w) :
    q.valueWidth t = some w := by
  unfold valueWidth at h ⊢
  rw [hk.get_eq t (has_of_valueWidth h)]
  exact h

/-- A pool that keeps the types of another keeps what fits them. -/
theorem FoldsIn.keeps (h : p.FoldsIn ty v) (hk : p.Keeps q) : q.FoldsIn ty v := by
  rcases h with rfl | ⟨w, hw, hv⟩
  · exact .inl rfl
  · exact .inr ⟨w, hk.valueWidth_eq hw, hv⟩

/-- What fits a type depends only on the types of the pool, not on its records. -/
theorem FoldsIn.of_types (h : p.FoldsIn ty v) (htypes : q.types = p.types) : q.FoldsIn ty v := by
  have hget : ∀ t, q.get t = p.get t := fun t => by simp only [get, htypes]
  rcases h with rfl | ⟨w, hw, hv⟩
  · exact .inl rfl
  · refine .inr ⟨w, ?_, hv⟩
    unfold valueWidth at hw ⊢
    rwa [hget]

/-- In a well-formed pool the error type folds at no width, so a value that fits a type folding
at a width is below its modulus. -/
theorem WellFormed.lt_of_foldsIn (wf : p.WellFormed) (h : p.FoldsIn ty v)
    (hw : p.valueWidth ty = some w) : v < w.modulus := by
  rcases h with rfl | ⟨w', hw', hv⟩
  · have herr : p.get .error = .error := wf.base .error (by decide)
    simp [valueWidth, herr] at hw
  · rw [hw] at hw'
    cases hw'
    exact hv

/-- The integer type of a width folds at that width. -/
theorem WellFormed.valueWidth_ofWidth (wf : p.WellFormed) (w : Width) :
    p.valueWidth (TypeId.ofWidth w) = some w := by
  have hbase := wf.base (TypeId.ofWidth w) (by cases w <;> decide)
  unfold valueWidth
  rw [hbase]
  cases w <;> rfl

/-- A 16-bit value fits the 16-bit integer type. -/
theorem WellFormed.foldsIn_int16 (wf : p.WellFormed) (hv : v < Width.w16.modulus) :
    p.FoldsIn .int16 v :=
  foldsIn_of_valueWidth (wf.valueWidth_ofWidth .w16) hv

/-- A pointer folds at 32 bits. -/
theorem valueWidth_of_get_pointer {e : TypeId} (h : p.get t = .array e none) :
    p.valueWidth t = some .w32 := by
  unfold valueWidth
  rw [h]

/-- A type that a value fits is its own decay: the error type, an integer or a pointer. -/
theorem decay_of_foldsIn (wf : p.WellFormed) (h : p.FoldsIn t v) : p.decay t = (p, t) := by
  unfold decay
  rcases h with rfl | ⟨w, hw, -⟩
  · rw [wf.base .error (by decide)]
    rfl
  · unfold valueWidth at hw
    split at hw <;> simp_all

end TypePool

/-- Nodes `X` checked before the nodes `R`: they are numbered, and no node of `R` has the
identifier of one of them. -/
def Ahead (X R : List Expr) : Prop := Numbered X ∧ ∀ x ∈ X, x.id ∉ R.map Expr.id

namespace Ahead

variable {A B R : List Expr}

/-- The first part of the nodes is checked before the second part and the rest. -/
theorem left (h : Ahead (A ++ B) R) : Ahead A (B ++ R) := by
  refine ⟨h.1.left, fun a ha hmem => ?_⟩
  rw [List.map_append, List.mem_append] at hmem
  rcases hmem with hB | hR
  · exact h.1.apart_left a ha hB
  · exact h.2 a (List.mem_append_left B ha) hR

theorem right (h : Ahead (A ++ B) R) : Ahead B R :=
  ⟨h.1.right, fun b hb => h.2 b (List.mem_append_right A hb)⟩

theorem not_mem (h : Ahead A R) {x : Expr} (hx : x ∈ A) : x.id ∉ R.map Expr.id := h.2 x hx

theorem literalFits (h : Ahead A R) {x : Expr} (hx : x ∈ A) : x.literalFits := h.1.2 x hx

end Ahead

/-- What folding reads of a state: the folded values, the expression types, the type
declarations held, the symbols, which symbol each declaration bound, and the functions whose
bodies wait for the last pass. -/
structure FoldView where
  consts : Std.TreeMap Nat Nat
  exprTypes : Std.TreeMap Nat TypeId
  typeDecls : Std.TreeMap Nat (Decl × TypeDeclState)
  scopes : ScopeStack
  declSymbols : Std.TreeMap Nat Nat
  pending : Array (Decl × TypeId)

namespace CheckState

open TypePool

def foldView (s : CheckState) : FoldView :=
  ⟨s.consts, s.exprTypes, s.typeDecls, s.scopes, s.declSymbols, s.pending⟩

theorem foldView_eq_iff {s t : CheckState} :
    s.foldView = t.foldView ↔
      s.consts = t.consts ∧ s.exprTypes = t.exprTypes ∧ s.typeDecls = t.typeDecls ∧
        s.scopes = t.scopes ∧ s.declSymbols = t.declSymbols ∧ s.pending = t.pending := by
  simp [foldView]

/-- An expression node of a type declaration that the state holds unresolved. -/
def Pending (s : CheckState) (i : Nat) : Prop :=
  ∃ (k : Nat) (d : Decl), s.typeDecls[k]? = some (d, .unresolved) ∧
    i ∈ d.ty.subexprs.map Expr.id

/-- A node that checking has not reached: it has neither a folded value nor a type, and it is
not a node of a type declaration still unresolved. -/
def FreshAt (s : CheckState) (i : Nat) : Prop :=
  s.consts[i]? = none ∧ s.exprTypes[i]? = none ∧ ¬ s.Pending i

/-- A node that checking may still type: it has no type, and it is not a node of a type
declaration still unresolved. -/
def Untyped (s : CheckState) (i : Nat) : Prop := s.exprTypes[i]? = none ∧ ¬ s.Pending i

/-- Expression nodes that checking has not reached. -/
def Fresh (X : List Expr) (s : CheckState) : Prop := ∀ x ∈ X, s.FreshAt x.id

/-- The folded value of an expression node, if it has one, fits the type. -/
def FitsAt (s : CheckState) (i : Nat) (ty : TypeId) : Prop :=
  ∀ v, s.consts[i]? = some v → s.pool.FoldsIn ty v

/-- The node has the type recorded, or the type is the error type. -/
def TypedAs (s : CheckState) (i : Nat) (ty : TypeId) : Prop :=
  ty = .error ∨ s.exprTypes[i]? = some ty

/-- What checking keeps true of the state of a module `m`: a node with a folded value and a type
has a value that fits the type, only constants have values and these fit their types, the type
declarations held are declarations of `m` under their own identifiers, and no node of one still
unresolved has been typed or folded. -/
structure Folds (m : Module) (s : CheckState) : Prop where
  exprs : ∀ (i v : Nat) (ty : TypeId), s.consts[i]? = some v → s.exprTypes[i]? = some ty →
    s.pool.FoldsIn ty v
  symbols : ∀ (i v : Nat), (s.scopes.symbol i).value = some v →
    (s.scopes.symbol i).kind = .const ∧ s.pool.FoldsIn (s.scopes.symbol i).ty v
  typeDecls : ∀ (k : Nat) (d : Decl) (st : TypeDeclState), s.typeDecls[k]? = some (d, st) →
    d ∈ m.decls ∧ d.id = k
  pending : ∀ (k : Nat) (d : Decl), s.typeDecls[k]? = some (d, .unresolved) →
    ∀ x ∈ d.ty.subexprs, s.consts[x.id]? = none ∧ s.exprTypes[x.id]? = none

/-- How typing moves the state: a recorded expression type stays, symbols keep their kinds,
declarations their symbols, and the bodies waiting stay as they are. -/
structure Settles (s s' : CheckState) : Prop where
  kinds : ∀ i : Nat, (s'.scopes.symbol i).kind = (s.scopes.symbol i).kind
  exprTypes : ∀ (i : Nat) (ty : TypeId), s.exprTypes[i]? = some ty → s'.exprTypes[i]? = some ty
  declSymbols : s'.declSymbols = s.declSymbols
  pending : s'.pending = s.pending

/-- From `s` to `s'`, of what folding reads, only the folded value of node `i` changed. -/
structure SetsConst (i : Nat) (s s' : CheckState) : Prop where
  exprTypes : s'.exprTypes = s.exprTypes
  typeDecls : s'.typeDecls = s.typeDecls
  scopes : s'.scopes = s.scopes
  consts : ∀ j, j ≠ i → s'.consts[j]? = s.consts[j]?
  declSymbols : s'.declSymbols = s.declSymbols
  pending : s'.pending = s.pending

/-- From `s` to `s'`, of what folding reads, only the type of node `i` changed. -/
structure SetsType (i : Nat) (s s' : CheckState) : Prop where
  consts : s'.consts = s.consts
  typeDecls : s'.typeDecls = s.typeDecls
  scopes : s'.scopes = s.scopes
  exprTypes : ∀ j, j ≠ i → s'.exprTypes[j]? = s.exprTypes[j]?

/-- From `s` to `s'` nothing that folding reads changed. -/
structure Kept (s s' : CheckState) : Prop where
  view : s'.foldView = s.foldView

/-- The state with a type declaration held in the given state of resolution. -/
def withTypeDecl (s : CheckState) (d : Decl) (st : TypeDeclState) : CheckState :=
  { s with typeDecls := s.typeDecls.insert d.id (d, st) }

section Frame

variable {m : Module} {s t : CheckState} {X Y R : List Expr} {x : Expr} {i : Nat}
  {ty : TypeId}

@[simp] theorem fresh_nil (s : CheckState) : Fresh [] s := fun _ h => absurd h List.not_mem_nil

theorem fresh_append : Fresh (X ++ Y) s ↔ Fresh X s ∧ Fresh Y s := by
  simp only [Fresh, List.forall_mem_append]

theorem fresh_cons : Fresh (x :: X) s ↔ s.FreshAt x.id ∧ Fresh X s := by
  simp only [Fresh, List.forall_mem_cons]

theorem fresh_singleton : Fresh [x] s ↔ s.FreshAt x.id := by
  simp [Fresh]

theorem Fresh.mono (h : Fresh X s) (hXY : ∀ x ∈ Y, x ∈ X) : Fresh Y s :=
  fun x hx => h x (hXY x hx)

theorem fitsAt_error (s : CheckState) (i : Nat) : s.FitsAt i .error :=
  fun v _ => foldsIn_error _ v

theorem fitsAt_of_none (h : s.consts[i]? = none) (ty : TypeId) : s.FitsAt i ty := by
  intro v hv
  rw [h] at hv
  cases hv

theorem fitsAt_of_some {v : Nat} (h : s.consts[i]? = some v) (hv : s.pool.FoldsIn ty v) :
    s.FitsAt i ty := by
  intro v' hv'
  rw [h] at hv'
  cases hv'
  exact hv

/-- A node typed as `ty` has a value that fits `ty`, if it has one. -/
theorem Folds.fitsAt (h : s.Folds m) (ht : s.TypedAs i ty) : s.FitsAt i ty := by
  rcases ht with rfl | ht
  · exact fitsAt_error s i
  · exact fun v hv => h.exprs i v ty hv ht

theorem Settles.refl (s : CheckState) : s.Settles s := ⟨fun _ => rfl, fun _ _ h => h, rfl, rfl⟩

theorem Settles.trans {s' : CheckState} (h : s.Settles t) (h' : t.Settles s') : s.Settles s' :=
  ⟨fun i => (h'.kinds i).trans (h.kinds i), fun i ty hi => h'.exprTypes i ty (h.exprTypes i ty hi),
    h'.declSymbols.trans h.declSymbols, h'.pending.trans h.pending⟩

theorem TypedAs.settles (h : t.TypedAs i ty) (hs : t.Settles s) : s.TypedAs i ty :=
  h.imp id (hs.exprTypes i ty)

/-- Nodes stay unreached while the values, the types and the type declarations stay. -/
theorem Fresh.of_tables (h : Fresh X t) (hc : s.consts = t.consts)
    (he : s.exprTypes = t.exprTypes) (hd : s.typeDecls = t.typeDecls) : Fresh X s := by
  intro x hx
  simp only [FreshAt, Pending, hc, he, hd]
  exact h x hx

/-- The invariant stays while the values, the types and the type declarations stay, what fits a
type in the pool still fits it, and every symbol stays or has no value. -/
theorem Folds.of_tables (h : t.Folds m)
    (hfit : ∀ (ty : TypeId) (v : Nat), t.pool.FoldsIn ty v → s.pool.FoldsIn ty v)
    (hc : s.consts = t.consts) (he : s.exprTypes = t.exprTypes) (hd : s.typeDecls = t.typeDecls)
    (hsym : ∀ j, s.scopes.symbol j = t.scopes.symbol j ∨ (s.scopes.symbol j).value = none) :
    s.Folds m where
  exprs i v ty hi hty := by
    rw [hc] at hi
    rw [he] at hty
    exact hfit ty v (h.exprs i v ty hi hty)
  symbols i v hi := by
    rcases hsym i with heq | hnone
    · rw [heq] at hi ⊢
      exact (h.symbols i v hi).imp id (hfit _ v)
    · rw [hnone] at hi
      cases hi
  typeDecls k d st hk' := by
    rw [hd] at hk'
    exact h.typeDecls k d st hk'
  pending k d hk' x hx := by
    rw [hd] at hk'
    rw [hc, he]
    exact h.pending k d hk' x hx

/-- A symbol that is not a constant has no value. -/
theorem Folds.value_eq_none (h : s.Folds m) {j : Nat} (hj : (s.scopes.symbol j).kind ≠ .const) :
    (s.scopes.symbol j).value = none := by
  cases hv : (s.scopes.symbol j).value with
  | none => rfl
  | some v => exact absurd (h.symbols j v hv).1 hj

/-! ### Steps that change nothing folding reads -/

section Kept

variable {s' : CheckState}

@[refl] theorem Kept.refl (s : CheckState) : s.Kept s := ⟨rfl⟩

theorem Kept.trans (h : t.Kept s) (h' : s.Kept s') : t.Kept s' := ⟨h'.view.trans h.view⟩

variable (h : t.Kept s)
include h

theorem Kept.consts : s.consts = t.consts := (foldView_eq_iff.mp h.view).1

theorem Kept.exprTypes : s.exprTypes = t.exprTypes := (foldView_eq_iff.mp h.view).2.1

theorem Kept.typeDecls : s.typeDecls = t.typeDecls := (foldView_eq_iff.mp h.view).2.2.1

theorem Kept.scopes : s.scopes = t.scopes := (foldView_eq_iff.mp h.view).2.2.2.1

theorem Kept.declSymbols : s.declSymbols = t.declSymbols := (foldView_eq_iff.mp h.view).2.2.2.2.1

theorem Kept.pending : s.pending = t.pending := (foldView_eq_iff.mp h.view).2.2.2.2.2

theorem Kept.folds (hg : t.Grows s) (hf : t.Folds m) : s.Folds m :=
  hf.of_tables (fun _ _ hfit => hfit.keeps hg.pool.toKeeps) h.consts h.exprTypes h.typeDecls
    fun j => .inl (by rw [h.scopes])

/-- Setting the members or layout of a record keeps the types, and so what fits them. -/
theorem Kept.folds_of_types (htypes : s.pool.types = t.pool.types) (hf : t.Folds m) :
    s.Folds m :=
  hf.of_tables (fun _ _ hfit => hfit.of_types htypes) h.consts h.exprTypes h.typeDecls
    fun j => .inl (by rw [h.scopes])

theorem Kept.fresh (hX : Fresh X t) : Fresh X s := hX.of_tables h.consts h.exprTypes h.typeDecls

theorem Kept.freshAt (hi : t.FreshAt i) : s.FreshAt i := by
  simp only [FreshAt, Pending, h.consts, h.exprTypes, h.typeDecls]
  exact hi

theorem Kept.untyped (hi : t.Untyped i) : s.Untyped i := by
  simp only [Untyped, Pending, h.exprTypes, h.typeDecls]
  exact hi

theorem Kept.settles : t.Settles s :=
  ⟨fun i => by rw [h.scopes], fun i ty hi => by rw [h.exprTypes]; exact hi, h.declSymbols,
    h.pending⟩

theorem Kept.fitsAt (hg : t.Grows s) (hfit : t.FitsAt i ty) : s.FitsAt i ty := by
  intro v hi
  rw [h.consts] at hi
  exact (hfit v hi).keeps hg.pool.toKeeps

theorem Kept.typedAs (ht : t.TypedAs i ty) : s.TypedAs i ty := ht.settles h.settles

theorem Kept.setsConst : t.SetsConst i s :=
  ⟨h.exprTypes, h.typeDecls, h.scopes, fun j _ => by rw [h.consts], h.declSymbols, h.pending⟩

end Kept

theorem Grows.keeps (h : t.Grows s) : t.pool.Keeps s.pool := h.pool.toKeeps

/-! ### Steps that fold one node -/

theorem SetsConst.trans {s' : CheckState} (h : t.SetsConst i s) (h' : s.SetsConst i s') :
    t.SetsConst i s' :=
  ⟨h'.exprTypes.trans h.exprTypes, h'.typeDecls.trans h.typeDecls, h'.scopes.trans h.scopes,
    fun j hj => (h'.consts j hj).trans (h.consts j hj), h'.declSymbols.trans h.declSymbols,
    h'.pending.trans h.pending⟩

theorem SetsConst.kept_left {s' : CheckState} (h : t.Kept s) (h' : s.SetsConst i s') :
    t.SetsConst i s' :=
  h.setsConst.trans h'

theorem SetsConst.kept_right {s' : CheckState} (h : t.SetsConst i s) (h' : s.Kept s') :
    t.SetsConst i s' :=
  h.trans h'.setsConst

/-- A node that takes the value of a symbol fits the symbol's type. -/
theorem Folds.fitsAt_symbol (hf : t.Folds m) (hk : t.pool.Keeps s.pool) {j : Nat}
    (hc : s.consts[i]? = (t.scopes.symbol j).value) : s.FitsAt i (t.scopes.symbol j).ty := by
  intro v hv
  rw [hc] at hv
  exact (hf.symbols j v hv).2.keeps hk

section SetsConst

variable (h : t.SetsConst i s)
include h

theorem SetsConst.pending_iff {j : Nat} : s.Pending j ↔ t.Pending j := by
  simp only [Pending, h.typeDecls]

theorem SetsConst.untyped {j : Nat} (hj : t.Untyped j) : s.Untyped j := by
  simp only [Untyped, Pending, h.exprTypes, h.typeDecls]
  exact hj

theorem SetsConst.settles : t.Settles s :=
  ⟨fun j => by rw [h.scopes], fun j ty hj => by rw [h.exprTypes]; exact hj, h.declSymbols,
    h.pending⟩

/-- Folding a node that has no type yet and belongs to no unresolved declaration keeps the
invariant. -/
theorem Folds.setsConst (hf : t.Folds m) (hk : t.pool.Keeps s.pool)
    (hnone : t.exprTypes[i]? = none) (hp : ¬ t.Pending i) : s.Folds m where
  exprs j v ty hv ht := by
    rw [h.exprTypes] at ht
    by_cases hji : j = i
    · subst hji
      rw [hnone] at ht
      cases ht
    · rw [h.consts j hji] at hv
      exact (hf.exprs j v ty hv ht).keeps hk
  symbols j v hv := by
    rw [h.scopes] at hv ⊢
    exact (hf.symbols j v hv).imp id fun hfit => hfit.keeps hk
  typeDecls k d st hk' := by
    rw [h.typeDecls] at hk'
    exact hf.typeDecls k d st hk'
  pending k d hk' x hx := by
    rw [h.typeDecls] at hk'
    have hxi : x.id ≠ i := fun hxi => hp ⟨k, d, hk', hxi ▸ List.mem_map_of_mem hx⟩
    rw [h.consts x.id hxi, h.exprTypes]
    exact hf.pending k d hk' x hx

/-- Nodes other than the one folded stay unreached. -/
theorem Fresh.setsConst (hX : Fresh X t) (hi : i ∉ X.map Expr.id) : Fresh X s := by
  intro x hx
  have hxi : x.id ≠ i := fun hxi => hi (hxi ▸ List.mem_map_of_mem hx)
  obtain ⟨hc, he, hp⟩ := hX x hx
  exact ⟨(h.consts x.id hxi).trans hc, h.exprTypes ▸ he, fun hp' => hp (h.pending_iff.mp hp')⟩

end SetsConst

/-- Nodes other than the one typed stay unreached. -/
theorem Fresh.setsType (hX : Fresh X t) (h : t.SetsType i s) (hi : i ∉ X.map Expr.id) :
    Fresh X s := by
  intro x hx
  have hxi : x.id ≠ i := fun hxi => hi (hxi ▸ List.mem_map_of_mem hx)
  obtain ⟨hc, he, hp⟩ := hX x hx
  refine ⟨h.consts ▸ hc, (h.exprTypes x.id hxi).trans he, fun hp' => hp ?_⟩
  simpa only [Pending, h.typeDecls] using hp'

/-! ### Resolving a type declaration -/

@[simp] theorem withTypeDecl_pool (s : CheckState) (d : Decl) (st : TypeDeclState) :
    (s.withTypeDecl d st).pool = s.pool := rfl

@[simp] theorem withTypeDecl_consts (s : CheckState) (d : Decl) (st : TypeDeclState) :
    (s.withTypeDecl d st).consts = s.consts := rfl

@[simp] theorem withTypeDecl_exprTypes (s : CheckState) (d : Decl) (st : TypeDeclState) :
    (s.withTypeDecl d st).exprTypes = s.exprTypes := rfl

@[simp] theorem withTypeDecl_scopes (s : CheckState) (d : Decl) (st : TypeDeclState) :
    (s.withTypeDecl d st).scopes = s.scopes := rfl

theorem withTypeDecl_typeDecl (s : CheckState) (d : Decl) (st : TypeDeclState) {k : Nat} :
    (s.withTypeDecl d st).typeDecls[k]? =
      if d.id = k then some (d, st) else s.typeDecls[k]? := by
  simp only [withTypeDecl, Std.TreeMap.getElem?_insert, compare_eq_iff_eq]

section Resolve

variable {d : Decl} {st : TypeDeclState}

/-- A declaration no longer unresolved leaves only the other unresolved ones. -/
theorem withTypeDecl_unresolved (hst : st ≠ .unresolved) {k : Nat} {d' : Decl}
    (hk : (s.withTypeDecl d st).typeDecls[k]? = some (d', .unresolved)) :
    d.id ≠ k ∧ s.typeDecls[k]? = some (d', .unresolved) := by
  rw [withTypeDecl_typeDecl] at hk
  split at hk
  · cases hk
    exact absurd rfl hst
  · exact ⟨‹_›, hk⟩

theorem Pending.of_withTypeDecl (hst : st ≠ .unresolved) (hp : (s.withTypeDecl d st).Pending i) :
    s.Pending i := by
  obtain ⟨k, d', hk, hi⟩ := hp
  exact ⟨k, d', (withTypeDecl_unresolved hst hk).2, hi⟩

theorem Fresh.withTypeDecl (h : Fresh X s) (hst : st ≠ .unresolved) :
    Fresh X (s.withTypeDecl d st) := by
  intro x hx
  obtain ⟨hc, he, hp⟩ := h x hx
  exact ⟨hc, he, fun hp' => hp (hp'.of_withTypeDecl hst)⟩

/-- Holding a declaration of the module as resolved, or being resolved, keeps the invariant. -/
theorem Folds.withTypeDecl (h : s.Folds m) (hd : d ∈ m.decls) (hst : st ≠ .unresolved) :
    (s.withTypeDecl d st).Folds m where
  exprs := h.exprs
  symbols := h.symbols
  typeDecls k d' st' hk := by
    rw [withTypeDecl_typeDecl] at hk
    split at hk
    · cases hk
      exact ⟨hd, ‹_›⟩
    · exact h.typeDecls k d' st' hk
  pending k d' hk := h.pending k d' (withTypeDecl_unresolved hst hk).2

/-- Once a declaration of a parsed module is no longer unresolved, the nodes of its type are
unreached: they had neither value nor type, and no other declaration shares them. -/
theorem fresh_of_resolving (hm : m.Numbered) (hf : s.Folds m)
    (hk : s.typeDecls[d.id]? = some (d, .unresolved)) (hst : st ≠ .unresolved) :
    Fresh d.ty.subexprs (s.withTypeDecl d st) := by
  have hd := (hf.typeDecls _ _ _ hk).1
  intro x hx
  obtain ⟨hc, he⟩ := hf.pending _ _ hk x hx
  refine ⟨hc, he, ?_⟩
  rintro ⟨k, d', hk', hi⟩
  obtain ⟨hne, hk'⟩ := withTypeDecl_unresolved hst hk'
  obtain ⟨hd', hid⟩ := hf.typeDecls _ _ _ hk'
  have hdd : d ≠ d' := fun h => hne (h ▸ hid)
  have hsub : ∀ e : Decl, ∀ y ∈ e.ty.subexprs, y ∈ e.subexprs := fun e y hy => by
    rw [Decl.subexprs_eq]
    exact List.mem_append_left _ hy
  apply hm.apart hd hd' hdd x (hsub d x hx)
  obtain ⟨y, hy, hxy⟩ := List.mem_map.mp hi
  exact List.mem_map.mpr ⟨y, hsub d' y hy, hxy⟩

/-- The nodes of an unresolved declaration of a parsed module are checked before any nodes not
reached yet: they are numbered, and the others are not nodes of an unresolved declaration. -/
theorem ahead_of_pending (hm : m.Numbered) (hf : s.Folds m) {k : Nat}
    (hk : s.typeDecls[k]? = some (d, .unresolved)) (hR : Fresh R s) : Ahead d.ty.subexprs R := by
  have hd := (hf.typeDecls _ _ _ hk).1
  have hnum := hm.decl hd
  rw [Decl.subexprs_eq] at hnum
  refine ⟨hnum.left, fun x hx hmem => ?_⟩
  obtain ⟨y, hy, hxy⟩ := List.mem_map.mp hmem
  exact (hR y hy).2.2 ⟨k, d, hk, hxy ▸ List.mem_map_of_mem hx⟩

end Resolve

/-! ### Recording the type of a node -/

/-- Recording a type that the node's value fits keeps the invariant, for a node of no
unresolved declaration. -/
theorem Folds.setExprType (h : s.Folds m) (hfit : s.FitsAt i ty) (hp : ¬ s.Pending i) :
    ({ s with exprTypes := s.exprTypes.insert i ty } : CheckState).Folds m where
  exprs j v ty' hv ht := by
    simp only [Std.TreeMap.getElem?_insert] at ht
    split at ht
    · next hij =>
      cases ht
      have : i = j := by simpa using hij
      subst this
      exact hfit v hv
    · exact h.exprs j v ty' hv ht
  symbols := h.symbols
  typeDecls := h.typeDecls
  pending k d hk x hx := by
    refine ⟨(h.pending k d hk x hx).1, ?_⟩
    simp only [Std.TreeMap.getElem?_insert]
    split
    · next hij =>
      have : i = x.id := by simpa using hij
      exact absurd ⟨k, d, hk, this ▸ List.mem_map_of_mem hx⟩ hp
    · exact (h.pending k d hk x hx).2

end Frame

end CheckState

end SolarFront
