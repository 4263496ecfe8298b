import SolarFront.Proofs.Check.BudgetFrame
import SolarFront.Proofs.Syntax.Size

/-!
# The typing functions never run out of fuel

The typing functions recurse into one another with one shared fuel, one unit per call. Most calls
go to a node inside the current one; the only call that leaves the current node is the one that
resolves a module-level type declaration on first use, and it marks the declaration as being
resolved (or done, for a struct or union) before it descends into the declaration's type, so no
chain of calls enters one declaration twice.

So fuel `8 * (nodes of the current node + nodes of the types still unresolved) + rank` is
enough: each node pays for the few calls made on it along a chain (at most five), the rank
orders the functions that call one another on the same node, and resolving a declaration is
paid for by the nodes of its type, which leave the count of the unresolved ones as it starts.
`Sim ds n ℓ x y` states this budget for one call: from a state whose unresolved declarations
(all of them declarations of `ds`) leave `ℓ` of the fuel `n`, the run of `x` with any budget is
the run of `y` with that budget put back, and `y` only moves the declarations on. `Settled ds n`
says it for each typing function at fuel `n` against every larger fuel, and holds at every fuel.
-/

set_option autoImplicit false
set_option linter.all false

namespace SolarFront

namespace CheckState

/-- The state holds declarations of `ds` only as type declarations, each one a type declaration
under its own identifier. -/
def TypeDeclsFrom (ds : List Decl) (s : CheckState) : Prop :=
  ∀ (k : Nat) (d : Decl) (st : TypeDeclState), s.typeDecls[k]? = some (d, st) →
    d ∈ ds ∧ d.id = k ∧ d.kind = .type

/-- The nodes of the type of a type declaration `d` when the state holds its identifier
unresolved; none otherwise. -/
def unresolvedNodes (s : CheckState) (d : Decl) : Nat :=
  match s.typeDecls[d.id]? with
  | some (_, .unresolved) => d.typeSize
  | _ => 0

/-- The nodes of the types of the declarations of `ds` still unresolved. -/
def unresolvedSize (ds : List Decl) (s : CheckState) : Nat := (ds.map s.unresolvedNodes).sum

/-- From `s` to `s'` the type declarations only moved on: each stays held under its key, none
becomes unresolved again, none appears, and the bodies waiting for the last pass stay. -/
structure Advances (s s' : CheckState) : Prop where
  persist : ∀ (k : Nat) (d : Decl) (st : TypeDeclState), s.typeDecls[k]? = some (d, st) →
    ∃ st', s'.typeDecls[k]? = some (d, st')
  origin : ∀ (k : Nat) (d : Decl) (st' : TypeDeclState), s'.typeDecls[k]? = some (d, st') →
    ∃ st, s.typeDecls[k]? = some (d, st) ∧ (st' = .unresolved → st = .unresolved)
  pending : s'.pending = s.pending

namespace Advances

variable {s t u : CheckState}

theorem trans (h : Advances s t) (h' : Advances t u) : Advances s u where
  persist k d st hk := by
    obtain ⟨st', hk'⟩ := h.persist k d st hk
    exact h'.persist k d st' hk'
  origin k d st hk := by
    obtain ⟨st', hk', hu'⟩ := h'.origin k d st hk
    obtain ⟨st'', hk'', hu''⟩ := h.origin k d st' hk'
    exact ⟨st'', hk'', fun hu => hu'' (hu' hu)⟩
  pending := h'.pending.trans h.pending

theorem of_eq (ht : t.typeDecls = s.typeDecls) (hp : t.pending = s.pending) : Advances s t where
  persist _ _ st h := ⟨st, by rw [ht]; exact h⟩
  origin _ _ st h := ⟨st, by rw [← ht]; exact h, id⟩
  pending := hp

/-- A declaration unresolved at the end was unresolved at the start. -/
theorem unresolvedNodes_le (h : Advances s t) (d : Decl) :
    t.unresolvedNodes d ≤ s.unresolvedNodes d := by
  unfold unresolvedNodes
  split
  · rename_i d' hk
    obtain ⟨st, hs, hu⟩ := h.origin _ _ _ hk
    rw [hs, hu rfl]
  · exact Nat.zero_le _

theorem unresolvedSize_le (h : Advances s t) (ds : List Decl) :
    t.unresolvedSize ds ≤ s.unresolvedSize ds :=
  List.sum_le_sum fun d _ => h.unresolvedNodes_le d

end Advances

theorem TypeDeclsFrom.advance {ds : List Decl} {s t : CheckState} (hs : s.TypeDeclsFrom ds)
    (h : Advances s t) : t.TypeDeclsFrom ds := fun k d st hk => by
  obtain ⟨st₀, hk₀, -⟩ := h.origin k d st hk
  exact hs k d st₀ hk₀

/-- Only a type declaration has unresolved nodes, and at most those of its type. -/
theorem unresolvedNodes_le_typeSize (s : CheckState) (d : Decl) :
    s.unresolvedNodes d ≤ d.typeSize := by
  unfold unresolvedNodes
  split
  · exact le_rfl
  · exact Nat.zero_le _

theorem unresolvedSize_le_typeSize (s : CheckState) (ds : List Decl) :
    s.unresolvedSize ds ≤ (ds.map Decl.typeSize).sum :=
  List.sum_le_sum fun d _ => s.unresolvedNodes_le_typeSize d

end CheckState

namespace Check

open CheckM CheckState

variable {α β : Type} {ds : List Decl}

theorem typeDecls_setTypeDeclState (d : Decl) (st : TypeDeclState) (s : CheckState) (k : Nat) :
    ((setTypeDeclState d st).run s).2.typeDecls[k]? =
      if d.id = k then some (d, st) else s.typeDecls[k]? := by
  show (s.typeDecls.insert d.id (d, st))[k]? = _
  simp only [Std.TreeMap.getElem?_insert, compare_eq_iff_eq]

/-- Setting a held declaration to a state other than unresolved moves the declarations on. -/
theorem advances_setTypeDeclState {d : Decl} {st : TypeDeclState} {s : CheckState}
    (hd : ∃ st₀, s.typeDecls[d.id]? = some (d, st₀)) (hst : st ≠ .unresolved) :
    Advances s ((setTypeDeclState d st).run s).2 where
  persist k d' st' hk := by
    rw [typeDecls_setTypeDeclState]
    split
    · rename_i hid
      obtain ⟨st₀, hd⟩ := hd
      rw [← hid, hd] at hk
      cases hk
      exact ⟨st, rfl⟩
    · exact ⟨st', hk⟩
  origin k d' st' hk := by
    rw [typeDecls_setTypeDeclState] at hk
    split at hk
    · rename_i hid
      cases hk
      obtain ⟨st₀, hd⟩ := hd
      exact ⟨st₀, hid ▸ hd, fun hu => absurd hu hst⟩
    · exact ⟨st', hk, id⟩
  pending := rfl

/-- Resolving an unresolved declaration of `ds` takes the nodes of its type off the count. -/
theorem unresolvedSize_setTypeDeclState {d : Decl} {st : TypeDeclState} {s : CheckState}
    (hs : s.TypeDeclsFrom ds) (hd : s.typeDecls[d.id]? = some (d, .unresolved))
    (hst : st ≠ .unresolved) :
    ((setTypeDeclState d st).run s).2.unresolvedSize ds + d.ty.size ≤ s.unresolvedSize ds := by
  obtain ⟨hmem, -, hkind⟩ := hs _ _ _ hd
  have hadv := advances_setTypeDeclState ⟨_, hd⟩ hst
  refine sum_map_add_le hmem (fun x _ => hadv.unresolvedNodes_le x) ?_
  have hnow : ((setTypeDeclState d st).run s).2.unresolvedNodes d = 0 := by
    unfold unresolvedNodes
    rw [typeDecls_setTypeDeclState, if_pos rfl]
    cases st <;> simp_all
  have hbefore : s.unresolvedNodes d = d.ty.size := by
    unfold unresolvedNodes Decl.typeSize
    rw [hd, hkind]
  omega

/-! ## One call at a time -/

/-- From `s`, `x` run with any budget does what `y` does, with the budget put back, and `y` only
moves the type declarations on. -/
structure Agrees (x y : CheckM α) (s : CheckState) : Prop where
  advances : Advances s (y.run s).2
  oblivious : ∀ B, x.run (s.withBudget B) = ((y.run s).1, (y.run s).2.withBudget B)

theorem Agrees.bind {x y : CheckM α} {k k' : α → CheckM β} {s : CheckState}
    (hx : Agrees x y s) (hk : Agrees (k (y.run s).1) (k' (y.run s).1) (y.run s).2) :
    Agrees (x >>= k) (y >>= k') s where
  advances := hx.advances.trans hk.advances
  oblivious B := by rw [run_bind, run_bind, hx.oblivious B, hk.oblivious B]

theorem Agrees.of_plain {x : CheckM α} (hx : Plain x) (s : CheckState) : Agrees x x s :=
  ⟨.of_eq (hx.typeDecls s) (hx.pending s), hx.oblivious s⟩

/-- With fuel `n` for the unresolved declarations of `ds` and `ℓ` more, `x` run with any budget
does what `y` does, and `y` only moves the type declarations on. -/
def Sim (ds : List Decl) (n ℓ : Nat) (x y : CheckM α) : Prop :=
  ∀ s, s.TypeDeclsFrom ds → 8 * s.unresolvedSize ds + ℓ ≤ n → Agrees x y s

namespace Sim

variable {n ℓ ℓ' : Nat} {x y : CheckM α} {k k' : α → CheckM β}

theorem of_plain (hx : Plain x) : Sim ds n ℓ x x := fun s _ _ => .of_plain hx s

theorem pure (a : α) : Sim ds n ℓ (Pure.pure a : CheckM α) (Pure.pure a) := of_plain (.pure a)

theorem bind (hx : Sim ds n ℓ x y) (hk : ∀ a, Sim ds n ℓ (k a) (k' a)) :
    Sim ds n ℓ (x >>= k) (y >>= k') := fun s hs hb => by
  have hx' := hx s hs hb
  have hle := hx'.advances.unresolvedSize_le ds
  exact hx'.bind (hk _ _ (hs.advance hx'.advances) (by omega))

theorem map (f : α → β) (hx : Sim ds n ℓ x y) : Sim ds n ℓ (f <$> x) (f <$> y) :=
  hx.bind fun _ => pure _

theorem discard (hx : Sim ds n ℓ x y) : Sim ds n ℓ (Functor.discard x) (Functor.discard y) :=
  hx.map _

/-- A call at fuel `n` made by a function at fuel `n + 1` of a rank above it. -/
theorem lift (h : Sim ds n ℓ x y) (hℓ : ℓ + 1 ≤ ℓ') : Sim ds (n + 1) ℓ' x y :=
  fun s hs hb => h s hs (by omega)

/-- A call at a fuel `m ≥ n + 1` is one at `m' + 1` for some `m' ≥ n`; step lemmas are stated
at such fuels. -/
theorem of_succ {f : Nat → CheckM α} (h : ∀ m, n ≤ m → Sim ds (n + 1) ℓ (f (m + 1)) y) :
    ∀ m, n + 1 ≤ m → Sim ds (n + 1) ℓ (f m) y
  | 0, hm => absurd hm (by omega)
  | m + 1, hm => h m (by omega)

/-- Out of fuel for the rank, nothing is claimed. -/
theorem of_lt (h : n < ℓ) : Sim ds n ℓ x y := fun _ _ hb => absurd hb (by omega)

/-- A step that reads the state, argued for the state it reads. -/
theorem get_bind_at {k k' : CheckState → CheckM α} (hk : ∀ s B, k (s.withBudget B) = k s)
    (hk' : ∀ s, s.TypeDeclsFrom ds → 8 * s.unresolvedSize ds + ℓ ≤ n → Agrees (k s) (k' s) s) :
    Sim ds n ℓ (get >>= k) (get >>= k') :=
  fun s hs hb => by
    have h := hk' s hs hb
    refine ⟨h.advances, fun B => ?_⟩
    rw [run_bind, run_bind]
    exact (hk s B).symm ▸ h.oblivious B

/-- A step that reads the state: the same on both sides, and blind to the budget. -/
theorem get_bind {k k' : CheckState → CheckM α} (hk : ∀ s B, k (s.withBudget B) = k s)
    (hk' : ∀ s₀, Sim ds n ℓ (k s₀) (k' s₀)) : Sim ds n ℓ (get >>= k) (get >>= k') :=
  get_bind_at hk fun s hs hb => hk' s s hs hb

end Sim

/-- Marking a held declaration as being resolved or done. -/
theorem agrees_setTypeDeclState {d : Decl} {st : TypeDeclState} {s : CheckState}
    (hd : ∃ st₀, s.typeDecls[d.id]? = some (d, st₀)) (hst : st ≠ .unresolved) :
    Agrees (setTypeDeclState d st) (setTypeDeclState d st) s :=
  ⟨advances_setTypeDeclState hd hst, fun _ => rfl⟩

/-! ## Every typing function at every fuel -/

/-- Each typing function at fuel `n` agrees with itself at any larger fuel, given fuel for the
nodes of its argument and for the unresolved declarations, and a rank above those it calls on
the same node. -/
structure Settled (ds : List Decl) (n : Nat) : Prop where
  type : ∀ (t : TypeExpr) (m : Nat), n ≤ m →
    Sim ds n (8 * t.size + 2) (resolveType m t) (resolveType n t)
  params : ∀ (ps : List TypeExpr) (m : Nat), n ≤ m →
    Sim ds n (8 * TypeExpr.listSize ps + 3) (resolveParams m ps) (resolveParams n ps)
  typeName : ∀ (name : String) (span : Span) (m : Nat), n ≤ m →
    Sim ds n 5 (resolveTypeName m name span) (resolveTypeName n name span)
  symbolType : ∀ (sym m : Nat), n ≤ m → Sim ds n 4 (typeSymbolType m sym) (typeSymbolType n sym)
  typeDecl : ∀ (declId sym m : Nat), n ≤ m →
    Sim ds n 3 (ensureTypeDecl m declId sym) (ensureTypeDecl n declId sym)
  record : ∀ (node : TypeExpr) (kind : RecordKind) (name : Option String)
      (members : List MemberDecl) (binding : Option Nat) (m : Nat), n ≤ m →
    Sim ds n (8 * MemberDecl.listSize members + 4) (defineRecord m node kind name members binding)
      (defineRecord n node kind name members binding)
  members : ∀ (seen : List (String × Span)) (ms : List MemberDecl) (m : Nat), n ≤ m →
    Sim ds n (8 * MemberDecl.listSize ms + 3) (resolveMembers m seen ms)
      (resolveMembers n seen ms)
  expr : ∀ (e : Expr) (m : Nat), n ≤ m → Sim ds n (8 * e.size + 1) (checkExpr m e) (checkExpr n e)
  value : ∀ (e : Expr) (m : Nat), n ≤ m →
    Sim ds n (8 * e.size + 2) (checkValue m e) (checkValue n e)
  condition : ∀ (e : Expr) (m : Nat), n ≤ m →
    Sim ds n (8 * e.size + 3) (checkCondition m e) (checkCondition n e)
  values : ∀ (es : List Expr) (m : Nat), n ≤ m →
    Sim ds n (8 * Expr.listSize es + 3) (checkValues m es) (checkValues n es)
  sequence : ∀ (ty : TypeId) (es : List Expr) (m : Nat), n ≤ m →
    Sim ds n (8 * Expr.listSize es + 2) (checkSequence m ty es) (checkSequence n ty es)
  infer : ∀ (e : Expr) (m : Nat), n ≤ m → Sim ds n (8 * e.size) (inferExpr m e) (inferExpr n e)
  sizeofOperand : ∀ (e : Expr) (m : Nat), n ≤ m →
    Sim ds n (8 * e.size) (sizeofTypeOperand m e) (sizeofTypeOperand n e)
  init : ∀ (e : Expr) (ty : TypeId) (m : Nat), n ≤ m →
    Sim ds n (8 * e.size + 3) (checkInit m e ty) (checkInit n e ty)
  arrayInit : ∀ (elements : List Expr) (ty : TypeId) (span : Span) (m : Nat), n ≤ m →
    Sim ds n (8 * Expr.listSize elements + 5) (checkArrayInit m elements ty span)
      (checkArrayInit n elements ty span)
  inits : ∀ (es : List Expr) (ty : TypeId) (m : Nat), n ≤ m →
    Sim ds n (8 * Expr.listSize es + 4) (checkInits m es ty) (checkInits n es ty)
  recordInit : ∀ (kind : RecordKind) (fields : List FieldInit) (ty : TypeId) (span : Span)
      (m : Nat), n ≤ m →
    Sim ds n (8 * FieldInit.listSize fields + 5) (checkRecordInit m kind fields ty span)
      (checkRecordInit n kind fields ty span)
  fields : ∀ (rid : Nat) (ty : TypeId) (fs : List FieldInit) (m : Nat), n ≤ m →
    Sim ds n (8 * FieldInit.listSize fs + 4) (checkFields m rid ty fs) (checkFields n rid ty fs)

/-- At fuel zero no call has fuel for its rank, so nothing is claimed. -/
theorem settled_zero : Settled ds 0 := by
  constructor <;> intros <;> apply Sim.of_lt
  all_goals first
    | omega
    | have := Expr.size_pos ‹_›; omega

section Step

variable {n : Nat} (ih : Settled ds n)
include ih

theorem Settled.resolveType_succ (t : TypeExpr) (m : Nat) (hm : n ≤ m) :
    Sim ds (n + 1) (8 * t.size + 2) (resolveType (m + 1) t) (resolveType (n + 1) t) := by
  obtain ⟨id, span, volatile, kind⟩ := t
  simp only [resolveType, TypeExpr.kind, TypeExpr.span, TypeExpr.id]
  have htail : ∀ ty : TypeId, Sim ds (n + 1) (8 * (TypeExpr.mk id span volatile kind).size + 2)
      (setTypeNode id ty >>= fun _ => pure ty) (setTypeNode id ty >>= fun _ => pure ty) :=
    fun _ => .of_plain ((setTypeNode_plain _ _).bind fun _ => .pure _)
  -- by the form of the type; each part is a smaller node
  cases kind with
  | void => exact (Sim.pure _).bind htail
  | int w => exact (Sim.pure _).bind htail
  | ref name =>
    exact ((ih.typeName name span m hm).lift (by simp only [TypeExpr.size]; omega)).bind htail
  | array inner size =>
    refine ((ih.type inner m hm).lift ?_).bind fun elem => ?_
    · cases size <;> simp only [TypeExpr.size, TypeExprKind.size] <;> omega
    cases size with
    | none => exact (Sim.of_plain (pointer_plain _)).bind htail
    | some size =>
      refine ((ih.value size m hm).lift ?_).bind fun _ =>
        (Sim.of_plain (sizedArrayResult_plain ..)).bind htail
      simp only [TypeExpr.size, TypeExprKind.size]
      omega
  | func ret params variadic =>
    refine ((ih.type ret m hm).lift ?_).bind fun r =>
      ((ih.params params m hm).lift ?_).bind fun ps => (Sim.of_plain (func_plain ..)).bind htail
    all_goals simp only [TypeExpr.size, TypeExprKind.size]; omega
  | record kind members =>
    refine ((ih.record _ kind none members none m hm).lift ?_).bind htail
    simp only [TypeExpr.size, TypeExprKind.size]
    omega
  | typeOf e =>
    refine ((ih.expr e m hm).lift ?_).bind htail
    simp only [TypeExpr.size, TypeExprKind.size]
    omega

theorem Settled.resolveParams_succ (ps : List TypeExpr) (m : Nat) (hm : n ≤ m) :
    Sim ds (n + 1) (8 * TypeExpr.listSize ps + 3) (resolveParams (m + 1) ps)
      (resolveParams (n + 1) ps) := by
  cases ps with
  | nil => exact .pure _
  | cons p ps =>
    simp only [resolveParams]
    refine ((ih.type p m hm).lift ?_).bind fun t => (Sim.of_plain (paramType_plain _ _)).bind
      fun ty => ((ih.params ps m hm).lift ?_).bind fun rest => .pure _
    all_goals
      have := p.size_pos
      simp only [TypeExpr.listSize]
      omega

theorem Settled.resolveTypeName_succ (name : String) (span : Span) (m : Nat) (hm : n ≤ m) :
    Sim ds (n + 1) 5 (resolveTypeName (m + 1) name span) (resolveTypeName (n + 1) name span) := by
  simp only [resolveTypeName]
  refine .get_bind (fun _ _ => rfl) fun s₀ => ?_
  split
  · exact .of_plain ((report_plain _).bind fun _ => .pure _)
  refine (Sim.of_plain (symbol_plain _)).bind fun sy => ?_
  split
  · exact .of_plain ((fail_plain ..).bind fun _ => .pure _)
  · exact (ih.symbolType _ m hm).lift le_rfl

theorem Settled.typeSymbolType_succ (sym m : Nat) (hm : n ≤ m) :
    Sim ds (n + 1) 4 (typeSymbolType (m + 1) sym) (typeSymbolType (n + 1) sym) := by
  simp only [typeSymbolType]
  refine (Sim.of_plain (symbol_plain _)).bind fun sy => ?_
  split
  · exact ((ih.typeDecl _ sym m hm).lift le_rfl).bind fun _ =>
      .of_plain ((symbol_plain _).bind fun _ => .pure _)
  · exact .of_plain ((symbol_plain _).bind fun _ => .pure _)

theorem Settled.ensureTypeDecl_succ (declId sym m : Nat) (hm : n ≤ m) :
    Sim ds (n + 1) 3 (ensureTypeDecl (m + 1) declId sym) (ensureTypeDecl (n + 1) declId sym) := by
  simp only [ensureTypeDecl]
  refine Sim.get_bind_at (fun _ _ => rfl) fun s hs hb => ?_
  split
  · exact .of_plain (.pure _) s
  · exact .of_plain (.pure _) s
  · exact .of_plain ((report_plain _).bind fun _ => modifySymbol_plain _ _) s
  rename_i d hd
  rw [Std.TreeMap.get?_eq_getElem?] at hd
  obtain ⟨-, rfl, -⟩ := hs _ _ _ hd
  -- the declaration leaves the unresolved ones before its type is resolved
  split
  · rename_i kind members hkind
    have hsize : d.ty.size = MemberDecl.listSize members + 1 := by
      rw [TypeExpr.size_eq, hkind, TypeExprKind.size]
    have hU := unresolvedSize_setTypeDeclState hs hd (by decide : TypeDeclState.done ≠ .unresolved)
    have hset := agrees_setTypeDeclState ⟨_, hd⟩ (by decide : TypeDeclState.done ≠ .unresolved)
    refine hset.bind ((ih.record _ _ _ _ _ m hm _ (hs.advance hset.advances) ?_).bind
      (.of_plain (setDeclType_plain _ _) _))
    omega
  · have hU := unresolvedSize_setTypeDeclState hs hd (by decide : TypeDeclState.resolving ≠ .unresolved)
    have hset := agrees_setTypeDeclState ⟨_, hd⟩ (by decide : TypeDeclState.resolving ≠ .unresolved)
    have hty := ih.type d.ty m hm _ (hs.advance hset.advances) (by omega)
    have hheld : ∃ st, ((resolveType n d.ty).run ((setTypeDeclState d .resolving).run s).2).2
        |>.typeDecls[d.id]? = some (d, st) :=
      hty.advances.persist _ _ .resolving (by simp [typeDecls_setTypeDeclState])
    refine hset.bind (hty.bind ((agrees_setTypeDeclState hheld (by decide)).bind
      (.of_plain ((symbol_plain _).bind fun _ => ?_) _)))
    split
    · exact (modifySymbol_plain _ _).bind fun _ => (symbol_plain _).bind fun _ =>
        (Plain.pure _).bind fun _ => setDeclType_plain _ _
    · exact (symbol_plain _).bind fun _ => (Plain.pure _).bind fun _ => setDeclType_plain _ _

theorem Settled.defineRecord_succ (node : TypeExpr) (kind : RecordKind) (name : Option String)
    (members : List MemberDecl) (binding : Option Nat) (m : Nat) (hm : n ≤ m) :
    Sim ds (n + 1) (8 * MemberDecl.listSize members + 4)
      (defineRecord (m + 1) node kind name members binding)
      (defineRecord (n + 1) node kind name members binding) := by
  simp only [defineRecord]
  exact (Sim.of_plain (openRecord_plain ..)).bind fun ⟨rid, ty⟩ =>
    ((ih.members [] members m hm).lift le_rfl).bind fun ms =>
      .of_plain ((closeRecord_plain _ _).bind fun _ => .pure _)

theorem Settled.resolveMembers_succ (seen : List (String × Span)) (ms : List MemberDecl) (m : Nat)
    (hm : n ≤ m) :
    Sim ds (n + 1) (8 * MemberDecl.listSize ms + 3) (resolveMembers (m + 1) seen ms)
      (resolveMembers (n + 1) seen ms) := by
  cases ms with
  | nil => exact .pure _
  | cons md ms =>
    obtain ⟨name, t, bits, span⟩ := md
    simp only [resolveMembers, MemberDecl.ty]
    refine ((ih.type t m hm).lift ?_).bind fun ty =>
      (Sim.of_plain (memberResult_plain _ _ _)).bind fun ⟨member?, seen⟩ =>
        ((ih.members seen ms m hm).lift ?_).bind fun rest => .pure _
    all_goals
      have := t.size_pos
      simp only [MemberDecl.listSize]
      omega

theorem Settled.checkExpr_succ (e : Expr) (m : Nat) (hm : n ≤ m) :
    Sim ds (n + 1) (8 * e.size + 1) (checkExpr (m + 1) e) (checkExpr (n + 1) e) := by
  simp only [checkExpr]
  exact ((ih.infer e m hm).lift le_rfl).bind fun ty =>
    .of_plain ((setExprType_plain _ _).bind fun _ => .pure _)

theorem Settled.checkValue_succ (e : Expr) (m : Nat) (hm : n ≤ m) :
    Sim ds (n + 1) (8 * e.size + 2) (checkValue (m + 1) e) (checkValue (n + 1) e) := by
  simp only [checkValue]
  refine ((ih.expr e m hm).lift le_rfl).bind fun ty => ?_
  split
  · exact .of_plain ((fail_plain ..).bind fun _ => .pure _)
  · exact .pure _

theorem Settled.checkCondition_succ (e : Expr) (m : Nat) (hm : n ≤ m) :
    Sim ds (n + 1) (8 * e.size + 3) (checkCondition (m + 1) e) (checkCondition (n + 1) e) := by
  simp only [checkCondition]
  refine ((ih.value e m hm).lift le_rfl).bind fun ty => .of_plain ?_
  refine .get_bind (fun _ _ => rfl) fun s => ?_
  split
  · exact (fmt_plain _).bind fun _ => (fail_plain ..).bind fun _ => .pure _
  · exact .pure _

theorem Settled.checkValues_succ (es : List Expr) (m : Nat) (hm : n ≤ m) :
    Sim ds (n + 1) (8 * Expr.listSize es + 3) (checkValues (m + 1) es) (checkValues (n + 1) es) := by
  cases es with
  | nil => exact .pure _
  | cons e es =>
    simp only [checkValues]
    refine ((ih.value e m hm).lift ?_).bind fun ty =>
      ((ih.values es m hm).lift ?_).bind fun rest => .pure _
    all_goals
      have := e.size_pos
      simp only [Expr.listSize]
      omega

theorem Settled.checkSequence_succ (ty : TypeId) (es : List Expr) (m : Nat) (hm : n ≤ m) :
    Sim ds (n + 1) (8 * Expr.listSize es + 2) (checkSequence (m + 1) ty es)
      (checkSequence (n + 1) ty es) := by
  cases es with
  | nil => exact .pure _
  | cons e es =>
    simp only [checkSequence]
    refine ((ih.expr e m hm).lift ?_).bind fun ty => (ih.sequence ty es m hm).lift ?_
    all_goals
      have := e.size_pos
      simp only [Expr.listSize]
      omega

theorem Settled.inferExpr_succ (e : Expr) (m : Nat) (hm : n ≤ m) :
    Sim ds (n + 1) (8 * e.size) (inferExpr (m + 1) e) (inferExpr (n + 1) e) := by
  obtain ⟨id, span, kind⟩ := e
  simp only [inferExpr]
  -- by the form of the expression; every operand is a smaller node, so every call on one
  -- has fuel for its rank
  cases kind with
  | name x => exact .of_plain (nameResult_plain _ _ _)
  | int value width =>
    refine .of_plain ((setConst_plain _ _).bind fun _ => ?_)
    cases width
    · exact .pure _
    · exact .pure _
    · exact pointer_plain _
  | str units encoding => exact .of_plain (array_plain _ _)
  | sizeofExpr operand =>
    refine ((ih.sizeofOperand operand m hm).lift ?_).bind fun ty? => ?_
    · simp only [Expr.size, ExprKind.size]; omega
    cases ty? with
    | some ty => exact (Sim.pure _).bind fun ty => .of_plain (sizeofResult_plain _ _ _)
    | none =>
      exact ((ih.expr operand m hm).lift (by simp only [Expr.size, ExprKind.size]; omega)).bind
        fun ty => .of_plain (sizeofResult_plain _ _ _)
  | sizeofType t =>
    exact ((ih.type t m hm).lift (by simp only [Expr.size, ExprKind.size]; omega)).bind fun ty =>
      .of_plain (sizeofResult_plain _ _ _)
  | call f args =>
    refine ((ih.value f m hm).lift ?_).bind fun callee => ((ih.values args m hm).lift ?_).bind
      fun argTypes => .of_plain (callResult_plain _ _ _ _)
    all_goals simp only [Expr.size, ExprKind.size]; omega
  | index a i =>
    refine ((ih.value a m hm).lift ?_).bind fun base => ((ih.value i m hm).lift ?_).bind
      fun indexTy => .of_plain (indexResult_plain _ _ _ _)
    all_goals simp only [Expr.size, ExprKind.size]; omega
  | access r member memberSpan =>
    exact ((ih.value r m hm).lift (by simp only [Expr.size, ExprKind.size]; omega)).bind fun ty =>
      .of_plain (accessResult_plain _ _ _)
  | cast inner t signed =>
    refine ((ih.expr inner m hm).lift ?_).bind fun source => ((ih.type t m hm).lift ?_).bind
      fun target => .of_plain (castResult_plain _ _ _ _ _ _)
    all_goals simp only [Expr.size, ExprKind.size]; omega
  | deref inner =>
    exact ((ih.value inner m hm).lift (by simp only [Expr.size, ExprKind.size]; omega)).bind
      fun ty => .of_plain (derefResult_plain _ _)
  | addrOf inner =>
    exact ((ih.expr inner m hm).lift (by simp only [Expr.size, ExprKind.size]; omega)).bind
      fun ty => .of_plain (addrOfResult_plain _ _)
  | unary op operand =>
    exact ((ih.value operand m hm).lift (by simp only [Expr.size, ExprKind.size]; omega)).bind
      fun ty => .of_plain (unaryResult_plain _ _ _ _ _)
  | not operand =>
    exact (((ih.condition operand m hm).lift
      (by simp only [Expr.size, ExprKind.size]; omega)).discard).bind fun _ =>
        .of_plain ((constOf_plain _).bind fun _ => (setConst_plain _ _).bind fun _ => .pure _)
  | binary op l r =>
    refine ((ih.value l m hm).lift ?_).bind fun lt => ((ih.value r m hm).lift ?_).bind
      fun rt => .of_plain ((arithResult_plain _ _ _ _ _).bind fun ty =>
        (foldArith_plain _ _ _ _ _).bind fun _ => .pure _)
    all_goals simp only [Expr.size, ExprKind.size]; omega
  | cond op l r =>
    dsimp only
    split
    · refine ((ih.condition l m hm).lift ?_).bind fun lt => ((ih.condition r m hm).lift ?_).bind
        fun rt => .of_plain (condResult_plain _ _ _ _ _ _ _)
      all_goals simp only [Expr.size, ExprKind.size]; omega
    · refine ((ih.value l m hm).lift ?_).bind fun lt => ((ih.value r m hm).lift ?_).bind
        fun rt => .of_plain (condResult_plain _ _ _ _ _ _ _)
      all_goals simp only [Expr.size, ExprKind.size]; omega
  | ternary c t e =>
    refine (((ih.condition c m hm).lift ?_).discard).bind fun _ =>
      ((ih.value t m hm).lift ?_).bind fun thenTy => ((ih.value e m hm).lift ?_).bind
        fun elseTy => .of_plain (ternaryResult_plain _ _ _ _ _ _)
    all_goals simp only [Expr.size, ExprKind.size]; omega
  | assign op target value =>
    refine ((ih.expr target m hm).lift ?_).bind fun targetTy =>
      ((ih.value value m hm).lift ?_).bind fun valueTy =>
        .of_plain (assignResult_plain _ _ _ _ _ _)
    all_goals simp only [Expr.size, ExprKind.size]; omega
  | comma es =>
    exact (ih.sequence _ es m hm).lift (by simp only [Expr.size, ExprKind.size]; omega)
  | arrayInit es => exact .of_plain ((fail_plain ..).bind fun _ => .pure _)
  | recordInit kind fs => exact .of_plain ((fail_plain ..).bind fun _ => .pure _)

theorem Settled.sizeofTypeOperand_succ (e : Expr) (m : Nat) (hm : n ≤ m) :
    Sim ds (n + 1) (8 * e.size) (sizeofTypeOperand (m + 1) e) (sizeofTypeOperand (n + 1) e) := by
  obtain ⟨id, span, kind⟩ := e
  -- the recording of the found type is pushed into each way of finding it
  simp only [sizeofTypeOperand, pure_bind, bind_map_left]
  cases kind
  case name x =>
    refine .get_bind (fun _ _ => rfl) fun s₀ => ?_
    split
    · exact .pure _
    refine (Sim.of_plain (symbol_plain _)).bind fun sy => ?_
    split
    · exact .pure _
    · exact (Sim.of_plain (bind_plain _ _)).bind fun _ =>
        ((ih.symbolType _ m hm).lift (by simp only [Expr.size]; omega)).bind fun _ =>
          .of_plain ((setExprType_plain _ _).bind fun _ => .pure _)
  case deref inner =>
    refine ((ih.sizeofOperand inner m hm).lift (by simp only [Expr.size, ExprKind.size]; omega)).bind
      fun target? => ?_
    split
    · exact .pure _
    split
    · exact .of_plain ((setExprType_plain _ _).bind fun _ => .pure _)
    · exact .of_plain ((pointer_plain _).bind fun _ => (setExprType_plain _ _).bind fun _ => .pure _)
  all_goals exact .pure _

theorem Settled.checkInit_succ (e : Expr) (ty : TypeId) (m : Nat) (hm : n ≤ m) :
    Sim ds (n + 1) (8 * e.size + 3) (checkInit (m + 1) e ty) (checkInit (n + 1) e ty) := by
  obtain ⟨id, span, kind⟩ := e
  simp only [checkInit, Expr.kind, Expr.span, Expr.id]
  -- braces are checked against the type; any other initializer is a value
  cases kind
  case arrayInit es =>
    exact ((ih.arrayInit es ty span m hm).lift (by simp only [Expr.size, ExprKind.size]; omega)).bind
      fun _ => .of_plain ((setExprType_plain _ _).bind fun _ => .pure _)
  case recordInit kind fs =>
    exact ((ih.recordInit kind fs ty span m hm).lift
      (by simp only [Expr.size, ExprKind.size]; omega)).bind
        fun _ => .of_plain ((setExprType_plain _ _).bind fun _ => .pure _)
  case str units encoding =>
    exact ((ih.expr _ m hm).lift (by omega)).bind fun _ => .of_plain (stringInitResult_plain _ _ _)
  all_goals
    exact ((ih.value _ m hm).lift le_rfl).bind fun _ =>
      .of_plain ((checkAssignable_plain ..).discard.bind fun _ => .pure _)

theorem Settled.checkArrayInit_succ (elements : List Expr) (ty : TypeId) (span : Span) (m : Nat)
    (hm : n ≤ m) :
    Sim ds (n + 1) (8 * Expr.listSize elements + 5) (checkArrayInit (m + 1) elements ty span)
      (checkArrayInit (n + 1) elements ty span) := by
  have hinits : ∀ ty, Sim ds (n + 1) (8 * Expr.listSize elements + 5) (checkInits m elements ty)
      (checkInits n elements ty) := fun ty => (ih.inits elements ty m hm).lift le_rfl
  simp only [checkArrayInit]
  split
  · exact (hinits _).bind fun _ => .pure _
  refine (Sim.of_plain (typeData_plain _)).bind fun td => ?_
  split
  · exact (hinits _).bind fun _ => .of_plain (arrayInitResult_plain _ _ _ _ _)
  · exact (hinits _).bind fun _ =>
      .of_plain ((fmt_plain _).bind fun _ => (fail_plain ..).bind fun _ => .pure _)

theorem Settled.checkInits_succ (es : List Expr) (ty : TypeId) (m : Nat) (hm : n ≤ m) :
    Sim ds (n + 1) (8 * Expr.listSize es + 4) (checkInits (m + 1) es ty) (checkInits (n + 1) es ty) := by
  cases es with
  | nil => exact .pure _
  | cons e es =>
    simp only [checkInits]
    refine ((ih.init e ty m hm).lift ?_).discard.bind fun _ => (ih.inits es ty m hm).lift ?_
    all_goals
      have := e.size_pos
      simp only [Expr.listSize]
      omega

theorem Settled.checkRecordInit_succ (kind : RecordKind) (fields : List FieldInit) (ty : TypeId)
    (span : Span) (m : Nat) (hm : n ≤ m) :
    Sim ds (n + 1) (8 * FieldInit.listSize fields + 5) (checkRecordInit (m + 1) kind fields ty span)
      (checkRecordInit (n + 1) kind fields ty span) := by
  have hinits : Sim ds (n + 1) (8 * FieldInit.listSize fields + 5)
      (checkInits m (fields.map (·.value)) .error) (checkInits n (fields.map (·.value)) .error) :=
    (ih.inits _ .error m hm).lift (by rw [Expr.listSize_values])
  simp only [checkRecordInit]
  split
  · exact hinits.bind fun _ => .pure _
  refine .get_bind (fun _ _ => rfl) fun s₀ => ?_
  split
  · exact hinits.bind fun _ =>
      .of_plain ((fmt_plain _).bind fun _ => (fail_plain ..).bind fun _ => .pure _)
  rename_i rid _
  have htail := ((ih.fields rid ty fields m hm).lift le_rfl).bind fun _ => Sim.pure ty
  split
  · exact (Sim.of_plain (fail_plain ..)).bind fun _ => htail
  · exact htail

theorem Settled.checkFields_succ (rid : Nat) (ty : TypeId) (fs : List FieldInit) (m : Nat)
    (hm : n ≤ m) :
    Sim ds (n + 1) (8 * FieldInit.listSize fs + 4) (checkFields (m + 1) rid ty fs)
      (checkFields (n + 1) rid ty fs) := by
  cases fs with
  | nil => exact .pure _
  | cons f fs =>
    obtain ⟨name, value, span⟩ := f
    have := value.size_pos
    have hsize : FieldInit.listSize (.mk name value span :: fs) =
        value.size + FieldInit.listSize fs := rfl
    have hinit : ∀ ty', Sim ds (n + 1) (8 * FieldInit.listSize (.mk name value span :: fs) + 4)
        (checkInit m value ty') (checkInit n value ty') := fun ty' =>
      (ih.init value ty' m hm).lift (by omega)
    have hrest : Sim ds (n + 1) (8 * FieldInit.listSize (.mk name value span :: fs) + 4)
        (checkFields m rid ty fs) (checkFields n rid ty fs) :=
      (ih.fields rid ty fs m hm).lift (by omega)
    simp only [checkFields, FieldInit.name, FieldInit.value, FieldInit.span]
    refine .get_bind (fun _ _ => rfl) fun s₀ => ?_
    split
    · exact (hinit _).discard.bind fun _ => hrest
    · exact (Sim.of_plain (fmt_plain _)).bind fun _ => (Sim.of_plain (fail_plain ..)).bind fun _ =>
        (hinit _).discard.bind fun _ => hrest

end Step

/-- One more unit of fuel settles every typing function again. -/
theorem Settled.succ {n : Nat} (ih : Settled ds n) : Settled ds (n + 1) where
  type t := Sim.of_succ (ih.resolveType_succ t)
  params ps := Sim.of_succ (ih.resolveParams_succ ps)
  typeName name span := Sim.of_succ (ih.resolveTypeName_succ name span)
  symbolType sym := Sim.of_succ (ih.typeSymbolType_succ sym)
  typeDecl declId sym := Sim.of_succ (ih.ensureTypeDecl_succ declId sym)
  record node kind name members binding :=
    Sim.of_succ (ih.defineRecord_succ node kind name members binding)
  members seen ms := Sim.of_succ (ih.resolveMembers_succ seen ms)
  expr e := Sim.of_succ (ih.checkExpr_succ e)
  value e := Sim.of_succ (ih.checkValue_succ e)
  condition e := Sim.of_succ (ih.checkCondition_succ e)
  values es := Sim.of_succ (ih.checkValues_succ es)
  sequence ty es := Sim.of_succ (ih.checkSequence_succ ty es)
  infer e := Sim.of_succ (ih.inferExpr_succ e)
  sizeofOperand e := Sim.of_succ (ih.sizeofTypeOperand_succ e)
  init e ty := Sim.of_succ (ih.checkInit_succ e ty)
  arrayInit elements ty span := Sim.of_succ (ih.checkArrayInit_succ elements ty span)
  inits es ty := Sim.of_succ (ih.checkInits_succ es ty)
  recordInit kind fields ty span := Sim.of_succ (ih.checkRecordInit_succ kind fields ty span)
  fields rid ty fs := Sim.of_succ (ih.checkFields_succ rid ty fs)

/-- Every typing function is settled at every fuel, by induction on the fuel. -/
theorem settled (ds : List Decl) : ∀ n, Settled ds n
  | 0 => settled_zero
  | n + 1 => (settled ds n).succ

end Check

end SolarFront
