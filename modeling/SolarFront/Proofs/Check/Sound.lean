import SolarFront.Proofs.Check.LayoutSound
import SolarFront.Proofs.Typing.ScopeRuns

/-!
# The checker's invariant

`CheckState.Sound` is what every action of the checker keeps: the pool is well formed, the
layout state of every record says what it should given the diagnostics so far, and every symbol
has a type of the pool. Each action is specified by a triple: run from a sound state that grew
from `s₀`, it ends in a sound state that grew from `s₀`, and an action that yields a type
yields a type of the pool. The triples carry `@[spec]`, so `mvcgen` composes them; the
conditions it leaves are closed by `grind` with the lemmas about growth.

This module states the invariant and specifies the operations on the state that every part of
the checker shares.
-/

set_option autoImplicit false
set_option linter.all false
set_option mvcgen.warning false

namespace SolarFront

namespace TypePool

/-! ## Types the pool names -/

section Named

variable {p : TypePool}

/-- A type that an entry of a well-formed pool names is a type of the pool. -/
theorem WellFormed.has_of_mem_parts (wf : p.WellFormed) (t : TypeId) {u : TypeId}
    (hu : u ∈ (p.get t).parts) : p.Has u := by
  by_cases ht : p.Has t
  · exact wf.has_part ht hu
  · simp [get_of_not_has ht, TypeData.parts] at hu

theorem WellFormed.has_of_get_array (wf : p.WellFormed) {t e : TypeId} {len : Option Nat}
    (h : p.get t = .array e len) : p.Has e :=
  wf.has_of_mem_parts t (by simp [h, TypeData.parts])

theorem WellFormed.has_of_get_func (wf : p.WellFormed) {t ret : TypeId} {params : List TypeId}
    {variadic : Bool} (h : p.get t = .func ret params variadic) :
    p.Has ret ∧ ∀ q ∈ params, p.Has q :=
  ⟨wf.has_of_mem_parts t (by simp [h, TypeData.parts]),
    fun q hq => wf.has_of_mem_parts t (by simp [h, TypeData.parts, hq])⟩

theorem WellFormed.has_void (wf : p.WellFormed) : p.Has .void := wf.has_of_lt_five (by decide)
theorem WellFormed.has_int8 (wf : p.WellFormed) : p.Has .int8 := wf.has_of_lt_five (by decide)
theorem WellFormed.has_int16 (wf : p.WellFormed) : p.Has .int16 := wf.has_of_lt_five (by decide)
theorem WellFormed.has_int32 (wf : p.WellFormed) : p.Has .int32 := wf.has_of_lt_five (by decide)
theorem WellFormed.has_error (wf : p.WellFormed) : p.Has .error := wf.has_of_lt_five (by decide)

theorem WellFormed.has_ofWidth (wf : p.WellFormed) (w : Width) : p.Has (TypeId.ofWidth w) := by
  cases w
  · exact wf.has_int8
  · exact wf.has_int16
  · exact wf.has_int32

theorem WellFormed.has_of_elem? (wf : p.WellFormed) {t e : TypeId} (h : p.elem? t = some e) :
    p.Has e := by
  unfold elem? at h
  split at h
  · next e' len heq =>
    cases h
    exact wf.has_of_get_array heq
  · cases h

theorem WellFormed.lt_of_recordOf? (wf : p.WellFormed) {t : TypeId} {rid : Nat}
    (h : p.recordOf? t = some rid) : rid < p.records.size := by
  unfold recordOf? at h
  split at h
  · next rid' heq =>
    cases h
    exact wf.records_lt t _ heq
  · cases h

/-- The members of a record of the pool have types of the pool. -/
theorem WellFormed.has_of_member (wf : p.WellFormed) {rid : Nat} (hrid : rid < p.records.size)
    {name : String} {m : Member} (hm : (p.record rid).member? name = some m) : p.Has m.ty :=
  wf.members_has rid hrid m (List.mem_of_find?_eq_some hm)

/-- A record picked out of the one a type names is a record of the pool. -/
theorem WellFormed.lt_of_filter_recordOf? (wf : p.WellFormed) {t : TypeId} {f : Nat → Bool}
    {rid : Nat} (h : (p.recordOf? t).filter f = some rid) : rid < p.records.size := by
  cases hrec : p.recordOf? t with
  | none => simp [hrec] at h
  | some r =>
    rw [hrec] at h
    have hr : some r = some rid := (Option.filter_eq_some_iff.mp h).1
    exact Option.some.inj hr ▸ wf.lt_of_recordOf? hrec

/-- The members of the record a type names have types of the pool. -/
theorem WellFormed.has_of_member? (wf : p.WellFormed) {t : TypeId} {rid : Nat} {name : String}
    {m : Member} (h : p.recordOf? t = some rid) (hm : (p.record rid).member? name = some m) :
    p.Has m.ty :=
  wf.members_has rid (wf.lt_of_recordOf? h) m (List.mem_of_find?_eq_some hm)

/-- The return and parameter types of a callee's signature are types of the pool. -/
theorem WellFormed.has_of_signature? (wf : p.WellFormed) {t ret : TypeId}
    {params : List TypeId} {variadic : Bool} (h : p.signature? t = some (ret, params, variadic)) :
    p.Has ret ∧ ∀ q ∈ params, p.Has q := by
  -- the signature is that of the callee's type or, for a pointer, of its element type
  have hfunc : ∃ u, p.get u = .func ret params variadic := by
    unfold signature? at h
    cases hget : p.get t with
    | array elem len =>
      cases len with
      | none =>
        simp only [hget] at h
        split at h
        · next r ps v heq =>
          cases h
          exact ⟨elem, heq⟩
        · cases h
      | some n => simp [hget] at h
    | func r ps v =>
      simp only [hget, Option.some.injEq, Prod.mk.injEq] at h
      obtain ⟨rfl, rfl, rfl⟩ := h
      exact ⟨t, hget⟩
    | _ => simp [hget] at h
  obtain ⟨u, hu⟩ := hfunc
  exact wf.has_of_get_func hu

theorem intern_records (p : TypePool) (d : TypeData) : (p.intern d).1.records = p.records := by
  unfold intern
  split <;> rfl

/-- Interning data whose parts are types of a well-formed pool and that is not a record grows
the pool by types only and yields a type of it. -/
theorem WellFormed.intern (wf : p.WellFormed) {d : TypeData} (parts : ∀ u ∈ d.parts, p.Has u)
    (notRecord : ∀ rid, d ≠ .record rid) :
    p.Extends (p.intern d).1 ∧ (p.intern d).1.WellFormed ∧ (p.intern d).1.records = p.records ∧
      (p.intern d).1.Has (p.intern d).2 :=
  ⟨intern_extends p d, intern_wellFormed wf parts (fun rid h => absurd h (notRecord rid)),
    intern_records p d, intern_has p d⟩

theorem WellFormed.decay (wf : p.WellFormed) {t : TypeId} (ht : p.Has t) :
    p.Extends (p.decay t).1 ∧ (p.decay t).1.WellFormed ∧ (p.decay t).1.records = p.records ∧
      (p.decay t).1.Has (p.decay t).2 := by
  obtain ⟨hext, hwf, hhas⟩ := decay_spec wf ht
  refine ⟨hext, hwf, ?_, hhas⟩
  unfold TypePool.decay
  split
  · exact intern_records _ _
  · exact intern_records _ _
  · rfl

end Named

/-- The empty pool holds the primitive types and no record. -/
theorem empty_wellFormed : TypePool.empty.WellFormed where
  base _ _ := rfl
  five_le := by decide
  parts_lt t u hu := by
    rcases t with ⟨_ | _ | _ | _ | _ | n⟩ <;> simp_all [get, empty, TypeData.parts]
  records_lt t rid h := by
    rcases t with ⟨_ | _ | _ | _ | _ | n⟩ <;> simp_all [get, empty]
  members_has rid hrid := by simp [empty] at hrid

theorem empty_layoutSound (diags : List Diagnostic) : TypePool.empty.LayoutSound diags :=
  fun rid => by
    have h : TypePool.empty.record rid = default := record_of_size_le (by simp [empty])
    exact ⟨fun l hl => by simp [h] at hl, fun hf => by simp [h] at hf⟩

end TypePool

namespace CheckState

/-- The checker's state is sound: its pool is well formed, every layout state says what it
should given the diagnostics so far, and every symbol has a type of the pool. -/
structure Sound (s : CheckState) : Prop where
  wf : s.pool.WellFormed
  layout : s.pool.LayoutSound s.diagnostics.toList
  symbols : ∀ i, s.pool.Has (s.scopes.symbol i).ty

/-- Soundness reads only the pool, the diagnostics and the symbols; stated as an equivalence so
that `grind` sees through an update of any other part of the state. -/
theorem sound_iff {s : CheckState} :
    s.Sound ↔ s.pool.WellFormed ∧ s.pool.LayoutSound s.diagnostics.toList ∧
      ∀ i, s.pool.Has (s.scopes.symbol i).ty :=
  ⟨fun h => ⟨h.wf, h.layout, h.symbols⟩, fun h => ⟨h.1, h.2.1, h.2.2⟩⟩

theorem grows_iff {s s' : CheckState} :
    s.Grows s' ↔ s.pool.Extends s'.pool ∧ s.diagnostics.toList <+: s'.diagnostics.toList ∧
      s'.labels = s.labels ∧ s'.jumpTargets = s.jumpTargets ∧ s'.broken = s.broken ∧
      s'.diagnostics.toList.filter (·.code.isStatementError) =
        s.diagnostics.toList.filter (·.code.isStatementError) :=
  ⟨fun h => ⟨h.pool, h.diagnostics, h.labels, h.jumpTargets, h.broken, h.statementErrors⟩,
    fun h => ⟨⟨h.1, h.2.1⟩, h.2.2.1, h.2.2.2.1, h.2.2.2.2.1, h.2.2.2.2.2⟩⟩

theorem continues_iff {s s' : CheckState} :
    s.Continues s' ↔ s.pool.Extends s'.pool ∧ s.diagnostics.toList <+: s'.diagnostics.toList :=
  ⟨fun h => ⟨h.pool, h.diagnostics⟩, fun h => ⟨h.1, h.2⟩⟩

/-- The state a check starts from is sound. -/
theorem sound_initial (budget : Nat) : ({ budget } : CheckState).Sound where
  wf := TypePool.empty_wellFormed
  layout := TypePool.empty_layoutSound _
  symbols i := by
    have h : ({ budget } : CheckState).scopes.symbol i = default := by
      simp [ScopeStack.symbol]
    rw [h]
    exact TypePool.empty_wellFormed.has_void

/-- Soundness and growth read only the pool, the diagnostics and the symbols. -/
theorem Sound.frame {s s' : CheckState} (h : s.Sound) (hpool : s'.pool = s.pool)
    (hdiag : s'.diagnostics = s.diagnostics)
    (hsymbols : ∀ i, s'.scopes.symbol i = s.scopes.symbol i) : s'.Sound := by
  obtain ⟨wf, layout, symbols⟩ := h
  refine ⟨hpool ▸ wf, hpool ▸ hdiag ▸ layout, fun i => ?_⟩
  rw [hpool, hsymbols]
  exact symbols i

theorem Grows.frame {s s' : CheckState} (hpool : s'.pool = s.pool)
    (hdiag : s'.diagnostics = s.diagnostics) (hlabels : s'.labels = s.labels)
    (hjumps : s'.jumpTargets = s.jumpTargets) (hbroken : s'.broken = s.broken) : s.Grows s' :=
  ⟨⟨hpool ▸ TypePool.Extends.refl _, hdiag ▸ List.prefix_refl _⟩, hlabels, hjumps, hbroken,
    by rw [hdiag]⟩

/-- A reported diagnostic keeps the state sound: a failed layout keeps its culprit. -/
theorem Sound.push {s : CheckState} (h : s.Sound) (d : Diagnostic) :
    ({ s with diagnostics := s.diagnostics.push d } : CheckState).Sound :=
  ⟨h.wf, h.layout.of_diags (by simp +contextual), h.symbols⟩

theorem Grows.push (s : CheckState) (d : Diagnostic)
    (hd : d.code.isStatementError = false) :
    s.Grows { s with diagnostics := s.diagnostics.push d } :=
  ⟨⟨TypePool.Extends.refl _, by simp⟩, rfl, rfl, rfl, by simp [hd]⟩

theorem Continues.push (s : CheckState) (d : Diagnostic) :
    s.Continues { s with diagnostics := s.diagnostics.push d } :=
  ⟨TypePool.Extends.refl _, by simp⟩

/-- A pool operation that adds types only, keeping the pool well formed, keeps the state sound.
-/
theorem Sound.growTypes {s : CheckState} (h : s.Sound) {pool : TypePool}
    (hext : s.pool.Extends pool) (hwf : pool.WellFormed) (hrec : pool.records = s.pool.records) :
    ({ s with pool } : CheckState).Sound where
  wf := hwf
  layout := h.layout.of_records_eq h.wf hext.toKeeps hrec (fun _ hd => hd)
  symbols i := hext.has (h.symbols i)

theorem Grows.growTypes (s : CheckState) {pool : TypePool} (hext : s.pool.Extends pool) :
    s.Grows { s with pool } :=
  ⟨⟨hext, List.prefix_refl _⟩, rfl, rfl, rfl, rfl⟩

/-- A symbol changed to one with a type of the pool keeps the state sound. -/
theorem Sound.modifySymbol {s : CheckState} (h : s.Sound) {i : Nat} {f : Symbol → Symbol}
    (hty : s.pool.Has (f (s.scopes.symbol i)).ty) :
    ({ s with scopes := s.scopes.modifySymbol i f } : CheckState).Sound where
  wf := h.wf
  layout := h.layout
  symbols j := by
    rcases s.scopes.symbol_modifySymbol i f j with hj | ⟨rfl, hj⟩
    · rw [hj]
      exact h.symbols j
    · rw [hj]
      exact hty

end CheckState

namespace CheckM

open Std.Do CheckState

/-! ## The shared operations

An action that only reads the state is specified backwards, by what it yields, so `mvcgen`
needs no ghost state for it. An action that changes the state is specified against a state `s₀`
that the state it runs from grew from: it ends in a sound state that grew from `s₀`. Growth is
stated first and `Grows.refl` is a `@[refl]` lemma, so `mvcgen` takes for `s₀` the state the
action runs from, unless the action ends the caller, whose own `s₀` it then takes. -/

/-- Running an action for its effect only. -/
@[spec] theorem discard_spec {α : Type} (x : CheckM α) (Q : PostCond Unit (.arg CheckState .pure)) :
    ⦃wp⟦x⟧ (fun _ => Q.1 (), Q.2)⦄ discard x ⦃Q⦄ :=
  Spec.map

@[spec] theorem fmt_spec (t : TypeId) (Q : PostCond String (.arg CheckState .pure)) :
    ⦃fun s => Q.1 (s.pool.format t) s⦄ fmt t ⦃Q⦄ := by
  mvcgen [fmt]

@[spec] theorem typeData_spec (t : TypeId) (Q : PostCond TypeData (.arg CheckState .pure)) :
    ⦃fun s => Q.1 (s.pool.get t) s⦄ typeData t ⦃Q⦄ := by
  mvcgen [typeData]

@[spec] theorem symbol_spec (i : Nat) (Q : PostCond Symbol (.arg CheckState .pure)) :
    ⦃fun s => Q.1 (s.scopes.symbol i) s⦄ symbol i ⦃Q⦄ := by
  mvcgen [symbol]

@[spec] theorem exprType_spec (i : Nat) (Q : PostCond TypeId (.arg CheckState .pure)) :
    ⦃fun s => Q.1 (s.exprTypes.getD i .error) s⦄ exprType i ⦃Q⦄ := by
  mvcgen [exprType]

@[spec] theorem constOf_spec (i : Nat) (Q : PostCond (Option Nat) (.arg CheckState .pure)) :
    ⦃fun s => Q.1 (s.consts.get? i) s⦄ constOf i ⦃Q⦄ := by
  mvcgen [constOf]

section Specs

variable (s₀ : CheckState)

/-- Reporting anything but a jump error grows the state. -/
@[spec] theorem report_spec (d : Diagnostic) :
    ⦃fun s => ⌜s₀.Grows s ∧ s.Sound ∧ d.code.isStatementError = false⌝⦄ report d
    ⦃⇓ _ s => ⌜s.Sound ∧ s₀.Grows s⌝⦄ := by
  mvcgen [report]
  rename_i s h _
  obtain ⟨hg, hs, hd⟩ := h
  exact ⟨hs.push d, hg.trans (Grows.push s d hd)⟩

@[spec] theorem fail_spec (code : Code) (span : Span) (message : String) :
    ⦃fun s => ⌜s₀.Grows s ∧ s.Sound ∧ code.isStatementError = false⌝⦄
    fail code span message ⦃⇓ _ s => ⌜s.Sound ∧ s₀.Grows s⌝⦄ := by
  mvcgen [fail]

/-- A pool operation that grows the pool by types only and yields one of its types. -/
theorem withPool_spec {f : TypePool → TypePool × TypeId} {pre : TypePool → Prop}
    (hf : ∀ p, p.WellFormed → pre p → p.Extends (f p).1 ∧ (f p).1.WellFormed ∧
      (f p).1.records = p.records ∧ (f p).1.Has (f p).2) :
    ⦃fun s => ⌜s₀.Grows s ∧ s.Sound ∧ pre s.pool⌝⦄ withPool f
    ⦃⇓ r s => ⌜s.Sound ∧ s₀.Grows s ∧ s.pool.Has r⌝⦄ := by
  mvcgen [withPool]
  rename_i s h _
  obtain ⟨hg, hsound, hpre⟩ := h
  obtain ⟨hext, hwf, hrec, hhas⟩ := hf s.pool hsound.wf hpre
  exact ⟨hsound.growTypes hext hwf hrec, hg.trans (Grows.growTypes s hext), hhas⟩

@[spec] theorem pointer_spec (e : TypeId) :
    ⦃fun s => ⌜s₀.Grows s ∧ s.Sound ∧ s.pool.Has e⌝⦄ pointer e
    ⦃⇓ r s => ⌜s.Sound ∧ s₀.Grows s ∧ s.pool.Has r⌝⦄ := by
  unfold pointer
  refine @withPool_spec s₀ _ (fun p => p.Has e) fun p wf he => ?_
  exact wf.intern (by simpa [TypeData.parts] using he) (by simp)

@[spec] theorem array_spec (e : TypeId) (len : Nat) :
    ⦃fun s => ⌜s₀.Grows s ∧ s.Sound ∧ s.pool.Has e⌝⦄ array e len
    ⦃⇓ r s => ⌜s.Sound ∧ s₀.Grows s ∧ s.pool.Has r⌝⦄ := by
  unfold array
  refine @withPool_spec s₀ _ (fun p => p.Has e) fun p wf he => ?_
  exact wf.intern (by simpa [TypeData.parts] using he) (by simp)

@[spec] theorem func_spec (ret : TypeId) (params : List TypeId) (variadic : Bool) :
    ⦃fun s => ⌜s₀.Grows s ∧ s.Sound ∧ s.pool.Has ret ∧ ∀ q ∈ params, s.pool.Has q⌝⦄
    func ret params variadic ⦃⇓ r s => ⌜s.Sound ∧ s₀.Grows s ∧ s.pool.Has r⌝⦄ := by
  unfold func
  refine @withPool_spec s₀ _ (fun p => p.Has ret ∧ ∀ q ∈ params, p.Has q) fun p wf h => ?_
  exact wf.intern (by simpa [TypeData.parts] using h) (by simp)

@[spec] theorem decay_spec (t : TypeId) :
    ⦃fun s => ⌜s₀.Grows s ∧ s.Sound ∧ s.pool.Has t⌝⦄ decay t
    ⦃⇓ r s => ⌜s.Sound ∧ s₀.Grows s ∧ s.pool.Has r⌝⦄ := by
  unfold decay
  refine @withPool_spec s₀ _ (fun p => p.Has t) fun p wf ht => ?_
  exact wf.decay ht

@[spec] theorem modifySymbol_spec (i : Nat) (f : Symbol → Symbol) :
    ⦃fun s => ⌜s₀.Grows s ∧ s.Sound ∧ s.pool.Has (f (s.scopes.symbol i)).ty⌝⦄ modifySymbol i f
    ⦃⇓ _ s => ⌜s.Sound ∧ s₀.Grows s⌝⦄ := by
  mvcgen [modifySymbol]
  rename_i s h _
  obtain ⟨hg, hs, hty⟩ := h
  exact ⟨hs.modifySymbol hty, hg.trans (Grows.frame rfl rfl rfl rfl rfl)⟩

@[spec] theorem setExprType_spec (i : Nat) (t : TypeId) :
    ⦃fun s => ⌜s₀.Grows s ∧ s.Sound⌝⦄ setExprType i t ⦃⇓ _ s => ⌜s.Sound ∧ s₀.Grows s⌝⦄ := by
  mvcgen [setExprType]
  rename_i s h _
  obtain ⟨hg, hs⟩ := h
  exact ⟨hs.frame rfl rfl fun _ => rfl, hg.trans (Grows.frame rfl rfl rfl rfl rfl)⟩

@[spec] theorem setTypeNode_spec (i : Nat) (t : TypeId) :
    ⦃fun s => ⌜s₀.Grows s ∧ s.Sound⌝⦄ setTypeNode i t ⦃⇓ _ s => ⌜s.Sound ∧ s₀.Grows s⌝⦄ := by
  mvcgen [setTypeNode]
  rename_i s h _
  obtain ⟨hg, hs⟩ := h
  exact ⟨hs.frame rfl rfl fun _ => rfl, hg.trans (Grows.frame rfl rfl rfl rfl rfl)⟩

@[spec] theorem setDeclType_spec (i : Nat) (t : TypeId) :
    ⦃fun s => ⌜s₀.Grows s ∧ s.Sound⌝⦄ setDeclType i t ⦃⇓ _ s => ⌜s.Sound ∧ s₀.Grows s⌝⦄ := by
  mvcgen [setDeclType]
  rename_i s h _
  obtain ⟨hg, hs⟩ := h
  exact ⟨hs.frame rfl rfl fun _ => rfl, hg.trans (Grows.frame rfl rfl rfl rfl rfl)⟩

@[spec] theorem setConst_spec (i : Nat) (v : Option Nat) :
    ⦃fun s => ⌜s₀.Grows s ∧ s.Sound⌝⦄ setConst i v ⦃⇓ _ s => ⌜s.Sound ∧ s₀.Grows s⌝⦄ := by
  cases v with
  | none =>
    mvcgen [setConst]
    rename_i s h
    exact h.symm
  | some v =>
    mvcgen [setConst]
    rename_i s h _
    obtain ⟨hg, hs⟩ := h
    exact ⟨hs.frame rfl rfl fun _ => rfl, hg.trans (Grows.frame rfl rfl rfl rfl rfl)⟩

@[spec] theorem bind_spec (i sym : Nat) :
    ⦃fun s => ⌜s₀.Grows s ∧ s.Sound⌝⦄ bind i sym ⦃⇓ _ s => ⌜s.Sound ∧ s₀.Grows s⌝⦄ := by
  mvcgen [bind]
  rename_i s h _
  obtain ⟨hg, hs⟩ := h
  exact ⟨hs.frame rfl rfl fun _ => rfl, hg.trans (Grows.frame rfl rfl rfl rfl rfl)⟩

@[spec] theorem pushScope_spec :
    ⦃fun s => ⌜s₀.Grows s ∧ s.Sound⌝⦄ pushScope ⦃⇓ _ s => ⌜s.Sound ∧ s₀.Grows s⌝⦄ := by
  mvcgen [pushScope]
  rename_i s h _
  obtain ⟨hg, hs⟩ := h
  exact ⟨hs.frame rfl rfl (ScopeStack.symbol_push _), hg.trans (Grows.frame rfl rfl rfl rfl rfl)⟩

@[spec] theorem popScope_spec :
    ⦃fun s => ⌜s₀.Grows s ∧ s.Sound⌝⦄ popScope ⦃⇓ _ s => ⌜s.Sound ∧ s₀.Grows s⌝⦄ := by
  mvcgen [popScope]
  rename_i s h _
  obtain ⟨hg, hs⟩ := h
  exact ⟨hs.frame rfl rfl (ScopeStack.symbol_pop _), hg.trans (Grows.frame rfl rfl rfl rfl rfl)⟩

end Specs

end CheckM

end SolarFront
