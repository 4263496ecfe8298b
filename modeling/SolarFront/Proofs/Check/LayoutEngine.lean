import SolarFront.Proofs.Check.Sound

/-!
# Laying out records on demand

The layout engine (`Check.sizeAlignOf`, `Check.ensureLayout`, `Check.shapeMembers`) runs on
fuel. A record it starts moves from `pending` to `inProgress`, so the records still pending
bound how deep records can nest one inside another, and between two of them the walk goes down
arrays to smaller types or along the members of one record. `TypePool.layoutBudget` turns this
into a number, and `Check.layoutFuel` gives at least that much. With it the engine never runs
out: every record it meets ends finished or failed, a failed one with a culprit, and the size
it gives a type is the one the pool gives.
-/

set_option autoImplicit false
set_option linter.all false
set_option mvcgen.warning false

namespace SolarFront

/-- Only a pending layout can still be pending later. -/
theorem LayoutState.Later.eq_pending {a : LayoutState} (h : a.Later .pending) : a = .pending := by
  cases a <;> simp_all [LayoutState.Later]

namespace TypePool

/-- The number of records whose layout has not been started. -/
def pendingCount (p : TypePool) : Nat :=
  ((Finset.range p.records.size).filter fun rid => (p.record rid).layout = .pending).card

/-- The number of members of all records together. -/
def memberTotal (p : TypePool) : Nat := p.records.foldl (fun n r => n + r.members.length) 0

/-- Fuel enough to walk from one record to the next one it needs: down arrays to smaller types,
or along the members of one record. -/
def layoutWeight (p : TypePool) : Nat := p.types.size + p.memberTotal + 2

/-- Fuel enough to lay out any record of the pool: one walk for each record still pending. -/
def layoutBudget (p : TypePool) : Nat := (p.pendingCount + 1) * p.layoutWeight

/-- A record whose layout is settled: finished or failed. -/
def Final (p : TypePool) (rid : Nat) : Prop := p.LaidOut rid ∨ (p.record rid).layout = .failed

/-- A type whose size is settled: the record it holds in place, if any, is settled. -/
def Settled (p : TypePool) (t : TypeId) : Prop :=
  ∀ rid, p.heldRecord t = some rid → p.Final rid

/-! ## The budget -/

section Budget

variable {p q : TypePool}

theorem memberTotal_eq_sum (p : TypePool) :
    p.memberTotal = (p.records.toList.map (·.members.length)).sum := by
  rw [memberTotal, ← Array.foldl_toList, List.sum_eq_foldl, List.foldl_map]

theorem members_length_le_memberTotal {rid : Nat} (hrid : rid < p.records.size) :
    (p.record rid).members.length ≤ p.memberTotal := by
  rw [memberTotal_eq_sum]
  apply List.le_sum_of_mem
  rw [List.mem_map]
  refine ⟨p.records[rid], Array.getElem_mem_toList hrid, ?_⟩
  simp [record, Array.getElem?_eq_getElem hrid]

theorem Keeps.memberTotal_eq (h : p.Keeps q) (hsize : q.records.size = p.records.size) :
    q.memberTotal = p.memberTotal := by
  rw [memberTotal_eq_sum, memberTotal_eq_sum]
  congr 1
  apply List.ext_getElem (by simp [hsize])
  intro i hq hp
  have hi : i < p.records.size := by simpa using hp
  have hmem := h.members_eq hi
  simp only [record, Array.getElem?_eq_getElem hi, Array.getElem?_eq_getElem (hsize ▸ hi),
    Option.getD_some] at hmem
  simp [hmem]

theorem pendingCount_le (p : TypePool) : p.pendingCount ≤ p.records.size :=
  (Finset.card_filter_le _ _).trans (by simp)

/-- Growth starts no record anew, so the pending records only become fewer. -/
theorem Extends.pendingCount_le (h : p.Extends q) (hsize : q.records.size = p.records.size) :
    q.pendingCount ≤ p.pendingCount := by
  unfold pendingCount
  rw [hsize]
  apply Finset.card_le_card
  intro rid
  simp only [Finset.mem_filter, Finset.mem_range]
  rintro ⟨hlt, hq⟩
  have hlater := h.later rid hlt
  rw [hq] at hlater
  exact ⟨hlt, hlater.eq_pending⟩

/-- Starting a pending record leaves one pending record fewer. -/
theorem pendingCount_setLayout {rid : Nat} (hrid : rid < p.records.size)
    (hpend : (p.record rid).layout = .pending) {st : LayoutState} (hst : st ≠ .pending) :
    (p.modifyRecord rid ({ · with layout := st })).pendingCount + 1 = p.pendingCount := by
  unfold pendingCount
  rw [records_size_modifyRecord]
  have herase : (Finset.range p.records.size).filter
      (fun r => ((p.modifyRecord rid ({ · with layout := st })).record r).layout = .pending) =
      ((Finset.range p.records.size).filter fun r => (p.record r).layout = .pending).erase rid := by
    ext r
    simp only [Finset.mem_filter, Finset.mem_range, Finset.mem_erase, layout_setLayout hrid]
    by_cases h : r = rid
    · simp [h, hst]
    · simp [h]
  have hmem : rid ∈ (Finset.range p.records.size).filter
      (fun r => (p.record r).layout = .pending) := by
    simp [hrid, hpend]
  rw [herase, Finset.card_erase_of_mem hmem]
  have hpos := Finset.card_pos.mpr ⟨rid, hmem⟩
  omega

end Budget

/-! ## Settled records and types -/

section Settled

variable {p q : TypePool}

theorem Final.mono (h : p.Extends q) {rid : Nat} (hf : p.Final rid) : q.Final rid := by
  rcases hf with ⟨l, hl⟩ | hfail
  · exact .inl ⟨l, h.keepsDone.done rid l hl⟩
  · have hlater := h.later rid (lt_of_layout_ne_pending (by simp [hfail]))
    rw [hfail] at hlater
    exact .inr hlater

/-- A type that holds a finished record in place has a size. -/
theorem sizeAlign_isSome_of_laidOut {t : TypeId} {rid : Nat} (hheld : p.heldRecord t = some rid)
    (hdone : p.LaidOut rid) : ∃ x, p.sizeAlign t = some x := by
  fun_induction p.heldRecord t with
  | case1 t rid' hget =>
    cases hheld
    obtain ⟨l, hl⟩ := hdone
    rw [sizeAlign.eq_1, hget]
    simp [RecordDef.layout?, hl]
  | case2 t e len hget hlt ih =>
    obtain ⟨x, hx⟩ := ih hheld
    rw [sizeAlign.eq_1, hget]
    simp [hlt, hx]
  | case3 => cases hheld
  | case4 => cases hheld

theorem Settled.mono {t : TypeId} (ht : p.Has t) (hs : p.Settled t) (h : p.Extends q) :
    q.Settled t := by
  intro rid hrid
  rw [h.heldRecord_eq ht] at hrid
  exact (hs rid hrid).mono h

/-- A settled size never changes again. -/
theorem Settled.sizeAlign_eq {t : TypeId} (ht : p.Has t) (hs : p.Settled t) (h : p.Extends q) :
    q.sizeAlign t = p.sizeAlign t := by
  refine sizeAlign_congr (h.get_eq_of_le ht) fun rid hrid => ?_
  rcases hs rid hrid with ⟨l, hl⟩ | hfail
  · simp [RecordDef.layout?, hl, h.keepsDone.done rid l hl]
  · have hlater := h.later rid (lt_of_layout_ne_pending (by simp [hfail]))
    rw [hfail] at hlater
    simp only [LayoutState.Later] at hlater
    simp [RecordDef.layout?, hfail, hlater]

theorem Settled.memberSizeAlign_eq {m : Member} (ht : p.Has m.ty) (hs : p.Settled m.ty)
    (h : p.Extends q) : q.memberSizeAlign m = p.memberSizeAlign m :=
  memberSizeAlign_congr (hs.sizeAlign_eq ht h)

/-- A member without a size whose type is settled gives its record a culprit: the record itself
when the member holds no record in place, or the culprit of the failed record it holds. -/
theorem LayoutSound.culprit_of_member {diags : List Diagnostic} (hs : p.LayoutSound diags)
    {rid : Nat} {m : Member} (hm : m ∈ (p.record rid).members)
    (hnone : p.memberSizeAlign m = none) (hset : p.Settled m.ty) :
    ∃ c, p.Needs rid c ∧ p.Culprit diags c := by
  cases hheld : p.heldRecord m.ty with
  | none => exact ⟨rid, .refl, .inr ⟨m, hm, hnone, hheld⟩⟩
  | some y =>
    rcases hset y hheld with hdone | hfail
    · -- a finished record would give the member a size
      obtain ⟨x, hx⟩ := sizeAlign_isSome_of_laidOut hheld hdone
      unfold memberSizeAlign at hnone
      split at hnone
      · cases hnone
      · rw [hx] at hnone
        cases hnone
    · obtain ⟨c, hneeds, hc⟩ := (hs y).failed hfail
      exact ⟨c, Relation.ReflTransGen.head ⟨m, hm, hheld⟩ hneeds, hc⟩

end Settled

theorem WellFormed.has_of_mem_members {p : TypePool} (wf : p.WellFormed) {rid : Nat}
    {m : Member} (hm : m ∈ (p.record rid).members) : p.Has m.ty := by
  by_cases hrid : rid < p.records.size
  · exact wf.members_has rid hrid m hm
  · rw [record_of_size_le (Nat.le_of_not_lt hrid)] at hm
    simp at hm

/-- Marking a record under way and settling it later is growth, though the mark alone is
not. -/
theorem Extends.setLayout_around {p q : TypePool} {rid : Nat} {x st : LayoutState}
    (hrid : rid < p.records.size) (h : (p.modifyRecord rid ({ · with layout := x })).Extends q)
    (hlater : (p.record rid).layout.Later st) :
    p.Extends (q.modifyRecord rid ({ · with layout := st })) := by
  have hrid' : rid < q.records.size := Nat.lt_of_lt_of_le hrid (by simpa using h.records_le)
  refine ⟨⟨by simpa using h.types_le, fun t ht => h.get_eq t ht, by simpa using h.records_le,
    fun r hr => ?_⟩, fun r hr => ?_⟩
  · by_cases hr' : r = rid
    · subst hr'
      rw [record_modifyRecord_self q hrid', h.record_eq r (by simpa using hr),
        record_modifyRecord_self p hrid]
    · rw [record_modifyRecord_other q (Ne.symm hr'), h.record_eq r (by simpa using hr),
        record_modifyRecord_other p (Ne.symm hr')]
  · by_cases hr' : r = rid
    · subst hr'
      rw [record_modifyRecord_self q hrid']
      exact hlater
    · have := h.later r (by simpa using hr)
      rw [record_modifyRecord_other p (Ne.symm hr')] at this
      rwa [record_modifyRecord_other q (Ne.symm hr')]

/-- Setting a layout that comes later than the record's is growth. -/
theorem Extends.setLayout {p : TypePool} {rid : Nat} {st : LayoutState}
    (hrid : rid < p.records.size) (hlater : (p.record rid).layout.Later st) :
    p.Extends (p.modifyRecord rid ({ · with layout := st })) := by
  refine ⟨⟨Nat.le_refl _, fun _ _ => rfl, by simp, fun r _ => ?_⟩, fun r _ => ?_⟩
  · by_cases hr : r = rid
    · subst hr
      rw [record_modifyRecord_self p hrid]
    · rw [record_modifyRecord_other p (Ne.symm hr)]
  · by_cases hr : r = rid
    · subst hr
      rw [record_modifyRecord_self p hrid]
      exact hlater
    · rw [record_modifyRecord_other p (Ne.symm hr)]
      exact LayoutState.Later.refl _

/-! ## Sizes the engine reads off the pool -/

theorem WellFormed.sizeAlign_of_get_array {p : TypePool} (wf : p.WellFormed) {t e : TypeId}
    {len : Nat} (h : p.get t = .array e (some len)) :
    p.sizeAlign t = (p.sizeAlign e).map fun x => (satMul x.1 len, x.2) := by
  have hlt : e.idx < t.idx := wf.parts_lt t e (by simp [h, TypeData.parts])
  rw [sizeAlign.eq_1, h]
  simp [hlt]

theorem WellFormed.settled_of_get_array {p : TypePool} (wf : p.WellFormed) {t e : TypeId}
    {len : Nat} (h : p.get t = .array e (some len)) (hs : p.Settled e) : p.Settled t := by
  have hlt : e.idx < t.idx := wf.parts_lt t e (by simp [h, TypeData.parts])
  intro rid hrid
  rw [heldRecord.eq_1, h] at hrid
  simp only [hlt, ↓reduceIte] at hrid
  exact hs rid hrid

/-- A type that is no array with a length is settled once the record it names is. -/
theorem settled_of_get {p : TypePool} {t : TypeId}
    (hrec : ∀ rid, p.get t = .record rid → p.Final rid)
    (harr : ∀ e len, p.get t ≠ .array e (some len)) : p.Settled t := by
  intro rid hrid
  rw [heldRecord.eq_1] at hrid
  split at hrid
  · next rid' h =>
    cases hrid
    exact hrec _ h
  · next e len h => exact absurd h (harr e _)
  · cases hrid

end TypePool

namespace CheckState

open TypePool

/-- The state with the layout of record `rid` set to `st`. -/
def withLayout (s : CheckState) (rid : Nat) (st : LayoutState) : CheckState :=
  { s with pool := s.pool.modifyRecord rid ({ · with layout := st }) }

@[simp] theorem pool_withLayout (s : CheckState) (rid : Nat) (st : LayoutState) :
    (s.withLayout rid st).pool = s.pool.modifyRecord rid ({ · with layout := st }) := rfl

@[simp] theorem diagnostics_withLayout (s : CheckState) (rid : Nat) (st : LayoutState) :
    (s.withLayout rid st).diagnostics = s.diagnostics := rfl

/-- A step of the layout engine: the state grows, and no type or record is added. -/
structure LaysOut (s s' : CheckState) : Prop where
  grows : s.Grows s'
  types : s'.pool.types.size = s.pool.types.size
  records : s'.pool.records.size = s.pool.records.size

namespace LaysOut

theorem refl (s : CheckState) : s.LaysOut s := ⟨Grows.refl s, rfl, rfl⟩

theorem trans {a b c : CheckState} (hab : a.LaysOut b) (hbc : b.LaysOut c) : a.LaysOut c :=
  ⟨hab.grows.trans hbc.grows, hbc.types.trans hab.types, hbc.records.trans hab.records⟩

/-- The engine adds no type and no member, and starts no record anew, so what it still needs
never grows. -/
theorem budget_le {s s' : CheckState} (h : s.LaysOut s') :
    s'.pool.layoutBudget ≤ s.pool.layoutBudget := by
  have hweight : s'.pool.layoutWeight = s.pool.layoutWeight := by
    simp only [layoutWeight, h.types, h.grows.pool.toKeeps.memberTotal_eq h.records]
  have hpend := h.grows.pool.pendingCount_le h.records
  unfold layoutBudget
  rw [hweight]
  exact Nat.mul_le_mul_right _ (Nat.succ_le_succ hpend)

/-- Marking a record under way and settling it after a step of the engine is a step of the
engine. -/
theorem around {s s₂ : CheckState} {rid : Nat} {x st : LayoutState}
    (hrid : rid < s.pool.records.size) (h : (s.withLayout rid x).LaysOut s₂)
    (hlater : (s.pool.record rid).layout.Later st) : s.LaysOut (s₂.withLayout rid st) :=
  ⟨⟨⟨h.grows.pool.setLayout_around hrid hlater, h.grows.diagnostics⟩, h.grows.labels,
    h.grows.jumpTargets, h.grows.broken, h.grows.statementErrors⟩,
    by simpa using h.types, by simpa using h.records⟩

end LaysOut

/-- Setting a layout keeps the state sound when it keeps layout soundness. -/
theorem Sound.withLayout {s : CheckState} (h : s.Sound) {rid : Nat} {st : LayoutState}
    (hlay : (s.pool.modifyRecord rid ({ · with layout := st })).LayoutSound
      s.diagnostics.toList) : (s.withLayout rid st).Sound where
  wf := h.wf.modifyRecord fun _ hm => h.wf.has_of_mem_members hm
  layout := hlay
  symbols := h.symbols

theorem LaysOut.withLayout {s : CheckState} {rid : Nat} {st : LayoutState}
    (hrid : rid < s.pool.records.size) (hlater : (s.pool.record rid).layout.Later st) :
    s.LaysOut (s.withLayout rid st) :=
  ⟨⟨⟨Extends.setLayout hrid hlater, List.prefix_refl _⟩, rfl, rfl, rfl, rfl⟩, rfl, by simp⟩

theorem withLayout_record_self {s : CheckState} {rid : Nat} (hrid : rid < s.pool.records.size)
    (st : LayoutState) :
    (s.withLayout rid st).pool.record rid = { s.pool.record rid with layout := st } :=
  record_modifyRecord_self s.pool hrid _

/-! ## The branches of laying out one record -/

section Branches

variable {s : CheckState} {rid : Nat}

/-- A record met again while its layout is under way is reported as containing itself and
fails, with itself as culprit. -/
theorem Sound.failInProgress (h : s.Sound) (hrid : rid < s.pool.records.size)
    (hip : (s.pool.record rid).layout = .inProgress) :
    let s' := ({ s with diagnostics := s.diagnostics.push (Check.containsItself
      (s.pool.record rid)) } : CheckState).withLayout rid .failed
    s'.Sound ∧ s.LaysOut s' ∧ s'.pool.Final rid := by
  have hnot : ¬ s.pool.LaidOut rid := by
    rintro ⟨l, hl⟩
    rw [hip] at hl
    cases hl
  have hreported := h.push (Check.containsItself (s.pool.record rid))
  refine ⟨hreported.withLayout (hreported.layout.setFailed hreported.wf hrid hnot
    ⟨rid, .refl, .inl (by simp)⟩), ?_, .inr ?_⟩
  · refine (⟨Grows.push s (Check.containsItself (s.pool.record rid)) rfl, rfl, rfl⟩ :
      s.LaysOut _).trans (LaysOut.withLayout hrid ?_)
    show LayoutState.Later (s.pool.record rid).layout .failed
    rw [hip]
    exact .inr rfl
  · simp only [pool_withLayout]
    rw [record_modifyRecord_self s.pool hrid]

/-- Starting a pending record keeps the state sound, and leaves enough fuel for its members. -/
theorem Sound.startLayout (h : s.Sound) (hrid : rid < s.pool.records.size)
    (hpend : (s.pool.record rid).layout = .pending) {n : Nat}
    (hfuel : s.pool.layoutBudget ≤ n + 1) :
    (s.withLayout rid .inProgress).Sound ∧
      (∀ m ∈ (s.pool.record rid).members, (s.withLayout rid .inProgress).pool.Has m.ty) ∧
      (s.pool.record rid).members.length + 1 + (s.withLayout rid .inProgress).pool.types.size +
        (s.withLayout rid .inProgress).pool.layoutBudget ≤ n := by
  have hnot : ¬ s.pool.LaidOut rid := by
    rintro ⟨l, hl⟩
    rw [hpend] at hl
    cases hl
  refine ⟨h.withLayout (h.layout.setUnfinished h.wf hrid hnot (.inr rfl)),
    fun m hm => h.wf.members_has rid hrid m hm, ?_⟩
  -- one pending record fewer frees one walk, which covers the members of this record
  have hcount : (s.withLayout rid .inProgress).pool.pendingCount + 1 = s.pool.pendingCount :=
    pendingCount_setLayout hrid hpend (by simp)
  have hweight : (s.withLayout rid .inProgress).pool.layoutWeight = s.pool.layoutWeight := by
    simp only [pool_withLayout, layoutWeight, types_modifyRecord]
    rw [(keepsDone_setLayout hrid hnot _).toKeeps.memberTotal_eq (by simp)]
  have hbudget : s.pool.layoutBudget =
      (s.withLayout rid .inProgress).pool.layoutBudget + s.pool.layoutWeight := by
    simp only [layoutBudget, hweight, ← hcount, Nat.succ_mul]
  have hmembers : (s.pool.record rid).members.length + s.pool.types.size + 2 ≤
      s.pool.layoutWeight := by
    have := members_length_le_memberTotal hrid (p := s.pool)
    simp only [layoutWeight]
    omega
  have htypes : (s.withLayout rid .inProgress).pool.types.size = s.pool.types.size := rfl
  omega

/-- A record marked under way stays under way or fails while the engine shapes its members,
and keeps its members and its kind. -/
theorem LaysOut.underway {s₂ : CheckState} (hrid : rid < s.pool.records.size)
    (h : (s.withLayout rid .inProgress).LaysOut s₂) :
    ¬ s₂.pool.LaidOut rid ∧ (s₂.pool.record rid).members = (s.pool.record rid).members ∧
      (s₂.pool.record rid).kind = (s.pool.record rid).kind := by
  have hrid' : rid < (s.withLayout rid .inProgress).pool.records.size := by simpa using hrid
  have hlater := h.grows.pool.later rid hrid'
  rw [withLayout_record_self hrid] at hlater
  refine ⟨?_, ?_, ?_⟩
  · rintro ⟨l, hl⟩
    rw [hl] at hlater
    simp [LayoutState.Later] at hlater
  · rw [h.grows.pool.members_eq hrid', withLayout_record_self hrid]
  · rw [h.grows.pool.kind_eq hrid', withLayout_record_self hrid]

/-- After the members of a record under way are shaped, failing it keeps the state sound when a
member has no size or the record was already found containing itself. -/
theorem Sound.failShaped (hrid : rid < s.pool.records.size)
    (hpend : (s.pool.record rid).layout = .pending) {s₂ : CheckState} (hs₂ : s₂.Sound)
    (hlays : (s.withLayout rid .inProgress).LaysOut s₂)
    (hwhy : (∃ m ∈ (s.pool.record rid).members,
        s₂.pool.memberSizeAlign m = none ∧ s₂.pool.Settled m.ty) ∨
      (s₂.pool.record rid).layout = .failed) :
    (s₂.withLayout rid .failed).Sound ∧ s.LaysOut (s₂.withLayout rid .failed) ∧
      (s₂.withLayout rid .failed).pool.Final rid := by
  obtain ⟨hnot, hmembers, -⟩ := hlays.underway hrid
  have hrid₂ : rid < s₂.pool.records.size := by
    rw [hlays.records]
    simpa using hrid
  have hjust : ∃ c, s₂.pool.Needs rid c ∧ s₂.pool.Culprit s₂.diagnostics.toList c := by
    rcases hwhy with ⟨m, hm, hnone, hset⟩ | hfail
    · exact hs₂.layout.culprit_of_member (hmembers ▸ hm) hnone hset
    · exact (hs₂.layout rid).failed hfail
  refine ⟨hs₂.withLayout (hs₂.layout.setFailed hs₂.wf hrid₂ hnot hjust),
    hlays.around hrid (by rw [hpend]; exact .inr (.inl rfl)), .inr ?_⟩
  simp only [pool_withLayout]
  rw [record_modifyRecord_self s₂.pool hrid₂]

/-- After the members of a record under way are shaped, each with a size, finishing it with
their packing keeps the state sound. -/
theorem Sound.finishShaped (hrid : rid < s.pool.records.size)
    (hpend : (s.pool.record rid).layout = .pending) {s₂ : CheckState} (hs₂ : s₂.Sound)
    (hlays : (s.withLayout rid .inProgress).LaysOut s₂) {fields : List FieldShape}
    (hshapes : s₂.pool.memberShapes (s.pool.record rid).members = some fields) {l : Layout}
    (hl : l = (s.pool.record rid).kind.layout fields) :
    (s₂.withLayout rid (.done l)).Sound ∧ s.LaysOut (s₂.withLayout rid (.done l)) ∧
      (s₂.withLayout rid (.done l)).pool.Final rid := by
  obtain ⟨hnot, hmembers, hkind⟩ := hlays.underway hrid
  have hrid₂ : rid < s₂.pool.records.size := by
    rw [hlays.records]
    simpa using hrid
  have hdone := hs₂.layout.setDone hs₂.wf hrid₂ hnot (hmembers ▸ hshapes)
  rw [hkind, ← hl] at hdone
  refine ⟨hs₂.withLayout hdone, hlays.around hrid (by rw [hpend]; exact .inr (.inr ⟨l, rfl⟩)),
    .inl ⟨l, ?_⟩⟩
  simp only [pool_withLayout]
  rw [record_modifyRecord_self s₂.pool hrid₂]

end Branches

end CheckState

namespace Check

open Std.Do in
theorem setLayout_spec (rid : Nat) (st : LayoutState) (s₀ : CheckState) :
    ⦃fun s => ⌜s = s₀⌝⦄ setLayout rid st ⦃⇓ _ s => ⌜s = s₀.withLayout rid st⌝⦄ := by
  mvcgen [setLayout]
  rename_i s h _
  subst h
  rfl

end Check

theorem RecordKind.layout_eq (k : RecordKind) (fields : List FieldShape) :
    k.layout fields = match k with
      | .struct => structLayout fields
      | .union => unionLayout fields := by
  cases k <;> rfl

theorem TypePool.recordOf?_eq_some_iff {p : TypePool} {t : TypeId} {rid : Nat} :
    p.recordOf? t = some rid ↔ p.get t = .record rid := by
  unfold TypePool.recordOf?
  split <;> simp_all

theorem TypePool.has_of_get_ne_error {p : TypePool} {t : TypeId} (h : p.get t ≠ .error) :
    p.Has t := by
  by_contra ht
  exact h (get_of_not_has ht)

/-- The fuel left for the element of an array with a length. -/
theorem TypePool.WellFormed.fuel_elem {p : TypePool} (wf : p.WellFormed) {t e : TypeId}
    {len : Nat} (hget : p.get t = .array e (some len)) {B n : Nat} (hB : p.layoutBudget ≤ B)
    (hfuel : t.idx + 1 + B ≤ n + 1) : e.idx + 1 + p.layoutBudget ≤ n := by
  have hlt : e.idx < t.idx := wf.parts_lt t e (by simp [hget, TypeData.parts])
  omega

/-- The size of an array with a length from the size of its element. -/
theorem TypePool.WellFormed.array_step {p : TypePool} (wf : p.WellFormed) {t e : TypeId}
    {len : Nat} (hget : p.get t = .array e (some len)) (hs : p.Settled e) :
    (p.sizeAlign e).map (fun x => (satMul x.1 len, x.2)) = p.sizeAlign t ∧ p.Settled t :=
  ⟨(wf.sizeAlign_of_get_array hget).symm, wf.settled_of_get_array hget hs⟩

theorem TypePool.memberSizeAlign_of_error {p : TypePool} {m : Member} (h : m.ty.isError = true) :
    p.memberSizeAlign m = some (0, 1) := by
  simp [memberSizeAlign, h]

theorem TypePool.memberSizeAlign_of_not_error {p : TypePool} {m : Member}
    (h : ¬ m.ty.isError = true) : p.memberSizeAlign m = p.sizeAlign m.ty := by
  simp [memberSizeAlign, h]

/-- Shaping members whose first one has a size ends as shaping the rest does, with the first
shape in front. -/
theorem TypePool.shaped_cons {p : TypePool} {m : Member} {ms : List Member} {x : Nat × Nat}
    {rest : List FieldShape} {complete : Bool} (hx : p.memberSizeAlign m = some x)
    (htrue : complete = true → p.memberShapes ms = some rest)
    (hfalse : complete = false → ∃ m' ∈ ms, p.memberSizeAlign m' = none ∧ p.Settled m'.ty) :
    (complete = true → p.memberShapes (m :: ms) = some (m.shape x :: rest)) ∧
      (complete = false → ∃ m' ∈ m :: ms, p.memberSizeAlign m' = none ∧ p.Settled m'.ty) := by
  refine ⟨fun hc => ?_, fun hc => ?_⟩
  · simp [memberShapes_cons, hx, htrue hc]
  · obtain ⟨m', hm', hnone, hs⟩ := hfalse hc
    exact ⟨m', List.mem_cons_of_mem _ hm', hnone, hs⟩

theorem TypePool.layoutBudget_pos (p : TypePool) : 0 < p.layoutBudget := by
  unfold TypePool.layoutBudget TypePool.layoutWeight
  exact Nat.mul_pos (Nat.succ_pos _) (by omega)

namespace Check

open CheckM CheckState TypePool Std.Do

/-- The layout engine given enough fuel. Laying out a record settles it; the size it gives a
type is the one the pool gives, and settled; shaping members gives their shapes when each has a
size, and otherwise names a member without one whose size is settled. -/
theorem layout_spec (fuel : Nat) :
    (∀ (rid : Nat) (s₀ : CheckState),
      ⦃fun s => ⌜s.Sound ∧ s₀.LaysOut s ∧ rid < s.pool.records.size ∧
        s.pool.layoutBudget ≤ fuel⌝⦄
      ensureLayout fuel rid
      ⦃⇓ _ s => ⌜s.Sound ∧ s₀.LaysOut s ∧ s.pool.Final rid⌝⦄) ∧
    (∀ (t : TypeId) (s₀ : CheckState),
      ⦃fun s => ⌜s.Sound ∧ s₀.LaysOut s ∧ t.idx + 1 + s.pool.layoutBudget ≤ fuel⌝⦄
      sizeAlignOf fuel t
      ⦃⇓ r s => ⌜s.Sound ∧ s₀.LaysOut s ∧ r = s.pool.sizeAlign t ∧ s.pool.Settled t⌝⦄) ∧
    (∀ (ms : List Member) (s₀ : CheckState),
      ⦃fun s => ⌜s.Sound ∧ s₀.LaysOut s ∧ (∀ m ∈ ms, s.pool.Has m.ty) ∧
        ms.length + 1 + s.pool.types.size + s.pool.layoutBudget ≤ fuel⌝⦄
      shapeMembers fuel ms
      ⦃⇓ r s => ⌜s.Sound ∧ s₀.LaysOut s ∧ (r.2 = true → s.pool.memberShapes ms = some r.1) ∧
        (r.2 = false → ∃ m ∈ ms, s.pool.memberSizeAlign m = none ∧ s.pool.Settled m.ty)⌝⦄) := by
  induction fuel with
  | zero =>
    -- no budget is zero, so no precondition holds
    refine ⟨fun rid s₀ => ?_, fun t s₀ => ?_, fun ms s₀ => ?_⟩
    · mvcgen [ensureLayout]
      rename_i s h
      exact absurd h.2.2.2 (Nat.not_le_of_lt s.pool.layoutBudget_pos)
    · mvcgen [sizeAlignOf]
      rename_i s h
      exact absurd h.2.2 (by omega)
    · mvcgen [shapeMembers]
      rename_i s h
      exact absurd h.2.2.2 (by omega)
  | succ n ih =>
    obtain ⟨hens, hsize, hshape⟩ := ih
    refine ⟨fun rid s₀ => ?_, fun t s₀ => ?_, fun ms s₀ => ?_⟩
    · mvcgen [ensureLayout, hshape, setLayout_spec, report]
      · -- finished already
        rename_i s h r l hl
        exact ⟨h.1, h.2.1, .inl ⟨l, hl⟩⟩
      · -- failed already
        rename_i s h r hf
        exact ⟨h.1, h.2.1, .inr hf⟩
      · -- met again while under way: it contains itself
        rename_i s h r hip _ _ s' hs'
        subst hs'
        obtain ⟨hsound, hlays, hfinal⟩ := h.1.failInProgress h.2.2.1 hip
        exact ⟨hsound, h.2.1.trans hlays, hfinal⟩
      · -- pending: start it, leaving enough fuel for its members
        rename_i s h r hpend _ s₁ hs₁
        subst hs₁
        obtain ⟨hsound, hhas, hfuel⟩ := h.1.startLayout h.2.2.1 hpend h.2.2.2
        exact ⟨hsound, LaysOut.refl _, hhas, hfuel⟩
      · -- a member without a size, or found containing itself meanwhile: it fails
        rename_i s h r hpend _ s₁ hs₁ res s₂ h₂ now hcond _ s₃ hs₃
        subst hs₁ hs₃
        have hwhy : (∃ m ∈ (s.pool.record rid).members,
            s₂.pool.memberSizeAlign m = none ∧ s₂.pool.Settled m.ty) ∨
            (s₂.pool.record rid).layout = .failed := by
          simp only [Bool.or_eq_true, Bool.not_eq_eq_eq_not, Bool.not_true, beq_iff_eq] at hcond
          rcases hcond with hincomplete | hfail
          · exact .inl (h₂.2.2.2 hincomplete)
          · exact .inr hfail
        obtain ⟨hsound, hlays, hfinal⟩ := Sound.failShaped h.2.2.1 hpend h₂.1 h₂.2.1 hwhy
        exact ⟨hsound, h.2.1.trans hlays, hfinal⟩
      · -- every member has a size: it is finished with their packing
        rename_i s h r hpend _ s₁ hs₁ res s₂ h₂ now hcond l _ s₃ hs₃
        subst hs₁ hs₃
        simp only [Bool.or_eq_true, Bool.not_eq_eq_eq_not, Bool.not_true, beq_iff_eq,
          not_or] at hcond
        have hshapes := h₂.2.2.1 (by simpa using hcond.1)
        obtain ⟨hsound, hlays, hfinal⟩ :=
          Sound.finishShaped h.2.2.1 hpend h₂.1 h₂.2.1 hshapes (RecordKind.layout_eq _ _).symm
        exact ⟨hsound, h.2.1.trans hlays, hfinal⟩
    · mvcgen [sizeAlignOf, hens, hsize, typeData]
      · -- a record type: lay out its record first
        rename_i s h _ rid hrec
        exact ⟨h.1, LaysOut.refl _, h.1.wf.lt_of_recordOf? hrec, by omega⟩
      · -- then an array with a length: its element
        rename_i s h _ rid hrec _ s₁ h₁ e len hget
        exact ⟨h₁.1, LaysOut.refl _, h₁.1.wf.fuel_elem hget h₁.2.1.budget_le h.2.2⟩
      · rename_i s h _ rid hrec _ s₁ h₁ e len hget r s₂ h₂
        obtain ⟨hs₂, hlays, rfl, hsettled⟩ := h₂
        have hget₂ : s₂.pool.get t = .array e (some len) := by
          rw [hlays.grows.pool.get_eq t (has_of_get_ne_error (by simp [hget])), hget]
        exact ⟨hs₂, (h.2.1.trans h₁.2.1).trans hlays, hs₂.wf.array_step hget₂ hsettled⟩
      · -- or any other type: the record just laid out is settled
        rename_i s h _ rid hrec _ s₁ h₁ d hnot hget
        refine ⟨h₁.1, h.2.1.trans h₁.2.1, trivial, settled_of_get (fun rid' hrid' => ?_)
          (fun e len he => hnot e len (hget.symm.trans he))⟩
        have hget₀ := recordOf?_eq_some_iff.mp hrec
        rw [h₁.2.1.grows.pool.get_eq t (has_of_get_ne_error (by simp [hget₀])), hget₀] at hrid'
        cases hrid'
        exact h₁.2.2
      · -- not a record type, an array with a length: its element
        rename_i s h _ _ hnone hrec e len hget
        exact ⟨h.1, LaysOut.refl _, h.1.wf.fuel_elem hget (Nat.le_refl _) h.2.2⟩
      · rename_i s h _ _ hnone hrec e len hget r s₂ h₂
        obtain ⟨hs₂, hlays, rfl, hsettled⟩ := h₂
        have hget₂ : s₂.pool.get t = .array e (some len) := by
          rw [hlays.grows.pool.get_eq t (has_of_get_ne_error (by simp [hget])), hget]
        exact ⟨hs₂, h.2.1.trans hlays, hs₂.wf.array_step hget₂ hsettled⟩
      · -- any other type that names no record is settled
        rename_i s h _ _ hnone hrec d hnot hget
        refine ⟨h.1, h.2.1, trivial, settled_of_get (fun rid' hrid' => ?_)
          (fun e len he => hnot e len (hget.symm.trans he))⟩
        exact (hnone rid' (hrec.symm.trans (recordOf?_eq_some_iff.mpr hrid'))).elim
    · cases ms with
      | nil =>
        mvcgen [shapeMembers]
        rename_i s h
        refine ⟨h.1, h.2.1, ?_⟩
        simp [memberShapes]
      | cons m ms =>
        have hsize' : ∀ (t : TypeId) (s₀ : CheckState),
            ⦃fun s => ⌜s = s₀ ∧ s.Sound ∧ t.idx + 1 + s.pool.layoutBudget ≤ n⌝⦄
            sizeAlignOf n t
            ⦃⇓ r s => ⌜s.Sound ∧ s₀.LaysOut s ∧ r = s.pool.sizeAlign t ∧ s.pool.Settled t⌝⦄ := by
          intro t s₀
          apply Triple.entails_wp_of_pre (hsize t s₀)
          rintro s ⟨rfl, hs, hfuel⟩
          exact ⟨hs, LaysOut.refl _, hfuel⟩
        have hshape' : ∀ (s₀ : CheckState),
            ⦃fun s => ⌜s = s₀ ∧ s.Sound ∧ (∀ m ∈ ms, s.pool.Has m.ty) ∧
              ms.length + 1 + s.pool.types.size + s.pool.layoutBudget ≤ n⌝⦄
            shapeMembers n ms
            ⦃⇓ r s => ⌜s.Sound ∧ s₀.LaysOut s ∧ (r.2 = true → s.pool.memberShapes ms = some r.1) ∧
              (r.2 = false → ∃ m ∈ ms, s.pool.memberSizeAlign m = none ∧ s.pool.Settled m.ty)⌝⦄ := by
          intro s₀
          apply Triple.entails_wp_of_pre (hshape ms s₀)
          rintro s ⟨rfl, hs, hhas, hfuel⟩
          exact ⟨hs, LaysOut.refl _, hhas, hfuel⟩
        mvcgen [shapeMembers, hsize', hshape']
        · -- an erroneous member takes no room; shape the rest
          rename_i herr s h
          simp only [List.length_cons] at h
          exact ⟨trivial, h.1, fun m' hm' => h.2.2.1 m' (List.mem_cons_of_mem _ hm'), by omega⟩
        · rename_i herr s h res s₁ h₁
          exact ⟨h₁.1, h.2.1.trans h₁.2.1,
            shaped_cons (memberSizeAlign_of_error herr) h₁.2.2.1 h₁.2.2.2⟩
        · -- any other member: its size first, with the fuel its type index leaves
          rename_i herr s h
          have hhas : m.ty.idx < s.pool.types.size := h.2.2.1 m List.mem_cons_self
          simp only [List.length_cons] at h
          exact ⟨trivial, h.1, by omega⟩
        · rename_i herr s h r s₁ h₁
          have hbudget := h₁.2.1.budget_le
          simp only [List.length_cons, ← h₁.2.1.types] at h
          exact ⟨trivial, h₁.1,
            fun m' hm' => h₁.2.1.grows.has (h.2.2.1 m' (List.mem_cons_of_mem _ hm')), by omega⟩
        · -- with a size: in front of the rest
          rename_i herr s h r s₁ h₁ res size align hr s₂ h₂
          have hm : s₂.pool.memberSizeAlign m = some (size, align) := by
            rw [h₁.2.2.2.memberSizeAlign_eq (h₁.2.1.grows.has (h.2.2.1 m List.mem_cons_self))
              h₂.2.1.grows.pool, memberSizeAlign_of_not_error herr, ← h₁.2.2.1, hr]
          exact ⟨h₂.1, (h.2.1.trans h₁.2.1).trans h₂.2.1, shaped_cons hm h₂.2.2.1 h₂.2.2.2⟩
        · -- without one: the shaping is incomplete, and this member says why
          rename_i herr s h r s₁ h₁ res hr s₂ h₂
          have hhas := h₁.2.1.grows.has (h.2.2.1 m List.mem_cons_self)
          have hm : s₂.pool.memberSizeAlign m = none := by
            rw [h₁.2.2.2.memberSizeAlign_eq hhas h₂.2.1.grows.pool,
              memberSizeAlign_of_not_error herr, ← h₁.2.2.1, hr]
          exact ⟨h₂.1, (h.2.1.trans h₁.2.1).trans h₂.2.1, fun hc => absurd hc Bool.false_ne_true,
            m, List.mem_cons_self, hm, h₁.2.2.2.mono hhas h₂.2.1.grows.pool⟩

/-- Laying out a record, as the spec of the engine's first part. -/
theorem ensureLayout_spec (fuel rid : Nat) (s₀ : CheckState) :
    ⦃fun s => ⌜s.Sound ∧ s₀.LaysOut s ∧ rid < s.pool.records.size ∧
      s.pool.layoutBudget ≤ fuel⌝⦄
    ensureLayout fuel rid
    ⦃⇓ _ s => ⌜s.Sound ∧ s₀.LaysOut s ∧ s.pool.Final rid⌝⦄ :=
  (layout_spec fuel).1 rid s₀

/-- The size of a type, as the spec of the engine's second part. -/
theorem sizeAlignOf_spec (fuel : Nat) (t : TypeId) (s₀ : CheckState) :
    ⦃fun s => ⌜s.Sound ∧ s₀.LaysOut s ∧ t.idx + 1 + s.pool.layoutBudget ≤ fuel⌝⦄
    sizeAlignOf fuel t
    ⦃⇓ r s => ⌜s.Sound ∧ s₀.LaysOut s ∧ r = s.pool.sizeAlign t ∧ s.pool.Settled t⌝⦄ :=
  (layout_spec fuel).2.1 t s₀

end Check

/-! ## The entry points

The checker starts the engine with fuel for two budgets of the whole pool: one for the walk,
one for the type it starts from. -/

theorem TypePool.layoutBudget_le_fuel (p : TypePool) :
    p.layoutBudget ≤ (p.records.size + 1) * p.layoutWeight :=
  Nat.mul_le_mul_right _ (Nat.succ_le_succ p.pendingCount_le)

theorem TypePool.fuel_covers_type (p : TypePool) {t : TypeId} (ht : p.Has t) :
    t.idx + 1 + p.layoutBudget ≤ 2 * (p.records.size + 1) * p.layoutWeight := by
  have hbudget := p.layoutBudget_le_fuel
  have hweight : p.layoutWeight ≤ (p.records.size + 1) * p.layoutWeight :=
    Nat.le_mul_of_pos_left _ (Nat.succ_pos _)
  have ht' : t.idx + 1 ≤ p.layoutWeight := by unfold layoutWeight Has at *; omega
  have htwice : 2 * (p.records.size + 1) * p.layoutWeight =
      (p.records.size + 1) * p.layoutWeight + (p.records.size + 1) * p.layoutWeight := by ring
  omega

theorem TypePool.fuel_covers_record (p : TypePool) :
    p.layoutBudget ≤ 2 * (p.records.size + 1) * p.layoutWeight := by
  have hbudget := p.layoutBudget_le_fuel
  have htwice : 2 * (p.records.size + 1) * p.layoutWeight =
      (p.records.size + 1) * p.layoutWeight + (p.records.size + 1) * p.layoutWeight := by ring
  omega

namespace Check

open CheckM CheckState TypePool Std.Do

@[spec] theorem layoutFuel_spec (Q : PostCond Nat (.arg CheckState .pure)) :
    ⦃fun s => Q.1 (2 * (s.pool.records.size + 1) * s.pool.layoutWeight) s⦄ layoutFuel ⦃Q⦄ := by
  mvcgen [layoutFuel]

section Specs

variable (s₀ : CheckState)

@[spec] theorem sizeAlign_spec (t : TypeId) :
    ⦃fun s => ⌜s₀.Grows s ∧ s.Sound ∧ s.pool.Has t⌝⦄ sizeAlign t
    ⦃⇓ r s => ⌜s.Sound ∧ s₀.Grows s ∧ r = s.pool.sizeAlign t ∧ s.pool.Settled t⌝⦄ := by
  mvcgen [sizeAlign, sizeAlignOf_spec]
  · rename_i s h
    exact ⟨h.2.1, LaysOut.refl _, s.pool.fuel_covers_type h.2.2⟩
  · rename_i s h r s'
    intro hsound hlays hr hsettled
    exact ⟨hsound, h.1.trans hlays.grows, hr, hsettled⟩

@[spec] theorem layoutAll_spec :
    ⦃fun s => ⌜s₀.Grows s ∧ s.Sound⌝⦄ layoutAll
    ⦃⇓ _ s => ⌜s.Sound ∧ s₀.Grows s ∧ ∀ rid < s.pool.records.size, s.pool.Final rid⌝⦄ := by
  mvcgen [layoutAll, ensureLayout_spec]
  case inv1 =>
    -- the records visited so far are settled; laying out keeps the number of records
    exact ⇓⟨cur, _⟩ s => ⌜s.Sound ∧ s₀.Grows s ∧
      s.pool.records.size = cur.prefix.length + cur.suffix.length ∧
      ∀ rid ∈ cur.prefix, s.pool.Final rid⌝
  · -- the next record is one of the pool's, and the fuel covers it
    rename_i s h count pref rid suff hxs _ s₁ h₁
    have hrid : rid < s₁.pool.records.size := by
      have hmem : rid ∈ List.range count := by simp [hxs]
      rw [h₁.2.2.1, ← List.length_append, ← hxs]
      simpa using hmem
    exact ⟨h₁.1, LaysOut.refl _, hrid, s₁.pool.fuel_covers_record⟩
  · -- laying it out keeps the records before it settled
    rename_i s h count pref rid suff hxs _ s₁ h₁ _ s₂ h₂
    refine ⟨h₂.1, h₁.2.1.trans h₂.2.1.grows, ?_, fun rid' hrid' => ?_⟩
    · rw [h₂.2.1.records, h₁.2.2.1]
      simp only [List.length_append, List.length_cons, List.length_nil]
      omega
    · rcases List.mem_append.mp hrid' with hpref | hlast
      · exact (h₁.2.2.2 rid' hpref).mono h₂.2.1.grows.pool
      · rw [List.mem_singleton.mp hlast]
        exact h₂.2.2
  · rename_i s h count
    exact ⟨h.2, h.1, by simp [count], by simp⟩
  · -- every record of the pool has been visited
    rename_i s h count _ s₁ h₁
    refine ⟨h₁.1, h₁.2.1, fun rid hrid => h₁.2.2.2 rid ?_⟩
    rw [h₁.2.2.1] at hrid
    simpa using hrid

end Specs

end Check

end SolarFront
