import SolarFront.Proofs.Check.Growth

/-!
# Interning keeps one entry per type

The pool hash-conses its structural types and gives every record an entry of its own. A pool
built from the primitive pool by the pool's own operations (`TypePool.Reachable`: interning,
pointers, arrays and functions over types already there, new records, and filling in a record's
members or layout) stays `TypePool.Canonical`: no data sits at two indices, the primitives keep
indices zero to four, every record has exactly one entry and every entry names a record of the
pool, and an array or function names only earlier entries.

The consequences are what the checker relies on when it compares types by index
(`TypePool.Reachable.interned_canonical`): interning finds exactly the entry holding its data
and adds an entry only for data not there yet, so two entries with the same data are one entry;
and since parts point to earlier entries, every cycle of the type graph goes through the members
of a record (`TypePool.Canonical.cycle_through_member`).
-/

set_option autoImplicit false
set_option linter.all false

namespace SolarFront

/-- Record data, which the pool never interns. -/
def TypeData.IsRecord (d : TypeData) : Prop := ∃ rid, d = .record rid

namespace TypePool

/-! ## Building a pool -/

/-- One operation on a pool. Interned data is not a record, and the types it is made of are
already in the pool; so are the components of pointers, arrays and functions. -/
inductive Step : TypePool → TypePool → Prop
  | intern {p : TypePool} {d : TypeData} (hd : ¬ d.IsRecord) (parts : ∀ u ∈ d.parts, p.Has u) :
      Step p (p.intern d).1
  | pointer {p : TypePool} {elem : TypeId} (h : p.Has elem) : Step p (p.pointer elem).1
  | array {p : TypePool} {elem : TypeId} (len : Nat) (h : p.Has elem) :
      Step p (p.array elem len).1
  | func {p : TypePool} {ret : TypeId} {params : List TypeId} (variadic : Bool)
      (hret : p.Has ret) (hparams : ∀ q ∈ params, p.Has q) :
      Step p (p.func ret params variadic).1
  | newRecord (p : TypePool) (kind : RecordKind) (name : Option String) (volatile : Bool)
      (span : Span) : Step p (p.newRecord kind name volatile span).1
  | setMembers (p : TypePool) (rid : Nat) (members : List Member) :
      Step p (p.modifyRecord rid ({ · with members }))
  | setLayout (p : TypePool) (rid : Nat) (layout : LayoutState) :
      Step p (p.modifyRecord rid ({ · with layout }))

/-- The pools built from the primitive pool by its operations. -/
inductive Reachable : TypePool → Prop
  | empty : Reachable TypePool.empty
  | step {p q : TypePool} : Reachable p → Step p q → Reachable q

/-- A pool with one entry per type: the primitives first, no data twice, one entry for each
record and a record for each record entry, and the parts of an entry before it. -/
structure Canonical (p : TypePool) : Prop where
  primitives : ∀ t : TypeId, t.idx < 5 → p.get t = TypePool.empty.get t
  five_le : 5 ≤ p.types.size
  nodup : p.types.toList.Nodup
  records_lt : ∀ t rid, p.get t = .record rid → rid < p.records.size
  record_entry : ∀ rid < p.records.size, ∃ t, p.Has t ∧ p.get t = .record rid
  parts_lt : ∀ t, ∀ u ∈ (p.get t).parts, u.idx < t.idx

variable {p : TypePool} {d : TypeData} {t u : TypeId}

/-! ## Reading entries -/

theorem has_of_getElem? {i : Nat} (h : p.types[i]? = some d) : p.Has ⟨i⟩ :=
  (Array.getElem?_eq_some_iff.mp h).1

theorem get_of_getElem? {i : Nat} (h : p.types[i]? = some d) : p.get ⟨i⟩ = d := by
  simp [get, h]

theorem getElem?_of_has (ht : p.Has t) : p.types[t.idx]? = some (p.get t) := by
  simp [get, Array.getElem?_eq_getElem ht]

/-- Whether interning finds data, the index it returns holds that data. -/
theorem intern_get (p : TypePool) (d : TypeData) : (p.intern d).1.get (p.intern d).2 = d := by
  unfold intern
  split
  · next i hi =>
    obtain ⟨hlt, heq, -⟩ := Array.findIdx?_eq_some_iff_getElem.mp hi
    simp only [get, Array.getElem?_eq_getElem hlt, Option.getD_some]
    exact beq_iff_eq.mp heq
  · simp [get]

/-- Data that interning does not find is nowhere in the pool. -/
theorem not_mem_of_findIdx?_eq_none (h : p.types.findIdx? (· == d) = none) :
    d ∉ p.types.toList := by
  intro hmem
  rw [Array.findIdx?_eq_none_iff] at h
  exact absurd (h d (Array.mem_toList_iff.mp hmem)) (by simp)

/-! ## The primitive pool -/

theorem empty_get_of_five_le (ht : 5 ≤ t.idx) : TypePool.empty.get t = .error := by
  apply get_of_not_has
  simpa [Has, empty] using ht

theorem canonical_empty : TypePool.empty.Canonical where
  primitives _ _ := rfl
  five_le := by decide
  nodup := by decide
  records_lt t rid h := by
    by_cases ht : t.idx < 5
    · obtain ⟨i⟩ := t
      simp only at ht
      interval_cases i <;> cases h
    · rw [empty_get_of_five_le (by omega)] at h
      cases h
  record_entry rid h := absurd h (by simp [empty])
  parts_lt t u hu := by
    by_cases ht : t.idx < 5
    · obtain ⟨i⟩ := t
      simp only at ht
      interval_cases i <;> simp [get, empty, TypeData.parts] at hu
    · rw [empty_get_of_five_le (by omega)] at hu
      simp [TypeData.parts] at hu

/-! ## What each operation keeps -/

namespace Canonical

/-- An entry of a pool with data added: an old entry, the added data, or nothing. -/
theorem get_push (p : TypePool) (d : TypeData) (t : TypeId) :
    ({ p with types := p.types.push d } : TypePool).get t =
      if t.idx < p.types.size then p.get t else if t.idx = p.types.size then d else .error := by
  simp only [get, Array.getElem?_push]
  split_ifs with hlt heq heq' <;> first | omega | simp_all

theorem nodup_push (hn : p.types.toList.Nodup) (hnew : d ∉ p.types.toList) :
    (p.types.push d).toList.Nodup := by
  rw [Array.toList_push]
  exact List.nodup_append.mpr ⟨hn, List.nodup_singleton d,
    fun a ha b hb => by rw [List.mem_singleton.mp hb]; rintro rfl; exact hnew ha⟩

/-- Adding data made of types of the pool keeps every part before its entry. -/
theorem parts_lt_push (hc : p.Canonical) (parts : ∀ u ∈ d.parts, p.Has u) (t : TypeId) :
    ∀ u ∈ (({ p with types := p.types.push d } : TypePool).get t).parts, u.idx < t.idx := by
  intro u hu
  rw [get_push] at hu
  split_ifs at hu with hlt heq
  · exact hc.parts_lt t u hu
  · rw [heq]
    exact parts u hu
  · simp [TypeData.parts] at hu

/-- Adding data that is not in the pool yet, made of types of the pool and naming only its
records, keeps the pool canonical. -/
theorem push (hc : p.Canonical) (hnew : d ∉ p.types.toList) (parts : ∀ u ∈ d.parts, p.Has u)
    (records : ∀ rid, d = .record rid → rid < p.records.size) :
    Canonical { p with types := p.types.push d } where
  primitives t ht := by
    rw [get_push_of_has d (Nat.lt_of_lt_of_le ht hc.five_le)]
    exact hc.primitives t ht
  five_le := Nat.le_trans hc.five_le (by simp)
  nodup := nodup_push hc.nodup hnew
  records_lt t rid h := by
    rw [get_push] at h
    split_ifs at h
    · exact hc.records_lt t rid h
    · exact records rid h
  record_entry rid hrid := by
    obtain ⟨t, ht, hget⟩ := hc.record_entry rid hrid
    exact ⟨t, Nat.lt_of_lt_of_le ht (by simp), by rw [get_push_of_has d ht, hget]⟩
  parts_lt := parts_lt_push hc parts

/-- Record data that names no record of the pool is not in it. -/
theorem record_not_mem (hc : p.Canonical) : TypeData.record p.records.size ∉ p.types.toList := by
  intro hmem
  obtain ⟨i, hi, hget⟩ := List.getElem_of_mem hmem
  have hi' : p.types[i]? = some (.record p.records.size) := by
    rw [← Array.getElem?_toList, List.getElem?_eq_getElem hi, hget]
  exact Nat.lt_irrefl _ (hc.records_lt ⟨i⟩ _ (get_of_getElem? hi'))

theorem intern (hc : p.Canonical) (hd : ¬ d.IsRecord) (parts : ∀ u ∈ d.parts, p.Has u) :
    (p.intern d).1.Canonical := by
  unfold TypePool.intern
  split
  · exact hc
  · next hnone =>
    exact hc.push (not_mem_of_findIdx?_eq_none hnone) parts (fun rid h => absurd ⟨rid, h⟩ hd)

/-- A new record adds its definition and one entry naming it. -/
theorem newRecord (hc : p.Canonical) (kind : RecordKind) (name : Option String)
    (volatile : Bool) (span : Span) : (p.newRecord kind name volatile span).1.Canonical := by
  -- the new pool reads its entries as the old one with the record's entry added
  have hget : ∀ t, (p.newRecord kind name volatile span).1.get t =
      ({ p with types := p.types.push (.record p.records.size) } : TypePool).get t :=
    fun _ => rfl
  have hsize : (p.newRecord kind name volatile span).1.records.size = p.records.size + 1 := by
    simp [newRecord_eq]
  have htypes : (p.newRecord kind name volatile span).1.types =
      p.types.push (.record p.records.size) := rfl
  exact {
    primitives := fun t ht => by
      rw [hget, get_push_of_has _ (Nat.lt_of_lt_of_le ht hc.five_le)]
      exact hc.primitives t ht
    five_le := by rw [htypes]; exact Nat.le_trans hc.five_le (by simp)
    nodup := by rw [htypes]; exact nodup_push hc.nodup hc.record_not_mem
    records_lt := fun t rid h => by
      rw [hsize]
      rw [hget, get_push] at h
      split_ifs at h with hlt heq
      · exact Nat.lt_succ_of_lt (hc.records_lt t rid h)
      · cases h
        exact Nat.lt_succ_self _
    record_entry := fun rid hrid => by
      rw [hsize] at hrid
      rcases Nat.lt_succ_iff_lt_or_eq.mp hrid with hlt | rfl
      · obtain ⟨t, ht, hentry⟩ := hc.record_entry rid hlt
        refine ⟨t, ?_, ?_⟩
        · show t.idx < (p.newRecord kind name volatile span).1.types.size
          rw [htypes, Array.size_push]
          exact Nat.lt_succ_of_lt ht
        · rw [hget, get_push_of_has _ ht, hentry]
      · exact ⟨⟨p.types.size⟩, by simp [Has, htypes], by rw [hget, get_push_self]⟩
    parts_lt := fun t => by
      rw [hget]
      exact parts_lt_push hc (by simp [TypeData.parts]) t }

theorem modifyRecord (hc : p.Canonical) (rid : Nat) (f : RecordDef → RecordDef) :
    (p.modifyRecord rid f).Canonical where
  primitives := hc.primitives
  five_le := hc.five_le
  nodup := hc.nodup
  records_lt t r h := by simpa using hc.records_lt t r h
  record_entry r hr := hc.record_entry r (by simpa using hr)
  parts_lt := hc.parts_lt

theorem step (hc : p.Canonical) {q : TypePool} (h : Step p q) : q.Canonical := by
  cases h with
  | intern hd parts => exact hc.intern hd parts
  | pointer h => exact hc.intern (by rintro ⟨_, ⟨⟩⟩) (by simpa [TypeData.parts] using h)
  | array len h => exact hc.intern (by rintro ⟨_, ⟨⟩⟩) (by simpa [TypeData.parts] using h)
  | func variadic hret hparams =>
    exact hc.intern (by rintro ⟨_, ⟨⟩⟩) (by simpa [TypeData.parts] using ⟨hret, hparams⟩)
  | newRecord kind name volatile span => exact hc.newRecord kind name volatile span
  | setMembers rid members => exact hc.modifyRecord rid _
  | setLayout rid layout => exact hc.modifyRecord rid _

end Canonical

theorem Reachable.canonical {p : TypePool} (h : p.Reachable) : p.Canonical := by
  induction h with
  | empty => exact canonical_empty
  | step _ hstep ih => exact ih.step hstep

/-! ## Equal data, equal index -/

namespace Canonical

/-- Two entries with the same data are one entry. -/
theorem eq_of_get_eq (hc : p.Canonical) (ht : p.Has t) (hu : p.Has u) (h : p.get t = p.get u) :
    t = u := by
  have hlist : p.types.toList[t.idx]? = p.types.toList[u.idx]? := by
    rw [Array.getElem?_toList, Array.getElem?_toList, getElem?_of_has ht, getElem?_of_has hu, h]
  have hidx := (List.getElem?_inj (by simpa [Has] using ht) hc.nodup).mp hlist
  cases t
  cases u
  simp_all

/-- Every record of the pool has exactly one entry. -/
theorem record_unique (hc : p.Canonical) {rid : Nat} (hrid : rid < p.records.size) :
    ∃! t, p.Has t ∧ p.get t = .record rid := by
  obtain ⟨t, ht, hget⟩ := hc.record_entry rid hrid
  exact ⟨t, ⟨ht, hget⟩, fun u ⟨hu, hget'⟩ => hc.eq_of_get_eq hu ht (hget'.trans hget.symm)⟩

/-- Interning leaves the pool as it is exactly when the data is there, and then returns its
entry. -/
theorem intern_eq_iff (hc : p.Canonical) : p.intern d = (p, t) ↔ p.Has t ∧ p.get t = d := by
  constructor
  · intro h
    have hget := intern_get p d
    unfold TypePool.intern at h hget
    split at h
    · next i hi =>
      obtain ⟨hlt, -, -⟩ := Array.findIdx?_eq_some_iff_getElem.mp hi
      cases h
      exact ⟨hlt, by simpa [hi] using hget⟩
    · -- adding an entry changes the pool
      have hsize := congrArg (fun q : TypePool × TypeId => q.1.types.size) h
      simp at hsize
  · rintro ⟨ht, rfl⟩
    unfold TypePool.intern
    split
    · next i hi =>
      obtain ⟨hlt, heq, -⟩ := Array.findIdx?_eq_some_iff_getElem.mp hi
      have hi' : p.get ⟨i⟩ = p.get t := by
        simpa [get, Array.getElem?_eq_getElem hlt] using beq_iff_eq.mp heq
      rw [hc.eq_of_get_eq hlt ht hi']
    · next hnone =>
      exact absurd (List.mem_iff_getElem?.mpr ⟨t.idx, by simpa using getElem?_of_has ht⟩)
        (not_mem_of_findIdx?_eq_none hnone)

end Canonical

/-! ## Cycles of the type graph -/

/-- An edge from a record to the type of one of its members. -/
def MemberEdge (p : TypePool) (t u : TypeId) : Prop :=
  ∃ rid, p.get t = .record rid ∧ ∃ m ∈ (p.record rid).members, m.ty = u

/-- The type graph: an entry points to its parts, and a record to the types of its members. -/
def Edge (p : TypePool) (t u : TypeId) : Prop := u ∈ (p.get t).parts ∨ p.MemberEdge t u

/-- A path of the type graph either ends at an earlier entry, or takes an edge through a member
on the way. -/
theorem Canonical.transGen_edge (hc : p.Canonical) (h : Relation.TransGen p.Edge t u) :
    u.idx < t.idx ∨ ∃ a b, p.MemberEdge a b ∧ Relation.ReflTransGen p.Edge t a ∧
      Relation.ReflTransGen p.Edge b u := by
  induction h with
  | single hedge =>
    rcases hedge with hpart | hmember
    · exact .inl (hc.parts_lt _ _ hpart)
    · exact .inr ⟨_, _, hmember, .refl, .refl⟩
  | @tail b c hpath hedge ih =>
    rcases hedge with hpart | hmember
    · rcases ih with hlt | ⟨a, a', hm, hta, hab⟩
      · exact .inl (Nat.lt_trans (hc.parts_lt _ _ hpart) hlt)
      · exact .inr ⟨a, a', hm, hta, hab.tail (.inl hpart)⟩
    · exact .inr ⟨b, c, hmember, hpath.to_reflTransGen, .refl⟩

/-- Every cycle of the type graph goes through the members of a record. -/
theorem Canonical.cycle_through_member (hc : p.Canonical) (h : Relation.TransGen p.Edge t t) :
    ∃ a b, p.MemberEdge a b ∧ Relation.ReflTransGen p.Edge t a ∧
      Relation.ReflTransGen p.Edge b t :=
  (hc.transGen_edge h).resolve_left (Nat.lt_irrefl _)

end TypePool

end SolarFront
