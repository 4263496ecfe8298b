import SolarFront.Proofs.Check.Growth

/-!
# What a record's layout state says

A record's layout is finished (`done`) or has failed (`failed`) for a reason. A finished layout
packs its members in order, each taking the size and alignment the pool gives its type (a
member of the error type taking no room), and the record does not need itself: no member holds
it in place, directly or through the records they hold. A failed layout needs a record that
was reported as containing itself, or a record with a member that has no size and holds no
record, which can only be an array of `void` or of the error type.

`TypePool.LayoutSound` states this for every record. It survives every step of the checker
that keeps the finished layouts and adds no failed one, and the lemmas at the end say when
setting one record's layout or members keeps it.
-/

set_option autoImplicit false
set_option linter.all false

namespace SolarFront

/-- The layout of a record of the kind with these member shapes. -/
def RecordKind.layout : RecordKind → List FieldShape → Layout
  | .struct => structLayout
  | .union => unionLayout

/-- What layout needs of a member whose size and alignment are known. -/
def Member.shape (m : Member) (sizeAlign : Nat × Nat) : FieldShape :=
  ⟨m.name, m.ty, sizeAlign.1, sizeAlign.2, m.bits⟩

@[simp] theorem RecordDef.default_layout : (default : RecordDef).layout = .pending := rfl

@[simp] theorem RecordDef.default_members : (default : RecordDef).members = [] := rfl

@[simp] theorem RecordDef.layout?_eq_some {r : RecordDef} {l : Layout} :
    r.layout? = some l ↔ r.layout = .done l := by
  unfold RecordDef.layout?
  split <;> simp_all

namespace TypePool

theorem record_of_size_le {p : TypePool} {rid : Nat} (h : p.records.size ≤ rid) :
    p.record rid = default := by
  simp [record, Array.getElem?_eq_none h]

/-- A record with a layout other than `pending` is a record of the pool. -/
theorem lt_of_layout_ne_pending {p : TypePool} {rid : Nat}
    (h : (p.record rid).layout ≠ .pending) : rid < p.records.size := by
  by_contra hle
  exact h (by rw [record_of_size_le (Nat.le_of_not_lt hle)]; rfl)

/-- The record a value of the type holds in place: a record type holds its record, and an array
with a length holds what its elements hold. -/
def heldRecord (p : TypePool) (t : TypeId) : Option Nat :=
  match p.get t with
  | .record rid => some rid
  | .array e (some _) => if e.idx < t.idx then p.heldRecord e else none
  | _ => none
termination_by t.idx

/-- A member of record `rid` holds record `rid'` in place. -/
def Holds (p : TypePool) (rid rid' : Nat) : Prop :=
  ∃ m ∈ (p.record rid).members, p.heldRecord m.ty = some rid'

/-- Record `rid` needs the layout of `rid'`: it is `rid'`, or one of its members holds in place
a record that needs it. -/
def Needs (p : TypePool) : Nat → Nat → Prop := Relation.ReflTransGen p.Holds

/-- The size and alignment of a member in its record's layout; a member of the error type takes
no room. -/
def memberSizeAlign (p : TypePool) (m : Member) : Option (Nat × Nat) :=
  if m.ty.isError then some (0, 1) else p.sizeAlign m.ty

/-- The shapes of members, when every one of them has a size. -/
def memberShapes (p : TypePool) (ms : List Member) : Option (List FieldShape) :=
  ms.mapM fun m => (p.memberSizeAlign m).map m.shape

/-- Record `rid` has a member with no size that holds no record in place. -/
def SizelessMember (p : TypePool) (rid : Nat) : Prop :=
  ∃ m ∈ (p.record rid).members, p.memberSizeAlign m = none ∧ p.heldRecord m.ty = none

/-- A record that explains failed layouts: it was reported as containing itself, or it has a
sizeless member. -/
def Culprit (p : TypePool) (diags : List Diagnostic) (rid : Nat) : Prop :=
  Check.containsItself (p.record rid) ∈ diags ∨ p.SizelessMember rid

/-- Record `rid` has a finished layout. -/
def LaidOut (p : TypePool) (rid : Nat) : Prop := ∃ l, (p.record rid).layout = .done l

/-- What the layout state of record `rid` says, given the diagnostics `diags`. A finished layout
packs the shapes the pool gives the members, and the record does not need itself through its
members; a failed one needs a culprit. -/
structure RecordSound (p : TypePool) (diags : List Diagnostic) (rid : Nat) : Prop where
  done : ∀ l, (p.record rid).layout = .done l →
    (∃ fields, p.memberShapes (p.record rid).members = some fields ∧
      l = (p.record rid).kind.layout fields) ∧ ¬ Relation.TransGen p.Holds rid rid
  failed : (p.record rid).layout = .failed → ∃ rid', p.Needs rid rid' ∧ p.Culprit diags rid'

/-- Every record's layout state says what it should. -/
def LayoutSound (p : TypePool) (diags : List Diagnostic) : Prop := ∀ rid, p.RecordSound diags rid

/-! ## Reading types that are in the pool -/

theorem has_of_sizeAlign {p : TypePool} {t : TypeId} {x : Nat × Nat}
    (h : p.sizeAlign t = some x) : p.Has t := by
  by_contra ht
  unfold sizeAlign at h
  simp [get_of_not_has ht] at h

theorem has_of_heldRecord {p : TypePool} {t : TypeId} {rid : Nat}
    (h : p.heldRecord t = some rid) : p.Has t := by
  by_contra ht
  unfold heldRecord at h
  simp [get_of_not_has ht] at h

/-- A record held in place is a record of the pool. -/
theorem WellFormed.heldRecord_lt {p : TypePool} (wf : p.WellFormed) {t : TypeId} {rid : Nat}
    (h : p.heldRecord t = some rid) : rid < p.records.size := by
  fun_induction p.heldRecord t with
  | case1 t rid' heq =>
    cases h
    exact wf.records_lt t _ heq
  | case2 t e len heq hlt ih => exact ih h
  | case3 => cases h
  | case4 => cases h

/-- A type with a size that holds a record in place holds one with a finished layout. -/
theorem layout_done_of_sizeAlign {p : TypePool} {t : TypeId} {x : Nat × Nat} {rid : Nat}
    (hsize : p.sizeAlign t = some x) (hheld : p.heldRecord t = some rid) :
    ∃ l, (p.record rid).layout = .done l := by
  fun_induction p.heldRecord t generalizing x with
  | case1 t rid' heq =>
    cases hheld
    unfold sizeAlign at hsize
    simp only [heq, Option.map_eq_some_iff, RecordDef.layout?_eq_some] at hsize
    obtain ⟨l, hl, -⟩ := hsize
    exact ⟨l, hl⟩
  | case2 t e len heq hlt ih =>
    unfold sizeAlign at hsize
    simp only [heq, if_pos hlt] at hsize
    obtain ⟨y, hy, -⟩ := Option.map_eq_some_iff.mp hsize
    exact ih hy hheld
  | case3 => cases hheld
  | case4 => cases hheld

/-! ## What the size of a type reads -/

/-- What a type holds in place reads only the entries of the pool up to the type. -/
theorem heldRecord_congr {p q : TypePool} {t : TypeId}
    (hget : ∀ u : TypeId, u.idx ≤ t.idx → q.get u = p.get u) :
    q.heldRecord t = p.heldRecord t := by
  fun_induction p.heldRecord t with
  | case1 t rid h => rw [heldRecord.eq_1 q t, hget t le_rfl, h]
  | case2 t e len h hlt ih =>
    rw [heldRecord.eq_1 q t, hget t le_rfl, h]
    simp [hlt, ih fun u hu => hget u (by omega)]
  | case3 t e len h hlt =>
    rw [heldRecord.eq_1 q t, hget t le_rfl, h]
    simp [hlt]
  | case4 t notRecord notArray =>
    rw [heldRecord.eq_1 q t, hget t le_rfl]
    split
    · next rid h => exact absurd h (notRecord rid)
    · next e len h => exact absurd h (notArray e len)
    · rfl

/-- The size of a type reads only the entries of the pool up to the type and the layout of the
record it holds in place. -/
theorem sizeAlign_congr {p q : TypePool} {t : TypeId}
    (hget : ∀ u : TypeId, u.idx ≤ t.idx → q.get u = p.get u)
    (hlayout : ∀ rid, p.heldRecord t = some rid →
      (q.record rid).layout? = (p.record rid).layout?) :
    q.sizeAlign t = p.sizeAlign t := by
  fun_induction p.sizeAlign t with
  | case1 t h | case2 t h => rw [sizeAlign.eq_1 q t, hget t le_rfl, h]
  | case3 t w h => rw [sizeAlign.eq_1 q t, hget t le_rfl, h]
  | case4 t ret params variadic h => rw [sizeAlign.eq_1 q t, hget t le_rfl, h]
  | case5 t e h => rw [sizeAlign.eq_1 q t, hget t le_rfl, h]
  | case6 t e len h hlt ih =>
    have held : p.heldRecord t = p.heldRecord e := by
      rw [heldRecord.eq_1 p t, h]
      simp [hlt]
    rw [sizeAlign.eq_1 q t, hget t le_rfl, h]
    simp [hlt, ih (fun u hu => hget u (by omega)) (fun rid hr => hlayout rid (held.trans hr))]
  | case7 t e len h hlt =>
    rw [sizeAlign.eq_1 q t, hget t le_rfl, h]
    simp [hlt]
  | case8 t rid h =>
    have held : p.heldRecord t = some rid := by rw [heldRecord.eq_1 p t, h]
    rw [sizeAlign.eq_1 q t, hget t le_rfl, h]
    simp only [hlayout rid held]

@[simp] theorem TypeId.isError_iff {t : TypeId} : t.isError = true ↔ t = .error := by
  cases t
  simp [TypeId.isError, TypeId.error]

theorem heldRecord_error {p : TypePool} (wf : p.WellFormed) : p.heldRecord .error = none := by
  rw [heldRecord.eq_1, wf.base _ (by decide)]
  rfl

theorem memberSizeAlign_congr {p q : TypePool} {m : Member}
    (h : q.sizeAlign m.ty = p.sizeAlign m.ty) : q.memberSizeAlign m = p.memberSizeAlign m := by
  simp only [memberSizeAlign, h]

/-- A member with a size holds in place only records with finished layouts. -/
theorem laidOut_of_memberSizeAlign {p : TypePool} (wf : p.WellFormed) {m : Member}
    {x : Nat × Nat} {rid : Nat} (hsize : p.memberSizeAlign m = some x)
    (hheld : p.heldRecord m.ty = some rid) : p.LaidOut rid := by
  unfold memberSizeAlign at hsize
  split at hsize
  · next herr =>
    rw [TypeId.isError_iff.mp herr, heldRecord_error wf] at hheld
    cases hheld
  · exact layout_done_of_sizeAlign hsize hheld

theorem memberShapes_cons (p : TypePool) (m : Member) (ms : List Member) :
    p.memberShapes (m :: ms) =
      (p.memberSizeAlign m).bind fun x => (p.memberShapes ms).map (m.shape x :: ·) := by
  simp only [memberShapes, List.mapM_cons]
  cases p.memberSizeAlign m <;> cases ms.mapM (fun m => (p.memberSizeAlign m).map m.shape) <;> rfl

/-- Members have shapes exactly when each of them has a size. -/
theorem memberShapes_eq_none_iff {p : TypePool} {ms : List Member} :
    p.memberShapes ms = none ↔ ∃ m ∈ ms, p.memberSizeAlign m = none := by
  induction ms with
  | nil => simp [memberShapes]
  | cons m ms ih =>
    rw [memberShapes_cons]
    cases h : p.memberSizeAlign m <;> simp [h, ih]

theorem memberSizeAlign_of_memberShapes {p : TypePool} {ms : List Member}
    {fields : List FieldShape} (h : p.memberShapes ms = some fields) {m : Member} (hm : m ∈ ms) :
    ∃ x, p.memberSizeAlign m = some x := by
  cases hx : p.memberSizeAlign m with
  | none => simp [memberShapes_eq_none_iff.mpr ⟨m, hm, hx⟩] at h
  | some x => exact ⟨x, rfl⟩

/-- The shapes of members read only the sizes of the members. -/
theorem memberShapes_congr {p q : TypePool} {ms : List Member}
    (h : ∀ m ∈ ms, q.memberSizeAlign m = p.memberSizeAlign m) :
    q.memberShapes ms = p.memberShapes ms := by
  induction ms with
  | nil => rfl
  | cons m ms ih =>
    rw [memberShapes_cons, memberShapes_cons, h m (by simp),
      ih fun m' hm' => h m' (by simp [hm'])]

/-! ## What survives growth -/

/-- `q` keeps what `p` holds and every finished layout of `p`. -/
structure KeepsDone (p q : TypePool) : Prop extends p.Keeps q where
  done : ∀ rid l, (p.record rid).layout = .done l → (q.record rid).layout = .done l

theorem Extends.keepsDone {p q : TypePool} (h : p.Extends q) : p.KeepsDone q := by
  refine ⟨h.toKeeps, fun rid l hl => ?_⟩
  have hlater := h.later rid (lt_of_layout_ne_pending (by simp [hl]))
  rw [hl] at hlater
  exact hlater

theorem Keeps.get_eq_of_le {p q : TypePool} (h : p.Keeps q) {t : TypeId} (ht : p.Has t) :
    ∀ u : TypeId, u.idx ≤ t.idx → q.get u = p.get u :=
  fun u hu => h.get_eq u (Nat.lt_of_le_of_lt hu ht)

/-- What a type of the pool holds in place does not change as the pool grows. -/
theorem Keeps.heldRecord_eq {p q : TypePool} (h : p.Keeps q) {t : TypeId} (ht : p.Has t) :
    q.heldRecord t = p.heldRecord t :=
  heldRecord_congr (h.get_eq_of_le ht)

/-- The size of a type of the pool that holds no record in place does not change as the pool
grows: it reads no layout. -/
theorem Keeps.sizeAlign_eq_of_heldRecord {p q : TypePool} (h : p.Keeps q) {t : TypeId}
    (ht : p.Has t) (hheld : p.heldRecord t = none) : q.sizeAlign t = p.sizeAlign t :=
  sizeAlign_congr (h.get_eq_of_le ht) (by simp [hheld])

/-- A size the pool gives a type stays once the pool grows. -/
theorem KeepsDone.sizeAlign_eq {p q : TypePool} (h : p.KeepsDone q) {t : TypeId}
    {x : Nat × Nat} (hx : p.sizeAlign t = some x) : q.sizeAlign t = some x := by
  rw [← hx]
  refine sizeAlign_congr (h.get_eq_of_le (has_of_sizeAlign hx)) fun rid hrid => ?_
  obtain ⟨l, hl⟩ := layout_done_of_sizeAlign hx hrid
  simp [RecordDef.layout?, hl, h.done rid l hl]

theorem KeepsDone.memberSizeAlign_eq {p q : TypePool} (h : p.KeepsDone q) {m : Member}
    {x : Nat × Nat} (hx : p.memberSizeAlign m = some x) : q.memberSizeAlign m = some x := by
  unfold memberSizeAlign at hx ⊢
  split
  · simpa [*] using hx
  · simp only [*, Bool.false_eq_true, ↓reduceIte] at hx
    exact h.sizeAlign_eq hx

theorem KeepsDone.memberShapes_eq {p q : TypePool} (h : p.KeepsDone q) {ms : List Member}
    {fields : List FieldShape} (hms : p.memberShapes ms = some fields) :
    q.memberShapes ms = some fields := by
  rw [← hms]
  refine memberShapes_congr fun m hm => ?_
  obtain ⟨x, hx⟩ := memberSizeAlign_of_memberShapes hms hm
  rw [hx, h.memberSizeAlign_eq hx]

/-! ## Holds, needs and culprits -/

theorem holds_lt {p : TypePool} {x y : Nat} (h : p.Holds x y) : x < p.records.size := by
  obtain ⟨m, hm, -⟩ := h
  by_contra hle
  rw [record_of_size_le (Nat.le_of_not_lt hle)] at hm
  simp at hm

/-- The records a record of the pool needs are records of the pool. -/
theorem WellFormed.lt_of_needs {p : TypePool} (wf : p.WellFormed) {x y : Nat}
    (hx : x < p.records.size) (h : p.Needs x y) : y < p.records.size := by
  induction h with
  | refl => exact hx
  | tail _ hyz _ =>
    obtain ⟨m, -, hheld⟩ := hyz
    exact wf.heldRecord_lt hheld

theorem Keeps.holds_iff {p q : TypePool} (wf : p.WellFormed) (h : p.Keeps q) {x y : Nat}
    (hx : x < p.records.size) : q.Holds x y ↔ p.Holds x y := by
  unfold Holds
  rw [h.members_eq hx]
  constructor
  · rintro ⟨m, hm, hheld⟩
    exact ⟨m, hm, by rwa [← h.heldRecord_eq (wf.members_has x hx m hm)]⟩
  · rintro ⟨m, hm, hheld⟩
    exact ⟨m, hm, by rwa [h.heldRecord_eq (wf.members_has x hx m hm)]⟩

theorem Keeps.holds {p q : TypePool} (wf : p.WellFormed) (h : p.Keeps q) {x y : Nat}
    (hxy : p.Holds x y) : q.Holds x y :=
  (h.holds_iff wf (holds_lt hxy)).mpr hxy

theorem Keeps.needs {p q : TypePool} (wf : p.WellFormed) (h : p.Keeps q) {x y : Nat}
    (hxy : p.Needs x y) : q.Needs x y :=
  Relation.ReflTransGen.mono (fun _ _ => h.holds wf) _ _ hxy

theorem Keeps.sizelessMember {p q : TypePool} (wf : p.WellFormed) (h : p.Keeps q) {rid : Nat}
    (hrid : rid < p.records.size) (hs : p.SizelessMember rid) : q.SizelessMember rid := by
  obtain ⟨m, hm, hsize, hheld⟩ := hs
  have hty := wf.members_has rid hrid m hm
  refine ⟨m, by rwa [h.members_eq hrid], ?_, by rwa [h.heldRecord_eq hty]⟩
  rw [memberSizeAlign_congr (h.sizeAlign_eq_of_heldRecord hty hheld), hsize]

@[simp] theorem Check.containsItself_layout (r : RecordDef) (l : LayoutState) :
    Check.containsItself { r with layout := l } = Check.containsItself r := rfl

@[simp] theorem Check.containsItself_members (r : RecordDef) (ms : List Member) :
    Check.containsItself { r with members := ms } = Check.containsItself r := rfl

theorem Keeps.culprit {p q : TypePool} (wf : p.WellFormed) (h : p.Keeps q)
    {diags diags' : List Diagnostic} (hdiags : ∀ d ∈ diags, d ∈ diags') {rid : Nat}
    (hrid : rid < p.records.size) (hc : p.Culprit diags rid) : q.Culprit diags' rid := by
  rcases hc with hc | hc
  · left
    rw [h.record_eq rid hrid, Check.containsItself_layout]
    exact hdiags _ hc
  · exact .inr (h.sizelessMember wf hrid hc)

/-! ## Finished records -/

theorem lt_of_laidOut {p : TypePool} {rid : Nat} (h : p.LaidOut rid) : rid < p.records.size := by
  obtain ⟨l, hl⟩ := h
  exact lt_of_layout_ne_pending (by simp [hl])

/-- A pool that keeps `p` gives a finished record of `p` only the holds it has in `p`. -/
theorem Keeps.holds_of_laidOut {p q : TypePool} (wf : p.WellFormed) (h : p.Keeps q) {x y : Nat}
    (hx : p.LaidOut x) (hxy : q.Holds x y) : p.Holds x y :=
  (h.holds_iff wf (lt_of_laidOut hx)).mp hxy

/-- A record with a finished layout holds in place only records with finished layouts. -/
theorem RecordSound.laidOut_of_holds {p : TypePool} {diags : List Diagnostic}
    (wf : p.WellFormed) {x y : Nat} (hs : p.RecordSound diags x) (hx : p.LaidOut x)
    (hxy : p.Holds x y) : p.LaidOut y := by
  obtain ⟨l, hl⟩ := hx
  obtain ⟨⟨fields, hfields, -⟩, -⟩ := hs.done l hl
  obtain ⟨m, hm, hheld⟩ := hxy
  obtain ⟨z, hz⟩ := memberSizeAlign_of_memberShapes hfields hm
  exact laidOut_of_memberSizeAlign wf hz hheld

/-- In a sound pool, a path of holds of a pool `q` that leaves a finished record, where `q`
gives finished records of `p` no hold that `p` does not, is a path of `p` through finished
records. -/
theorem LayoutSound.transGen_of_laidOut {p q : TypePool} {diags : List Diagnostic}
    (wf : p.WellFormed) (hs : p.LayoutSound diags)
    (hsame : ∀ x y, p.LaidOut x → q.Holds x y → p.Holds x y) {x y : Nat} (hx : p.LaidOut x)
    (h : Relation.TransGen q.Holds x y) : Relation.TransGen p.Holds x y ∧ p.LaidOut y := by
  induction h using Relation.TransGen.head_induction_on with
  | single hxy =>
    have hp := hsame _ _ hx hxy
    exact ⟨.single hp, (hs _).laidOut_of_holds wf hx hp⟩
  | head hxz _ ih =>
    have hp := hsame _ _ hx hxz
    obtain ⟨hpath, hy⟩ := ih ((hs _).laidOut_of_holds wf hx hp)
    exact ⟨.head hp hpath, hy⟩

/-! ## Steps that keep layout soundness -/

/-- Soundness of one record survives a step that keeps the pool and every finished layout and
adds only diagnostics, when the record gets no finished layout it did not have and fails only
with a culprit. -/
theorem RecordSound.transfer {p q : TypePool} {diags diags' : List Diagnostic}
    (wf : p.WellFormed) (hs : p.LayoutSound diags) (hk : p.KeepsDone q)
    (hdiags : ∀ d ∈ diags, d ∈ diags') {rid : Nat}
    (hdone : ∀ l, (q.record rid).layout = .done l → (p.record rid).layout = .done l)
    (hfailed : (q.record rid).layout = .failed →
      rid < p.records.size ∧ ∃ c, p.Needs rid c ∧ p.Culprit diags c) :
    q.RecordSound diags' rid where
  done l hl := by
    have hpl := hdone l hl
    have hrid : rid < p.records.size := lt_of_layout_ne_pending (by simp [hpl])
    obtain ⟨⟨fields, hfields, rfl⟩, hcycle⟩ := (hs rid).done l hpl
    rw [hk.members_eq hrid, hk.kind_eq hrid]
    refine ⟨⟨fields, hk.memberShapes_eq hfields, rfl⟩, fun hq => hcycle ?_⟩
    exact (hs.transGen_of_laidOut wf (fun _ _ => hk.holds_of_laidOut wf) ⟨_, hpl⟩ hq).1
  failed hf := by
    obtain ⟨hrid, c, hneeds, hc⟩ := hfailed hf
    exact ⟨c, hk.needs wf hneeds,
      hk.culprit wf hdiags (wf.lt_of_needs hrid hneeds) hc⟩

/-- Layout soundness survives a step that keeps the pool and every finished layout, finishes
and fails no layout, and only adds diagnostics. -/
theorem LayoutSound.mono {p q : TypePool} {diags diags' : List Diagnostic} (wf : p.WellFormed)
    (hs : p.LayoutSound diags) (hk : p.KeepsDone q) (hdiags : ∀ d ∈ diags, d ∈ diags')
    (hdone : ∀ rid l, (q.record rid).layout = .done l → (p.record rid).layout = .done l)
    (hfailed : ∀ rid, (q.record rid).layout = .failed → (p.record rid).layout = .failed) :
    q.LayoutSound diags' := fun rid =>
  RecordSound.transfer wf hs hk hdiags (hdone rid) fun hf =>
    ⟨lt_of_layout_ne_pending (by simp [hfailed rid hf]), (hs rid).failed (hfailed rid hf)⟩

/-- Only diagnostics were added. -/
theorem LayoutSound.of_diags {p : TypePool} {diags diags' : List Diagnostic}
    (hs : p.LayoutSound diags) (hdiags : ∀ d ∈ diags, d ∈ diags') : p.LayoutSound diags' :=
  fun rid => ⟨(hs rid).done, fun hf =>
    let ⟨c, hneeds, hc⟩ := (hs rid).failed hf
    ⟨c, hneeds, hc.imp (hdiags _) id⟩⟩

/-- Types were added and the records left as they were. -/
theorem LayoutSound.of_records_eq {p q : TypePool} {diags diags' : List Diagnostic}
    (wf : p.WellFormed) (hs : p.LayoutSound diags) (hk : p.Keeps q) (hrec : q.records = p.records)
    (hdiags : ∀ d ∈ diags, d ∈ diags') : q.LayoutSound diags' := by
  have hr : ∀ rid, q.record rid = p.record rid := fun rid => by simp [record, hrec]
  exact hs.mono wf ⟨hk, fun rid l hl => by rwa [hr]⟩ hdiags (fun rid l hl => by rwa [← hr])
    (fun rid hl => by rwa [← hr])

/-- A new record, without members and without a layout, keeps layout soundness. -/
theorem LayoutSound.newRecord {p : TypePool} {diags : List Diagnostic} (wf : p.WellFormed)
    (hs : p.LayoutSound diags) (kind : RecordKind) (name : Option String) (volatile : Bool)
    (span : Span) : (p.newRecord kind name volatile span).1.LayoutSound diags := by
  have hk := (newRecord_extends p kind name volatile span).keepsDone
  have hnew : ∀ rid, p.records.size ≤ rid →
      ((p.newRecord kind name volatile span).1.record rid).layout = .pending := by
    intro rid hle
    rcases Nat.lt_or_ge rid (p.records.size + 1) with hlt | hge
    · rw [show rid = p.records.size by omega, newRecord_record]
    · rw [record_of_size_le (by simpa [newRecord_eq] using hge)]
      rfl
  have hold : ∀ rid, ((p.newRecord kind name volatile span).1.record rid).layout ≠ .pending →
      (p.newRecord kind name volatile span).1.record rid = p.record rid := by
    intro rid hne
    by_cases hlt : rid < p.records.size
    · exact newRecord_record_of_lt p kind name volatile span hlt
    · exact absurd (hnew rid (Nat.le_of_not_lt hlt)) hne
  exact hs.mono wf hk (fun _ h => h) (fun rid l hl => by rwa [← hold rid (by simp [hl])])
    (fun rid hl => by rwa [← hold rid (by simp [hl])])

/-! ## Setting a record's layout or members -/

section Modify

variable {p : TypePool} {diags : List Diagnostic} {rid : Nat}

theorem layout_setLayout (hrid : rid < p.records.size) (st : LayoutState) (r : Nat) :
    ((p.modifyRecord rid ({ · with layout := st })).record r).layout =
      if r = rid then st else (p.record r).layout := by
  split
  · next h =>
    subst h
    rw [record_modifyRecord_self p hrid]
  · next h => rw [record_modifyRecord_other p (Ne.symm h)]

/-- Setting the layout of a record without a finished one keeps the pool and every finished
layout. -/
theorem keepsDone_setLayout (hrid : rid < p.records.size) (hnot : ¬ p.LaidOut rid)
    (st : LayoutState) : p.KeepsDone (p.modifyRecord rid ({ · with layout := st })) where
  types_le := Nat.le_refl _
  get_eq _ _ := rfl
  records_le := by simp
  record_eq r _ := by
    by_cases h : rid = r
    · subst h
      rw [record_modifyRecord_self p hrid]
    · rw [record_modifyRecord_other p h]
  done r l hl := by
    have hr : r ≠ rid := by
      rintro rfl
      exact hnot ⟨l, hl⟩
    rw [layout_setLayout hrid, if_neg hr]
    exact hl

/-- Marking a record without a finished layout as pending or under way keeps layout soundness. -/
theorem LayoutSound.setUnfinished (wf : p.WellFormed) (hs : p.LayoutSound diags)
    (hrid : rid < p.records.size) (hnot : ¬ p.LaidOut rid) {st : LayoutState}
    (hst : st = .pending ∨ st = .inProgress) :
    (p.modifyRecord rid ({ · with layout := st })).LayoutSound diags := by
  refine hs.mono wf (keepsDone_setLayout hrid hnot st) (fun _ h => h) (fun r l hl => ?_)
    (fun r hl => ?_)
  · rw [layout_setLayout hrid] at hl
    split at hl
    · rcases hst with rfl | rfl <;> cases hl
    · exact hl
  · rw [layout_setLayout hrid] at hl
    split at hl
    · rcases hst with rfl | rfl <;> cases hl
    · exact hl

/-- Failing the layout of a record without a finished one keeps layout soundness when the
record needs a culprit. -/
theorem LayoutSound.setFailed (wf : p.WellFormed) (hs : p.LayoutSound diags)
    (hrid : rid < p.records.size) (hnot : ¬ p.LaidOut rid)
    (hjust : ∃ c, p.Needs rid c ∧ p.Culprit diags c) :
    (p.modifyRecord rid ({ · with layout := .failed })).LayoutSound diags := fun r =>
  RecordSound.transfer wf hs (keepsDone_setLayout hrid hnot _) (fun _ h => h)
    (fun l hl => by
      rw [layout_setLayout hrid] at hl
      split at hl
      · cases hl
      · exact hl)
    (fun hf => by
      rw [layout_setLayout hrid] at hf
      split at hf
      · next h =>
        subst h
        exact ⟨hrid, hjust⟩
      · exact ⟨lt_of_layout_ne_pending (by simp [hf]), (hs r).failed hf⟩)

/-- Finishing the layout of a record, packed from the shapes of its members, keeps layout
soundness: its members hold only finished records, and none of those reaches it. -/
theorem LayoutSound.setDone (wf : p.WellFormed) (hs : p.LayoutSound diags)
    (hrid : rid < p.records.size) (hnot : ¬ p.LaidOut rid) {fields : List FieldShape}
    (hshapes : p.memberShapes (p.record rid).members = some fields) :
    (p.modifyRecord rid
      ({ · with layout := .done ((p.record rid).kind.layout fields) })).LayoutSound diags := by
  have hk := keepsDone_setLayout hrid hnot (.done ((p.record rid).kind.layout fields))
  have hself : (p.modifyRecord rid
      ({ · with layout := .done ((p.record rid).kind.layout fields) })).RecordSound diags rid := by
    refine ⟨fun l hl => ?_, fun hf => ?_⟩
    · rw [layout_setLayout hrid, if_pos rfl] at hl
      cases hl
      rw [hk.members_eq hrid, hk.kind_eq hrid]
      refine ⟨⟨fields, hk.memberShapes_eq hshapes, rfl⟩, fun hcycle => ?_⟩
      -- a cycle leaves the record for a finished one and must come back to it
      obtain ⟨z, hrz, hzr⟩ := Relation.TransGen.head'_iff.mp hcycle
      have hz : p.LaidOut z := by
        obtain ⟨m, hm, hheld⟩ := (hk.holds_iff wf hrid).mp hrz
        obtain ⟨x, hx⟩ := memberSizeAlign_of_memberShapes hshapes hm
        exact laidOut_of_memberSizeAlign wf hx hheld
      rcases Relation.ReflTransGen.cases_head hzr with rfl | ⟨c, hzc, hcr⟩
      · exact hnot hz
      · exact hnot (hs.transGen_of_laidOut wf (fun _ _ => hk.holds_of_laidOut wf) hz
          (.head' hzc hcr)).2
    · rw [layout_setLayout hrid, if_pos rfl] at hf
      cases hf
  intro r
  by_cases hr : r = rid
  · rw [hr]
    exact hself
  · refine RecordSound.transfer wf hs hk (fun _ h => h) (fun l hl => ?_) (fun hf => ?_)
    · rwa [layout_setLayout hrid, if_neg hr] at hl
    · rw [layout_setLayout hrid, if_neg hr] at hf
      exact ⟨lt_of_layout_ne_pending (by simp [hf]), (hs r).failed hf⟩

/-- Giving members to a record that has none and no finished layout keeps layout soundness: no
finished record reaches it, and what needed it before needs it still. -/
theorem LayoutSound.setMembers (wf : p.WellFormed) (hs : p.LayoutSound diags)
    (hrid : rid < p.records.size) (hempty : (p.record rid).members = [])
    (hnot : ¬ p.LaidOut rid) (ms : List Member) :
    (p.modifyRecord rid ({ · with members := ms })).LayoutSound diags := by
  set q := p.modifyRecord rid ({ · with members := ms })
  have hother : ∀ r, r ≠ rid → q.record r = p.record r :=
    fun r h => record_modifyRecord_other p (Ne.symm h) _
  have hlayout : ∀ r, (q.record r).layout = (p.record r).layout := by
    intro r
    by_cases h : r = rid
    · rw [h, record_modifyRecord_self p hrid]
    · rw [hother r h]
  have hheld : ∀ t, q.heldRecord t = p.heldRecord t := fun t => heldRecord_congr fun _ _ => rfl
  have hsize : ∀ m, q.memberSizeAlign m = p.memberSizeAlign m := fun m =>
    memberSizeAlign_congr (sizeAlign_congr (fun _ _ => rfl) fun r _ => by
      simp only [RecordDef.layout?, hlayout])
  have hholds : ∀ x y, x ≠ rid → (q.Holds x y ↔ p.Holds x y) := by
    intro x y hx
    simp only [Holds, hother x hx, hheld]
  have hne : ∀ x y, p.Holds x y → x ≠ rid := by
    rintro x y ⟨m, hm, -⟩ rfl
    simp [hempty] at hm
  have hculprit : ∀ c, p.Culprit diags c → q.Culprit diags c := by
    rintro c (hc | ⟨m, hm, hsz, hh⟩)
    · left
      by_cases h : c = rid
      · rw [h, record_modifyRecord_self p hrid, Check.containsItself_members]
        rwa [h] at hc
      · rwa [hother c h]
    · have hc : c ≠ rid := by
        rintro rfl
        simp [hempty] at hm
      exact .inr ⟨m, by rwa [hother c hc], by rwa [hsize], by rwa [hheld]⟩
  intro r
  refine ⟨fun l hl => ?_, fun hf => ?_⟩
  · rw [hlayout] at hl
    have hr : r ≠ rid := by
      rintro rfl
      exact hnot ⟨l, hl⟩
    obtain ⟨⟨fields, hfields, hlf⟩, hcycle⟩ := (hs r).done l hl
    rw [hother r hr, memberShapes_congr fun m _ => hsize m]
    refine ⟨⟨fields, hfields, hlf⟩, fun hq => hcycle ?_⟩
    refine (hs.transGen_of_laidOut wf (fun x y hx hxy => ?_) ⟨l, hl⟩ hq).1
    exact (hholds x y fun h => hnot (h ▸ hx)).mp hxy
  · rw [hlayout] at hf
    obtain ⟨c, hneeds, hc⟩ := (hs r).failed hf
    refine ⟨c, Relation.ReflTransGen.mono (fun x y hxy => ?_) _ _ hneeds, hculprit c hc⟩
    exact (hholds x y (hne x y hxy)).mpr hxy

end Modify

end TypePool

end SolarFront
