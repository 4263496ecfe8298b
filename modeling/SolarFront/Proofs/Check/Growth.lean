import Mathlib
import SolarFront.Check.Module

/-!
# How the checker's state grows

What the checker learns only adds to what it knew. Types are appended to the pool and keep
their entries; records keep their definitions, and a record's layout only moves forward:
`pending` to `done` or `failed`, `inProgress` to `failed`. Diagnostics are only appended.
`CheckState.Grows` records this, and every checker action run from a sound state ends in a
state that grows from it, so a fact that reads only what is already there survives every
later step.

The pool itself is well formed: its first five entries are the primitive types, an entry names
only earlier entries and records the pool holds, and every record member has a type of the
pool.
-/

set_option autoImplicit false
set_option linter.all false

namespace SolarFront

/-- The types an entry of the pool names directly: the element of an array, the return and
parameter types of a function. -/
def TypeData.parts : TypeData → List TypeId
  | .array elem _ => [elem]
  | .func ret params _ => ret :: params
  | _ => []

/-- How far a record's layout may have moved between two moments of one check. A layout
under way can only fail, and a finished one never changes again. -/
def LayoutState.Later : LayoutState → LayoutState → Prop
  | .pending, s => s = .pending ∨ s = .failed ∨ ∃ l, s = .done l
  | .inProgress, s => s = .inProgress ∨ s = .failed
  | .done l, s => s = .done l
  | .failed, s => s = .failed

namespace LayoutState

theorem Later.refl (s : LayoutState) : s.Later s := by
  cases s <;> simp [Later]

theorem Later.trans {a b c : LayoutState} (hab : a.Later b) (hbc : b.Later c) : a.Later c := by
  cases a <;> simp only [Later] at hab ⊢
  · rcases hab with rfl | rfl | ⟨l, rfl⟩ <;> simp_all [Later]
  · rcases hab with rfl | rfl <;> simp_all [Later]
  · subst hab; simpa [Later] using hbc
  · subst hab; simpa [Later] using hbc

end LayoutState

namespace TypePool

/-- A type of the pool: its index names an entry. -/
def Has (p : TypePool) (t : TypeId) : Prop := t.idx < p.types.size

theorem get_of_not_has {p : TypePool} {t : TypeId} (h : ¬ p.Has t) : p.get t = .error := by
  simp only [Has, Nat.not_lt] at h
  simp [get, Array.getElem?_eq_none h]

/-- The pool is well formed: its first five entries are the primitive types, an entry names
only earlier entries and records the pool holds, and every member of a record has a type of
the pool. -/
structure WellFormed (p : TypePool) : Prop where
  base : ∀ t : TypeId, t.idx < 5 → p.get t = TypePool.empty.get t
  five_le : 5 ≤ p.types.size
  parts_lt : ∀ t, ∀ u ∈ (p.get t).parts, u.idx < t.idx
  records_lt : ∀ t rid, p.get t = .record rid → rid < p.records.size
  members_has : ∀ rid < p.records.size, ∀ m ∈ (p.record rid).members, p.Has m.ty

theorem WellFormed.has_of_lt_five {p : TypePool} (wf : p.WellFormed) {t : TypeId}
    (ht : t.idx < 5) : p.Has t :=
  Nat.lt_of_lt_of_le ht wf.five_le

theorem WellFormed.has_part {p : TypePool} (wf : p.WellFormed) {t u : TypeId} (ht : p.Has t)
    (hu : u ∈ (p.get t).parts) : p.Has u :=
  Nat.lt_trans (wf.parts_lt t u hu) ht

/-- `q` keeps what `p` holds: every type keeps its entry and every record its definition, its
layout aside. -/
structure Keeps (p q : TypePool) : Prop where
  types_le : p.types.size ≤ q.types.size
  get_eq : ∀ t, p.Has t → q.get t = p.get t
  records_le : p.records.size ≤ q.records.size
  record_eq : ∀ rid < p.records.size,
    q.record rid = { p.record rid with layout := (q.record rid).layout }

/-- `q` keeps what `p` holds, and every record's layout has only moved forward. -/
structure Extends (p q : TypePool) : Prop extends p.Keeps q where
  later : ∀ rid < p.records.size, (p.record rid).layout.Later (q.record rid).layout

namespace Keeps

theorem refl (p : TypePool) : p.Keeps p :=
  ⟨Nat.le_refl _, fun _ _ => rfl, Nat.le_refl _, fun _ _ => rfl⟩

theorem trans {p q r : TypePool} (hpq : p.Keeps q) (hqr : q.Keeps r) : p.Keeps r where
  types_le := Nat.le_trans hpq.types_le hqr.types_le
  get_eq t ht := (hqr.get_eq t (Nat.lt_of_lt_of_le ht hpq.types_le)).trans (hpq.get_eq t ht)
  records_le := Nat.le_trans hpq.records_le hqr.records_le
  record_eq rid hrid := by
    rw [hqr.record_eq rid (Nat.lt_of_lt_of_le hrid hpq.records_le), hpq.record_eq rid hrid]

theorem has {p q : TypePool} (h : p.Keeps q) {t : TypeId} (ht : p.Has t) : q.Has t :=
  Nat.lt_of_lt_of_le ht h.types_le

theorem members_eq {p q : TypePool} (h : p.Keeps q) {rid : Nat} (hrid : rid < p.records.size) :
    (q.record rid).members = (p.record rid).members := by
  rw [h.record_eq rid hrid]

theorem kind_eq {p q : TypePool} (h : p.Keeps q) {rid : Nat} (hrid : rid < p.records.size) :
    (q.record rid).kind = (p.record rid).kind := by
  rw [h.record_eq rid hrid]

/-- A record keeps everything but its layout. -/
theorem record_pending_eq {p q : TypePool} (h : p.Keeps q) {rid : Nat}
    (hrid : rid < p.records.size) :
    { q.record rid with layout := LayoutState.pending } =
      { p.record rid with layout := LayoutState.pending } := by
  rw [h.record_eq rid hrid]

end Keeps

namespace Extends

theorem refl (p : TypePool) : p.Extends p :=
  ⟨Keeps.refl p, fun _ _ => LayoutState.Later.refl _⟩

theorem trans {p q r : TypePool} (hpq : p.Extends q) (hqr : q.Extends r) : p.Extends r :=
  ⟨hpq.toKeeps.trans hqr.toKeeps, fun rid hrid =>
    (hpq.later rid hrid).trans (hqr.later rid (Nat.lt_of_lt_of_le hrid hpq.records_le))⟩

theorem has {p q : TypePool} (h : p.Extends q) {t : TypeId} (ht : p.Has t) : q.Has t :=
  h.toKeeps.has ht

end Extends

/-! ## The pool operations the checker uses -/

theorem get_push_of_has {p : TypePool} {t : TypeId} (d : TypeData) (ht : p.Has t) :
    ({ p with types := p.types.push d } : TypePool).get t = p.get t := by
  simp only [get]
  rw [Array.getElem?_push_lt ht, ← Array.getElem?_eq_getElem ht]

theorem get_push_self (p : TypePool) (d : TypeData) :
    ({ p with types := p.types.push d } : TypePool).get ⟨p.types.size⟩ = d := by
  simp [get]

theorem extends_push (p : TypePool) (d : TypeData) :
    p.Extends { p with types := p.types.push d } :=
  ⟨⟨by simp, fun _ ht => get_push_of_has d ht, Nat.le_refl _, fun _ _ => rfl⟩,
    fun _ _ => LayoutState.Later.refl _⟩

/-- Adding an entry whose parts are types of a well-formed pool, and which names only records of
the pool, keeps the pool well formed. -/
theorem wellFormed_push {p : TypePool} (wf : p.WellFormed) {d : TypeData}
    (parts : ∀ u ∈ d.parts, p.Has u) (records : ∀ rid, d = .record rid → rid < p.records.size) :
    WellFormed { p with types := p.types.push d } where
  base t ht := by
    rw [get_push_of_has d (wf.has_of_lt_five ht)]
    exact wf.base t ht
  five_le := Nat.le_trans wf.five_le (by simp)
  parts_lt t u hu := by
    by_cases ht : p.Has t
    · rw [get_push_of_has d ht] at hu
      exact wf.parts_lt t u hu
    · have hsize : t.idx = p.types.size ∨ p.types.size < t.idx := by
        simp only [Has] at ht; omega
      rcases hsize with heq | hgt
      · have ht' : t = ⟨p.types.size⟩ := by cases t; simp_all
        subst ht'
        rw [get_push_self] at hu
        exact parts u hu
      · have hnone : ({ p with types := p.types.push d } : TypePool).get t = .error := by
          apply get_of_not_has
          simp only [Has, Array.size_push]
          omega
        simp [hnone, TypeData.parts] at hu
  records_lt t rid h := by
    by_cases ht : p.Has t
    · rw [get_push_of_has d ht] at h
      exact wf.records_lt t rid h
    · simp only [get, Has, Nat.not_lt] at h ht
      rw [Array.getElem?_push] at h
      split at h
      · exact records rid (by simpa using h)
      · simp [Array.getElem?_eq_none ht] at h
  members_has rid hrid m hm :=
    Nat.lt_of_lt_of_le (wf.members_has rid hrid m hm) (by simp)

/-- Adding a record without members keeps the pool well formed. -/
theorem wellFormed_pushRecord {p : TypePool} (wf : p.WellFormed) {r : RecordDef}
    (hr : r.members = []) : WellFormed { p with records := p.records.push r } where
  base := wf.base
  five_le := wf.five_le
  parts_lt := wf.parts_lt
  records_lt t rid h := Nat.lt_of_lt_of_le (wf.records_lt t rid h) (by simp)
  members_has rid hrid m hm := by
    simp only [Array.size_push] at hrid
    simp only [record, Array.getElem?_push] at hm
    split at hm
    · simp [hr] at hm
    · exact wf.members_has rid (by omega) m (by simpa [record] using hm)

theorem intern_extends (p : TypePool) (d : TypeData) : p.Extends (p.intern d).1 := by
  unfold intern
  split
  · exact Extends.refl p
  · exact extends_push p d

theorem intern_has (p : TypePool) (d : TypeData) : (p.intern d).1.Has (p.intern d).2 := by
  unfold intern
  split
  · next i hi =>
    obtain ⟨hlt, -⟩ := Array.findIdx?_eq_some_iff_getElem.mp hi
    exact hlt
  · simp [Has]

theorem intern_wellFormed {p : TypePool} (wf : p.WellFormed) {d : TypeData}
    (parts : ∀ u ∈ d.parts, p.Has u) (records : ∀ rid, d = .record rid → rid < p.records.size) :
    (p.intern d).1.WellFormed := by
  unfold intern
  split
  · exact wf
  · exact wellFormed_push wf parts records

/-- The parts of the type a value of type `t` takes when used are types of the pool. -/
theorem decay_spec {p : TypePool} (wf : p.WellFormed) {t : TypeId} (ht : p.Has t) :
    p.Extends (p.decay t).1 ∧ (p.decay t).1.WellFormed ∧ (p.decay t).1.Has (p.decay t).2 := by
  unfold decay
  split
  · next e len heq =>
    have he : p.Has e := wf.has_part ht (by simp [heq, TypeData.parts])
    exact ⟨intern_extends _ _, intern_wellFormed wf (by simpa [TypeData.parts] using he)
      (by simp), intern_has _ _⟩
  · exact ⟨intern_extends _ _, intern_wellFormed wf (by simpa [TypeData.parts] using ht)
      (by simp), intern_has _ _⟩
  · exact ⟨Extends.refl p, wf, ht⟩

/-! ## Records -/

theorem record_modifyRecord_self (p : TypePool) {rid : Nat} (hrid : rid < p.records.size)
    (f : RecordDef → RecordDef) : (p.modifyRecord rid f).record rid = f (p.record rid) := by
  simp [modifyRecord, record, Array.getElem?_modify, Array.getElem?_eq_getElem hrid]

theorem record_modifyRecord_other (p : TypePool) {rid rid' : Nat} (hne : rid ≠ rid')
    (f : RecordDef → RecordDef) : (p.modifyRecord rid f).record rid' = p.record rid' := by
  simp [modifyRecord, record, Array.getElem?_modify, hne]

@[simp] theorem get_modifyRecord (p : TypePool) (rid : Nat) (f : RecordDef → RecordDef)
    (t : TypeId) : (p.modifyRecord rid f).get t = p.get t := rfl

@[simp] theorem types_modifyRecord (p : TypePool) (rid : Nat) (f : RecordDef → RecordDef) :
    (p.modifyRecord rid f).types = p.types := rfl

@[simp] theorem records_size_modifyRecord (p : TypePool) (rid : Nat)
    (f : RecordDef → RecordDef) : (p.modifyRecord rid f).records.size = p.records.size := by
  simp [modifyRecord]

theorem WellFormed.modifyRecord {p : TypePool} (wf : p.WellFormed) {rid : Nat}
    {f : RecordDef → RecordDef} (hmem : ∀ m ∈ (f (p.record rid)).members, p.Has m.ty) :
    (p.modifyRecord rid f).WellFormed where
  base := wf.base
  five_le := wf.five_le
  parts_lt := wf.parts_lt
  records_lt t r h := by simpa using wf.records_lt t r h
  members_has r hr m hm := by
    simp only [records_size_modifyRecord] at hr
    by_cases hrr : rid = r
    · subst hrr
      rw [record_modifyRecord_self p hr] at hm
      exact hmem m hm
    · rw [record_modifyRecord_other p hrr] at hm
      exact wf.members_has r hr m hm

/-- A new record comes after every record of the pool, and its type after every type. -/
theorem newRecord_eq (p : TypePool) (kind : RecordKind) (name : Option String) (volatile : Bool)
    (span : Span) :
    p.newRecord kind name volatile span =
      ({ ({ p with records := p.records.push ⟨kind, name, [], volatile, span, .pending⟩ } :
          TypePool) with types := p.types.push (.record p.records.size) },
        p.records.size, ⟨p.types.size⟩) := rfl

theorem newRecord_record_of_lt (p : TypePool) (kind : RecordKind) (name : Option String)
    (volatile : Bool) (span : Span) {rid : Nat} (hrid : rid < p.records.size) :
    (p.newRecord kind name volatile span).1.record rid = p.record rid := by
  simp [newRecord_eq, record, Array.getElem?_push_lt hrid, Array.getElem?_eq_getElem hrid]

theorem newRecord_extends (p : TypePool) (kind : RecordKind) (name : Option String)
    (volatile : Bool) (span : Span) : p.Extends (p.newRecord kind name volatile span).1 := by
  refine ⟨⟨by simp [newRecord_eq], fun t ht => ?_, by simp [newRecord_eq], fun rid hrid => ?_⟩,
    fun rid hrid => ?_⟩
  · rw [newRecord_eq]
    exact get_push_of_has _ ht
  · rw [newRecord_record_of_lt p kind name volatile span hrid]
  · rw [newRecord_record_of_lt p kind name volatile span hrid]
    exact LayoutState.Later.refl _

theorem newRecord_wellFormed {p : TypePool} (wf : p.WellFormed) (kind : RecordKind)
    (name : Option String) (volatile : Bool) (span : Span) :
    (p.newRecord kind name volatile span).1.WellFormed := by
  rw [newRecord_eq]
  exact wellFormed_push (wellFormed_pushRecord wf rfl) (by simp [TypeData.parts])
    (fun rid h => by cases h; simp)

theorem newRecord_record (p : TypePool) (kind : RecordKind) (name : Option String)
    (volatile : Bool) (span : Span) :
    (p.newRecord kind name volatile span).1.record p.records.size =
      ⟨kind, name, [], volatile, span, .pending⟩ := by
  simp [newRecord_eq, record]

theorem newRecord_get (p : TypePool) (kind : RecordKind) (name : Option String)
    (volatile : Bool) (span : Span) :
    (p.newRecord kind name volatile span).1.get ⟨p.types.size⟩ = .record p.records.size := by
  simp [newRecord_eq, get]

end TypePool

/-- The codes that only statements and function bodies report: a jump outside every statement
it can leave, a label that no enclosing statement carries, a label of the wrong kind, and a
function that may reach its end without returning a value. -/
def Code.isStatementError : Code → Bool
  | .e2002 | .e2003 | .e2005 | .e3012 => true
  | _ => false

@[grind =] theorem Code.isStatementError_eq (c : Code) :
    c.isStatementError =
      (decide (c = .e2002) || decide (c = .e2003) || decide (c = .e2005) || decide (c = .e3012)) := by
  cases c <;> rfl

namespace Diagnostic

@[simp, grind =] theorem error_code (code : Code) (message : String) :
    (error code message).code = code := rfl

@[simp, grind =] theorem withLabel_code (d : Diagnostic) (span : Span) (text : String) :
    (d.withLabel span text).code = d.code := rfl

@[simp, grind =] theorem withSecondary_code (d : Diagnostic) (span : Span) (text : String) :
    (d.withSecondary span text).code = d.code := rfl

@[simp, grind =] theorem withNote_code (d : Diagnostic) (note : String) :
    (d.withNote note).code = d.code := rfl

@[simp, grind =] theorem spanned_code (code : Code) (span : Span) (message : String) :
    (spanned code span message).code = code := rfl

end Diagnostic

/-! The code of every diagnostic the checker builds by name. -/

@[simp, grind =] theorem unknownName_code (span : Span) (name : String) :
    (unknownName span name).code = .e2004 := rfl

@[simp, grind =] theorem typeMismatch_code (span : Span) (expected found context : String) :
    (typeMismatch span expected found context).code = .e3001 := rfl

@[simp, grind =] theorem invalidOperands_code (span : Span) (op left right : String) :
    (invalidOperands span op left right).code = .e3004 := rfl

@[simp, grind =] theorem incompatibleCast_code (span : Span) (source target : String) :
    (incompatibleCast span source target).code = .e3002 := rfl

@[simp, grind =] theorem duplicateMember_code (name : String) (span first : Span) :
    (Check.duplicateMember name span first).code = .e2001 := rfl

@[simp, grind =] theorem circularType_code (d : Decl) : (Check.circularType d).code = .e3009 := rfl

@[simp, grind =] theorem containsItself_code (r : RecordDef) :
    (Check.containsItself r).code = .e3009 := rfl

@[simp, grind =] theorem missingReturn_code (d : Decl) (ret : String) (body : Stmt) :
    (Check.missingReturn d ret body).code = .e3012 := rfl

@[simp, grind =] theorem SymbolError.diagnostic_isStatementError (e : SymbolError)
    (name : String) (span : Span) : (e.diagnostic name span).code.isStatementError = false := by
  cases e <;> rfl

namespace CheckState

/-- The state `s'` continues `s`: its pool extends that of `s` and its diagnostics continue
those of `s`. Every action of the checker keeps this. -/
structure Continues (s s' : CheckState) : Prop where
  pool : s.pool.Extends s'.pool
  diagnostics : s.diagnostics.toList <+: s'.diagnostics.toList

/-- The state `s'` grows from `s`: it continues `s` and leaves the jumps alone, with the same
enclosing statements, jump targets and broken statements, and no new report that only
statements make. Typing, declarations and layout grow the state; only statements and function
bodies move the jumps. -/
structure Grows (s s' : CheckState) : Prop extends s.Continues s' where
  labels : s'.labels = s.labels
  jumpTargets : s'.jumpTargets = s.jumpTargets
  broken : s'.broken = s.broken
  statementErrors : s'.diagnostics.toList.filter (·.code.isStatementError) =
    s.diagnostics.toList.filter (·.code.isStatementError)

namespace Continues

@[refl] theorem refl (s : CheckState) : s.Continues s :=
  ⟨TypePool.Extends.refl _, List.prefix_refl _⟩

theorem trans {a b c : CheckState} (hab : a.Continues b) (hbc : b.Continues c) :
    a.Continues c :=
  ⟨hab.pool.trans hbc.pool, hab.diagnostics.trans hbc.diagnostics⟩

end Continues

namespace Grows

@[refl] theorem refl (s : CheckState) : s.Grows s :=
  ⟨Continues.refl s, rfl, rfl, rfl, rfl⟩

theorem trans {a b c : CheckState} (hab : a.Grows b) (hbc : b.Grows c) : a.Grows c :=
  ⟨hab.toContinues.trans hbc.toContinues, hbc.labels.trans hab.labels,
    hbc.jumpTargets.trans hab.jumpTargets, hbc.broken.trans hab.broken,
    hbc.statementErrors.trans hab.statementErrors⟩

theorem has {a b : CheckState} (h : a.Grows b) {t : TypeId} (ht : a.pool.Has t) :
    b.pool.Has t :=
  h.pool.has ht

theorem records_le {a b : CheckState} (h : a.Grows b) :
    a.pool.records.size ≤ b.pool.records.size :=
  h.pool.records_le

end Grows

end CheckState

end SolarFront
