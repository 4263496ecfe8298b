import SolarFront.Proofs.Check.LayoutEngine
import SolarFront.Check.Expr

/-!
# The typing rules keep the invariant

Each typing rule of an expression form, once its operands are typed, keeps `CheckState.Sound`
and yields a type of the pool when its operands are types of the pool. The rules only report,
fold constants, intern derived types and ask for layouts, so every triple here is assembled by
`mvcgen` from the triples of the state operations.
-/

set_option autoImplicit false
set_option linter.all false
set_option mvcgen.warning false

namespace SolarFront

namespace TypePool

/-- Changing a record that a pool did not have yet keeps every extension of that pool. -/
theorem Extends.modifyRecord_of_le {p q : TypePool} (h : p.Extends q) {rid : Nat}
    (hle : p.records.size ≤ rid) (f : RecordDef → RecordDef) : p.Extends (q.modifyRecord rid f) where
  types_le := by simpa using h.types_le
  get_eq t ht := by simpa using h.get_eq t ht
  records_le := by simpa using h.records_le
  record_eq r hr := by
    rw [record_modifyRecord_other q (by omega)]
    exact h.record_eq r hr
  later r hr := by
    rw [record_modifyRecord_other q (by omega)]
    exact h.later r hr

/-- A record under way is never found finished later: it stays under way or fails. -/
theorem Extends.not_laidOut_of_inProgress {p q : TypePool} (h : p.Extends q) {rid : Nat}
    (hrid : rid < p.records.size) (hip : (p.record rid).layout = .inProgress) :
    ¬ q.LaidOut rid := by
  rintro ⟨l, hl⟩
  have hlater := h.later rid hrid
  rw [hip, hl] at hlater
  rcases hlater with h | h <;> cases h

theorem layout_setMembers {p : TypePool} {rid : Nat} (hrid : rid < p.records.size)
    (ms : List Member) (r : Nat) :
    ((p.modifyRecord rid ({ · with members := ms })).record r).layout = (p.record r).layout := by
  by_cases h : rid = r
  · subst h
    rw [record_modifyRecord_self p hrid]
  · rw [record_modifyRecord_other p h]

end TypePool

namespace CheckState

open TypePool

/-- The state after a record is made: `s₁` holds the pool that made it and the diagnostics of
`s`, and its symbols have types of that pool. Setting the record under way leaves a sound
state that grew from `s`, with the record empty and under way and its type in the pool. -/
theorem Sound.openRecord {s : CheckState} (h : s.Sound) (s₁ : CheckState) {kind : RecordKind}
    {name : Option String} {volatile : Bool} {span : Span}
    (hpool : s₁.pool = (s.pool.newRecord kind name volatile span).1)
    (hdiag : s₁.diagnostics = s.diagnostics) (hlabels : s₁.labels = s.labels)
    (hjumps : s₁.jumpTargets = s.jumpTargets) (hbroken : s₁.broken = s.broken)
    (hsym : ∀ i, s₁.pool.Has (s₁.scopes.symbol i).ty) :
    (s₁.withLayout s.pool.records.size .inProgress).Sound ∧
      s.Grows (s₁.withLayout s.pool.records.size .inProgress) ∧
      (s₁.withLayout s.pool.records.size .inProgress).pool.Has ⟨s.pool.types.size⟩ ∧
      s.pool.records.size < (s₁.withLayout s.pool.records.size .inProgress).pool.records.size ∧
      ((s₁.withLayout s.pool.records.size .inProgress).pool.record
        s.pool.records.size).members = [] ∧
      ((s₁.withLayout s.pool.records.size .inProgress).pool.record
        s.pool.records.size).layout = .inProgress := by
  have hrid : s.pool.records.size < s₁.pool.records.size := by simp [hpool, newRecord_eq]
  have hrec : s₁.pool.record s.pool.records.size = ⟨kind, name, [], volatile, span, .pending⟩ := by
    rw [hpool, newRecord_record]
  have hsound₁ : s₁.Sound := by
    refine ⟨hpool ▸ newRecord_wellFormed h.wf kind name volatile span, ?_, hsym⟩
    rw [hpool, hdiag]
    exact h.layout.newRecord h.wf kind name volatile span
  have hgrows₁ : s.Grows s₁ :=
    ⟨⟨hpool ▸ newRecord_extends s.pool kind name volatile span, hdiag ▸ List.prefix_refl _⟩,
      hlabels, hjumps, hbroken, by rw [hdiag]⟩
  have hnot : ¬ s₁.pool.LaidOut s.pool.records.size := by
    rintro ⟨l, hl⟩
    rw [hrec] at hl
    cases hl
  refine ⟨hsound₁.withLayout (hsound₁.layout.setUnfinished hsound₁.wf hrid hnot (.inr rfl)),
    ⟨⟨hgrows₁.pool.modifyRecord_of_le (Nat.le_refl _) _, hgrows₁.diagnostics⟩, hgrows₁.labels,
      hgrows₁.jumpTargets, hgrows₁.broken, hgrows₁.statementErrors⟩, ?_,
    by simpa using hrid, ?_, ?_⟩
  · simp [TypePool.Has, hpool, newRecord_eq]
  · rw [withLayout_record_self hrid, hrec]
  · rw [withLayout_record_self hrid]

/-- A state that did not have a record yet keeps growing when that record is closed. -/
theorem Grows.close {a s s' : CheckState} {rid : Nat} (h : a.Grows s)
    (hle : a.pool.records.size ≤ rid) (hdiag : s'.diagnostics = s.diagnostics)
    (hlabels : s'.labels = s.labels) (hjumps : s'.jumpTargets = s.jumpTargets)
    (hbroken : s'.broken = s.broken)
    (hpool : ∀ p : TypePool, p.records.size ≤ rid → p.Extends s.pool → p.Extends s'.pool) :
    a.Grows s' :=
  ⟨⟨hpool _ hle h.pool, hdiag ▸ h.diagnostics⟩, hlabels.trans h.labels,
    hjumps.trans h.jumpTargets, hbroken.trans h.broken, by rw [hdiag]; exact h.statementErrors⟩

/-- Giving members with types of the pool to an empty record without a finished layout keeps
the state sound. -/
theorem Sound.setMembers {s : CheckState} (h : s.Sound) {rid : Nat}
    (hrid : rid < s.pool.records.size) (hempty : (s.pool.record rid).members = [])
    (hnot : ¬ s.pool.LaidOut rid) {ms : List Member} (hms : ∀ m ∈ ms, s.pool.Has m.ty) :
    ({ s with pool := s.pool.modifyRecord rid ({ · with members := ms }) } : CheckState).Sound where
  wf := h.wf.modifyRecord hms
  layout := h.layout.setMembers h.wf hrid hempty hnot ms
  symbols i := h.symbols i

end CheckState

namespace Check

open CheckM CheckState TypePool Std.Do

@[spec] theorem valueWidth_spec (t : TypeId) (Q : PostCond (Option Width) (.arg CheckState .pure)) :
    ⦃fun s => Q.1 (s.pool.valueWidth t) s⦄ valueWidth t ⦃Q⦄ := by
  mvcgen [valueWidth]

section Specs

variable (s₀ : CheckState)

@[spec] theorem widenRight_spec (right : Expr) (lt rt : TypeId) :
    ⦃fun s => ⌜s₀.Grows s ∧ s.Sound ∧ s.pool.Has lt ∧ s.pool.Has rt⌝⦄ widenRight right lt rt
    ⦃⇓ r s => ⌜s.Sound ∧ s₀.Grows s ∧ s.pool.Has r⌝⦄ := by
  mvcgen [widenRight]
  all_goals grind [Grows.refl, Grows.trans, Grows.has, sound_iff, grows_iff]

@[spec] theorem checkAssignable_spec (found expected : TypeId) (span : Span) (context : String) :
    ⦃fun s => ⌜s₀.Grows s ∧ s.Sound⌝⦄ checkAssignable found expected span context
    ⦃⇓ _ s => ⌜s.Sound ∧ s₀.Grows s⌝⦄ := by
  mvcgen [checkAssignable]
  all_goals grind [Grows.refl, Grows.trans, Grows.has, sound_iff, grows_iff]

@[spec] theorem checkCast_spec (source target : TypeId) (signed : Bool) (span : Span) :
    ⦃fun s => ⌜s₀.Grows s ∧ s.Sound⌝⦄ checkCast source target signed span
    ⦃⇓ _ s => ⌜s.Sound ∧ s₀.Grows s⌝⦄ := by
  mvcgen [checkCast]
  all_goals grind [Grows.refl, Grows.trans, Grows.has, sound_iff, grows_iff]

@[spec] theorem arithResult_spec (op : BinaryOp) (lt rt : TypeId) (right : Expr) (span : Span) :
    ⦃fun s => ⌜s₀.Grows s ∧ s.Sound ∧ s.pool.Has lt ∧ s.pool.Has rt⌝⦄
    arithResult op lt rt right span
    ⦃⇓ r s => ⌜s.Sound ∧ s₀.Grows s ∧ s.pool.Has r⌝⦄ := by
  mvcgen [arithResult]
  all_goals grind [Grows.refl, Grows.trans, Grows.has, sound_iff, grows_iff, WellFormed.has_error, WellFormed.has_int32]

@[spec] theorem foldArith_spec (id : Nat) (op : BinaryOp) (left right : Expr) (ty : TypeId) :
    ⦃fun s => ⌜s₀.Grows s ∧ s.Sound⌝⦄ foldArith id op left right ty
    ⦃⇓ _ s => ⌜s.Sound ∧ s₀.Grows s⌝⦄ := by
  mvcgen [foldArith]
  all_goals grind [Grows.refl, Grows.trans, Grows.has, sound_iff, grows_iff]

@[spec] theorem condResult_spec (id : Nat) (op : CondOp) (left right : Expr) (lt rt : TypeId)
    (span : Span) :
    ⦃fun s => ⌜s₀.Grows s ∧ s.Sound ∧ s.pool.Has lt ∧ s.pool.Has rt⌝⦄
    condResult id op left right lt rt span
    ⦃⇓ r s => ⌜s.Sound ∧ s₀.Grows s ∧ s.pool.Has r⌝⦄ := by
  mvcgen [condResult]
  all_goals grind [Grows.refl, Grows.trans, Grows.has, sound_iff, grows_iff, WellFormed.has_int16]

@[spec] theorem ternaryResult_spec (id : Nat) (cond thenE elseE : Expr) (thenTy elseTy : TypeId) :
    ⦃fun s => ⌜s₀.Grows s ∧ s.Sound ∧ s.pool.Has thenTy ∧ s.pool.Has elseTy⌝⦄
    ternaryResult id cond thenE elseE thenTy elseTy
    ⦃⇓ r s => ⌜s.Sound ∧ s₀.Grows s ∧ s.pool.Has r⌝⦄ := by
  mvcgen [ternaryResult]
  all_goals grind [Grows.refl, Grows.trans, Grows.has, sound_iff, grows_iff, WellFormed.has_error, WellFormed.has_ofWidth]

@[spec] theorem indexResult_spec (array index : Expr) (base indexTy : TypeId) :
    ⦃fun s => ⌜s₀.Grows s ∧ s.Sound⌝⦄ indexResult array index base indexTy
    ⦃⇓ r s => ⌜s.Sound ∧ s₀.Grows s ∧ s.pool.Has r⌝⦄ := by
  mvcgen [indexResult]
  all_goals grind [Grows.refl, Grows.trans, Grows.has, sound_iff, grows_iff, WellFormed.has_error, WellFormed.has_of_elem?]

@[spec] theorem accessResult_spec (ty : TypeId) (member : String) (memberSpan : Span) :
    ⦃fun s => ⌜s₀.Grows s ∧ s.Sound⌝⦄ accessResult ty member memberSpan
    ⦃⇓ r s => ⌜s.Sound ∧ s₀.Grows s ∧ s.pool.Has r⌝⦄ := by
  mvcgen [accessResult]
  all_goals grind [Grows.refl, Grows.trans, Grows.has, sound_iff, grows_iff, WellFormed.has_error, WellFormed.has_of_member?]

@[spec] theorem castResult_spec (id : Nat) (inner : Expr) (source target : TypeId) (signed : Bool)
    (span : Span) :
    ⦃fun s => ⌜s₀.Grows s ∧ s.Sound ∧ s.pool.Has target⌝⦄ castResult id inner source target signed span
    ⦃⇓ r s => ⌜s.Sound ∧ s₀.Grows s ∧ s.pool.Has r⌝⦄ := by
  mvcgen [castResult]
  all_goals grind [Grows.refl, Grows.trans, Grows.has, sound_iff, grows_iff]

@[spec] theorem derefResult_spec (inner : Expr) (ty : TypeId) :
    ⦃fun s => ⌜s₀.Grows s ∧ s.Sound⌝⦄ derefResult inner ty
    ⦃⇓ r s => ⌜s.Sound ∧ s₀.Grows s ∧ s.pool.Has r⌝⦄ := by
  mvcgen [derefResult]
  all_goals grind [Grows.refl, Grows.trans, Grows.has, sound_iff, grows_iff, WellFormed.has_error, WellFormed.has_of_elem?]

@[spec] theorem addrOfResult_spec (inner : Expr) (ty : TypeId) :
    ⦃fun s => ⌜s₀.Grows s ∧ s.Sound ∧ s.pool.Has ty⌝⦄ addrOfResult inner ty
    ⦃⇓ r s => ⌜s.Sound ∧ s₀.Grows s ∧ s.pool.Has r⌝⦄ := by
  mvcgen [addrOfResult]
  all_goals grind [Grows.refl, Grows.trans, Grows.has, sound_iff, grows_iff, WellFormed.has_error]

@[spec] theorem unaryResult_spec (id : Nat) (op : UnaryOp) (operand : Expr) (ty : TypeId)
    (span : Span) :
    ⦃fun s => ⌜s₀.Grows s ∧ s.Sound ∧ s.pool.Has ty⌝⦄ unaryResult id op operand ty span
    ⦃⇓ r s => ⌜s.Sound ∧ s₀.Grows s ∧ s.pool.Has r⌝⦄ := by
  mvcgen [unaryResult]
  all_goals grind [Grows.refl, Grows.trans, Grows.has, sound_iff, grows_iff, WellFormed.has_error]

@[spec] theorem sizeofResult_spec (id : Nat) (ty : TypeId) (span : Span) :
    ⦃fun s => ⌜s₀.Grows s ∧ s.Sound ∧ s.pool.Has ty⌝⦄ sizeofResult id ty span
    ⦃⇓ r s => ⌜s.Sound ∧ s₀.Grows s ∧ s.pool.Has r⌝⦄ := by
  mvcgen [sizeofResult]
  all_goals grind [Grows.refl, Grows.trans, Grows.has, sound_iff, grows_iff, WellFormed.has_error, WellFormed.has_int16]

@[spec] theorem assignResult_spec (op : Option BinaryOp) (target value : Expr)
    (targetTy valueTy : TypeId) (span : Span) :
    ⦃fun s => ⌜s₀.Grows s ∧ s.Sound ∧ s.pool.Has targetTy ∧ s.pool.Has valueTy⌝⦄
    assignResult op target value targetTy valueTy span
    ⦃⇓ r s => ⌜s.Sound ∧ s₀.Grows s ∧ s.pool.Has r⌝⦄ := by
  mvcgen [assignResult]
  all_goals grind [Grows.refl, Grows.trans, Grows.has, sound_iff, grows_iff, WellFormed.has_error]

@[spec] theorem nameResult_spec (id : Nat) (name : String) (span : Span) :
    ⦃fun s => ⌜s₀.Grows s ∧ s.Sound⌝⦄ nameResult id name span
    ⦃⇓ r s => ⌜s.Sound ∧ s₀.Grows s ∧ s.pool.Has r⌝⦄ := by
  mvcgen [nameResult]
  all_goals grind [Grows.refl, Grows.trans, Grows.has, sound_iff, grows_iff, WellFormed.has_error]

@[spec] theorem callResult_spec (func : Expr) (args : List Expr) (callee : TypeId)
    (argTypes : List TypeId) :
    ⦃fun s => ⌜s₀.Grows s ∧ s.Sound⌝⦄ callResult func args callee argTypes
    ⦃⇓ r s => ⌜s.Sound ∧ s₀.Grows s ∧ s.pool.Has r⌝⦄ := by
  mvcgen [callResult]
  -- the arguments are checked in one loop on either side of the count check; the return type,
  -- read off the pool before it, stays a type of the pool
  case inv1 =>
    rename_i ret _ _ _ _ _ _ _ _ _
    exact ⇓⟨_, _⟩ s => ⌜s.Sound ∧ s₀.Grows s ∧ s.pool.Has ret⌝
  case inv2 =>
    rename_i ret _ _ _ _ _
    exact ⇓⟨_, _⟩ s => ⌜s.Sound ∧ s₀.Grows s ∧ s.pool.Has ret⌝
  all_goals grind [Grows.refl, Grows.trans, Grows.has, sound_iff, grows_iff, WellFormed.has_error,
    WellFormed.has_of_signature?]

@[spec] theorem checkBitfield_spec (name : String) (ty : TypeId) (bits : Nat) (span : Span) :
    ⦃fun s => ⌜s₀.Grows s ∧ s.Sound⌝⦄ checkBitfield name ty bits span
    ⦃⇓ _ s => ⌜s.Sound ∧ s₀.Grows s⌝⦄ := by
  mvcgen [checkBitfield]
  all_goals grind [Grows.refl, Grows.trans, Grows.has, sound_iff, grows_iff]

@[spec] theorem memberResult_spec (seen : List (String × Span)) (m : MemberDecl) (ty : TypeId) :
    ⦃fun s => ⌜s₀.Grows s ∧ s.Sound ∧ s.pool.Has ty⌝⦄ memberResult seen m ty
    ⦃⇓ r s => ⌜s.Sound ∧ s₀.Grows s ∧ ∀ member ∈ r.1, s.pool.Has member.ty⌝⦄ := by
  mvcgen [memberResult]
  all_goals grind [Grows.refl, Grows.trans, Grows.has, sound_iff, grows_iff, WellFormed.has_error,
    Option.mem_def]

@[spec] theorem paramType_spec (param : TypeExpr) (ty : TypeId) :
    ⦃fun s => ⌜s₀.Grows s ∧ s.Sound ∧ s.pool.Has ty⌝⦄ paramType param ty
    ⦃⇓ r s => ⌜s.Sound ∧ s₀.Grows s ∧ s.pool.Has r⌝⦄ := by
  mvcgen [paramType]
  all_goals grind [Grows.refl, Grows.trans, Grows.has, sound_iff, grows_iff, WellFormed.has_error]

@[spec] theorem sizedArrayResult_spec (elem : TypeId) (size : Expr) (sizeTy : TypeId) :
    ⦃fun s => ⌜s₀.Grows s ∧ s.Sound ∧ s.pool.Has elem⌝⦄ sizedArrayResult elem size sizeTy
    ⦃⇓ r s => ⌜s.Sound ∧ s₀.Grows s ∧ s.pool.Has r⌝⦄ := by
  mvcgen [sizedArrayResult]
  all_goals grind [Grows.refl, Grows.trans, Grows.has, sound_iff, grows_iff, WellFormed.has_error]

@[spec] theorem setTypeDeclState_spec (d : Decl) (state : TypeDeclState) :
    ⦃fun s => ⌜s₀.Grows s ∧ s.Sound⌝⦄ setTypeDeclState d state ⦃⇓ _ s => ⌜s.Sound ∧ s₀.Grows s⌝⦄ := by
  mvcgen [setTypeDeclState]
  rename_i s h _
  obtain ⟨hg, hs⟩ := h
  exact ⟨hs.frame rfl rfl fun _ => rfl, hg.trans (Grows.frame rfl rfl rfl rfl rfl)⟩

@[spec] theorem stringInitResult_spec (found ty : TypeId) (span : Span) :
    ⦃fun s => ⌜s₀.Grows s ∧ s.Sound ∧ s.pool.Has found ∧ s.pool.Has ty⌝⦄ stringInitResult found ty span
    ⦃⇓ r s => ⌜s.Sound ∧ s₀.Grows s ∧ s.pool.Has r⌝⦄ := by
  mvcgen [stringInitResult]
  all_goals grind [Grows.refl, Grows.trans, Grows.has, sound_iff, grows_iff]

@[spec] theorem arrayInitResult_spec (elements : List Expr) (elem : TypeId) (len : Option Nat)
    (ty : TypeId) (span : Span) :
    ⦃fun s => ⌜s₀.Grows s ∧ s.Sound ∧ s.pool.Has elem ∧ s.pool.Has ty⌝⦄
    arrayInitResult elements elem len ty span
    ⦃⇓ r s => ⌜s.Sound ∧ s₀.Grows s ∧ s.pool.Has r⌝⦄ := by
  mvcgen [arrayInitResult]
  all_goals grind [Grows.refl, Grows.trans, Grows.has, sound_iff, grows_iff]

/-- Opening a record: a fresh record, under way and without members, and its type. -/
@[spec] theorem openRecord_spec (node : TypeExpr) (kind : RecordKind) (name : Option String)
    (binding : Option Nat) :
    ⦃fun s => ⌜s₀.Grows s ∧ s.Sound⌝⦄ openRecord node kind name binding
    ⦃⇓ r s => ⌜s.Sound ∧ s₀.Grows s ∧ s.pool.Has r.2 ∧ s₀.pool.records.size ≤ r.1 ∧
      r.1 < s.pool.records.size ∧ (s.pool.record r.1).members = [] ∧
      (s.pool.record r.1).layout = .inProgress⌝⦄ := by
  mvcgen [openRecord, setLayout_spec, setTypeNode, modifySymbol]
  · -- bound to a type name: the name now stands for the record's type
    rename_i s h₀ _ _ _ sym _ t _ s' hs'
    obtain ⟨hg, hs⟩ := h₀
    subst hs'
    have hpool : t.2.pool = (s.pool.newRecord kind name node.volatile node.span).1 := rfl
    have hscopes : t.2.scopes =
        s.scopes.modifySymbol sym (fun x => { x with ty := ⟨s.pool.types.size⟩ }) := rfl
    have key := hs.openRecord t.2 hpool rfl rfl rfl rfl fun i => by
      rw [hpool, hscopes]
      rcases s.scopes.symbol_modifySymbol sym (fun x => { x with ty := ⟨s.pool.types.size⟩ }) i
        with heq | ⟨rfl, heq⟩
      · rw [heq]
        exact (newRecord_extends s.pool kind name node.volatile node.span).has (hs.symbols i)
      · rw [heq]
        simp [TypePool.Has, newRecord_eq]
    exact ⟨key.1, hg.trans key.2.1, key.2.2.1, hg.pool.records_le, key.2.2.2⟩
  · -- anonymous
    rename_i s h₀ _ t _ _ _ _ _ s' hs'
    obtain ⟨hg, hs⟩ := h₀
    subst hs'
    have key := hs.openRecord t.2 rfl rfl rfl rfl rfl fun i =>
      (newRecord_extends s.pool kind name node.volatile node.span).has (hs.symbols i)
    exact ⟨key.1, hg.trans key.2.1, key.2.2.1, hg.pool.records_le, key.2.2.2⟩

/-- Closing a record gives it its members, and a record still under way becomes pending. Only
that record changes, so every pool that did not have it yet and that the state extended is still
extended. -/
@[spec] theorem closeRecord_spec (rid : Nat) (ms : List Member) :
    ⦃fun s => ⌜s = s₀ ∧ s.Sound ∧ rid < s.pool.records.size ∧ (s.pool.record rid).members = [] ∧
      ¬ s.pool.LaidOut rid ∧ ∀ m ∈ ms, s.pool.Has m.ty⌝⦄
    closeRecord rid ms
    ⦃⇓ _ s => ⌜s.Sound ∧ s.diagnostics = s₀.diagnostics ∧ s.pool.types = s₀.pool.types ∧
      s.labels = s₀.labels ∧ s.jumpTargets = s₀.jumpTargets ∧ s.broken = s₀.broken ∧
      ∀ p : TypePool, p.records.size ≤ rid → p.Extends s₀.pool → p.Extends s.pool⌝⦄ := by
  mvcgen [closeRecord, setLayout_spec]
  · -- still under way: it becomes pending
    rename_i s h t _ _ s'
    obtain ⟨rfl, hs, hrid, hempty, hnot, hms⟩ := h
    rintro rfl
    have hsound := hs.setMembers hrid hempty hnot hms
    have hpool : t.2.pool = s.pool.modifyRecord rid ({ · with members := ms }) := rfl
    have hnot' : ¬ t.2.pool.LaidOut rid := by
      rintro ⟨l, hl⟩
      rw [hpool, layout_setMembers hrid] at hl
      exact hnot ⟨l, hl⟩
    have hrid' : rid < t.2.pool.records.size := by simpa [hpool] using hrid
    refine ⟨hsound.withLayout (hsound.layout.setUnfinished hsound.wf hrid' hnot' (.inl rfl)),
      rfl, rfl, rfl, rfl, rfl, fun p hp hext => ?_⟩
    exact (hext.modifyRecord_of_le hp _).modifyRecord_of_le hp _
  · -- already failed
    rename_i s h t _
    obtain ⟨rfl, hs, hrid, hempty, hnot, hms⟩ := h
    exact ⟨hs.setMembers hrid hempty hnot hms, rfl, rfl, rfl, rfl, rfl, fun p hp hext =>
      hext.modifyRecord_of_le hp _⟩

end Specs

end Check

end SolarFront
