import SolarFront.Proofs.Check.Rules

/-!
# Typing keeps the invariant

The functions that type type nodes, expressions and initial values recurse into one another and
share one fuel. `TypingSound fuel` says that each of them, run with that fuel from a sound
state, ends in a sound state that grew from it and yields types of the pool. It holds at fuel
zero, where each function gives up, and each function at `fuel + 1` keeps it from the calls it
makes at `fuel`; so it holds at every fuel.
-/

set_option autoImplicit false
set_option linter.all false
set_option mvcgen.warning false

namespace SolarFront

namespace Check

open CheckM CheckState TypePool Std.Do

/-- Every function of the typing block keeps the checker sound at this fuel, and yields types
of the pool. -/
structure TypingSound (fuel : Nat) : Prop where
  type : ∀ (t : TypeExpr) (s₀ : CheckState),
    ⦃fun s => ⌜s₀.Grows s ∧ s.Sound⌝⦄ resolveType fuel t
    ⦃⇓ r s => ⌜s.Sound ∧ s₀.Grows s ∧ s.pool.Has r⌝⦄
  params : ∀ (ps : List TypeExpr) (s₀ : CheckState),
    ⦃fun s => ⌜s₀.Grows s ∧ s.Sound⌝⦄ resolveParams fuel ps
    ⦃⇓ r s => ⌜s.Sound ∧ s₀.Grows s ∧ ∀ q ∈ r, s.pool.Has q⌝⦄
  typeName : ∀ (name : String) (span : Span) (s₀ : CheckState),
    ⦃fun s => ⌜s₀.Grows s ∧ s.Sound⌝⦄ resolveTypeName fuel name span
    ⦃⇓ r s => ⌜s.Sound ∧ s₀.Grows s ∧ s.pool.Has r⌝⦄
  symbolType : ∀ (sym : Nat) (s₀ : CheckState),
    ⦃fun s => ⌜s₀.Grows s ∧ s.Sound⌝⦄ typeSymbolType fuel sym
    ⦃⇓ r s => ⌜s.Sound ∧ s₀.Grows s ∧ s.pool.Has r⌝⦄
  typeDecl : ∀ (declId sym : Nat) (s₀ : CheckState),
    ⦃fun s => ⌜s₀.Grows s ∧ s.Sound⌝⦄ ensureTypeDecl fuel declId sym
    ⦃⇓ _ s => ⌜s.Sound ∧ s₀.Grows s⌝⦄
  record : ∀ (node : TypeExpr) (kind : RecordKind) (name : Option String)
      (members : List MemberDecl) (binding : Option Nat) (s₀ : CheckState),
    ⦃fun s => ⌜s₀.Grows s ∧ s.Sound⌝⦄ defineRecord fuel node kind name members binding
    ⦃⇓ r s => ⌜s.Sound ∧ s₀.Grows s ∧ s.pool.Has r⌝⦄
  members : ∀ (seen : List (String × Span)) (ms : List MemberDecl) (s₀ : CheckState),
    ⦃fun s => ⌜s₀.Grows s ∧ s.Sound⌝⦄ resolveMembers fuel seen ms
    ⦃⇓ r s => ⌜s.Sound ∧ s₀.Grows s ∧ ∀ m ∈ r, s.pool.Has m.ty⌝⦄
  expr : ∀ (e : Expr) (s₀ : CheckState),
    ⦃fun s => ⌜s₀.Grows s ∧ s.Sound⌝⦄ checkExpr fuel e
    ⦃⇓ r s => ⌜s.Sound ∧ s₀.Grows s ∧ s.pool.Has r⌝⦄
  value : ∀ (e : Expr) (s₀ : CheckState),
    ⦃fun s => ⌜s₀.Grows s ∧ s.Sound⌝⦄ checkValue fuel e
    ⦃⇓ r s => ⌜s.Sound ∧ s₀.Grows s ∧ s.pool.Has r⌝⦄
  condition : ∀ (e : Expr) (s₀ : CheckState),
    ⦃fun s => ⌜s₀.Grows s ∧ s.Sound⌝⦄ checkCondition fuel e
    ⦃⇓ r s => ⌜s.Sound ∧ s₀.Grows s ∧ s.pool.Has r⌝⦄
  values : ∀ (es : List Expr) (s₀ : CheckState),
    ⦃fun s => ⌜s₀.Grows s ∧ s.Sound⌝⦄ checkValues fuel es
    ⦃⇓ r s => ⌜s.Sound ∧ s₀.Grows s ∧ ∀ q ∈ r, s.pool.Has q⌝⦄
  sequence : ∀ (ty : TypeId) (es : List Expr) (s₀ : CheckState),
    ⦃fun s => ⌜s₀.Grows s ∧ s.Sound ∧ s.pool.Has ty⌝⦄ checkSequence fuel ty es
    ⦃⇓ r s => ⌜s.Sound ∧ s₀.Grows s ∧ s.pool.Has r⌝⦄
  infer : ∀ (e : Expr) (s₀ : CheckState),
    ⦃fun s => ⌜s₀.Grows s ∧ s.Sound⌝⦄ inferExpr fuel e
    ⦃⇓ r s => ⌜s.Sound ∧ s₀.Grows s ∧ s.pool.Has r⌝⦄
  sizeofOperand : ∀ (e : Expr) (s₀ : CheckState),
    ⦃fun s => ⌜s₀.Grows s ∧ s.Sound⌝⦄ sizeofTypeOperand fuel e
    ⦃⇓ r s => ⌜s.Sound ∧ s₀.Grows s ∧ ∀ t ∈ r, s.pool.Has t⌝⦄
  init : ∀ (init : Expr) (ty : TypeId) (s₀ : CheckState),
    ⦃fun s => ⌜s₀.Grows s ∧ s.Sound ∧ s.pool.Has ty⌝⦄ checkInit fuel init ty
    ⦃⇓ r s => ⌜s.Sound ∧ s₀.Grows s ∧ s.pool.Has r⌝⦄
  arrayInit : ∀ (elements : List Expr) (ty : TypeId) (span : Span) (s₀ : CheckState),
    ⦃fun s => ⌜s₀.Grows s ∧ s.Sound ∧ s.pool.Has ty⌝⦄ checkArrayInit fuel elements ty span
    ⦃⇓ r s => ⌜s.Sound ∧ s₀.Grows s ∧ s.pool.Has r⌝⦄
  inits : ∀ (es : List Expr) (ty : TypeId) (s₀ : CheckState),
    ⦃fun s => ⌜s₀.Grows s ∧ s.Sound ∧ s.pool.Has ty⌝⦄ checkInits fuel es ty
    ⦃⇓ _ s => ⌜s.Sound ∧ s₀.Grows s⌝⦄
  recordInit : ∀ (kind : RecordKind) (fields : List FieldInit) (ty : TypeId) (span : Span)
      (s₀ : CheckState),
    ⦃fun s => ⌜s₀.Grows s ∧ s.Sound ∧ s.pool.Has ty⌝⦄ checkRecordInit fuel kind fields ty span
    ⦃⇓ r s => ⌜s.Sound ∧ s₀.Grows s ∧ s.pool.Has r⌝⦄
  fields : ∀ (rid : Nat) (ty : TypeId) (fs : List FieldInit) (s₀ : CheckState),
    ⦃fun s => ⌜s₀.Grows s ∧ s.Sound ∧ rid < s.pool.records.size⌝⦄ checkFields fuel rid ty fs
    ⦃⇓ _ s => ⌜s.Sound ∧ s₀.Grows s⌝⦄

/-- Out of fuel, every function gives up at once: the error type, or nothing. -/
theorem typingSound_zero : TypingSound 0 := by
  constructor
  all_goals
    intros
    mvcgen [resolveType, resolveParams, resolveTypeName, typeSymbolType, ensureTypeDecl,
      defineRecord, resolveMembers, checkExpr, checkValue, checkCondition, checkValues,
      checkSequence, inferExpr, sizeofTypeOperand, checkInit, checkArrayInit, checkInits,
      checkRecordInit, checkFields]
  all_goals grind [Grows.refl, sound_iff, WellFormed.has_error]

section Step

variable {n : Nat} (ih : TypingSound n) (s₀ : CheckState)
include ih

theorem resolveType_step (t : TypeExpr) :
    ⦃fun s => ⌜s₀.Grows s ∧ s.Sound⌝⦄ resolveType (n + 1) t
    ⦃⇓ r s => ⌜s.Sound ∧ s₀.Grows s ∧ s.pool.Has r⌝⦄ := by
  have htype := ih.type
  have hparams := ih.params
  have htypeName := ih.typeName
  have hrecord := ih.record
  have hexpr := ih.expr
  have hvalue := ih.value
  mvcgen [resolveType, htype, hparams, htypeName, hrecord, hexpr, hvalue]
  all_goals grind [Grows.refl, Grows.trans, Grows.has, sound_iff, grows_iff,
    WellFormed.has_void, WellFormed.has_ofWidth]

theorem resolveParams_step (ps : List TypeExpr) :
    ⦃fun s => ⌜s₀.Grows s ∧ s.Sound⌝⦄ resolveParams (n + 1) ps
    ⦃⇓ r s => ⌜s.Sound ∧ s₀.Grows s ∧ ∀ q ∈ r, s.pool.Has q⌝⦄ := by
  have htype := ih.type
  have hparams := ih.params
  cases ps with
  | nil =>
    mvcgen [resolveParams]
    all_goals grind [Grows.refl, Grows.trans, Grows.has, sound_iff, grows_iff]
  | cons p ps =>
    mvcgen [resolveParams, htype, hparams]
    all_goals grind [Grows.refl, Grows.trans, Grows.has, sound_iff, grows_iff]

theorem resolveTypeName_step (name : String) (span : Span) :
    ⦃fun s => ⌜s₀.Grows s ∧ s.Sound⌝⦄ resolveTypeName (n + 1) name span
    ⦃⇓ r s => ⌜s.Sound ∧ s₀.Grows s ∧ s.pool.Has r⌝⦄ := by
  have hsymbolType := ih.symbolType
  mvcgen [resolveTypeName, hsymbolType]
  all_goals grind [Grows.refl, Grows.trans, Grows.has, sound_iff, grows_iff, WellFormed.has_error]

theorem typeSymbolType_step (sym : Nat) :
    ⦃fun s => ⌜s₀.Grows s ∧ s.Sound⌝⦄ typeSymbolType (n + 1) sym
    ⦃⇓ r s => ⌜s.Sound ∧ s₀.Grows s ∧ s.pool.Has r⌝⦄ := by
  have htypeDecl := ih.typeDecl
  mvcgen [typeSymbolType, htypeDecl]
  all_goals grind [Grows.refl, Grows.trans, Grows.has, sound_iff, grows_iff]

theorem ensureTypeDecl_step (declId sym : Nat) :
    ⦃fun s => ⌜s₀.Grows s ∧ s.Sound⌝⦄ ensureTypeDecl (n + 1) declId sym
    ⦃⇓ _ s => ⌜s.Sound ∧ s₀.Grows s⌝⦄ := by
  have htype := ih.type
  have hrecord := ih.record
  mvcgen [ensureTypeDecl, htype, hrecord]
  all_goals grind [Grows.refl, Grows.trans, Grows.has, sound_iff, grows_iff, WellFormed.has_error]

theorem resolveMembers_step (seen : List (String × Span)) (ms : List MemberDecl) :
    ⦃fun s => ⌜s₀.Grows s ∧ s.Sound⌝⦄ resolveMembers (n + 1) seen ms
    ⦃⇓ r s => ⌜s.Sound ∧ s₀.Grows s ∧ ∀ m ∈ r, s.pool.Has m.ty⌝⦄ := by
  have htype := ih.type
  have hmembers := ih.members
  cases ms with
  | nil =>
    mvcgen [resolveMembers]
    all_goals grind [Grows.refl, Grows.trans, Grows.has, sound_iff, grows_iff]
  | cons m ms =>
    mvcgen [resolveMembers, htype, hmembers]
    all_goals grind [Grows.refl, Grows.trans, Grows.has, sound_iff, grows_iff, Option.mem_def]

theorem checkExpr_step (e : Expr) :
    ⦃fun s => ⌜s₀.Grows s ∧ s.Sound⌝⦄ checkExpr (n + 1) e
    ⦃⇓ r s => ⌜s.Sound ∧ s₀.Grows s ∧ s.pool.Has r⌝⦄ := by
  have hinfer := ih.infer
  mvcgen [checkExpr, hinfer]
  all_goals grind [Grows.refl, Grows.trans, Grows.has, sound_iff, grows_iff]

theorem checkValue_step (e : Expr) :
    ⦃fun s => ⌜s₀.Grows s ∧ s.Sound⌝⦄ checkValue (n + 1) e
    ⦃⇓ r s => ⌜s.Sound ∧ s₀.Grows s ∧ s.pool.Has r⌝⦄ := by
  have hexpr := ih.expr
  mvcgen [checkValue, hexpr]
  all_goals grind [Grows.refl, Grows.trans, Grows.has, sound_iff, grows_iff, WellFormed.has_error]

theorem checkCondition_step (e : Expr) :
    ⦃fun s => ⌜s₀.Grows s ∧ s.Sound⌝⦄ checkCondition (n + 1) e
    ⦃⇓ r s => ⌜s.Sound ∧ s₀.Grows s ∧ s.pool.Has r⌝⦄ := by
  have hvalue := ih.value
  mvcgen [checkCondition, hvalue]
  all_goals grind [Grows.refl, Grows.trans, Grows.has, sound_iff, grows_iff]

theorem checkValues_step (es : List Expr) :
    ⦃fun s => ⌜s₀.Grows s ∧ s.Sound⌝⦄ checkValues (n + 1) es
    ⦃⇓ r s => ⌜s.Sound ∧ s₀.Grows s ∧ ∀ q ∈ r, s.pool.Has q⌝⦄ := by
  have hvalue := ih.value
  have hvalues := ih.values
  cases es with
  | nil =>
    mvcgen [checkValues]
    all_goals grind [Grows.refl, Grows.trans, Grows.has, sound_iff, grows_iff]
  | cons e es =>
    mvcgen [checkValues, hvalue, hvalues]
    all_goals grind [Grows.refl, Grows.trans, Grows.has, sound_iff, grows_iff]

theorem checkSequence_step (ty : TypeId) (es : List Expr) :
    ⦃fun s => ⌜s₀.Grows s ∧ s.Sound ∧ s.pool.Has ty⌝⦄ checkSequence (n + 1) ty es
    ⦃⇓ r s => ⌜s.Sound ∧ s₀.Grows s ∧ s.pool.Has r⌝⦄ := by
  have hexpr := ih.expr
  have hsequence := ih.sequence
  cases es with
  | nil =>
    mvcgen [checkSequence]
    all_goals grind [Grows.refl, Grows.trans, Grows.has, sound_iff, grows_iff]
  | cons e es =>
    mvcgen [checkSequence, hexpr, hsequence]
    all_goals grind [Grows.refl, Grows.trans, Grows.has, sound_iff, grows_iff]

theorem defineRecord_step (node : TypeExpr) (kind : RecordKind) (name : Option String)
    (members : List MemberDecl) (binding : Option Nat) :
    ⦃fun s => ⌜s₀.Grows s ∧ s.Sound⌝⦄ defineRecord (n + 1) node kind name members binding
    ⦃⇓ r s => ⌜s.Sound ∧ s₀.Grows s ∧ s.pool.Has r⌝⦄ := by
  have hmembers := ih.members
  mvcgen [defineRecord, hmembers]
  · rename_i s h
    exact ⟨Grows.refl s, h.2⟩
  · rename_i s h _ s₁ h₁
    exact ⟨Grows.refl s₁, h₁.1⟩
  · -- the members keep the record empty and unfinished
    rename_i s h r s₁ h₁ ms s₂ h₂
    obtain ⟨-, -, -, -, hrid, hempty, hip⟩ := h₁
    obtain ⟨hs₂, hg₂, hms⟩ := h₂
    exact ⟨trivial, hs₂, Nat.lt_of_lt_of_le hrid hg₂.pool.records_le,
      (hg₂.pool.members_eq hrid).trans hempty, hg₂.pool.not_laidOut_of_inProgress hrid hip, hms⟩
  · -- closing it keeps the growth, since the record is newer than the start
    rename_i s h r s₁ h₁ ms s₂ h₂ _ s₃ h₃
    obtain ⟨hs₃, hdiag, htypes, hlabels, hjumps, hbroken, hpool⟩ := h₃
    have hle : s₀.pool.records.size ≤ r.1 := h.1.pool.records_le.trans h₁.2.2.2.1
    have hhas : s₂.pool.Has r.2 := h₂.2.1.has h₁.2.2.1
    refine ⟨hs₃, Grows.close ((h.1.trans h₁.2.1).trans h₂.2.1) hle hdiag hlabels hjumps hbroken
      hpool, ?_⟩
    unfold TypePool.Has at hhas ⊢
    rwa [htypes]

theorem inferExpr_step (e : Expr) :
    ⦃fun s => ⌜s₀.Grows s ∧ s.Sound⌝⦄ inferExpr (n + 1) e
    ⦃⇓ r s => ⌜s.Sound ∧ s₀.Grows s ∧ s.pool.Has r⌝⦄ := by
  have htype := ih.type
  have hexpr := ih.expr
  have hvalue := ih.value
  have hcondition := ih.condition
  have hvalues := ih.values
  have hsequence := ih.sequence
  have hsizeof := ih.sizeofOperand
  obtain ⟨id, span, kind⟩ := e
  cases kind <;> mvcgen [inferExpr, htype, hexpr, hvalue, hcondition, hvalues, hsequence, hsizeof]
  all_goals grind [Grows.refl, Grows.trans, Grows.has, sound_iff, grows_iff, WellFormed.has_error, WellFormed.has_void, WellFormed.has_int8,
    WellFormed.has_int16, WellFormed.has_int32, Option.mem_def]

theorem sizeofTypeOperand_step (e : Expr) :
    ⦃fun s => ⌜s₀.Grows s ∧ s.Sound⌝⦄ sizeofTypeOperand (n + 1) e
    ⦃⇓ r s => ⌜s.Sound ∧ s₀.Grows s ∧ ∀ t ∈ r, s.pool.Has t⌝⦄ := by
  have hsymbolType := ih.symbolType
  have hsizeof := ih.sizeofOperand
  obtain ⟨id, span, kind⟩ := e
  cases kind <;> mvcgen [sizeofTypeOperand, hsymbolType, hsizeof]
  all_goals grind [Grows.refl, Grows.trans, Grows.has, sound_iff, grows_iff, WellFormed.has_error, Option.mem_def]

theorem checkInit_step (init : Expr) (ty : TypeId) :
    ⦃fun s => ⌜s₀.Grows s ∧ s.Sound ∧ s.pool.Has ty⌝⦄ checkInit (n + 1) init ty
    ⦃⇓ r s => ⌜s.Sound ∧ s₀.Grows s ∧ s.pool.Has r⌝⦄ := by
  have hexpr := ih.expr
  have hvalue := ih.value
  have harrayInit := ih.arrayInit
  have hrecordInit := ih.recordInit
  mvcgen [checkInit, hexpr, hvalue, harrayInit, hrecordInit]
  all_goals grind [Grows.refl, Grows.trans, Grows.has, sound_iff, grows_iff]

theorem checkArrayInit_step (elements : List Expr) (ty : TypeId) (span : Span) :
    ⦃fun s => ⌜s₀.Grows s ∧ s.Sound ∧ s.pool.Has ty⌝⦄ checkArrayInit (n + 1) elements ty span
    ⦃⇓ r s => ⌜s.Sound ∧ s₀.Grows s ∧ s.pool.Has r⌝⦄ := by
  have hinits := ih.inits
  mvcgen [checkArrayInit, hinits]
  all_goals grind [Grows.refl, Grows.trans, Grows.has, sound_iff, grows_iff, WellFormed.has_error, WellFormed.has_of_get_array]

theorem checkInits_step (es : List Expr) (ty : TypeId) :
    ⦃fun s => ⌜s₀.Grows s ∧ s.Sound ∧ s.pool.Has ty⌝⦄ checkInits (n + 1) es ty
    ⦃⇓ _ s => ⌜s.Sound ∧ s₀.Grows s⌝⦄ := by
  have hinit := ih.init
  have hinits := ih.inits
  cases es with
  | nil =>
    mvcgen [checkInits]
    all_goals grind [Grows.refl, Grows.trans, Grows.has, sound_iff, grows_iff]
  | cons e es =>
    mvcgen [checkInits, hinit, hinits]
    all_goals grind [Grows.refl, Grows.trans, Grows.has, sound_iff, grows_iff]

theorem checkRecordInit_step (kind : RecordKind) (fields : List FieldInit) (ty : TypeId)
    (span : Span) :
    ⦃fun s => ⌜s₀.Grows s ∧ s.Sound ∧ s.pool.Has ty⌝⦄ checkRecordInit (n + 1) kind fields ty span
    ⦃⇓ r s => ⌜s.Sound ∧ s₀.Grows s ∧ s.pool.Has r⌝⦄ := by
  have hinits := ih.inits
  have hfields := ih.fields
  mvcgen [checkRecordInit, hinits, hfields]
  all_goals grind [Grows.refl, Grows.trans, Grows.has, sound_iff, grows_iff, → Grows.records_le, WellFormed.has_error,
    → WellFormed.lt_of_filter_recordOf?]

theorem checkFields_step (rid : Nat) (ty : TypeId) (fs : List FieldInit) :
    ⦃fun s => ⌜s₀.Grows s ∧ s.Sound ∧ rid < s.pool.records.size⌝⦄ checkFields (n + 1) rid ty fs
    ⦃⇓ _ s => ⌜s.Sound ∧ s₀.Grows s⌝⦄ := by
  have hinit := ih.init
  have hfields := ih.fields
  cases fs with
  | nil =>
    mvcgen [checkFields]
    all_goals grind [Grows.refl, Grows.trans, Grows.has, sound_iff, grows_iff]
  | cons f fs =>
    mvcgen [checkFields, hinit, hfields]
    all_goals grind [Grows.refl, Grows.trans, Grows.has, sound_iff, grows_iff, → Grows.records_le, WellFormed.has_error,
      WellFormed.has_of_member]

end Step

/-- The typing functions keep the checker sound at every fuel. -/
theorem typingSound (fuel : Nat) : TypingSound fuel := by
  induction fuel with
  | zero => exact typingSound_zero
  | succ n ih =>
    exact
      { type := fun t s₀ => resolveType_step ih s₀ t
        params := fun ps s₀ => resolveParams_step ih s₀ ps
        typeName := fun name span s₀ => resolveTypeName_step ih s₀ name span
        symbolType := fun sym s₀ => typeSymbolType_step ih s₀ sym
        typeDecl := fun declId sym s₀ => ensureTypeDecl_step ih s₀ declId sym
        record := fun node kind name members binding s₀ =>
          defineRecord_step ih s₀ node kind name members binding
        members := fun seen ms s₀ => resolveMembers_step ih s₀ seen ms
        expr := fun e s₀ => checkExpr_step ih s₀ e
        value := fun e s₀ => checkValue_step ih s₀ e
        condition := fun e s₀ => checkCondition_step ih s₀ e
        values := fun es s₀ => checkValues_step ih s₀ es
        sequence := fun ty es s₀ => checkSequence_step ih s₀ ty es
        infer := fun e s₀ => inferExpr_step ih s₀ e
        sizeofOperand := fun e s₀ => sizeofTypeOperand_step ih s₀ e
        init := fun init ty s₀ => checkInit_step ih s₀ init ty
        arrayInit := fun elements ty span s₀ => checkArrayInit_step ih s₀ elements ty span
        inits := fun es ty s₀ => checkInits_step ih s₀ es ty
        recordInit := fun kind fields ty span s₀ => checkRecordInit_step ih s₀ kind fields ty span
        fields := fun rid ty fs s₀ => checkFields_step ih s₀ rid ty fs }

/-! ## With the module's budget

The entry points run the typing functions with the budget the state carries. The typing block
keeps the checker sound at every fuel, so they do too, whatever the budget. -/

section Entry

variable (s₀ : CheckState)

@[spec] theorem typeOfNode_spec (t : TypeExpr) :
    ⦃fun s => ⌜s₀.Grows s ∧ s.Sound⌝⦄ typeOfNode t
    ⦃⇓ r s => ⌜s.Sound ∧ s₀.Grows s ∧ s.pool.Has r⌝⦄ := by
  have htype := fun fuel => (typingSound fuel).type t
  mvcgen [typeOfNode, htype]

@[spec] theorem typeOfExpr_spec (e : Expr) :
    ⦃fun s => ⌜s₀.Grows s ∧ s.Sound⌝⦄ typeOfExpr e
    ⦃⇓ r s => ⌜s.Sound ∧ s₀.Grows s ∧ s.pool.Has r⌝⦄ := by
  have hexpr := fun fuel => (typingSound fuel).expr e
  mvcgen [typeOfExpr, hexpr]

@[spec] theorem typeOfValue_spec (e : Expr) :
    ⦃fun s => ⌜s₀.Grows s ∧ s.Sound⌝⦄ typeOfValue e
    ⦃⇓ r s => ⌜s.Sound ∧ s₀.Grows s ∧ s.pool.Has r⌝⦄ := by
  have hvalue := fun fuel => (typingSound fuel).value e
  mvcgen [typeOfValue, hvalue]

@[spec] theorem typeOfCondition_spec (e : Expr) :
    ⦃fun s => ⌜s₀.Grows s ∧ s.Sound⌝⦄ typeOfCondition e
    ⦃⇓ r s => ⌜s.Sound ∧ s₀.Grows s ∧ s.pool.Has r⌝⦄ := by
  have hcondition := fun fuel => (typingSound fuel).condition e
  mvcgen [typeOfCondition, hcondition]

@[spec] theorem typeOfInit_spec (e : Expr) (ty : TypeId) :
    ⦃fun s => ⌜s₀.Grows s ∧ s.Sound ∧ s.pool.Has ty⌝⦄ typeOfInit e ty
    ⦃⇓ r s => ⌜s.Sound ∧ s₀.Grows s ∧ s.pool.Has r⌝⦄ := by
  have hinit := fun fuel => (typingSound fuel).init e ty
  mvcgen [typeOfInit, hinit]

@[spec] theorem declareRecord_spec (node : TypeExpr) (kind : RecordKind) (name : Option String)
    (members : List MemberDecl) (binding : Option Nat) :
    ⦃fun s => ⌜s₀.Grows s ∧ s.Sound⌝⦄ declareRecord node kind name members binding
    ⦃⇓ r s => ⌜s.Sound ∧ s₀.Grows s ∧ s.pool.Has r⌝⦄ := by
  have hrecord := fun fuel => (typingSound fuel).record node kind name members binding
  mvcgen [declareRecord, hrecord]

@[spec] theorem resolveTypeDecl_spec (declId sym : Nat) :
    ⦃fun s => ⌜s₀.Grows s ∧ s.Sound⌝⦄ resolveTypeDecl declId sym
    ⦃⇓ _ s => ⌜s.Sound ∧ s₀.Grows s⌝⦄ := by
  have htypeDecl := fun fuel => (typingSound fuel).typeDecl declId sym
  mvcgen [resolveTypeDecl, htypeDecl]

end Entry

end Check

end SolarFront
