import SolarFront.Proofs.Check.Members

/-!
# Typing keeps the members sound

Every function of the typing block keeps `CheckState.Membered`: the integer types of a pool
keep their widths and every record keeps sound members (`MembersKept`, `membersKept`). Records
get their members only when their definitions close, from `resolveMembers`, which gives sound
members with pairwise distinct names, none of them among the names seen before. The block is
proved fuel by fuel, as in `Check.TypingSound`. A member is made before the members after it
are resolved, and those may define records of their own; the pool they leave keeps the integer
types of the one the member was made in, which is why the invariant is stated for every `p₀`.
-/

set_option autoImplicit false
set_option linter.all false
set_option mvcgen.warning false

namespace SolarFront

namespace CheckM

open Std.Do

/-- What every run of a step gives is what its triple promises. -/
theorem Runs.triple {α : Type} {x : CheckM α} {P : CheckState → Prop} {Q : α → CheckState → Prop}
    (h : ∀ s a s', P s → Runs x s a s' → Q a s') : ⦃fun s => ⌜P s⌝⦄ x ⦃⇓ r s => ⌜Q r s⌝⦄ := by
  intro s hs
  have hq := h s (x.run s).1 (x.run s).2 hs rfl
  simp only [wp, PredTrans.apply]
  exact hq

end CheckM

namespace Check

open Std.Do CheckM CheckState TypePool

/-- Every function of the typing block keeps the members sound at this fuel; resolving members
gives sound members with distinct names, none of them seen before, in the order they are
declared. -/
structure MembersKept (fuel : Nat) : Prop where
  type : ∀ (t : TypeExpr) (p₀ : TypePool),
    ⦃fun s => ⌜s.Membered p₀⌝⦄ resolveType fuel t ⦃⇓ _ s => ⌜s.Membered p₀⌝⦄
  params : ∀ (ps : List TypeExpr) (p₀ : TypePool),
    ⦃fun s => ⌜s.Membered p₀⌝⦄ resolveParams fuel ps ⦃⇓ _ s => ⌜s.Membered p₀⌝⦄
  typeName : ∀ (name : String) (span : Span) (p₀ : TypePool),
    ⦃fun s => ⌜s.Membered p₀⌝⦄ resolveTypeName fuel name span ⦃⇓ _ s => ⌜s.Membered p₀⌝⦄
  symbolType : ∀ (sym : Nat) (p₀ : TypePool),
    ⦃fun s => ⌜s.Membered p₀⌝⦄ typeSymbolType fuel sym ⦃⇓ _ s => ⌜s.Membered p₀⌝⦄
  typeDecl : ∀ (declId sym : Nat) (p₀ : TypePool),
    ⦃fun s => ⌜s.Membered p₀⌝⦄ ensureTypeDecl fuel declId sym ⦃⇓ _ s => ⌜s.Membered p₀⌝⦄
  record : ∀ (node : TypeExpr) (kind : RecordKind) (name : Option String)
      (members : List MemberDecl) (binding : Option Nat) (p₀ : TypePool),
    ⦃fun s => ⌜s.Membered p₀⌝⦄ defineRecord fuel node kind name members binding
    ⦃⇓ _ s => ⌜s.Membered p₀⌝⦄
  members : ∀ (seen : List (String × Span)) (ms : List MemberDecl) (p₀ : TypePool),
    ⦃fun s => ⌜s.Membered p₀⌝⦄ resolveMembers fuel seen ms
    ⦃⇓ r s => ⌜s.Membered p₀ ∧ s.pool.SoundMembers r ∧ (∀ m ∈ r, m.name ∉ seen.map Prod.fst) ∧
      (r.map (·.name)).Sublist (ms.map (·.name))⌝⦄
  expr : ∀ (e : Expr) (p₀ : TypePool),
    ⦃fun s => ⌜s.Membered p₀⌝⦄ checkExpr fuel e ⦃⇓ _ s => ⌜s.Membered p₀⌝⦄
  value : ∀ (e : Expr) (p₀ : TypePool),
    ⦃fun s => ⌜s.Membered p₀⌝⦄ checkValue fuel e ⦃⇓ _ s => ⌜s.Membered p₀⌝⦄
  condition : ∀ (e : Expr) (p₀ : TypePool),
    ⦃fun s => ⌜s.Membered p₀⌝⦄ checkCondition fuel e ⦃⇓ _ s => ⌜s.Membered p₀⌝⦄
  values : ∀ (es : List Expr) (p₀ : TypePool),
    ⦃fun s => ⌜s.Membered p₀⌝⦄ checkValues fuel es ⦃⇓ _ s => ⌜s.Membered p₀⌝⦄
  sequence : ∀ (ty : TypeId) (es : List Expr) (p₀ : TypePool),
    ⦃fun s => ⌜s.Membered p₀⌝⦄ checkSequence fuel ty es ⦃⇓ _ s => ⌜s.Membered p₀⌝⦄
  infer : ∀ (e : Expr) (p₀ : TypePool),
    ⦃fun s => ⌜s.Membered p₀⌝⦄ inferExpr fuel e ⦃⇓ _ s => ⌜s.Membered p₀⌝⦄
  sizeofOperand : ∀ (e : Expr) (p₀ : TypePool),
    ⦃fun s => ⌜s.Membered p₀⌝⦄ sizeofTypeOperand fuel e ⦃⇓ _ s => ⌜s.Membered p₀⌝⦄
  init : ∀ (init : Expr) (ty : TypeId) (p₀ : TypePool),
    ⦃fun s => ⌜s.Membered p₀⌝⦄ checkInit fuel init ty ⦃⇓ _ s => ⌜s.Membered p₀⌝⦄
  arrayInit : ∀ (elements : List Expr) (ty : TypeId) (span : Span) (p₀ : TypePool),
    ⦃fun s => ⌜s.Membered p₀⌝⦄ checkArrayInit fuel elements ty span ⦃⇓ _ s => ⌜s.Membered p₀⌝⦄
  inits : ∀ (es : List Expr) (ty : TypeId) (p₀ : TypePool),
    ⦃fun s => ⌜s.Membered p₀⌝⦄ checkInits fuel es ty ⦃⇓ _ s => ⌜s.Membered p₀⌝⦄
  recordInit : ∀ (kind : RecordKind) (fields : List FieldInit) (ty : TypeId) (span : Span)
      (p₀ : TypePool),
    ⦃fun s => ⌜s.Membered p₀⌝⦄ checkRecordInit fuel kind fields ty span
    ⦃⇓ _ s => ⌜s.Membered p₀⌝⦄
  fields : ∀ (rid : Nat) (ty : TypeId) (fs : List FieldInit) (p₀ : TypePool),
    ⦃fun s => ⌜s.Membered p₀⌝⦄ checkFields fuel rid ty fs ⦃⇓ _ s => ⌜s.Membered p₀⌝⦄

/-- Out of fuel, every function gives up at once, and resolves no member. -/
theorem membersKept_zero : MembersKept 0 := by
  constructor
  all_goals
    intros
    mvcgen [resolveType, resolveParams, resolveTypeName, typeSymbolType, ensureTypeDecl,
      defineRecord, resolveMembers, checkExpr, checkValue, checkCondition, checkValues,
      checkSequence, inferExpr, sizeofTypeOperand, checkInit, checkArrayInit, checkInits,
      checkRecordInit, checkFields]
  all_goals simp_all [SoundMembers.nil]

section Step

variable {n : Nat} (ih : MembersKept n) (p₀ : TypePool)
include ih

theorem resolveType_members_step (t : TypeExpr) :
    ⦃fun s => ⌜s.Membered p₀⌝⦄ resolveType (n + 1) t ⦃⇓ _ s => ⌜s.Membered p₀⌝⦄ := by
  have htype := fun t => ih.type t p₀
  have hparams := fun ps => ih.params ps p₀
  have htypeName := fun name span => ih.typeName name span p₀
  have hrecord := fun node kind name ms binding => ih.record node kind name ms binding p₀
  have hexpr := fun e => ih.expr e p₀
  have hvalue := fun e => ih.value e p₀
  mvcgen [resolveType, htype, hparams, htypeName, hrecord, hexpr, hvalue, pointer_members,
    sizedArrayResult_members, func_members, setTypeNode_members, -pointer_spec,
    -sizedArrayResult_spec, -func_spec, -setTypeNode_spec]

theorem resolveParams_members_step (ps : List TypeExpr) :
    ⦃fun s => ⌜s.Membered p₀⌝⦄ resolveParams (n + 1) ps ⦃⇓ _ s => ⌜s.Membered p₀⌝⦄ := by
  have htype := fun t => ih.type t p₀
  have hparams := fun ps => ih.params ps p₀
  cases ps with
  | nil => mvcgen [resolveParams]
  | cons p ps => mvcgen [resolveParams, htype, hparams, paramType_members, -paramType_spec]

theorem resolveTypeName_members_step (name : String) (span : Span) :
    ⦃fun s => ⌜s.Membered p₀⌝⦄ resolveTypeName (n + 1) name span ⦃⇓ _ s => ⌜s.Membered p₀⌝⦄ := by
  have hsymbolType := fun sym => ih.symbolType sym p₀
  mvcgen [resolveTypeName, hsymbolType, report_members, fail_members, -report_spec, -fail_spec]

theorem typeSymbolType_members_step (sym : Nat) :
    ⦃fun s => ⌜s.Membered p₀⌝⦄ typeSymbolType (n + 1) sym ⦃⇓ _ s => ⌜s.Membered p₀⌝⦄ := by
  have htypeDecl := fun declId sym => ih.typeDecl declId sym p₀
  mvcgen [typeSymbolType, htypeDecl]

theorem ensureTypeDecl_members_step (declId sym : Nat) :
    ⦃fun s => ⌜s.Membered p₀⌝⦄ ensureTypeDecl (n + 1) declId sym ⦃⇓ _ s => ⌜s.Membered p₀⌝⦄ := by
  have htype := fun t => ih.type t p₀
  have hrecord := fun node kind name ms binding => ih.record node kind name ms binding p₀
  mvcgen [ensureTypeDecl, htype, hrecord, report_members, modifySymbol_members,
    setTypeDeclState_members, setDeclType_members, -report_spec, -modifySymbol_spec,
    -setTypeDeclState_spec, -setDeclType_spec]

/-- A record closes with the members its declaration resolves to, which are sound. -/
theorem defineRecord_members_step (node : TypeExpr) (kind : RecordKind) (name : Option String)
    (members : List MemberDecl) (binding : Option Nat) :
    ⦃fun s => ⌜s.Membered p₀⌝⦄ defineRecord (n + 1) node kind name members binding
    ⦃⇓ _ s => ⌜s.Membered p₀⌝⦄ := by
  have hmembers := fun seen ms => ih.members seen ms p₀
  have hclose := closeRecord_members p₀
  mvcgen [defineRecord, hmembers, openRecord_members, hclose, -openRecord_spec,
    -closeRecord_spec]
  all_goals simp_all

/-- The members after a member are resolved from the pool it was made in, which their pool
keeps; so the member stays sound, and its name is none of theirs. -/
theorem resolveMembers_members_step (seen : List (String × Span)) (ms : List MemberDecl) :
    ⦃fun s => ⌜s.Membered p₀⌝⦄ resolveMembers (n + 1) seen ms
    ⦃⇓ r s => ⌜s.Membered p₀ ∧ s.pool.SoundMembers r ∧ (∀ m ∈ r, m.name ∉ seen.map Prod.fst) ∧
      (r.map (·.name)).Sublist (ms.map (·.name))⌝⦄ := by
  cases ms with
  | nil =>
    mvcgen [resolveMembers]
    all_goals simp_all [SoundMembers.nil]
  | cons m ms =>
    apply Runs.triple
    intro s r s' hs h
    rw [resolveMembers] at h
    obtain ⟨ty, s₁, h₁, h⟩ := h.of_bind
    obtain ⟨⟨member?, seen'⟩, s₂, h₂, h⟩ := h.of_bind
    obtain ⟨rest, s₃, h₃, h⟩ := h.of_bind
    obtain ⟨rfl, rfl⟩ := h.of_pure
    have hs₁ := Runs.of_triple (ih.type m.ty p₀) h₁ hs
    obtain ⟨hs₂, hnone, hsome⟩ := Runs.of_triple (memberResult_members p₀ seen m ty) h₂ hs₁
    obtain ⟨hs₃, hrest, hfresh, horder⟩ :=
      Runs.of_triple (ih.members seen' ms s₂.pool) h₃ ⟨KeepsInts.refl _, hs₂.2⟩
    refine ⟨hs₂.step hs₃.1 hs₃.2, ?_⟩
    cases member? with
    | none =>
      obtain rfl : seen' = seen := hnone rfl
      exact ⟨hrest, hfresh, horder.cons _⟩
    | some mem =>
      obtain ⟨hsound, hname, hunseen, rfl⟩ := hsome mem rfl
      refine ⟨hrest.cons (hsound.keeps hs₃.1) ?_, ?_, by simpa [hname] using horder⟩
      · -- the names after it are none of the names seen with it
        intro hmem
        obtain ⟨x, hx, hxname⟩ := List.mem_map.1 hmem
        exact hfresh x hx (by simp [hxname, hname])
      · intro x hx
        rcases List.mem_cons.1 hx with rfl | hx
        · rwa [hname]
        · exact fun hseen => hfresh x hx (List.mem_cons_of_mem _ hseen)

theorem checkExpr_members_step (e : Expr) :
    ⦃fun s => ⌜s.Membered p₀⌝⦄ checkExpr (n + 1) e ⦃⇓ _ s => ⌜s.Membered p₀⌝⦄ := by
  have hinfer := fun e => ih.infer e p₀
  mvcgen [checkExpr, hinfer, setExprType_members, -setExprType_spec]

theorem checkValue_members_step (e : Expr) :
    ⦃fun s => ⌜s.Membered p₀⌝⦄ checkValue (n + 1) e ⦃⇓ _ s => ⌜s.Membered p₀⌝⦄ := by
  have hexpr := fun e => ih.expr e p₀
  mvcgen [checkValue, hexpr, fail_members, -fail_spec]

theorem checkCondition_members_step (e : Expr) :
    ⦃fun s => ⌜s.Membered p₀⌝⦄ checkCondition (n + 1) e ⦃⇓ _ s => ⌜s.Membered p₀⌝⦄ := by
  have hvalue := fun e => ih.value e p₀
  mvcgen [checkCondition, hvalue, fail_members, -fail_spec]

theorem checkValues_members_step (es : List Expr) :
    ⦃fun s => ⌜s.Membered p₀⌝⦄ checkValues (n + 1) es ⦃⇓ _ s => ⌜s.Membered p₀⌝⦄ := by
  have hvalue := fun e => ih.value e p₀
  have hvalues := fun es => ih.values es p₀
  cases es with
  | nil => mvcgen [checkValues]
  | cons e es => mvcgen [checkValues, hvalue, hvalues]

theorem checkSequence_members_step (ty : TypeId) (es : List Expr) :
    ⦃fun s => ⌜s.Membered p₀⌝⦄ checkSequence (n + 1) ty es ⦃⇓ _ s => ⌜s.Membered p₀⌝⦄ := by
  have hexpr := fun e => ih.expr e p₀
  have hsequence := fun ty es => ih.sequence ty es p₀
  cases es with
  | nil => mvcgen [checkSequence]
  | cons e es => mvcgen [checkSequence, hexpr, hsequence]

theorem inferExpr_members_step (e : Expr) :
    ⦃fun s => ⌜s.Membered p₀⌝⦄ inferExpr (n + 1) e ⦃⇓ _ s => ⌜s.Membered p₀⌝⦄ := by
  have htype := fun t => ih.type t p₀
  have hexpr := fun e => ih.expr e p₀
  have hvalue := fun e => ih.value e p₀
  have hcondition := fun e => ih.condition e p₀
  have hvalues := fun es => ih.values es p₀
  have hsequence := fun ty es => ih.sequence ty es p₀
  have hsizeof := fun e => ih.sizeofOperand e p₀
  obtain ⟨id, span, kind⟩ := e
  cases kind <;> mvcgen [inferExpr, htype, hexpr, hvalue, hcondition, hvalues, hsequence,
    hsizeof, nameResult_members, setConst_members, pointer_members, array_members,
    sizeofResult_members, callResult_members, indexResult_members, accessResult_members,
    castResult_members, derefResult_members, addrOfResult_members, unaryResult_members,
    arithResult_members, foldArith_members, condResult_members, ternaryResult_members,
    assignResult_members, fail_members, -nameResult_spec, -setConst_spec, -pointer_spec,
    -array_spec, -sizeofResult_spec, -callResult_spec, -indexResult_spec, -accessResult_spec,
    -castResult_spec, -derefResult_spec, -addrOfResult_spec, -unaryResult_spec,
    -arithResult_spec, -foldArith_spec, -condResult_spec, -ternaryResult_spec,
    -assignResult_spec, -fail_spec]

theorem sizeofTypeOperand_members_step (e : Expr) :
    ⦃fun s => ⌜s.Membered p₀⌝⦄ sizeofTypeOperand (n + 1) e ⦃⇓ _ s => ⌜s.Membered p₀⌝⦄ := by
  have hsymbolType := fun sym => ih.symbolType sym p₀
  have hsizeof := fun e => ih.sizeofOperand e p₀
  obtain ⟨id, span, kind⟩ := e
  cases kind <;> mvcgen [sizeofTypeOperand, hsymbolType, hsizeof, bind_members,
    pointer_members, setExprType_members, -bind_spec, -pointer_spec, -setExprType_spec]

theorem checkInit_members_step (init : Expr) (ty : TypeId) :
    ⦃fun s => ⌜s.Membered p₀⌝⦄ checkInit (n + 1) init ty ⦃⇓ _ s => ⌜s.Membered p₀⌝⦄ := by
  have hexpr := fun e => ih.expr e p₀
  have hvalue := fun e => ih.value e p₀
  have harrayInit := fun elements ty span => ih.arrayInit elements ty span p₀
  have hrecordInit := fun kind fields ty span => ih.recordInit kind fields ty span p₀
  mvcgen [checkInit, hexpr, hvalue, harrayInit, hrecordInit, setExprType_members,
    stringInitResult_members, checkAssignable_members, -setExprType_spec,
    -stringInitResult_spec, -checkAssignable_spec]

theorem checkArrayInit_members_step (elements : List Expr) (ty : TypeId) (span : Span) :
    ⦃fun s => ⌜s.Membered p₀⌝⦄ checkArrayInit (n + 1) elements ty span
    ⦃⇓ _ s => ⌜s.Membered p₀⌝⦄ := by
  have hinits := fun es ty => ih.inits es ty p₀
  mvcgen [checkArrayInit, hinits, arrayInitResult_members, fail_members,
    -arrayInitResult_spec, -fail_spec]

theorem checkInits_members_step (es : List Expr) (ty : TypeId) :
    ⦃fun s => ⌜s.Membered p₀⌝⦄ checkInits (n + 1) es ty ⦃⇓ _ s => ⌜s.Membered p₀⌝⦄ := by
  have hinit := fun init ty => ih.init init ty p₀
  have hinits := fun es ty => ih.inits es ty p₀
  cases es with
  | nil => mvcgen [checkInits]
  | cons e es => mvcgen [checkInits, hinit, hinits]

theorem checkRecordInit_members_step (kind : RecordKind) (fields : List FieldInit) (ty : TypeId)
    (span : Span) :
    ⦃fun s => ⌜s.Membered p₀⌝⦄ checkRecordInit (n + 1) kind fields ty span
    ⦃⇓ _ s => ⌜s.Membered p₀⌝⦄ := by
  have hinits := fun es ty => ih.inits es ty p₀
  have hfields := fun rid ty fs => ih.fields rid ty fs p₀
  have hfail := fail_members p₀
  mvcgen [checkRecordInit, hinits, hfields, hfail, -fail_spec]

theorem checkFields_members_step (rid : Nat) (ty : TypeId) (fs : List FieldInit) :
    ⦃fun s => ⌜s.Membered p₀⌝⦄ checkFields (n + 1) rid ty fs ⦃⇓ _ s => ⌜s.Membered p₀⌝⦄ := by
  have hinit := fun init ty => ih.init init ty p₀
  have hfields := fun rid ty fs => ih.fields rid ty fs p₀
  have hfail := fail_members p₀
  cases fs with
  | nil => mvcgen [checkFields]
  | cons f fs => mvcgen [checkFields, hinit, hfields, hfail, -fail_spec]

end Step

/-- The typing functions keep the members sound at every fuel. -/
theorem membersKept (fuel : Nat) : MembersKept fuel := by
  induction fuel with
  | zero => exact membersKept_zero
  | succ n ih =>
    exact
      { type := fun t p₀ => resolveType_members_step ih p₀ t
        params := fun ps p₀ => resolveParams_members_step ih p₀ ps
        typeName := fun name span p₀ => resolveTypeName_members_step ih p₀ name span
        symbolType := fun sym p₀ => typeSymbolType_members_step ih p₀ sym
        typeDecl := fun declId sym p₀ => ensureTypeDecl_members_step ih p₀ declId sym
        record := fun node kind name members binding p₀ =>
          defineRecord_members_step ih p₀ node kind name members binding
        members := fun seen ms p₀ => resolveMembers_members_step ih p₀ seen ms
        expr := fun e p₀ => checkExpr_members_step ih p₀ e
        value := fun e p₀ => checkValue_members_step ih p₀ e
        condition := fun e p₀ => checkCondition_members_step ih p₀ e
        values := fun es p₀ => checkValues_members_step ih p₀ es
        sequence := fun ty es p₀ => checkSequence_members_step ih p₀ ty es
        infer := fun e p₀ => inferExpr_members_step ih p₀ e
        sizeofOperand := fun e p₀ => sizeofTypeOperand_members_step ih p₀ e
        init := fun init ty p₀ => checkInit_members_step ih p₀ init ty
        arrayInit := fun elements ty span p₀ => checkArrayInit_members_step ih p₀ elements ty span
        inits := fun es ty p₀ => checkInits_members_step ih p₀ es ty
        recordInit := fun kind fields ty span p₀ =>
          checkRecordInit_members_step ih p₀ kind fields ty span
        fields := fun rid ty fs p₀ => checkFields_members_step ih p₀ rid ty fs }

end Check

end SolarFront
