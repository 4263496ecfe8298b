import SolarFront.Proofs.Check.MembersTyping
import SolarFront.Compilation

/-!
# Checked records have sound members

Declarations, statements, bodies and the three passes keep `CheckState.Membered`, since
everything they do to the pool goes through the typing block and the layout engine. A module
starts with no record, so after it is checked every record has sound members: pairwise distinct
names, no `void` type, and a bit width only on an integer type and within its width
(`Module.check_records_well_membered`). The shapes the layout engine reads off such members
satisfy the precondition of `structLayout`.
-/

set_option autoImplicit false
set_option linter.all false
set_option mvcgen.warning false

namespace SolarFront

namespace Check

open Std.Do CheckM CheckState TypePool

/-! ## With the module's budget -/

section Entry

variable (p₀ : TypePool)

theorem typeOfNode_members (t : TypeExpr) :
    ⦃fun s => ⌜s.Membered p₀⌝⦄ typeOfNode t ⦃⇓ _ s => ⌜s.Membered p₀⌝⦄ := by
  have htype := fun fuel => (membersKept fuel).type t p₀
  mvcgen [typeOfNode, htype, -typeOfNode_spec]

theorem typeOfExpr_members (e : Expr) :
    ⦃fun s => ⌜s.Membered p₀⌝⦄ typeOfExpr e ⦃⇓ _ s => ⌜s.Membered p₀⌝⦄ := by
  have hexpr := fun fuel => (membersKept fuel).expr e p₀
  mvcgen [typeOfExpr, hexpr, -typeOfExpr_spec]

theorem typeOfValue_members (e : Expr) :
    ⦃fun s => ⌜s.Membered p₀⌝⦄ typeOfValue e ⦃⇓ _ s => ⌜s.Membered p₀⌝⦄ := by
  have hvalue := fun fuel => (membersKept fuel).value e p₀
  mvcgen [typeOfValue, hvalue, -typeOfValue_spec]

theorem typeOfCondition_members (e : Expr) :
    ⦃fun s => ⌜s.Membered p₀⌝⦄ typeOfCondition e ⦃⇓ _ s => ⌜s.Membered p₀⌝⦄ := by
  have hcondition := fun fuel => (membersKept fuel).condition e p₀
  mvcgen [typeOfCondition, hcondition, -typeOfCondition_spec]

theorem typeOfInit_members (e : Expr) (ty : TypeId) :
    ⦃fun s => ⌜s.Membered p₀⌝⦄ typeOfInit e ty ⦃⇓ _ s => ⌜s.Membered p₀⌝⦄ := by
  have hinit := fun fuel => (membersKept fuel).init e ty p₀
  mvcgen [typeOfInit, hinit, -typeOfInit_spec]

theorem declareRecord_members (node : TypeExpr) (kind : RecordKind) (name : Option String)
    (members : List MemberDecl) (binding : Option Nat) :
    ⦃fun s => ⌜s.Membered p₀⌝⦄ declareRecord node kind name members binding
    ⦃⇓ _ s => ⌜s.Membered p₀⌝⦄ := by
  have hrecord := fun fuel => (membersKept fuel).record node kind name members binding p₀
  mvcgen [declareRecord, hrecord, -declareRecord_spec]

theorem resolveTypeDecl_members (declId sym : Nat) :
    ⦃fun s => ⌜s.Membered p₀⌝⦄ resolveTypeDecl declId sym ⦃⇓ _ s => ⌜s.Membered p₀⌝⦄ := by
  have htypeDecl := fun fuel => (membersKept fuel).typeDecl declId sym p₀
  mvcgen [resolveTypeDecl, htypeDecl, -resolveTypeDecl_spec]

end Entry

/-! ## Declarations -/

section Decls

variable (p₀ : TypePool)

theorem declareSymbol_members (sym : Symbol) :
    ⦃fun s => ⌜s.Membered p₀⌝⦄ declareSymbol sym ⦃⇓ _ s => ⌜s.Membered p₀⌝⦄ := by
  mvcgen [declareSymbol, report_members, -declareSymbol_spec, -report_spec]

theorem bindDecl_members (d : Decl) (sym : Symbol) :
    ⦃fun s => ⌜s.Membered p₀⌝⦄ bindDecl d sym ⦃⇓ _ s => ⌜s.Membered p₀⌝⦄ := by
  mvcgen [bindDecl, declareSymbol_members, -bindDecl_spec, -declareSymbol_spec]

theorem bindGlobalType_members (d : Decl) :
    ⦃fun s => ⌜s.Membered p₀⌝⦄ bindGlobalType d ⦃⇓ _ s => ⌜s.Membered p₀⌝⦄ := by
  mvcgen [bindGlobalType, bindDecl_members, setTypeDeclState_members, -bindGlobalType_spec,
    -bindDecl_spec, -setTypeDeclState_spec]

theorem checkVar_members (d : Decl) (value : Option Expr) (isStatic : Bool) :
    ⦃fun s => ⌜s.Membered p₀⌝⦄ checkVar d value isStatic ⦃⇓ _ s => ⌜s.Membered p₀⌝⦄ := by
  mvcgen [checkVar, constantInitCheck, typeOfNode_members, typeOfInit_members, fail_members,
    bindDecl_members, setDeclType_members, -checkVar_spec, -typeOfNode_spec, -typeOfInit_spec,
    -fail_spec, -bindDecl_spec, -setDeclType_spec]

theorem checkConst_members (d : Decl) (value : Expr) (isStatic : Bool) :
    ⦃fun s => ⌜s.Membered p₀⌝⦄ checkConst d value isStatic ⦃⇓ _ s => ⌜s.Membered p₀⌝⦄ := by
  mvcgen [checkConst, constValue, typeOfNode_members, typeOfValue_members, fail_members,
    checkAssignable_members, bindDecl_members, setDeclType_members, -checkConst_spec,
    -typeOfNode_spec, -typeOfValue_spec, -fail_spec, -checkAssignable_spec, -bindDecl_spec,
    -setDeclType_spec]

theorem checkFuncDecl_members (d : Decl) (hasBody isStatic isInline : Bool) :
    ⦃fun s => ⌜s.Membered p₀⌝⦄ checkFuncDecl d hasBody isStatic isInline
    ⦃⇓ _ s => ⌜s.Membered p₀⌝⦄ := by
  mvcgen [checkFuncDecl, typeOfNode_members, fail_members, bindDecl_members,
    setDeclType_members, -checkFuncDecl_spec, -typeOfNode_spec, -fail_spec, -bindDecl_spec,
    -setDeclType_spec]

theorem defineLocalType_members (d : Decl) :
    ⦃fun s => ⌜s.Membered p₀⌝⦄ defineLocalType d ⦃⇓ _ s => ⌜s.Membered p₀⌝⦄ := by
  mvcgen [defineLocalType, bindDecl_members, declareRecord_members, typeOfNode_members,
    setDeclType_members, -defineLocalType_spec, -bindDecl_spec, -declareRecord_spec,
    -typeOfNode_spec, -setDeclType_spec]

theorem checkDecl_members (d : Decl) :
    ⦃fun s => ⌜s.Membered p₀⌝⦄ checkDecl d ⦃⇓ _ s => ⌜s.Membered p₀⌝⦄ := by
  mvcgen [checkDecl, checkVar_members, checkConst_members, checkFuncDecl_members,
    resolveTypeDecl_members, -checkDecl_spec, -checkVar_spec, -checkConst_spec,
    -checkFuncDecl_spec, -resolveTypeDecl_spec]

theorem checkLocalDecl_members (d : Decl) :
    ⦃fun s => ⌜s.Membered p₀⌝⦄ checkLocalDecl d ⦃⇓ _ s => ⌜s.Membered p₀⌝⦄ := by
  mvcgen [checkLocalDecl, checkVar_members, checkConst_members, defineLocalType_members,
    -checkLocalDecl_spec, -checkVar_spec, -checkConst_spec, -defineLocalType_spec]

end Decls

/-! ## Statements and bodies -/

section Stmts

variable (p₀ : TypePool)

theorem pushTarget_members (id : Nat) (span : Span) (kind : TargetKind) (label : Option Label) :
    ⦃fun s => ⌜s.Membered p₀⌝⦄ pushTarget id span kind label ⦃⇓ _ s => ⌜s.Membered p₀⌝⦄ := by
  mvcgen [pushTarget, -pushTarget_spec]

theorem popTarget_members :
    ⦃fun s => ⌜s.Membered p₀⌝⦄ popTarget ⦃⇓ _ s => ⌜s.Membered p₀⌝⦄ := by
  mvcgen [popTarget, -popTarget_spec]

theorem pushScope_members :
    ⦃fun s => ⌜s.Membered p₀⌝⦄ pushScope ⦃⇓ _ s => ⌜s.Membered p₀⌝⦄ := by
  mvcgen [pushScope, -pushScope_spec]

theorem popScope_members :
    ⦃fun s => ⌜s.Membered p₀⌝⦄ popScope ⦃⇓ _ s => ⌜s.Membered p₀⌝⦄ := by
  mvcgen [popScope, -popScope_spec]

theorem checkJump_members (id : Nat) (jump : JumpKind) (label : Option Label) (span : Span) :
    ⦃fun s => ⌜s.Membered p₀⌝⦄ checkJump id jump label span ⦃⇓ _ s => ⌜s.Membered p₀⌝⦄ := by
  mvcgen [checkJump, report_members, -checkJump_spec, -report_spec]

theorem checkReturn_members (value : Option Expr) (span : Span) :
    ⦃fun s => ⌜s.Membered p₀⌝⦄ checkReturn value span ⦃⇓ _ s => ⌜s.Membered p₀⌝⦄ := by
  mvcgen [checkReturn, fail_members, typeOfExpr_members, checkAssignable_members,
    -checkReturn_spec, -fail_spec, -typeOfExpr_spec, -checkAssignable_spec]

end Stmts

mutual

/-- Checking a statement keeps the members sound: one case per form of statement, the nested
statements by the same theorem. -/
theorem checkStmt_members (st : Stmt) (p₀ : TypePool) :
    ⦃fun s => ⌜s.Membered p₀⌝⦄ checkStmt st ⦃⇓ _ s => ⌜s.Membered p₀⌝⦄ := by
  have hdecl := checkLocalDecl_members p₀
  have hexpr := typeOfExpr_members p₀
  have hcondition := typeOfCondition_members p₀
  have hpush := pushTarget_members p₀
  have hpop := popTarget_members p₀
  obtain ⟨id, span, kind⟩ := st
  cases kind with
  | block stmts =>
    have hstmts := checkStmts_members stmts p₀
    mvcgen [checkStmt, withScope, hstmts, pushScope_members, popScope_members, -pushScope_spec,
      -popScope_spec]
  | branch label cond thenS elseS =>
    have hthen := checkStmt_members thenS p₀
    cases elseS with
    | none => mvcgen [checkStmt, hthen, hcondition, hpush, hpop, -typeOfCondition_spec,
        -pushTarget_spec, -popTarget_spec]
    | some e =>
      have helse := checkStmt_members e p₀
      mvcgen [checkStmt, hthen, helse, hcondition, hpush, hpop, -typeOfCondition_spec,
        -pushTarget_spec, -popTarget_spec]
  | loop label init cond step body elseS =>
    have hbody := checkStmt_members body p₀
    cases elseS with
    | none => mvcgen [checkStmt, hbody, hexpr, hcondition, hpush, hpop, -typeOfExpr_spec,
        -typeOfCondition_spec, -pushTarget_spec, -popTarget_spec]
    | some e =>
      have helse := checkStmt_members e p₀
      mvcgen [checkStmt, hbody, helse, hexpr, hcondition, hpush, hpop, -typeOfExpr_spec,
        -typeOfCondition_spec, -pushTarget_spec, -popTarget_spec]
  | _ =>
    mvcgen [checkStmt, hdecl, hexpr, checkJump_members, checkReturn_members,
      -checkLocalDecl_spec, -typeOfExpr_spec, -checkJump_spec, -checkReturn_spec]

theorem checkStmts_members (sts : List Stmt) (p₀ : TypePool) :
    ⦃fun s => ⌜s.Membered p₀⌝⦄ checkStmts sts ⦃⇓ _ s => ⌜s.Membered p₀⌝⦄ := by
  cases sts with
  | nil => mvcgen [checkStmts]
  | cons st sts =>
    have hst := checkStmt_members st p₀
    have hsts := checkStmts_members sts p₀
    mvcgen [checkStmts, hst, hsts]

end

section Passes

variable (p₀ : TypePool)

theorem declareParams_members (params : List Param) (types : List TypeId) :
    ⦃fun s => ⌜s.Membered p₀⌝⦄ declareParams params types ⦃⇓ _ s => ⌜s.Membered p₀⌝⦄ := by
  mvcgen [declareParams, declareSymbol_members, -declareParams_spec, -declareSymbol_spec]
    invariants
  · ⇓ _ s => ⌜s.Membered p₀⌝

theorem checkBody_members (d : Decl) (funcTy : TypeId) :
    ⦃fun s => ⌜s.Membered p₀⌝⦄ checkBody d funcTy ⦃⇓ _ s => ⌜s.Membered p₀⌝⦄ := by
  have hstmt := fun st => checkStmt_members st p₀
  have hstmts := fun sts => checkStmts_members sts p₀
  have hreport := report_members p₀
  mvcgen [checkBody, hstmt, hstmts, hreport, declareParams_members, pushScope_members,
    popScope_members, -checkBody_spec, -report_spec, -declareParams_spec, -pushScope_spec,
    -popScope_spec]

theorem layoutAll_members :
    ⦃fun s => ⌜s.Membered p₀⌝⦄ layoutAll ⦃⇓ _ s => ⌜s.Membered p₀⌝⦄ := by
  have hensure := fun fuel => (layout_members fuel p₀).1
  mvcgen [layoutAll, hensure, -layoutAll_spec] invariants
  · ⇓ _ s => ⌜s.Membered p₀⌝

theorem passes_members (m : Module) :
    ⦃fun s => ⌜s.Membered p₀⌝⦄ passes m ⦃⇓ _ s => ⌜s.Membered p₀⌝⦄ := by
  mvcgen [passes, bindGlobalType_members, checkDecl_members, checkBody_members,
    layoutAll_members, -passes_spec, -bindGlobalType_spec, -checkDecl_spec, -checkBody_spec,
    -layoutAll_spec] invariants
  · ⇓ _ s => ⌜s.Membered p₀⌝
  · ⇓ _ s => ⌜s.Membered p₀⌝
  · ⇓ _ s => ⌜s.Membered p₀⌝

end Passes

/-! ## Which members a record keeps -/

/-- The declarations a record keeps, in the order they are written: each one whose name is
neither among `seen` nor the name of an earlier declaration. -/
def firstNamed : List String → List MemberDecl → List MemberDecl
  | _, [] => []
  | seen, d :: ds => if d.name ∈ seen then firstNamed seen ds else d :: firstNamed (d.name :: seen) ds

theorem lookup_isSome_iff_mem {seen : List (String × Span)} {k : String} :
    (seen.lookup k).isSome ↔ k ∈ seen.map Prod.fst := by
  simp only [List.lookup_isSome_iff, List.mem_map, beq_iff_eq]
  constructor <;> rintro ⟨p, hp, h⟩ <;> exact ⟨p, hp, h.symm⟩

/-- Whatever width it is given, the bit-width check runs. -/
theorem checkBitfield_runs (name : String) (ty : TypeId) (bits : Nat) (span : Span) :
    ⦃fun _ => ⌜True⌝⦄ checkBitfield name ty bits span ⦃⇓ _ _ => ⌜True⌝⦄ := by
  mvcgen [checkBitfield, fail, report, -checkBitfield_spec, -fail_spec, -report_spec]

/-- A member is dropped exactly when its name was seen; a kept one has the name and span of its
declaration, and its name joins the names seen. -/
theorem memberResult_keys (seen : List (String × Span)) (m : MemberDecl) (ty : TypeId) :
    ⦃fun _ => ⌜True⌝⦄ memberResult seen m ty
    ⦃⇓ a _ => ⌜if m.name ∈ seen.map Prod.fst then a.1 = none ∧ a.2 = seen
      else (a.1.map fun x => (x.name, x.span)) = some (m.name, m.span) ∧
        a.2 = (m.name, m.span) :: seen⌝⦄ := by
  mvcgen [memberResult, report, fail, checkBitfield_runs, -memberResult_spec, -report_spec,
    -fail_spec, -checkBitfield_spec]
  all_goals simp_all [← lookup_isSome_iff_mem]
  -- a name absent from the names seen is the first component of none of them
  all_goals exact fun _ hx => ‹∀ (a : String) (b : Span), (a, b) ∈ seen → ¬m.name = a› _ _ hx rfl

/-- With a round of fuel for each declaration, the members resolved are the declarations
`firstNamed` keeps, in their order, each with its own name and span. -/
theorem resolveMembers_keys : ∀ (ms : List MemberDecl) (fuel : Nat) (seen : List (String × Span)),
    ms.length < fuel → ∀ s r s', Runs (resolveMembers fuel seen ms) s r s' →
      r.map (fun x => (x.name, x.span)) =
        (firstNamed (seen.map Prod.fst) ms).map fun d => (d.name, d.span)
  | [], fuel, seen, hfuel, s, r, s', h => by
    obtain ⟨f, rfl⟩ : ∃ f, fuel = f + 1 := ⟨fuel - 1, by simp at hfuel; omega⟩
    rw [resolveMembers] at h
    obtain ⟨rfl, -⟩ := h.of_pure
    rfl
  | d :: ds, fuel, seen, hfuel, s, r, s', h => by
    obtain ⟨f, rfl⟩ : ∃ f, fuel = f + 1 := ⟨fuel - 1, by simp at hfuel; omega⟩
    rw [resolveMembers] at h
    obtain ⟨ty, s₁, -, h⟩ := h.of_bind
    obtain ⟨⟨member?, seen'⟩, s₂, h₂, h⟩ := h.of_bind
    obtain ⟨rest, s₃, h₃, h⟩ := h.of_bind
    obtain ⟨rfl, -⟩ := h.of_pure
    have hrest := resolveMembers_keys ds f seen' (by simp at hfuel; omega) _ _ _ h₃
    have hkeys := Runs.of_triple (memberResult_keys seen d ty) h₂ trivial
    by_cases hseen : d.name ∈ seen.map Prod.fst
    · -- a name seen before: the declaration is dropped and the names seen stay
      rw [if_pos hseen] at hkeys
      obtain ⟨rfl, rfl⟩ := hkeys
      simpa [firstNamed, hseen] using hrest
    · -- a new name: the member is kept with its declaration's name and span
      rw [if_neg hseen] at hkeys
      obtain ⟨hm, rfl⟩ := hkeys
      cases member? with
      | none => simp at hm
      | some x =>
        simp only [Option.map_some, Option.some.injEq] at hm
        simpa [firstNamed, hseen, hm] using hrest

end Check

end SolarFront
