import SolarFront.Proofs.Check.Typing

/-!
# Typing never reports that an initial value does not fit

E3006 says that an initial value does not fit its type: a brace list longer than its array, a
string longer than an array of its unit type, or a union initializer that does not name exactly
one member. Only the check of an initial value reports it. The rest of the typing block never
does: resolving types, type names, type declarations, records and their members, and typing
expressions, values, conditions and `sizeof` operands keep the list of such reports
(`CheckState.fitErrors`) as it was, at every fuel (`FitFrame`, `fitFrame`). They keep the
recursion budget too, which only the check of a module sets.

Each rule and pool operation the block calls gets a triple of its own (`_fitErrors`): it reports
only other codes, or nothing. The block is then proved fuel by fuel, as in `Check.TypingSound`.
-/

set_option autoImplicit false
set_option linter.all false
set_option mvcgen.warning false

namespace SolarFront

namespace CheckState

/-- The reports that an initial value does not fit its type (E3006), in the order made. -/
def fitErrors (s : CheckState) : List Diagnostic := s.diagnostics.toList.filter (·.code == .e3006)

end CheckState

namespace Check

open Std.Do CheckM CheckState TypePool

/-! ## The rules report other codes -/

section Rules

variable (L : List Diagnostic) (B : Nat)

theorem report_fitErrors (d : Diagnostic) :
    ⦃fun s => ⌜(s.fitErrors = L ∧ s.budget = B) ∧ d.code ≠ .e3006⌝⦄ report d
    ⦃⇓ _ s => ⌜s.fitErrors = L ∧ s.budget = B⌝⦄ := by
  mvcgen [report, -report_spec]
  simp_all +zetaDelta [fitErrors]

theorem fail_fitErrors (code : Code) (span : Span) (message : String) :
    ⦃fun s => ⌜(s.fitErrors = L ∧ s.budget = B) ∧ code ≠ .e3006⌝⦄ fail code span message
    ⦃⇓ _ s => ⌜s.fitErrors = L ∧ s.budget = B⌝⦄ := by
  mvcgen [fail, report_fitErrors, -fail_spec, -report_spec]

theorem withPool_fitErrors (f : TypePool → TypePool × TypeId) :
    ⦃fun s => ⌜s.fitErrors = L ∧ s.budget = B⌝⦄ withPool f
    ⦃⇓ _ s => ⌜s.fitErrors = L ∧ s.budget = B⌝⦄ := by
  mvcgen [withPool]

theorem pointer_fitErrors (e : TypeId) :
    ⦃fun s => ⌜s.fitErrors = L ∧ s.budget = B⌝⦄ pointer e
    ⦃⇓ _ s => ⌜s.fitErrors = L ∧ s.budget = B⌝⦄ := by
  mvcgen [CheckM.pointer, withPool_fitErrors, -pointer_spec]

theorem array_fitErrors (e : TypeId) (len : Nat) :
    ⦃fun s => ⌜s.fitErrors = L ∧ s.budget = B⌝⦄ array e len
    ⦃⇓ _ s => ⌜s.fitErrors = L ∧ s.budget = B⌝⦄ := by
  mvcgen [CheckM.array, withPool_fitErrors, -array_spec]

theorem func_fitErrors (ret : TypeId) (params : List TypeId) (variadic : Bool) :
    ⦃fun s => ⌜s.fitErrors = L ∧ s.budget = B⌝⦄ func ret params variadic
    ⦃⇓ _ s => ⌜s.fitErrors = L ∧ s.budget = B⌝⦄ := by
  mvcgen [CheckM.func, withPool_fitErrors, -func_spec]

theorem decay_fitErrors (ty : TypeId) :
    ⦃fun s => ⌜s.fitErrors = L ∧ s.budget = B⌝⦄ decay ty
    ⦃⇓ _ s => ⌜s.fitErrors = L ∧ s.budget = B⌝⦄ := by
  mvcgen [CheckM.decay, withPool_fitErrors, -CheckM.decay_spec]

theorem setExprType_fitErrors (i : Nat) (ty : TypeId) :
    ⦃fun s => ⌜s.fitErrors = L ∧ s.budget = B⌝⦄ setExprType i ty
    ⦃⇓ _ s => ⌜s.fitErrors = L ∧ s.budget = B⌝⦄ := by
  mvcgen [setExprType, -setExprType_spec]

theorem setTypeNode_fitErrors (i : Nat) (ty : TypeId) :
    ⦃fun s => ⌜s.fitErrors = L ∧ s.budget = B⌝⦄ setTypeNode i ty
    ⦃⇓ _ s => ⌜s.fitErrors = L ∧ s.budget = B⌝⦄ := by
  mvcgen [setTypeNode, -setTypeNode_spec]

theorem setConst_fitErrors (i : Nat) (v : Option Nat) :
    ⦃fun s => ⌜s.fitErrors = L ∧ s.budget = B⌝⦄ setConst i v
    ⦃⇓ _ s => ⌜s.fitErrors = L ∧ s.budget = B⌝⦄ := by
  cases v <;> mvcgen [setConst, -setConst_spec]

theorem bind_fitErrors (i sym : Nat) :
    ⦃fun s => ⌜s.fitErrors = L ∧ s.budget = B⌝⦄ bind i sym
    ⦃⇓ _ s => ⌜s.fitErrors = L ∧ s.budget = B⌝⦄ := by
  mvcgen [CheckM.bind, -bind_spec]

theorem modifySymbol_fitErrors (i : Nat) (f : Symbol → Symbol) :
    ⦃fun s => ⌜s.fitErrors = L ∧ s.budget = B⌝⦄ modifySymbol i f
    ⦃⇓ _ s => ⌜s.fitErrors = L ∧ s.budget = B⌝⦄ := by
  mvcgen [modifySymbol, -modifySymbol_spec]

theorem setLayout_fitErrors (rid : Nat) (st : LayoutState) :
    ⦃fun s => ⌜s.fitErrors = L ∧ s.budget = B⌝⦄ setLayout rid st
    ⦃⇓ _ s => ⌜s.fitErrors = L ∧ s.budget = B⌝⦄ := by
  mvcgen [setLayout]

theorem setTypeDeclState_fitErrors (d : Decl) (st : TypeDeclState) :
    ⦃fun s => ⌜s.fitErrors = L ∧ s.budget = B⌝⦄ setTypeDeclState d st
    ⦃⇓ _ s => ⌜s.fitErrors = L ∧ s.budget = B⌝⦄ := by
  mvcgen [setTypeDeclState, -setTypeDeclState_spec]

theorem widenRight_fitErrors (right : Expr) (lt rt : TypeId) :
    ⦃fun s => ⌜s.fitErrors = L ∧ s.budget = B⌝⦄ widenRight right lt rt
    ⦃⇓ _ s => ⌜s.fitErrors = L ∧ s.budget = B⌝⦄ := by
  mvcgen [widenRight, decay_fitErrors, -widenRight_spec, -CheckM.decay_spec]
  all_goals simp_all +zetaDelta [fitErrors]

theorem checkAssignable_fitErrors (found expected : TypeId) (span : Span) (context : String) :
    ⦃fun s => ⌜s.fitErrors = L ∧ s.budget = B⌝⦄ checkAssignable found expected span context
    ⦃⇓ _ s => ⌜s.fitErrors = L ∧ s.budget = B⌝⦄ := by
  mvcgen [checkAssignable, fail_fitErrors, report_fitErrors, -checkAssignable_spec, -fail_spec,
    -report_spec]
  all_goals simp_all +zetaDelta [fitErrors]

theorem checkCast_fitErrors (source target : TypeId) (signed : Bool) (span : Span) :
    ⦃fun s => ⌜s.fitErrors = L ∧ s.budget = B⌝⦄ checkCast source target signed span
    ⦃⇓ _ s => ⌜s.fitErrors = L ∧ s.budget = B⌝⦄ := by
  mvcgen [checkCast, fail_fitErrors, report_fitErrors, -checkCast_spec, -fail_spec, -report_spec]
  all_goals simp_all +zetaDelta [fitErrors, apply_ite Diagnostic.code]

theorem arithResult_fitErrors (op : BinaryOp) (lt rt : TypeId) (right : Expr) (span : Span) :
    ⦃fun s => ⌜s.fitErrors = L ∧ s.budget = B⌝⦄ arithResult op lt rt right span
    ⦃⇓ _ s => ⌜s.fitErrors = L ∧ s.budget = B⌝⦄ := by
  mvcgen [arithResult, widenRight_fitErrors, report_fitErrors, -arithResult_spec,
    -widenRight_spec, -report_spec]
  all_goals simp_all +zetaDelta [fitErrors]

theorem foldArith_fitErrors (id : Nat) (op : BinaryOp) (left right : Expr) (ty : TypeId) :
    ⦃fun s => ⌜s.fitErrors = L ∧ s.budget = B⌝⦄ foldArith id op left right ty
    ⦃⇓ _ s => ⌜s.fitErrors = L ∧ s.budget = B⌝⦄ := by
  mvcgen [foldArith, setConst_fitErrors, -foldArith_spec, -setConst_spec]

theorem condResult_fitErrors (id : Nat) (op : CondOp) (left right : Expr) (lt rt : TypeId)
    (span : Span) :
    ⦃fun s => ⌜s.fitErrors = L ∧ s.budget = B⌝⦄ condResult id op left right lt rt span
    ⦃⇓ _ s => ⌜s.fitErrors = L ∧ s.budget = B⌝⦄ := by
  mvcgen [condResult, report_fitErrors, setConst_fitErrors, widenRight_fitErrors,
    -condResult_spec, -report_spec, -setConst_spec, -widenRight_spec]
  all_goals simp_all +zetaDelta [fitErrors]

theorem ternaryResult_fitErrors (id : Nat) (cond thenE elseE : Expr) (thenTy elseTy : TypeId) :
    ⦃fun s => ⌜s.fitErrors = L ∧ s.budget = B⌝⦄ ternaryResult id cond thenE elseE thenTy elseTy
    ⦃⇓ _ s => ⌜s.fitErrors = L ∧ s.budget = B⌝⦄ := by
  mvcgen [ternaryResult, report_fitErrors, setConst_fitErrors, decay_fitErrors,
    -ternaryResult_spec, -report_spec, -setConst_spec, -CheckM.decay_spec]
  all_goals simp_all +zetaDelta [fitErrors]

theorem callResult_fitErrors (func : Expr) (args : List Expr) (callee : TypeId)
    (argTypes : List TypeId) :
    ⦃fun s => ⌜s.fitErrors = L ∧ s.budget = B⌝⦄ callResult func args callee argTypes
    ⦃⇓ _ s => ⌜s.fitErrors = L ∧ s.budget = B⌝⦄ := by
  mvcgen [callResult, fail_fitErrors, checkAssignable_fitErrors, -callResult_spec, -fail_spec,
    -checkAssignable_spec] invariants
  · ⇓ _ s => ⌜s.fitErrors = L ∧ s.budget = B⌝
  · ⇓ _ s => ⌜s.fitErrors = L ∧ s.budget = B⌝
  all_goals simp_all +zetaDelta [fitErrors]

theorem indexResult_fitErrors (array index : Expr) (base indexTy : TypeId) :
    ⦃fun s => ⌜s.fitErrors = L ∧ s.budget = B⌝⦄ indexResult array index base indexTy
    ⦃⇓ _ s => ⌜s.fitErrors = L ∧ s.budget = B⌝⦄ := by
  mvcgen [indexResult, fail_fitErrors, -indexResult_spec, -fail_spec]
  all_goals simp_all +zetaDelta [fitErrors]

theorem accessResult_fitErrors (ty : TypeId) (member : String) (memberSpan : Span) :
    ⦃fun s => ⌜s.fitErrors = L ∧ s.budget = B⌝⦄ accessResult ty member memberSpan
    ⦃⇓ _ s => ⌜s.fitErrors = L ∧ s.budget = B⌝⦄ := by
  mvcgen [accessResult, fail_fitErrors, -accessResult_spec, -fail_spec]
  all_goals simp_all +zetaDelta [fitErrors]

theorem castResult_fitErrors (id : Nat) (inner : Expr) (source target : TypeId) (signed : Bool)
    (span : Span) :
    ⦃fun s => ⌜s.fitErrors = L ∧ s.budget = B⌝⦄ castResult id inner source target signed span
    ⦃⇓ _ s => ⌜s.fitErrors = L ∧ s.budget = B⌝⦄ := by
  mvcgen [castResult, checkCast_fitErrors, setConst_fitErrors, -castResult_spec, -checkCast_spec,
    -setConst_spec]
  all_goals simp_all +zetaDelta [fitErrors]

theorem derefResult_fitErrors (inner : Expr) (ty : TypeId) :
    ⦃fun s => ⌜s.fitErrors = L ∧ s.budget = B⌝⦄ derefResult inner ty
    ⦃⇓ _ s => ⌜s.fitErrors = L ∧ s.budget = B⌝⦄ := by
  mvcgen [derefResult, fail_fitErrors, -derefResult_spec, -fail_spec]
  all_goals simp_all +zetaDelta [fitErrors]

theorem addrOfResult_fitErrors (inner : Expr) (ty : TypeId) :
    ⦃fun s => ⌜s.fitErrors = L ∧ s.budget = B⌝⦄ addrOfResult inner ty
    ⦃⇓ _ s => ⌜s.fitErrors = L ∧ s.budget = B⌝⦄ := by
  mvcgen [addrOfResult, fail_fitErrors, pointer_fitErrors, -addrOfResult_spec, -fail_spec,
    -pointer_spec]
  all_goals simp_all +zetaDelta [fitErrors]

theorem unaryResult_fitErrors (id : Nat) (op : UnaryOp) (operand : Expr) (ty : TypeId)
    (span : Span) :
    ⦃fun s => ⌜s.fitErrors = L ∧ s.budget = B⌝⦄ unaryResult id op operand ty span
    ⦃⇓ _ s => ⌜s.fitErrors = L ∧ s.budget = B⌝⦄ := by
  mvcgen [unaryResult, fail_fitErrors, setConst_fitErrors, -unaryResult_spec, -fail_spec,
    -setConst_spec]
  all_goals simp_all +zetaDelta [fitErrors]

theorem assignResult_fitErrors (op : Option BinaryOp) (target value : Expr)
    (targetTy valueTy : TypeId) (span : Span) :
    ⦃fun s => ⌜s.fitErrors = L ∧ s.budget = B⌝⦄ assignResult op target value targetTy valueTy span
    ⦃⇓ _ s => ⌜s.fitErrors = L ∧ s.budget = B⌝⦄ := by
  mvcgen [assignResult, fail_fitErrors, arithResult_fitErrors, checkAssignable_fitErrors,
    -assignResult_spec, -fail_spec, -arithResult_spec, -checkAssignable_spec]
  all_goals simp_all +zetaDelta [fitErrors]

theorem nameResult_fitErrors (id : Nat) (name : String) (span : Span) :
    ⦃fun s => ⌜s.fitErrors = L ∧ s.budget = B⌝⦄ nameResult id name span
    ⦃⇓ _ s => ⌜s.fitErrors = L ∧ s.budget = B⌝⦄ := by
  mvcgen [nameResult, report_fitErrors, fail_fitErrors, bind_fitErrors, setConst_fitErrors,
    -nameResult_spec, -report_spec, -fail_spec, -bind_spec, -setConst_spec]
  all_goals simp_all +zetaDelta [fitErrors]

theorem checkBitfield_fitErrors (name : String) (ty : TypeId) (bits : Nat) (span : Span) :
    ⦃fun s => ⌜s.fitErrors = L ∧ s.budget = B⌝⦄ checkBitfield name ty bits span
    ⦃⇓ _ s => ⌜s.fitErrors = L ∧ s.budget = B⌝⦄ := by
  mvcgen [checkBitfield, fail_fitErrors, -checkBitfield_spec, -fail_spec]
  all_goals simp_all +zetaDelta [fitErrors]

theorem memberResult_fitErrors (seen : List (String × Span)) (m : MemberDecl) (ty : TypeId) :
    ⦃fun s => ⌜s.fitErrors = L ∧ s.budget = B⌝⦄ memberResult seen m ty
    ⦃⇓ _ s => ⌜s.fitErrors = L ∧ s.budget = B⌝⦄ := by
  mvcgen [memberResult, report_fitErrors, fail_fitErrors, checkBitfield_fitErrors,
    -memberResult_spec, -report_spec, -fail_spec, -checkBitfield_spec]
  all_goals simp_all +zetaDelta [fitErrors]

theorem paramType_fitErrors (param : TypeExpr) (ty : TypeId) :
    ⦃fun s => ⌜s.fitErrors = L ∧ s.budget = B⌝⦄ paramType param ty
    ⦃⇓ _ s => ⌜s.fitErrors = L ∧ s.budget = B⌝⦄ := by
  mvcgen [paramType, fail_fitErrors, -paramType_spec, -fail_spec]
  all_goals simp_all +zetaDelta [fitErrors]

theorem sizedArrayResult_fitErrors (elem : TypeId) (size : Expr) (sizeTy : TypeId) :
    ⦃fun s => ⌜s.fitErrors = L ∧ s.budget = B⌝⦄ sizedArrayResult elem size sizeTy
    ⦃⇓ _ s => ⌜s.fitErrors = L ∧ s.budget = B⌝⦄ := by
  mvcgen [sizedArrayResult, fail_fitErrors, array_fitErrors, -sizedArrayResult_spec, -fail_spec,
    -array_spec]
  all_goals simp_all +zetaDelta [fitErrors]

theorem openRecord_fitErrors (node : TypeExpr) (kind : RecordKind) (name : Option String)
    (binding : Option Nat) :
    ⦃fun s => ⌜s.fitErrors = L ∧ s.budget = B⌝⦄ openRecord node kind name binding
    ⦃⇓ _ s => ⌜s.fitErrors = L ∧ s.budget = B⌝⦄ := by
  mvcgen [openRecord, setTypeNode_fitErrors, modifySymbol_fitErrors, setLayout_fitErrors,
    -openRecord_spec, -setTypeNode_spec, -modifySymbol_spec]
  all_goals simp_all +zetaDelta [fitErrors]

theorem closeRecord_fitErrors (rid : Nat) (ms : List Member) :
    ⦃fun s => ⌜s.fitErrors = L ∧ s.budget = B⌝⦄ closeRecord rid ms
    ⦃⇓ _ s => ⌜s.fitErrors = L ∧ s.budget = B⌝⦄ := by
  mvcgen [closeRecord, setLayout_fitErrors, -closeRecord_spec]

theorem setDeclType_fitErrors (i : Nat) (ty : TypeId) :
    ⦃fun s => ⌜s.fitErrors = L ∧ s.budget = B⌝⦄ setDeclType i ty
    ⦃⇓ _ s => ⌜s.fitErrors = L ∧ s.budget = B⌝⦄ := by
  mvcgen [setDeclType, -setDeclType_spec]

end Rules

/-- The layout engine reports only records that contain themselves, at any fuel. -/
theorem layout_fitErrors (fuel : Nat) :
    (∀ (rid : Nat) (L : List Diagnostic) (B : Nat),
      ⦃fun s => ⌜s.fitErrors = L ∧ s.budget = B⌝⦄ ensureLayout fuel rid
      ⦃⇓ _ s => ⌜s.fitErrors = L ∧ s.budget = B⌝⦄) ∧
    (∀ (ty : TypeId) (L : List Diagnostic) (B : Nat),
      ⦃fun s => ⌜s.fitErrors = L ∧ s.budget = B⌝⦄ sizeAlignOf fuel ty
      ⦃⇓ _ s => ⌜s.fitErrors = L ∧ s.budget = B⌝⦄) ∧
    (∀ (ms : List Member) (L : List Diagnostic) (B : Nat),
      ⦃fun s => ⌜s.fitErrors = L ∧ s.budget = B⌝⦄
      shapeMembers fuel ms ⦃⇓ _ s => ⌜s.fitErrors = L ∧ s.budget = B⌝⦄) := by
  induction fuel with
  | zero =>
    refine ⟨fun _ _ _ => ?_, fun _ _ _ => ?_, fun _ _ _ => ?_⟩ <;>
      mvcgen [ensureLayout, sizeAlignOf, shapeMembers]
  | succ n ih =>
    obtain ⟨hensure, hsize, hshape⟩ := ih
    refine ⟨fun rid L B => ?_, fun ty L B => ?_, fun ms L B => ?_⟩
    · mvcgen [ensureLayout, hshape, report_fitErrors, setLayout_fitErrors, -report_spec]
      all_goals simp_all +zetaDelta [fitErrors]
    · mvcgen [sizeAlignOf, hensure, hsize]
      all_goals simp_all
    · cases ms with
      | nil => mvcgen [shapeMembers]
      | cons m ms =>
        mvcgen [shapeMembers, hsize, hshape]
        all_goals simp_all

theorem sizeAlign_fitErrors (ty : TypeId) (L : List Diagnostic) (B : Nat) :
    ⦃fun s => ⌜s.fitErrors = L ∧ s.budget = B⌝⦄ sizeAlign ty
    ⦃⇓ _ s => ⌜s.fitErrors = L ∧ s.budget = B⌝⦄ := by
  have hsize := fun fuel => (layout_fitErrors fuel).2.1 ty L B
  mvcgen [sizeAlign, hsize, -sizeAlign_spec]

theorem sizeofResult_fitErrors (id : Nat) (ty : TypeId) (span : Span)
    (L : List Diagnostic) (B : Nat) :
    ⦃fun s => ⌜s.fitErrors = L ∧ s.budget = B⌝⦄ sizeofResult id ty span
    ⦃⇓ _ s => ⌜s.fitErrors = L ∧ s.budget = B⌝⦄ := by
  mvcgen [sizeofResult, sizeAlign_fitErrors, fail_fitErrors, setConst_fitErrors,
    -sizeofResult_spec, -sizeAlign_spec, -fail_spec, -setConst_spec]
  all_goals simp_all +zetaDelta [fitErrors]

/-! ## The typing block, fuel by fuel -/

/-- Every function of the typing block but the checks of initial values keeps the reports that
an initial value does not fit, and the budget, at this fuel. -/
structure FitFrame (fuel : Nat) : Prop where
  type : ∀ (t : TypeExpr) (L : List Diagnostic) (B : Nat),
    ⦃fun s => ⌜s.fitErrors = L ∧ s.budget = B⌝⦄ resolveType fuel t
    ⦃⇓ _ s => ⌜s.fitErrors = L ∧ s.budget = B⌝⦄
  params : ∀ (ps : List TypeExpr) (L : List Diagnostic) (B : Nat),
    ⦃fun s => ⌜s.fitErrors = L ∧ s.budget = B⌝⦄ resolveParams fuel ps
    ⦃⇓ _ s => ⌜s.fitErrors = L ∧ s.budget = B⌝⦄
  typeName : ∀ (name : String) (span : Span) (L : List Diagnostic) (B : Nat),
    ⦃fun s => ⌜s.fitErrors = L ∧ s.budget = B⌝⦄ resolveTypeName fuel name span
    ⦃⇓ _ s => ⌜s.fitErrors = L ∧ s.budget = B⌝⦄
  symbolType : ∀ (sym : Nat) (L : List Diagnostic) (B : Nat),
    ⦃fun s => ⌜s.fitErrors = L ∧ s.budget = B⌝⦄ typeSymbolType fuel sym
    ⦃⇓ _ s => ⌜s.fitErrors = L ∧ s.budget = B⌝⦄
  typeDecl : ∀ (declId sym : Nat) (L : List Diagnostic) (B : Nat),
    ⦃fun s => ⌜s.fitErrors = L ∧ s.budget = B⌝⦄ ensureTypeDecl fuel declId sym
    ⦃⇓ _ s => ⌜s.fitErrors = L ∧ s.budget = B⌝⦄
  record : ∀ (node : TypeExpr) (kind : RecordKind) (name : Option String)
      (members : List MemberDecl) (binding : Option Nat) (L : List Diagnostic) (B : Nat),
    ⦃fun s => ⌜s.fitErrors = L ∧ s.budget = B⌝⦄ defineRecord fuel node kind name members binding
    ⦃⇓ _ s => ⌜s.fitErrors = L ∧ s.budget = B⌝⦄
  members : ∀ (seen : List (String × Span)) (ms : List MemberDecl) (L : List Diagnostic) (B : Nat),
    ⦃fun s => ⌜s.fitErrors = L ∧ s.budget = B⌝⦄ resolveMembers fuel seen ms
    ⦃⇓ _ s => ⌜s.fitErrors = L ∧ s.budget = B⌝⦄
  expr : ∀ (e : Expr) (L : List Diagnostic) (B : Nat),
    ⦃fun s => ⌜s.fitErrors = L ∧ s.budget = B⌝⦄ checkExpr fuel e
    ⦃⇓ _ s => ⌜s.fitErrors = L ∧ s.budget = B⌝⦄
  value : ∀ (e : Expr) (L : List Diagnostic) (B : Nat),
    ⦃fun s => ⌜s.fitErrors = L ∧ s.budget = B⌝⦄ checkValue fuel e
    ⦃⇓ _ s => ⌜s.fitErrors = L ∧ s.budget = B⌝⦄
  condition : ∀ (e : Expr) (L : List Diagnostic) (B : Nat),
    ⦃fun s => ⌜s.fitErrors = L ∧ s.budget = B⌝⦄ checkCondition fuel e
    ⦃⇓ _ s => ⌜s.fitErrors = L ∧ s.budget = B⌝⦄
  values : ∀ (es : List Expr) (L : List Diagnostic) (B : Nat),
    ⦃fun s => ⌜s.fitErrors = L ∧ s.budget = B⌝⦄ checkValues fuel es
    ⦃⇓ _ s => ⌜s.fitErrors = L ∧ s.budget = B⌝⦄
  sequence : ∀ (ty : TypeId) (es : List Expr) (L : List Diagnostic) (B : Nat),
    ⦃fun s => ⌜s.fitErrors = L ∧ s.budget = B⌝⦄ checkSequence fuel ty es
    ⦃⇓ _ s => ⌜s.fitErrors = L ∧ s.budget = B⌝⦄
  infer : ∀ (e : Expr) (L : List Diagnostic) (B : Nat),
    ⦃fun s => ⌜s.fitErrors = L ∧ s.budget = B⌝⦄ inferExpr fuel e
    ⦃⇓ _ s => ⌜s.fitErrors = L ∧ s.budget = B⌝⦄
  sizeofOperand : ∀ (e : Expr) (L : List Diagnostic) (B : Nat),
    ⦃fun s => ⌜s.fitErrors = L ∧ s.budget = B⌝⦄ sizeofTypeOperand fuel e
    ⦃⇓ _ s => ⌜s.fitErrors = L ∧ s.budget = B⌝⦄

theorem fitFrame_zero : FitFrame 0 := by
  constructor
  all_goals
    intros
    mvcgen [resolveType, resolveParams, resolveTypeName, typeSymbolType, ensureTypeDecl,
      defineRecord, resolveMembers, checkExpr, checkValue, checkCondition, checkValues,
      checkSequence, inferExpr, sizeofTypeOperand]

section Step

variable {n : Nat} (ih : FitFrame n) (L : List Diagnostic) (B : Nat)
include ih

theorem resolveType_fit_step (t : TypeExpr) :
    ⦃fun s => ⌜s.fitErrors = L ∧ s.budget = B⌝⦄ resolveType (n + 1) t
    ⦃⇓ _ s => ⌜s.fitErrors = L ∧ s.budget = B⌝⦄ := by
  have htype := ih.type
  have hparams := ih.params
  have htypeName := ih.typeName
  have hrecord := ih.record
  have hexpr := ih.expr
  have hvalue := ih.value
  mvcgen [resolveType, htype, hparams, htypeName, hrecord, hexpr, hvalue, pointer_fitErrors,
    sizedArrayResult_fitErrors, func_fitErrors, setTypeNode_fitErrors, -pointer_spec,
    -sizedArrayResult_spec, -func_spec, -setTypeNode_spec]
  all_goals simp_all

theorem resolveParams_fit_step (ps : List TypeExpr) :
    ⦃fun s => ⌜s.fitErrors = L ∧ s.budget = B⌝⦄ resolveParams (n + 1) ps
    ⦃⇓ _ s => ⌜s.fitErrors = L ∧ s.budget = B⌝⦄ := by
  have htype := ih.type
  have hparams := ih.params
  cases ps with
  | nil => mvcgen [resolveParams]
  | cons p ps =>
    mvcgen [resolveParams, htype, hparams, paramType_fitErrors, -paramType_spec]
    all_goals simp_all

theorem resolveTypeName_fit_step (name : String) (span : Span) :
    ⦃fun s => ⌜s.fitErrors = L ∧ s.budget = B⌝⦄ resolveTypeName (n + 1) name span
    ⦃⇓ _ s => ⌜s.fitErrors = L ∧ s.budget = B⌝⦄ := by
  have hsymbolType := ih.symbolType
  mvcgen [resolveTypeName, hsymbolType, report_fitErrors, fail_fitErrors, -report_spec,
    -fail_spec]
  all_goals simp_all

theorem typeSymbolType_fit_step (sym : Nat) :
    ⦃fun s => ⌜s.fitErrors = L ∧ s.budget = B⌝⦄ typeSymbolType (n + 1) sym
    ⦃⇓ _ s => ⌜s.fitErrors = L ∧ s.budget = B⌝⦄ := by
  have htypeDecl := ih.typeDecl
  mvcgen [typeSymbolType, htypeDecl]
  all_goals simp_all

theorem ensureTypeDecl_fit_step (declId sym : Nat) :
    ⦃fun s => ⌜s.fitErrors = L ∧ s.budget = B⌝⦄ ensureTypeDecl (n + 1) declId sym
    ⦃⇓ _ s => ⌜s.fitErrors = L ∧ s.budget = B⌝⦄ := by
  have htype := ih.type
  have hrecord := ih.record
  mvcgen [ensureTypeDecl, htype, hrecord, report_fitErrors, modifySymbol_fitErrors,
    setTypeDeclState_fitErrors, setDeclType_fitErrors, -report_spec, -modifySymbol_spec,
    -setTypeDeclState_spec, -setDeclType_spec]
  all_goals simp_all

theorem defineRecord_fit_step (node : TypeExpr) (kind : RecordKind) (name : Option String)
    (members : List MemberDecl) (binding : Option Nat) :
    ⦃fun s => ⌜s.fitErrors = L ∧ s.budget = B⌝⦄ defineRecord (n + 1) node kind name members binding
    ⦃⇓ _ s => ⌜s.fitErrors = L ∧ s.budget = B⌝⦄ := by
  have hmembers := ih.members
  mvcgen [defineRecord, hmembers, openRecord_fitErrors, closeRecord_fitErrors, -openRecord_spec,
    -closeRecord_spec]
  all_goals simp_all

theorem resolveMembers_fit_step (seen : List (String × Span)) (ms : List MemberDecl) :
    ⦃fun s => ⌜s.fitErrors = L ∧ s.budget = B⌝⦄ resolveMembers (n + 1) seen ms
    ⦃⇓ _ s => ⌜s.fitErrors = L ∧ s.budget = B⌝⦄ := by
  have htype := ih.type
  have hmembers := ih.members
  cases ms with
  | nil => mvcgen [resolveMembers]
  | cons m ms =>
    mvcgen [resolveMembers, htype, hmembers, memberResult_fitErrors, -memberResult_spec]
    all_goals simp_all

theorem checkExpr_fit_step (e : Expr) :
    ⦃fun s => ⌜s.fitErrors = L ∧ s.budget = B⌝⦄ checkExpr (n + 1) e
    ⦃⇓ _ s => ⌜s.fitErrors = L ∧ s.budget = B⌝⦄ := by
  have hinfer := ih.infer
  mvcgen [checkExpr, hinfer, setExprType_fitErrors, -setExprType_spec]
  all_goals simp_all

theorem checkValue_fit_step (e : Expr) :
    ⦃fun s => ⌜s.fitErrors = L ∧ s.budget = B⌝⦄ checkValue (n + 1) e
    ⦃⇓ _ s => ⌜s.fitErrors = L ∧ s.budget = B⌝⦄ := by
  have hexpr := ih.expr
  mvcgen [checkValue, hexpr, fail_fitErrors, -fail_spec]
  all_goals simp_all

theorem checkCondition_fit_step (e : Expr) :
    ⦃fun s => ⌜s.fitErrors = L ∧ s.budget = B⌝⦄ checkCondition (n + 1) e
    ⦃⇓ _ s => ⌜s.fitErrors = L ∧ s.budget = B⌝⦄ := by
  have hvalue := ih.value
  mvcgen [checkCondition, hvalue, fail_fitErrors, -fail_spec]
  all_goals simp_all

theorem checkValues_fit_step (es : List Expr) :
    ⦃fun s => ⌜s.fitErrors = L ∧ s.budget = B⌝⦄ checkValues (n + 1) es
    ⦃⇓ _ s => ⌜s.fitErrors = L ∧ s.budget = B⌝⦄ := by
  have hvalue := ih.value
  have hvalues := ih.values
  cases es with
  | nil => mvcgen [checkValues]
  | cons e es =>
    mvcgen [checkValues, hvalue, hvalues]
    all_goals simp_all

theorem checkSequence_fit_step (ty : TypeId) (es : List Expr) :
    ⦃fun s => ⌜s.fitErrors = L ∧ s.budget = B⌝⦄ checkSequence (n + 1) ty es
    ⦃⇓ _ s => ⌜s.fitErrors = L ∧ s.budget = B⌝⦄ := by
  have hexpr := ih.expr
  have hsequence := ih.sequence
  cases es with
  | nil => mvcgen [checkSequence]
  | cons e es =>
    mvcgen [checkSequence, hexpr, hsequence]
    all_goals simp_all

theorem inferExpr_fit_step (e : Expr) :
    ⦃fun s => ⌜s.fitErrors = L ∧ s.budget = B⌝⦄ inferExpr (n + 1) e
    ⦃⇓ _ s => ⌜s.fitErrors = L ∧ s.budget = B⌝⦄ := by
  have htype := ih.type
  have hexpr := ih.expr
  have hvalue := ih.value
  have hcondition := ih.condition
  have hvalues := ih.values
  have hsequence := ih.sequence
  have hsizeof := ih.sizeofOperand
  obtain ⟨id, span, kind⟩ := e
  cases kind <;> mvcgen [inferExpr, htype, hexpr, hvalue, hcondition, hvalues, hsequence,
    hsizeof, nameResult_fitErrors, setConst_fitErrors, pointer_fitErrors, array_fitErrors,
    sizeofResult_fitErrors, callResult_fitErrors, indexResult_fitErrors, accessResult_fitErrors,
    castResult_fitErrors, derefResult_fitErrors, addrOfResult_fitErrors, unaryResult_fitErrors,
    arithResult_fitErrors, foldArith_fitErrors, condResult_fitErrors, ternaryResult_fitErrors,
    assignResult_fitErrors, fail_fitErrors, -nameResult_spec, -setConst_spec, -pointer_spec,
    -array_spec, -sizeofResult_spec, -callResult_spec, -indexResult_spec, -accessResult_spec,
    -castResult_spec, -derefResult_spec, -addrOfResult_spec, -unaryResult_spec,
    -arithResult_spec, -foldArith_spec, -condResult_spec, -ternaryResult_spec,
    -assignResult_spec, -fail_spec]
  all_goals simp_all

theorem sizeofTypeOperand_fit_step (e : Expr) :
    ⦃fun s => ⌜s.fitErrors = L ∧ s.budget = B⌝⦄ sizeofTypeOperand (n + 1) e
    ⦃⇓ _ s => ⌜s.fitErrors = L ∧ s.budget = B⌝⦄ := by
  have hsymbolType := ih.symbolType
  have hsizeof := ih.sizeofOperand
  obtain ⟨id, span, kind⟩ := e
  cases kind <;> mvcgen [sizeofTypeOperand, hsymbolType, hsizeof, bind_fitErrors,
    pointer_fitErrors, setExprType_fitErrors, -bind_spec, -pointer_spec, -setExprType_spec]
  all_goals simp_all

end Step

/-- Typing types and expressions never reports that an initial value does not fit, at any
fuel. -/
theorem fitFrame (fuel : Nat) : FitFrame fuel := by
  induction fuel with
  | zero => exact fitFrame_zero
  | succ n ih =>
    exact
      { type := fun t L B => resolveType_fit_step ih L B t
        params := fun ps L B => resolveParams_fit_step ih L B ps
        typeName := fun name span L B => resolveTypeName_fit_step ih L B name span
        symbolType := fun sym L B => typeSymbolType_fit_step ih L B sym
        typeDecl := fun declId sym L B => ensureTypeDecl_fit_step ih L B declId sym
        record := fun node kind name members binding L B =>
          defineRecord_fit_step ih L B node kind name members binding
        members := fun seen ms L B => resolveMembers_fit_step ih L B seen ms
        expr := fun e L B => checkExpr_fit_step ih L B e
        value := fun e L B => checkValue_fit_step ih L B e
        condition := fun e L B => checkCondition_fit_step ih L B e
        values := fun es L B => checkValues_fit_step ih L B es
        sequence := fun ty es L B => checkSequence_fit_step ih L B ty es
        infer := fun e L B => inferExpr_fit_step ih L B e
        sizeofOperand := fun e L B => sizeofTypeOperand_fit_step ih L B e }

end Check

end SolarFront
