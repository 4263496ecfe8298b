import SolarFront.Check.Module

/-!
# Only the entry points read the budget

A module is checked with a recursion budget kept in the checker's state, and only the entry
points of the typing functions read it (`typeOfNode`, `typeOfExpr` and the others hand it to the
typing function as fuel). Every other step does the same thing whatever the budget is and leaves
it as it found it: run from the state with another budget, it is the run from the state itself
with that budget put back (`Plain.oblivious`).

`Plain x` says that of a step `x`, with two frame facts that the argument about the budget needs
of every step that is not a typing function: it leaves the module's type declarations and the
bodies waiting for the last pass alone. Combinators carry `Plain` through `bind`, `get`,
`modify` and loops, so each step of the checker is proved `Plain` by following its do-block.
-/

set_option autoImplicit false
set_option linter.all false

namespace SolarFront

namespace CheckState

/-- The state with another budget. -/
def withBudget (s : CheckState) (budget : Nat) : CheckState := { s with budget }

@[simp] theorem budget_withBudget (s : CheckState) (B : Nat) : (s.withBudget B).budget = B := rfl

@[simp] theorem withBudget_budget (s : CheckState) : s.withBudget s.budget = s := rfl

/-! What the checker reads off its tables about places and constant initial values does not
depend on the budget. -/

section Places

variable (s : CheckState) (B : Nat)

theorem isPlace_withBudget : ∀ e, (s.withBudget B).isPlace e = s.isPlace e
  | .mk id span kind => by
    cases kind with
    | access r member memberSpan => simp only [isPlace]; exact isPlace_withBudget r
    | _ => simp only [isPlace, boundKind, withBudget]

theorem isStaticAddress_withBudget :
    ∀ e, (s.withBudget B).isStaticAddress e = s.isStaticAddress e
  | .mk id span kind => by
    cases kind with
    | index array index =>
      simp only [isStaticAddress]
      rw [isStaticAddress_withBudget array]
      rfl
    | access r member memberSpan =>
      simp only [isStaticAddress]
      exact isStaticAddress_withBudget r
    | _ => simp only [isStaticAddress, namesFunction, isStaticObject, boundKind, withBudget]

mutual

theorem isConstantInit_withBudget :
    ∀ e, (s.withBudget B).isConstantInit e = s.isConstantInit e
  | .mk id span kind => by
    cases kind with
    | addrOf inner =>
      simp only [isConstantInit, isStaticAddress_withBudget]
      rfl
    | cast inner t signed =>
      simp only [isConstantInit]
      rw [isConstantInit_withBudget inner]
      rfl
    | binary op left right =>
      cases op
      case add | sub =>
        simp only [isConstantInit]
        rw [isConstantInit_withBudget left]
        rfl
      all_goals
        simp only [isConstantInit]
        rfl
    | arrayInit es =>
      simp only [isConstantInit]
      rw [allConstantInit_withBudget es]
      rfl
    | recordInit kind fs =>
      simp only [isConstantInit]
      rw [allFieldsConstantInit_withBudget fs]
      rfl
    | _ =>
      simp only [isConstantInit]
      rfl

theorem allConstantInit_withBudget :
    ∀ es, (s.withBudget B).allConstantInit es = s.allConstantInit es
  | [] => rfl
  | e :: es => by
    simp only [allConstantInit]
    rw [isConstantInit_withBudget e, allConstantInit_withBudget es]

theorem allFieldsConstantInit_withBudget :
    ∀ fs, (s.withBudget B).allFieldsConstantInit fs = s.allFieldsConstantInit fs
  | [] => rfl
  | .mk name value span :: fs => by
    simp only [allFieldsConstantInit]
    rw [isConstantInit_withBudget value, allFieldsConstantInit_withBudget fs]

end

end Places

end CheckState

namespace Check

open CheckM

variable {α β : Type}

theorem run_bind (x : CheckM α) (k : α → CheckM β) (s : CheckState) :
    (x >>= k).run s = (k (x.run s).1).run (x.run s).2 := rfl

/-- A step that does not read the budget and keeps it, and leaves the type declarations and the
bodies waiting for the last pass alone. -/
structure Plain (x : CheckM α) : Prop where
  oblivious : ∀ s B, x.run (s.withBudget B) = ((x.run s).1, (x.run s).2.withBudget B)
  typeDecls : ∀ s, (x.run s).2.typeDecls = s.typeDecls
  pending : ∀ s, (x.run s).2.pending = s.pending

namespace Plain

theorem pure (a : α) : Plain (Pure.pure a : CheckM α) :=
  ⟨fun _ _ => rfl, fun _ => rfl, fun _ => rfl⟩

theorem bind {x : CheckM α} {k : α → CheckM β} (hx : Plain x) (hk : ∀ a, Plain (k a)) :
    Plain (x >>= k) where
  oblivious s B := by rw [run_bind, run_bind, hx.oblivious s B, (hk _).oblivious]
  typeDecls s := by rw [run_bind, (hk _).typeDecls, hx.typeDecls]
  pending s := by rw [run_bind, (hk _).pending, hx.pending]

theorem map {x : CheckM α} (f : α → β) (hx : Plain x) : Plain (f <$> x) :=
  hx.bind fun _ => pure _

theorem discard {x : CheckM α} (hx : Plain x) : Plain (Functor.discard x) :=
  hx.map _

/-- A step that reads the state first: what it reads cannot be the budget, which the side
condition says by `rfl`. -/
theorem get_bind {k : CheckState → CheckM α} (hk : ∀ s B, k (s.withBudget B) = k s)
    (hk' : ∀ s, Plain (k s)) : Plain (get >>= k) where
  oblivious s B := by
    rw [run_bind, run_bind]
    exact (hk s B).symm ▸ (hk' s).oblivious s B
  typeDecls s := (hk' s).typeDecls s
  pending s := (hk' s).pending s

/-- A step that returns something of the state and updates it. -/
theorem modifyGet {f : CheckState → α × CheckState}
    (hf : ∀ s B, f (s.withBudget B) = ((f s).1, (f s).2.withBudget B))
    (ht : ∀ s, (f s).2.typeDecls = s.typeDecls) (hp : ∀ s, (f s).2.pending = s.pending) :
    Plain (MonadState.modifyGet f : CheckM α) :=
  ⟨hf, ht, hp⟩

/-- An update of fields other than the budget, the type declarations and the waiting bodies. -/
theorem modify {f : CheckState → CheckState}
    (hf : ∀ s B, f (s.withBudget B) = (f s).withBudget B)
    (ht : ∀ s, (f s).typeDecls = s.typeDecls) (hp : ∀ s, (f s).pending = s.pending) :
    Plain (MonadState.modifyGet fun s => ((), f s) : CheckM Unit) :=
  modifyGet (fun s B => by rw [hf]) ht hp

/-- A loop over a list whose every round is plain. -/
theorem forIn {γ : Type} {l : List γ} {init : β} {f : γ → β → CheckM (ForInStep β)}
    (hf : ∀ a b, Plain (f a b)) : Plain (ForIn.forIn l init f) := by
  induction l generalizing init with
  | nil => exact pure _
  | cons a l ih =>
    rw [List.forIn_cons]
    refine (hf a init).bind fun step => ?_
    cases step with
    | done b => exact pure _
    | yield b => exact ih

end Plain

/-- A plain step keeps the budget. -/
theorem Plain.budget {x : CheckM α} (hx : Plain x) (s : CheckState) :
    (x.run s).2.budget = s.budget := by
  have h := congrArg (fun p => p.2.budget) (hx.oblivious s s.budget)
  simpa using h

/-! ## The state's own steps -/

section State

theorem report_plain (d : Diagnostic) : Plain (report d) :=
  .modify (fun _ _ => rfl) (fun _ => rfl) (fun _ => rfl)

theorem fail_plain (code : Code) (span : Span) (message : String) :
    Plain (fail code span message) :=
  report_plain _

theorem fmt_plain (t : TypeId) : Plain (fmt t) :=
  .get_bind (fun _ _ => rfl) fun _ => .pure _

theorem withPool_plain (f : TypePool → TypePool × TypeId) : Plain (withPool f) :=
  .modifyGet (fun _ _ => rfl) (fun _ => rfl) (fun _ => rfl)

theorem pointer_plain (elem : TypeId) : Plain (pointer elem) := withPool_plain _

theorem array_plain (elem : TypeId) (len : Nat) : Plain (array elem len) := withPool_plain _

theorem func_plain (ret : TypeId) (params : List TypeId) (variadic : Bool) :
    Plain (func ret params variadic) :=
  withPool_plain _

theorem decay_plain (t : TypeId) : Plain (decay t) := withPool_plain _

theorem typeData_plain (t : TypeId) : Plain (typeData t) :=
  .get_bind (fun _ _ => rfl) fun _ => .pure _

theorem symbol_plain (id : Nat) : Plain (symbol id) :=
  .get_bind (fun _ _ => rfl) fun _ => .pure _

theorem modifySymbol_plain (id : Nat) (f : Symbol → Symbol) : Plain (modifySymbol id f) :=
  .modify (fun _ _ => rfl) (fun _ => rfl) (fun _ => rfl)

theorem setExprType_plain (id : Nat) (t : TypeId) : Plain (setExprType id t) :=
  .modify (fun _ _ => rfl) (fun _ => rfl) (fun _ => rfl)

theorem exprType_plain (id : Nat) : Plain (exprType id) :=
  .get_bind (fun _ _ => rfl) fun _ => .pure _

theorem setTypeNode_plain (id : Nat) (t : TypeId) : Plain (setTypeNode id t) :=
  .modify (fun _ _ => rfl) (fun _ => rfl) (fun _ => rfl)

theorem setDeclType_plain (id : Nat) (t : TypeId) : Plain (setDeclType id t) :=
  .modify (fun _ _ => rfl) (fun _ => rfl) (fun _ => rfl)

theorem setConst_plain (id : Nat) (v : Option Nat) : Plain (setConst id v) := by
  cases v with
  | none => exact .pure _
  | some v => exact .modify (fun _ _ => rfl) (fun _ => rfl) (fun _ => rfl)

theorem constOf_plain (id : Nat) : Plain (constOf id) :=
  .get_bind (fun _ _ => rfl) fun _ => .pure _

theorem bind_plain (id sym : Nat) : Plain (CheckM.bind id sym) :=
  .modify (fun _ _ => rfl) (fun _ => rfl) (fun _ => rfl)

theorem pushScope_plain : Plain pushScope :=
  .modify (fun _ _ => rfl) (fun _ => rfl) (fun _ => rfl)

theorem popScope_plain : Plain popScope :=
  .modify (fun _ _ => rfl) (fun _ => rfl) (fun _ => rfl)

end State


/-! ## Layout -/

section Layout

theorem setLayout_plain (rid : Nat) (state : LayoutState) : Plain (setLayout rid state) :=
  .modify (fun _ _ => rfl) (fun _ => rfl) (fun _ => rfl)

/-- The layout engine is plain at every fuel. -/
theorem layout_plain (fuel : Nat) :
    (∀ t, Plain (sizeAlignOf fuel t)) ∧ (∀ rid, Plain (ensureLayout fuel rid)) ∧
      ∀ ms, Plain (shapeMembers fuel ms) := by
  induction fuel with
  | zero => exact ⟨fun _ => .pure _, fun _ => .pure _, fun _ => .pure _⟩
  | succ fuel ih =>
    obtain ⟨hsize, hensure, hshape⟩ := ih
    refine ⟨fun t => ?_, fun rid => ?_, fun ms => ?_⟩
    · unfold sizeAlignOf
      refine .get_bind (fun _ _ => rfl) fun s => ?_
      -- the record of `t` is laid out first; what follows is a join point of the definition
      extract_lets rest
      have hrest : ∀ u, Plain (rest u) := fun u => by
        dsimp only [rest]
        refine (typeData_plain t).bind fun d => ?_
        split
        · exact (hsize _).bind fun _ => .pure _
        · exact .get_bind (fun _ _ => rfl) fun _ => .pure _
      split
      · exact (hensure _).discard.bind hrest
      · exact hrest ()
    · unfold ensureLayout
      refine .get_bind (fun _ _ => rfl) fun s => ?_
      dsimp only
      split
      · exact .pure _
      · exact .pure _
      · exact (report_plain _).bind fun _ => (setLayout_plain _ _).bind fun _ => .pure _
      · refine (setLayout_plain _ _).bind fun _ => (hshape _).bind fun r => ?_
        refine .get_bind (fun _ _ => rfl) fun s' => ?_
        split
        · exact (setLayout_plain _ _).bind fun _ => .pure _
        · exact (setLayout_plain _ _).bind fun _ => .pure _
    · cases ms with
      | nil => exact .pure _
      | cons m ms =>
        unfold shapeMembers
        dsimp only
        split
        all_goals
          refine .bind ?_ fun _ => (hshape ms).bind fun _ => ?_
          · first
            | exact .pure _
            | exact hsize _
          · split <;> exact .pure _

theorem layoutFuel_plain : Plain layoutFuel :=
  .get_bind (fun _ _ => rfl) fun _ => .pure _

theorem sizeAlign_plain (t : TypeId) : Plain (sizeAlign t) :=
  layoutFuel_plain.bind fun fuel => (layout_plain fuel).1 t

theorem layoutAll_plain : Plain layoutAll :=
  .get_bind (fun _ _ => rfl) fun _ => .forIn fun rid _ =>
    layoutFuel_plain.bind fun fuel => ((layout_plain fuel).2.1 rid).discard.bind fun _ => .pure _

end Layout

/-! ## Conversions -/

section Conversion

theorem checkAssignable_plain (found expected : TypeId) (span : Span) (context : String) :
    Plain (checkAssignable found expected span context) := by
  unfold checkAssignable
  split
  · exact (fail_plain ..).bind fun _ => .pure _
  refine .get_bind (fun _ _ => rfl) fun s => ?_
  split
  · exact .pure _
  exact (fmt_plain _).bind fun _ => (fmt_plain _).bind fun _ =>
    (report_plain _).bind fun _ => .pure _

theorem checkCast_plain (source target : TypeId) (signed : Bool) (span : Span) :
    Plain (checkCast source target signed span) := by
  unfold checkCast
  split
  · exact (fail_plain ..).bind fun _ => .pure _
  split
  · exact (fail_plain ..).bind fun _ => .pure _
  split
  · exact .pure _
  refine .get_bind (fun _ _ => rfl) fun s => ?_
  dsimp only
  split
  · exact (fmt_plain _).bind fun _ => (fmt_plain _).bind fun _ =>
      (report_plain _).bind fun _ => .pure _
  · exact .pure _

end Conversion

/-! ## The typing rules of the operators -/

section Operation

theorem valueWidth_plain (t : TypeId) : Plain (valueWidth t) :=
  .get_bind (fun _ _ => rfl) fun _ => .pure _

theorem widenRight_plain (right : Expr) (lt rt : TypeId) : Plain (widenRight right lt rt) := by
  unfold widenRight
  refine (decay_plain _).bind fun left => (decay_plain _).bind fun value => ?_
  dsimp only
  split
  · refine .bind ?_ fun _ => .pure _
    exact .modify (fun _ _ => rfl) (fun _ => rfl) (fun _ => rfl)
  · exact .pure _

theorem arithResult_plain (op : BinaryOp) (lt rt : TypeId) (right : Expr) (span : Span) :
    Plain (arithResult op lt rt right span) := by
  unfold arithResult
  split
  · exact .pure _
  refine .get_bind (fun _ _ => rfl) fun s => ?_
  dsimp only
  split
  · exact (fmt_plain _).bind fun _ => (fmt_plain _).bind fun _ =>
      (report_plain _).bind fun _ => .pure _
  refine (widenRight_plain _ _ _).bind fun _ => ?_
  split <;> exact .pure _

theorem foldArith_plain (id : Nat) (op : BinaryOp) (left right : Expr) (ty : TypeId) :
    Plain (foldArith id op left right ty) := by
  unfold foldArith
  refine (constOf_plain _).bind fun _ => (constOf_plain _).bind fun _ =>
    (valueWidth_plain _).bind fun _ => ?_
  split
  · exact setConst_plain _ _
  · exact .pure _

theorem condResult_plain (id : Nat) (op : CondOp) (left right : Expr) (lt rt : TypeId)
    (span : Span) : Plain (condResult id op left right lt rt span) := by
  unfold condResult
  -- the folding after the operands are compared is a join point of the definition
  extract_lets done tail
  have htail : ∀ u, Plain (tail u) := fun u => by
    dsimp only [tail, done]
    refine (valueWidth_plain _).bind fun _ => (valueWidth_plain _).bind fun _ =>
      (constOf_plain _).bind fun _ => (constOf_plain _).bind fun _ => ?_
    split
    · exact (setConst_plain _ _).bind fun _ => .pure _
    · exact .pure _
  split
  · refine .get_bind (fun _ _ => rfl) fun s => ?_
    split
    · exact (widenRight_plain _ _ _).discard.bind htail
    · exact (fmt_plain _).bind fun _ => (fmt_plain _).bind fun _ => (report_plain _).bind htail
  · exact htail ()

theorem ternaryResult_plain (id : Nat) (cond thenE elseE : Expr) (thenTy elseTy : TypeId) :
    Plain (ternaryResult id cond thenE elseE thenTy elseTy) := by
  unfold ternaryResult
  refine .get_bind (fun _ _ => rfl) fun s => ?_
  -- the folding of the chosen branch is a join point of the definition
  extract_lets pool tail
  have htail : ∀ ty, Plain (tail ty) := fun ty => by
    dsimp only [tail]
    refine (constOf_plain _).bind fun c => ?_
    split
    · exact (constOf_plain _).bind fun _ => (setConst_plain _ _).bind fun _ => .pure _
    · exact .pure _
  -- the type of the whole, by cases on the branch types
  split
  · exact (Plain.pure _).bind htail
  split
  · exact (Plain.pure _).bind htail
  split
  · exact (Plain.pure _).bind htail
  refine (decay_plain _).bind fun td => (decay_plain _).bind fun ed => ?_
  split
  · exact (Plain.pure _).bind htail
  · exact (fmt_plain _).bind fun _ => (fmt_plain _).bind fun _ =>
      (report_plain _).bind fun _ => (Plain.pure _).bind htail

theorem callResult_plain (func : Expr) (args : List Expr) (callee : TypeId)
    (argTypes : List TypeId) : Plain (callResult func args callee argTypes) := by
  unfold callResult
  split
  · exact .pure _
  refine .get_bind (fun _ _ => rfl) fun s => ?_
  split
  · exact (fmt_plain _).bind fun _ => (fail_plain ..).bind fun _ => .pure _
  rename_i ret params variadic _
  have hloop : Plain (ForIn.forIn ((args.zip argTypes).zip params) PUnit.unit fun x _ => do
      discard <| checkAssignable x.1.2 x.2 x.1.1.span "for this argument"
      pure (ForInStep.yield PUnit.unit) : CheckM PUnit) :=
    .forIn fun _ _ => (checkAssignable_plain ..).discard.bind fun _ => .pure _
  dsimp only
  split
  · exact (fail_plain ..).bind fun _ => hloop.bind fun _ => .pure _
  · exact hloop.bind fun _ => .pure _

theorem indexResult_plain (array index : Expr) (base indexTy : TypeId) :
    Plain (indexResult array index base indexTy) := by
  unfold indexResult
  split
  · exact .pure _
  refine .get_bind (fun _ _ => rfl) fun s => ?_
  dsimp only
  split
  · exact (fmt_plain _).bind fun _ => (fail_plain ..).bind fun _ => .pure _
  split
  · exact (fail_plain ..).bind fun _ => .pure _
  split
  · exact (fmt_plain _).bind fun _ => (fail_plain ..).bind fun _ => .pure _
  · exact .pure _

theorem accessResult_plain (ty : TypeId) (member : String) (memberSpan : Span) :
    Plain (accessResult ty member memberSpan) := by
  unfold accessResult
  split
  · exact .pure _
  refine .get_bind (fun _ _ => rfl) fun s => ?_
  dsimp only
  split
  · exact (fmt_plain _).bind fun _ => (fail_plain ..).bind fun _ => .pure _
  split
  · exact .pure _
  · exact (fmt_plain _).bind fun _ => (fail_plain ..).bind fun _ => .pure _

theorem castResult_plain (id : Nat) (inner : Expr) (source target : TypeId) (signed : Bool)
    (span : Span) : Plain (castResult id inner source target signed span) := by
  unfold castResult
  refine (checkCast_plain _ _ _ _).bind fun legal => ?_
  dsimp only
  split
  · refine (constOf_plain _).bind fun _ => (valueWidth_plain _).bind fun _ =>
      (valueWidth_plain _).bind fun _ => ?_
    split
    · exact (setConst_plain _ _).bind fun _ => .pure _
    · exact .pure _
  · exact .pure _

theorem derefResult_plain (inner : Expr) (ty : TypeId) : Plain (derefResult inner ty) := by
  unfold derefResult
  split
  · exact .pure _
  refine .get_bind (fun _ _ => rfl) fun s => ?_
  split
  · split
    · exact (fail_plain ..).bind fun _ => .pure _
    · exact .pure _
  · exact (fmt_plain _).bind fun _ => (fail_plain ..).bind fun _ => .pure _

theorem addrOfResult_plain (inner : Expr) (ty : TypeId) : Plain (addrOfResult inner ty) := by
  unfold addrOfResult
  split
  · exact .pure _
  refine .get_bind (fun s B => by rw [CheckState.isPlace_withBudget]; rfl) fun s => ?_
  split
  · exact pointer_plain _
  · exact (fail_plain ..).bind fun _ => .pure _

theorem unaryResult_plain (id : Nat) (op : UnaryOp) (operand : Expr) (ty : TypeId) (span : Span) :
    Plain (unaryResult id op operand ty span) := by
  unfold unaryResult
  split
  · exact .pure _
  refine .get_bind (fun _ _ => rfl) fun s => ?_
  split
  · exact (fmt_plain _).bind fun _ => (fail_plain ..).bind fun _ => .pure _
  · exact (constOf_plain _).bind fun _ => (setConst_plain _ _).bind fun _ => .pure _

theorem sizeofResult_plain (id : Nat) (ty : TypeId) (span : Span) :
    Plain (sizeofResult id ty span) := by
  unfold sizeofResult
  split
  · exact .pure _
  refine (sizeAlign_plain _).bind fun r => ?_
  dsimp only
  split
  · exact (setConst_plain _ _).bind fun _ => .pure _
  · split
    · exact (fail_plain ..).bind fun _ => .pure _
    · exact .pure _

theorem assignResult_plain (op : Option BinaryOp) (target value : Expr) (targetTy valueTy : TypeId)
    (span : Span) : Plain (assignResult op target value targetTy valueTy span) := by
  unfold assignResult
  split
  · exact .pure _
  refine .get_bind (fun s B => by rw [CheckState.isPlace_withBudget]) fun s => ?_
  split
  · exact (fail_plain ..).bind fun _ => .pure _
  refine .get_bind (fun _ _ => rfl) fun s' => ?_
  split
  · exact (fmt_plain _).bind fun _ => (fail_plain ..).bind fun _ => .pure _
  split
  · exact (arithResult_plain ..).discard.bind fun _ => .pure _
  · exact (checkAssignable_plain ..).discard.bind fun _ => .pure _

theorem nameResult_plain (id : Nat) (name : String) (span : Span) :
    Plain (nameResult id name span) := by
  unfold nameResult
  refine .get_bind (fun _ _ => rfl) fun s => ?_
  split
  · exact (report_plain _).bind fun _ => .pure _
  refine (bind_plain _ _).bind fun _ => (symbol_plain _).bind fun sym => ?_
  split
  · exact (fail_plain ..).bind fun _ => .pure _
  · exact (setConst_plain _ _).bind fun _ => .pure _
  · exact .pure _
  · exact .pure _

end Operation

/-! ## The steps of typing, declarations and statements around the typing functions -/

section Rules

theorem checkBitfield_plain (name : String) (ty : TypeId) (bits : Nat) (span : Span) :
    Plain (checkBitfield name ty bits span) := by
  unfold checkBitfield
  split
  · exact .pure _
  refine .get_bind (fun _ _ => rfl) fun s => ?_
  split
  · exact (fmt_plain _).bind fun _ => (fail_plain ..).bind fun _ => .pure _
  split
  · exact (fail_plain ..).bind fun _ => .pure _
  · exact .pure _

theorem memberResult_plain (seen : List (String × Span)) (m : MemberDecl) (ty : TypeId) :
    Plain (memberResult seen m ty) := by
  unfold memberResult
  split
  · exact (report_plain _).bind fun _ => .pure _
  dsimp only
  -- the member's type, then its bit width
  split
  · refine (fail_plain ..).bind fun _ => (Plain.pure _).bind fun ty => ?_
    split
    · exact (checkBitfield_plain ..).bind fun _ => .pure _
    · exact (Plain.pure _).bind fun _ => .pure _
  · refine (Plain.pure _).bind fun ty => ?_
    split
    · exact (checkBitfield_plain ..).bind fun _ => .pure _
    · exact (Plain.pure _).bind fun _ => .pure _

theorem paramType_plain (param : TypeExpr) (ty : TypeId) : Plain (paramType param ty) := by
  unfold paramType
  split
  · exact (fail_plain ..).bind fun _ => .pure _
  · exact .pure _

theorem sizedArrayResult_plain (elem : TypeId) (size : Expr) (sizeTy : TypeId) :
    Plain (sizedArrayResult elem size sizeTy) := by
  unfold sizedArrayResult
  dsimp only
  split
  · exact .pure _
  refine .get_bind (fun _ _ => rfl) fun s => ?_
  split
  · exact (fmt_plain _).bind fun _ => (fail_plain ..).bind fun _ => .pure _
  refine (constOf_plain _).bind fun len => ?_
  split
  · exact (fail_plain ..).bind fun _ => .pure _
  split
  · exact (fail_plain ..).bind fun _ => .pure _
  · exact array_plain _ _

theorem openRecord_plain (node : TypeExpr) (kind : RecordKind) (name : Option String)
    (binding : Option Nat) : Plain (openRecord node kind name binding) := by
  unfold openRecord
  refine .bind (.modifyGet (fun _ _ => rfl) (fun _ => rfl) (fun _ => rfl)) fun r => ?_
  refine (setTypeNode_plain _ _).bind fun _ => ?_
  dsimp only
  split
  · exact (modifySymbol_plain _ _).bind fun _ => (setLayout_plain _ _).bind fun _ => .pure _
  · exact (setLayout_plain _ _).bind fun _ => .pure _

theorem closeRecord_plain (rid : Nat) (members : List Member) :
    Plain (closeRecord rid members) := by
  unfold closeRecord
  refine .bind (.modify (fun _ _ => rfl) (fun _ => rfl) (fun _ => rfl)) fun _ => ?_
  refine .get_bind (fun _ _ => rfl) fun s => ?_
  split
  · exact setLayout_plain _ _
  · exact .pure _

theorem stringInitResult_plain (found ty : TypeId) (span : Span) :
    Plain (stringInitResult found ty span) := by
  unfold stringInitResult
  refine .get_bind (fun _ _ => rfl) fun s => ?_
  dsimp only
  split
  · split
    · exact (checkAssignable_plain ..).discard.bind fun _ => .pure _
    split
    · exact .pure _
    split
    · exact (fmt_plain _).bind fun _ => (fail_plain ..).bind fun _ => .pure _
    · exact .pure _
  · exact (checkAssignable_plain ..).discard.bind fun _ => .pure _

theorem arrayInitResult_plain (elements : List Expr) (elem : TypeId) (len : Option Nat)
    (ty : TypeId) (span : Span) : Plain (arrayInitResult elements elem len ty span) := by
  unfold arrayInitResult
  dsimp only
  split
  · exact array_plain _ _
  split
  · exact (fmt_plain _).bind fun _ => (report_plain _).bind fun _ => .pure _
  · exact .pure _

theorem declareSymbol_plain (sym : Symbol) : Plain (declareSymbol sym) := by
  unfold declareSymbol
  refine .get_bind (fun _ _ => rfl) fun s => ?_
  split
  · refine .bind ?_ fun _ => .pure _
    exact .modify (fun _ _ => rfl) (fun _ => rfl) (fun _ => rfl)
  · exact (report_plain _).bind fun _ => .pure _

theorem bindDecl_plain (d : Decl) (sym : Symbol) : Plain (bindDecl d sym) := by
  unfold bindDecl
  refine .bind (.modify (fun _ _ => rfl) (fun _ => rfl) (fun _ => rfl)) fun _ =>
    (declareSymbol_plain _).bind fun bound => ?_
  dsimp only
  split
  · refine .bind ?_ fun _ => .pure _
    exact .modify (fun _ _ => rfl) (fun _ => rfl) (fun _ => rfl)
  · exact .pure _

theorem constantInitCheck_plain (d : Decl) (v : Expr) (needsConstant : Bool) :
    Plain (constantInitCheck d v needsConstant) := by
  unfold constantInitCheck
  refine (exprType_plain _).bind fun _ => ?_
  dsimp only
  refine .get_bind (fun s B => by rw [CheckState.isConstantInit_withBudget]) fun s => ?_
  split
  · exact fail_plain ..
  · exact .pure _

theorem constValue_plain (d : Decl) (value : Expr) (found ty : TypeId) :
    Plain (constValue d value found ty) := by
  unfold constValue
  refine (constOf_plain _).bind fun _ => .get_bind (fun _ _ => rfl) fun s => ?_
  split
  · exact .pure _
  · exact .pure _
  · dsimp only
    split
    · exact (fail_plain ..).bind fun _ => .pure _
    · exact .pure _

theorem pushTarget_plain (id : Nat) (span : Span) (kind : TargetKind) (label : Option Label) :
    Plain (pushTarget id span kind label) :=
  .modify (fun _ _ => rfl) (fun _ => rfl) (fun _ => rfl)

theorem popTarget_plain : Plain popTarget :=
  .modify (fun _ _ => rfl) (fun _ => rfl) (fun _ => rfl)

theorem checkJump_plain (id : Nat) (jump : JumpKind) (label : Option Label) (span : Span) :
    Plain (checkJump id jump label span) := by
  unfold checkJump
  refine .get_bind (fun _ _ => rfl) fun s => ?_
  split
  · refine .bind (.modify (fun _ _ => rfl) (fun _ => rfl) (fun _ => rfl)) fun _ => ?_
    split
    · exact .modify (fun _ _ => rfl) (fun _ => rfl) (fun _ => rfl)
    · exact .pure _
  · exact report_plain _

theorem declareParams_plain (params : List Param) (types : List TypeId) :
    Plain (declareParams params types) := by
  unfold declareParams
  exact .bind (.forIn fun _ _ => (declareSymbol_plain _).discard.bind fun _ => .pure _)
    fun _ => .pure _

end Rules

end Check

end SolarFront
