import SolarFront.Check.Decl

/-!
Statements and function bodies. A block opens a scope; `if` statements and loops are the
targets of jumps, an `if` for `breakif` and a loop for `continue` and `break`, the innermost
one or the one carrying the label the jump names. A loop's `else` branch runs after the loop
and is not a target of its jumps.

A function that returns a value must not reach the end of its body. A statement always returns
when it is a `return`, a block with a statement that always returns, an `if` with an `else`
whose branches both always return, a loop without a condition, or a loop whose `else` branch
always returns; an `if` or loop that some `break` or `breakif` leaves does not.
-/

set_option autoImplicit false
set_option linter.all false

namespace SolarFront

/-- The diagnostic of a jump whose target is not found. -/
def LabelError.diagnostic (e : LabelError) (jump : JumpKind) (label : Option Label)
    (span : Span) : Diagnostic :=
  let (targetDesc, otherDesc) := match jump.target with
    | .loop => ("a loop", "an `if`")
    | .cond => ("an `if`", "a loop")
  let labelName := (label.map (·.name)).getD ""
  let keyword := "`" ++ jump.keyword ++ "`"
  let (code, message) := match e with
    | .noTarget => (Code.e2005, keyword ++ " outside of " ++ targetDesc)
    | .unknown => (Code.e2002, "no enclosing statement is labeled `" ++ labelName ++ "`")
    | .wrongKind _ => (Code.e2003, keyword ++ " needs " ++ targetDesc ++ ", but `" ++ labelName ++
        "` labels " ++ otherDesc)
  let labelAt := (label.map (·.span)).getD span
  let d := (Diagnostic.error code message).withLabel labelAt e.message
  match e with
  | .wrongKind labelSpan => d.withSecondary labelSpan "label defined here"
  | _ => d

namespace Check

open CheckM

/-- Make a statement the innermost target of jumps. -/
def pushTarget (id : Nat) (span : Span) (kind : TargetKind) (label : Option Label) :
    CheckM Unit :=
  modify fun s => { s with labels := ⟨label, kind, ⟨id, span⟩⟩ :: s.labels }

/-- Leave the innermost target of jumps. -/
def popTarget : CheckM Unit := modify fun s => { s with labels := s.labels.drop 1 }

/-- Find the statement a jump leaves and remember it. -/
def checkJump (id : Nat) (jump : JumpKind) (label : Option Label) (span : Span) :
    CheckM Unit := do
  match LabelStack.resolve (← get).labels jump (label.map (·.name)) with
  | .ok target =>
    modify fun s => { s with jumpTargets := s.jumpTargets.insert id target }
    if jump != .continue then
      modify fun s => { s with broken := s.broken.insert target.stmt }
  | .error e => report (e.diagnostic jump label span)

/-- Check a `return` against the return type of the function. -/
def checkReturn (value : Option Expr) (span : Span) : CheckM Unit := do
  let ret := (← get).returnType.getD .error
  match value with
  | none =>
    if !ret.isVoid && !ret.isError then
      fail .e3001 span ("missing return value in a function returning `" ++ (← fmt ret) ++ "`")
  | some v =>
    let found ← typeOfExpr v
    if ret.isVoid then
      if !found.isVoid && !found.isError then
        fail .e3001 v.span "a function returning `void` cannot return a value"
    else discard <| checkAssignable found ret v.span "as the return value"

mutual

/-- Check a statement. -/
def checkStmt : Stmt → CheckM Unit
  | .mk id span kind =>
    match kind with
    | .empty => pure ()
    | .decl d => checkLocalDecl d
    | .block stmts => withScope (checkStmts stmts)
    | .expr e => discard <| typeOfExpr e
    | .jump jump label => checkJump id jump label span
    | .ret value => checkReturn value span
    | .branch label cond thenS elseS => do
      discard <| typeOfCondition cond
      pushTarget id span .cond label
      checkStmt thenS
      (match elseS with
        | some e => checkStmt e
        | none => pure ())
      popTarget
    | .loop label init cond step body elseS => do
      (match init with
        | some e => discard <| typeOfExpr e
        | none => pure ())
      (match cond with
        | some c => discard <| typeOfCondition c
        | none => pure ())
      (match step with
        | some e => discard <| typeOfExpr e
        | none => pure ())
      pushTarget id span .loop label
      checkStmt body
      popTarget
      if let some e := elseS then checkStmt e

/-- Check statements in order. -/
def checkStmts : List Stmt → CheckM Unit
  | [] => pure ()
  | s :: ss => do
    checkStmt s
    checkStmts ss

end

mutual

/-- Whether control cannot leave a statement other than by `return`. -/
def alwaysReturns (broken : Std.TreeSet Nat) : Stmt → Bool
  | .mk _ _ (.ret _) => true
  | .mk _ _ (.block stmts) => anyAlwaysReturns broken stmts
  | .mk id _ (.branch _ _ thenS (some elseS)) =>
    !broken.contains id && alwaysReturns broken thenS && alwaysReturns broken elseS
  | .mk id _ (.loop _ _ none _ _ _) => !broken.contains id
  | .mk id _ (.loop _ _ (some _) _ _ (some elseS)) =>
    !broken.contains id && alwaysReturns broken elseS
  | _ => false

/-- Whether some statement of a list always returns. -/
def anyAlwaysReturns (broken : Std.TreeSet Nat) : List Stmt → Bool
  | [] => false
  | s :: ss => alwaysReturns broken s || anyAlwaysReturns broken ss

end

/-- A function returning a value whose body may end without returning one. -/
def missingReturn (d : Decl) (ret : String) (body : Stmt) : Diagnostic :=
  (((Diagnostic.error .e3012 ("function `" ++ d.name ++
    "` may reach its end without returning a value")).withLabel d.nameSpan
    ("returns `" ++ ret ++ "`")).withSecondary body.span "control can leave this body")

/-- Bind the parameters of a function in the current scope. -/
def declareParams (params : List Param) (types : List TypeId) : CheckM Unit := do
  for (p, i) in params.zipIdx do
    let sym : Symbol :=
      { name := p.name, kind := .var, ty := types[i]?.getD .error, span := p.span }
    discard <| declareSymbol sym

/-- Check the body of a function of the given type. The parameters and the statements of the
outermost block share one scope, and jumps cannot leave the function. -/
def checkBody (d : Decl) (funcTy : TypeId) : CheckM Unit := do
  match d.kind with
  | .func params (some body) _ _ =>
    let (ret, types) := match (← get).pool.get funcTy with
      | .func ret types _ => (ret, types)
      | _ => (TypeId.error, [])
    let labels := (← get).labels
    let returnType := (← get).returnType
    modify fun s => { s with labels := [], returnType := some ret }
    pushScope
    declareParams params types
    (match body.kind with
      | .block stmts => checkStmts stmts
      | _ => checkStmt body)
    popScope
    modify fun s => { s with labels, returnType }
    if !ret.isVoid && !ret.isError && !alwaysReturns (← get).broken body then
      report (missingReturn d (← fmt ret) body)
  | _ => pure ()

end Check

end SolarFront
