import SolarFront.Check.Layout
import SolarFront.Check.Conversion
import SolarFront.Check.Place
import SolarFront.Word.Fold

/-!
The typing rule of each form of expression, once its operands are typed. Each rule reports
what is wrong with the operand types, folds the value when the operands are constants, and
gives the type of the whole expression; the error type in an operand suppresses further
reports.

Arithmetic converts the right operand to the type of the left one. With a pointer, array or
function on either side only `+` and `-` are legal, and the difference of two pointers is a
32-bit integer. Comparisons take two integers; `==`, `!=`, `&&` and `||` also take pointers,
arrays and functions, against each other or against an integer. Constants fold at the width of
their type, and at 32 bits for pointers.
-/

set_option autoImplicit false
set_option linter.all false

namespace SolarFront

namespace TypePool

/-- The width at which values of a type fold: its integer width, or 32 bits for a pointer. -/
def valueWidth (p : TypePool) (t : TypeId) : Option Width :=
  match p.get t with
  | .int w => some w
  | .array _ none => some .w32
  | _ => none

/-- Pointers, arrays and functions: the types whose values are addresses. -/
def isAddress (p : TypePool) (t : TypeId) : Bool := p.isPointerLike t || p.isFunc t

/-- The signature a callee of the type calls: its return type, parameter types and whether
it takes more arguments. A function or a pointer to a function has one. -/
def signature? (p : TypePool) (t : TypeId) : Option (TypeId × List TypeId × Bool) :=
  let data := match p.get t with
    | .array elem none => p.get elem
    | d => d
  match data with
  | .func ret params variadic => some (ret, params, variadic)
  | _ => none

/-- Whether a comparison operator takes operands of the two types. -/
def comparable (p : TypePool) (op : CondOp) (lt rt : TypeId) : Bool :=
  if p.isAddress lt || p.isAddress rt then
    op.allowsPointers && (p.isAddress lt || p.isIntegral lt) && (p.isAddress rt || p.isIntegral rt)
  else p.isIntegral lt && p.isIntegral rt

end TypePool

/-- The larger of two optional widths; a width is larger than none. -/
def Width.maxOpt : Option Width → Option Width → Option Width
  | some a, some b => some (a.max b)
  | some a, none => some a
  | none, b => b

namespace Check

open CheckM

/-- The width at which values of a type fold. -/
def valueWidth (t : TypeId) : CheckM (Option Width) := return (← get).pool.valueWidth t

/-- Record that the right operand of a binary operator converts to the type the left one
takes as a value, and give that type. -/
def widenRight (right : Expr) (lt rt : TypeId) : CheckM TypeId := do
  let left ← decay lt
  let value ← decay rt
  if left != value then
    modify fun s => { s with implicitCasts := s.implicitCasts.insert right.id left }
  return left

/-- The type of an arithmetic operator, also used for compound assignment. -/
def arithResult (op : BinaryOp) (lt rt : TypeId) (right : Expr) (span : Span) :
    CheckM TypeId := do
  if lt.isError || rt.isError then return .error
  let p := (← get).pool
  let pointers := p.isAddress lt || p.isAddress rt
  if !(p.isScalar lt && p.isScalar rt) || (pointers && !op.allowsPointers) then
    report (invalidOperands span op.symbol (← fmt lt) (← fmt rt))
    return .error
  let left ← widenRight right lt rt
  if op == .sub && p.isPointerLike lt && p.isPointerLike rt then return .int32
  return left

/-- Fold an arithmetic operator whose operands are constants. -/
def foldArith (id : Nat) (op : BinaryOp) (left right : Expr) (ty : TypeId) : CheckM Unit := do
  match ← constOf left.id, ← constOf right.id, ← valueWidth ty with
  | some l, some r, some w => setConst id (w.foldBinary op l r)
  | _, _, _ => pure ()

/-- The type of a comparison or logical operator whose operands are typed; the result is a
16-bit truth value. -/
def condResult (id : Nat) (op : CondOp) (left right : Expr) (lt rt : TypeId) (span : Span) :
    CheckM TypeId := do
  if !op.isLogical && !lt.isError && !rt.isError then
    if (← get).pool.comparable op lt rt then discard <| widenRight right lt rt
    else report (invalidOperands span op.symbol (← fmt lt) (← fmt rt))
  let width := Width.maxOpt (← valueWidth lt) (← valueWidth rt)
  match ← constOf left.id, ← constOf right.id, width with
  | some l, some r, some w => setConst id (some (w.foldCond op l r))
  | _, _, _ => pure ()
  return .int16

/-- The type of a conditional expression: the wider integer, the common type, or the common
type after arrays and functions become pointers. -/
def ternaryResult (id : Nat) (cond thenE elseE : Expr) (thenTy elseTy : TypeId) :
    CheckM TypeId := do
  let p := (← get).pool
  let ty ← if thenTy.isError || elseTy.isError then pure TypeId.error
    else match p.intWidth? thenTy, p.intWidth? elseTy with
      | some a, some b => pure (TypeId.ofWidth (a.max b))
      | _, _ =>
        if thenTy == elseTy then pure thenTy
        else do
          let td ← decay thenTy
          let ed ← decay elseTy
          if td == ed then pure td
          else do
            report (typeMismatch elseE.span (← fmt thenTy) (← fmt elseTy)
              "to match the other branch")
            pure TypeId.error
  match ← constOf cond.id with
  | some c => setConst id (← constOf (if c != 0 then thenE else elseE).id)
  | none => pure ()
  return ty

/-- The type of a call whose callee and arguments are typed. -/
def callResult (func : Expr) (args : List Expr) (callee : TypeId) (argTypes : List TypeId) :
    CheckM TypeId := do
  if callee.isError then return .error
  match (← get).pool.signature? callee with
  | none =>
    fail .e3004 func.span ("`" ++ (← fmt callee) ++ "` is not a function or function pointer")
    return .error
  | some (ret, params, variadic) =>
    if args.length < params.length || (!variadic && args.length > params.length) then
      let expected := if variadic then "at least " ++ toString params.length
        else toString params.length
      fail .e3011 func.span ("this function takes " ++ expected ++ " argument(s) but " ++
        toString args.length ++ " were supplied")
    for ((arg, found), param) in (args.zip argTypes).zip params do
      discard <| checkAssignable found param arg.span "for this argument"
    return ret

/-- The type of an element of an array or pointer. -/
def indexResult (array index : Expr) (base indexTy : TypeId) : CheckM TypeId := do
  if base.isError then return .error
  let p := (← get).pool
  match p.elem? base with
  | none =>
    fail .e3004 array.span ("cannot index into a value of type `" ++ (← fmt base) ++ "`")
    return .error
  | some elem =>
    if elem.isVoid then
      fail .e3004 array.span "cannot index through a `*void`"
      return .error
    if !indexTy.isError && !p.isIntegral indexTy then
      fail .e3004 index.span ("array index must be an integer, found `" ++ (← fmt indexTy) ++ "`")
    return elem

/-- The type of a member of a struct or union. -/
def accessResult (ty : TypeId) (member : String) (memberSpan : Span) : CheckM TypeId := do
  if ty.isError then return .error
  let p := (← get).pool
  match p.recordOf? ty with
  | none =>
    fail .e3003 memberSpan ("no member `" ++ member ++ "` on `" ++ (← fmt ty) ++
      "`, which is not a struct or union")
    return .error
  | some rid =>
    match (p.record rid).member? member with
    | some m => return m.ty
    | none =>
      fail .e3003 memberSpan ("`" ++ (← fmt ty) ++ "` has no member `" ++ member ++ "`")
      return .error

/-- The type of a cast, folding a constant operand when the cast is legal. -/
def castResult (id : Nat) (inner : Expr) (source target : TypeId) (signed : Bool) (span : Span) :
    CheckM TypeId := do
  if ← checkCast source target signed span then
    match ← constOf inner.id, ← valueWidth source, ← valueWidth target with
    | some v, some sourceW, some targetW => setConst id (some (convertWord v sourceW targetW signed))
    | _, _, _ => pure ()
  return target

/-- The type a pointer or array points to. -/
def derefResult (inner : Expr) (ty : TypeId) : CheckM TypeId := do
  if ty.isError then return .error
  match (← get).pool.elem? ty with
  | some elem =>
    if elem.isVoid then
      fail .e3004 inner.span "cannot dereference a `*void`"
      return .error
    return elem
  | none =>
    fail .e3004 inner.span ("cannot dereference a value of type `" ++ (← fmt ty) ++ "`")
    return .error

/-- The type of the address of a place or a function. -/
def addrOfResult (inner : Expr) (ty : TypeId) : CheckM TypeId := do
  if ty.isError then return .error
  let s ← get
  if s.isPlace inner || s.namesFunction inner then pointer ty
  else
    fail .e3008 inner.span "cannot take the address of this expression"
    return .error

/-- The type of a unary arithmetic operator, which takes an integer. -/
def unaryResult (id : Nat) (op : UnaryOp) (operand : Expr) (ty : TypeId) (span : Span) :
    CheckM TypeId := do
  if ty.isError then return .error
  match (← get).pool.intWidth? ty with
  | none =>
    fail .e3004 span ("`" ++ op.symbol ++ "` cannot be applied to `" ++ (← fmt ty) ++ "`")
    return .error
  | some w =>
    setConst id ((← constOf operand.id).map (w.foldUnary op))
    return ty

/-- The type of `sizeof`: a 16-bit constant, the size cut to 16 bits. -/
def sizeofResult (id : Nat) (ty : TypeId) (span : Span) : CheckM TypeId := do
  if ty.isError then return .error
  match ← sizeAlign ty with
  | some (size, _) =>
    setConst id (some (Width.w16.truncate size))
    return .int16
  | none =>
    if ty.isVoid then fail .e3005 span "`void` has no size"
    return .error

/-- The type of an assignment: that of its target, which must be a place and not an array. -/
def assignResult (op : Option BinaryOp) (target value : Expr) (targetTy valueTy : TypeId)
    (span : Span) : CheckM TypeId := do
  if targetTy.isError then return .error
  if !(← get).isPlace target then
    fail .e3008 target.span "cannot assign to this expression"
    return .error
  if (← get).isSizedArray targetTy then
    fail .e3008 target.span ("cannot assign to an array of type `" ++ (← fmt targetTy) ++ "`")
    return .error
  match op with
  | some op => discard <| arithResult op targetTy valueTy value span
  | none => discard <| checkAssignable valueTy targetTy value.span "in assignment"
  return targetTy

/-- The type of a name used as a value; a constant also gives its value. -/
def nameResult (id : Nat) (name : String) (span : Span) : CheckM TypeId := do
  match (← get).scopes.resolve name with
  | none =>
    report (unknownName span name)
    return .error
  | some sym =>
    bind id sym
    let symbol ← symbol sym
    match symbol.kind with
    | .type =>
      fail .e2007 span ("`" ++ name ++ "` is a type, not a value")
      return .error
    | .const =>
      setConst id symbol.value
      return symbol.ty
    | .var | .func => return symbol.ty

end Check

end SolarFront
