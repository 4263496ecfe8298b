import SolarFront.Check.State
import SolarFront.Typing.Equivalence

/-!
Implicit conversions and casts. Integers convert to one another; a sized array converts to a
pointer to its element; a pointer to `void` converts to and from any pointer; a function
converts to a pointer to itself. A cast converts freely among integers, pointers, arrays and
functions, needs an integer target when it is signed, and takes a record only to a record of
the same structure.
-/

set_option autoImplicit false
set_option linter.all false

namespace SolarFront

namespace TypePool

/-- Whether a value of type `source` may be stored into `target` without a cast. -/
def isAssignable (p : TypePool) (source target : TypeId) : Bool :=
  if source == target || source.isError || target.isError then true
  else if p.isIntegral source && p.isIntegral target then true
  else
    match p.get target with
    | .array targetElem none =>
      match p.get source with
      | .array elem _ => elem == targetElem || elem.isVoid || targetElem.isVoid
      | .func .. => targetElem == source || targetElem.isVoid
      | _ => false
    | _ => false

/-- Whether a cast between two types that are neither `void` nor the error type is legal. -/
def castIsLegal (p : TypePool) (source target : TypeId) (signed : Bool) : Bool :=
  if signed && !p.isIntegral target then false
  else if p.isScalar source && p.isScalar target then true
  else (p.recordOf? source).isSome && (p.recordOf? target).isSome &&
    p.structurallyEqual source target

end TypePool

namespace Check

open CheckM

/-- The message of a value of type `void` where a value is needed. -/
def voidValueMessage : String := "`void` value used where a value is required"

/-- Report a mismatch unless a value of type `found` may be stored into `expected`; whether
it may. -/
def checkAssignable (found expected : TypeId) (span : Span) (context : String) :
    CheckM Bool := do
  if found.isVoid then
    fail .e3014 span voidValueMessage
    return false
  if (← get).pool.isAssignable found expected then return true
  report (typeMismatch span (← fmt expected) (← fmt found) context)
  return false

/-- Check `source as target` (or the signed cast when `signed`); whether it is legal. -/
def checkCast (source target : TypeId) (signed : Bool) (span : Span) : CheckM Bool := do
  if target.isVoid then
    fail .e3001 span "cannot cast to `void`"
    return false
  if source.isVoid then
    fail .e3014 span "cannot cast a `void` value"
    return false
  if source.isError || target.isError then return false
  let p := (← get).pool
  let legal := p.castIsLegal source target signed
  if !legal then
    let d := incompatibleCast span (← fmt source) (← fmt target)
    report (if signed && !p.isIntegral target then d.withNote "`as$` needs an integer target type"
      else d)
  return legal

end Check

end SolarFront
