import SolarFront.Diagnostic.Basic

/-!
Collecting diagnostics. Of diagnostics with the same code, position and message only the first
is kept, and the kept ones are ordered by the start of their position, stably, with those
without a position first.
-/

set_option autoImplicit false
set_option linter.all false

namespace SolarFront

namespace Diagnostic

/-- What makes two diagnostics the same report. -/
def key (d : Diagnostic) : Code × Option Span × String := (d.code, d.primarySpan?, d.message)

/-- Keep the first diagnostic of each key, given the keys already seen. -/
def dedupFrom : List (Code × Option Span × String) → List Diagnostic → List Diagnostic
  | _, [] => []
  | seen, d :: ds =>
    if seen.contains d.key then dedupFrom seen ds else d :: dedupFrom (d.key :: seen) ds

/-- Keep the first diagnostic of each key. -/
def dedup (ds : List Diagnostic) : List Diagnostic := dedupFrom [] ds

/-- The start of the position, absent ones first. -/
def sortKey (d : Diagnostic) : Option Nat := d.primarySpan?.map (·.start)

/-- Whether `a` may stand before `b`. -/
def startsNoLater (a b : Diagnostic) : Bool :=
  match a.sortKey, b.sortKey with
  | none, _ => true
  | some _, none => false
  | some x, some y => x ≤ y

/-- Deduplicate and order by position. -/
def collect (ds : List Diagnostic) : List Diagnostic := (dedup ds).mergeSort startsNoLater

end Diagnostic

end SolarFront
