/-!
Spans: half-open ranges of byte offsets into the UTF-8 source text. The empty span at offset
zero stands for "no position".
-/

set_option autoImplicit false
set_option linter.all false

namespace SolarFront

/-- A half-open range `[start, end)` of byte offsets into the source. -/
structure Span where
  start : Nat
  stop : Nat
  deriving Repr, DecidableEq, Inhabited, Hashable

namespace Span

/-- The span that stands for no position. -/
def dummy : Span := ⟨0, 0⟩

/-- The empty span at one offset. -/
def point (offset : Nat) : Span := ⟨offset, offset⟩

/-- The smallest span that covers both. -/
def merge (a b : Span) : Span := ⟨min a.start b.start, max a.stop b.stop⟩

/-- The span from the start of `a` to the end of `b`. -/
def upTo (a b : Span) : Span := ⟨a.start, b.stop⟩

/-- Whether `inner` lies wholly inside `outer`. -/
def within (inner outer : Span) : Bool := outer.start ≤ inner.start && inner.stop ≤ outer.stop

theorem merge_comm (a b : Span) : merge a b = merge b a := by
  simp only [merge, Nat.min_comm, Nat.max_comm]

end Span

end SolarFront
