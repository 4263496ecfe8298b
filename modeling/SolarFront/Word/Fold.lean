import SolarFront.Word.Width
import SolarFront.Syntax.Operator

/-!
Constant folding: each operator applied to words of one width, the way the target computes
it. Operands are first cut to the width; signed operators read the cut bits in two's
complement, and every result is cut to the width again. Division and remainder by zero have
no value.
-/

set_option autoImplicit false
set_option linter.all false

namespace SolarFront

namespace Width

/-- A prefix operator applied at the width. -/
def foldUnary (w : Width) (op : UnaryOp) (value : Nat) : Nat :=
  match op with
  | .plus => w.truncate value
  | .neg => w.truncate (Nat.pow 2 32 - value % Nat.pow 2 32)
  | .bitNot => w.truncate (Nat.pow 2 32 - 1 - value % Nat.pow 2 32)

/-- Logical negation: one for zero, zero for anything else. -/
def foldNot (value : Nat) : Nat := if value = 0 then 1 else 0

/-- An arithmetic operator applied at the width; `none` on division or remainder by zero.
Shifts by the width or more give zero, except the signed right shift, which shifts by at most
one less than the width. -/
def foldBinary (w : Width) (op : BinaryOp) (left right : Nat) : Option Nat :=
  let l := w.truncate left
  let r := w.truncate right
  let sl := w.signExtend l
  let sr := w.signExtend r
  match op with
  | .add => some (w.truncate (l + r))
  | .sub => some (w.truncate (l + w.modulus - r))
  | .mul => some (w.truncate (l * r))
  | .udiv => if r = 0 then none else some (w.truncate (l / r))
  | .umod => if r = 0 then none else some (w.truncate (l % r))
  | .sdiv => if sr = 0 then none else some (w.ofSigned (sl.tdiv sr))
  | .smod => if sr = 0 then none else some (w.ofSigned (sl.tmod sr))
  | .shl => some (if r ≥ w.bits then 0 else w.truncate (l * Nat.pow 2 r))
  | .shr => some (if r ≥ w.bits then 0 else w.truncate (l / Nat.pow 2 r))
  -- Division by a positive power of two rounds toward negative infinity, as a shift does.
  | .sar => some (w.ofSigned (sl / (Nat.pow 2 (min r (w.bits - 1)) : Nat)))
  | .bitAnd => some (w.truncate (l &&& r))
  | .bitXor => some (w.truncate (l ^^^ r))
  | .bitOr => some (w.truncate (l ||| r))

/-- A condition operator applied at the width: one if it holds, zero if not. -/
def foldCond (w : Width) (op : CondOp) (left right : Nat) : Nat :=
  let l := w.truncate left
  let r := w.truncate right
  let sl := w.signExtend l
  let sr := w.signExtend r
  let holds : Bool :=
    match op with
    | .and => l != 0 && r != 0
    | .or => l != 0 || r != 0
    | .eq => l == r
    | .notEq => l != r
    | .ult => decide (l < r)
    | .ulte => decide (l ≤ r)
    | .ugt => decide (l > r)
    | .ugte => decide (l ≥ r)
    | .slt => decide (sl < sr)
    | .slte => decide (sl ≤ sr)
    | .sgt => decide (sl > sr)
    | .sgte => decide (sl ≥ sr)
  if holds then 1 else 0

end Width

/-- A value of width `source` converted to width `target`: the source bits are kept and cut,
and a signed conversion first extends the sign of the source. -/
def convertWord (value : Nat) (source target : Width) (signed : Bool) : Nat :=
  let bits := source.truncate value
  if signed then target.ofSigned (source.signExtend bits) else target.truncate bits

end SolarFront
