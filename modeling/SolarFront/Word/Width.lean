/-!
Integer widths of the target machine and the two readings of a word at a width: the unsigned
value of its low bits and the two's-complement value of the same bits.
-/

set_option autoImplicit false
set_option linter.all false

namespace SolarFront

/-- The widths of the target's integer types. -/
inductive Width where
  | w8
  | w16
  | w32
  deriving Repr, DecidableEq, Inhabited, Ord

namespace Width

/-- Number of bits of the width. -/
def bits : Width → Nat
  | .w8 => 8
  | .w16 => 16
  | .w32 => 32

/-- Number of bytes of the width. -/
def bytes (w : Width) : Nat := w.bits / 8

/-- Number of distinct values at the width. -/
def modulus (w : Width) : Nat := Nat.pow 2 w.bits

/-- The width with the given number of bits, if there is one. -/
def ofBits? : Nat → Option Width
  | 8 => some .w8
  | 16 => some .w16
  | 32 => some .w32
  | _ => none

/-- The wider of two widths. -/
def max (a b : Width) : Width := if a.bits ≤ b.bits then b else a

/-- The low bits of a value at the width. -/
def truncate (w : Width) (value : Nat) : Nat := value % w.modulus

/-- The two's-complement reading of the low bits of a value at the width. -/
def signExtend (w : Width) (value : Nat) : Int :=
  let low := w.truncate value
  if low < Nat.pow 2 (w.bits - 1) then (low : Int) else (low : Int) - w.modulus

/-- The bits of a signed value at the width. -/
def ofSigned (w : Width) (value : Int) : Nat := (value % (w.modulus : Int)).toNat

theorem bits_pos (w : Width) : 0 < w.bits := by cases w <;> decide

theorem bits_le (w : Width) : w.bits ≤ 32 := by cases w <;> decide

theorem modulus_pos (w : Width) : 0 < w.modulus := Nat.pow_pos (by decide)

@[simp] theorem truncate_lt (w : Width) (value : Nat) : w.truncate value < w.modulus :=
  Nat.mod_lt _ w.modulus_pos

end Width

end SolarFront
