import SolarFront.Syntax.Token.Error

/-!
Integer literals. A literal is an optional base prefix (`0x`, `0o`, `0b`, either case), digits
of that base, and an optional width suffix: `l` for 32 bits, `p` for a pointer, none for 16
bits. The value must fit the width. Digits are read left to right: the first digit that does
not belong to the base is the error, unless the value has already passed 64 bits.
-/

set_option autoImplicit false
set_option linter.all false

namespace SolarFront

namespace IntLiteral

/-- The base named by a prefix and the text after it; base ten without a prefix. -/
def splitBase : List Char → Nat × List Char
  | '0' :: 'x' :: r | '0' :: 'X' :: r => (16, r)
  | '0' :: 'o' :: r | '0' :: 'O' :: r => (8, r)
  | '0' :: 'b' :: r | '0' :: 'B' :: r => (2, r)
  | s => (10, s)

/-- The width named by a suffix and the digits before it. -/
def splitWidth (body : List Char) : LitWidth × List Char :=
  match body.getLast? with
  | some 'l' | some 'L' => (.w32, body.dropLast)
  | some 'p' | some 'P' => (.ptr, body.dropLast)
  | _ => (.w16, body)

/-- The value of a digit in a base up to 36, letters counting from ten in either case. -/
def digitValue (base : Nat) (c : Char) : Option Nat :=
  let n := c.toNat
  let v :=
    if 48 ≤ n && n ≤ 57 then some (n - 48)
    else if 97 ≤ n && n ≤ 122 then some (n - 87)
    else if 65 ≤ n && n ≤ 90 then some (n - 55)
    else none
  v.bind fun d => if d < base then some d else none

/-- The largest value of a 64-bit accumulator. -/
def accumulatorMax : Nat := Nat.pow 2 64 - 1

/-- Read digits onto `acc`, stopping at the first bad digit or when the value passes the
accumulator. -/
def readDigits (base bits : Nat) (acc : Nat) : List Char → Except LexProblem Nat
  | [] => .ok acc
  | c :: cs =>
    match digitValue base c with
    | none => .error (.invalidDigit c base)
    | some d =>
      let v := acc * base + d
      if v > accumulatorMax then .error (.intOverflow bits) else readDigits base bits v cs

/-- The value and width of a literal's text. -/
def cook (text : List Char) : Except LexProblem (Nat × LitWidth) :=
  let (base, body) := splitBase text
  let (width, digits) := splitWidth body
  if digits.isEmpty then .error .missingDigits
  else
    match readDigits base width.bits 0 digits with
    | .error e => .error e
    | .ok v => if v > width.maxValue then .error (.intOverflow width.bits) else .ok (v, width)

end IntLiteral

end SolarFront
