import SolarFront.Syntax.Token.Error
import SolarFront.Text.Unicode

/-!
The units of string and character literals. A narrow literal has 8-bit units and holds ASCII
characters; a wide literal has 16-bit units and holds characters up to U+FFFF. A backslash
starts an escape:

* an octal digit, then up to five more digits from `1` to `7` (a `0` ends the escape);
* `\x` and one to four hex digits; `\u` and exactly four, in wide literals only;
* `\U` and exactly six, in string literals only, giving the code point's UTF-8 bytes
  (narrow) or UTF-16 units (wide);
* one of `a b t n v f r e d \ ' "` for a control or quoting character.

Any other escaped character stands for itself, with a warning. A character that does not fit
a unit, and an escape value larger than a unit, become `?` (0x3F) with an error.
-/

set_option autoImplicit false
set_option linter.all false

namespace SolarFront

/-- What the units of a literal depend on. -/
structure LiteralContext where
  encoding : Encoding
  isChar : Bool
  deriving Repr, Inhabited

namespace LiteralContext

/-- The largest unit. -/
def maxUnit (ctx : LiteralContext) : Nat :=
  match ctx.encoding with
  | .narrow => 0xFF
  | .wide => 0xFFFF

end LiteralContext

/-- The unit that stands for a character or value that does not fit. -/
def replacementUnit : Nat := 0x3F

namespace Escape

/-- The unit of a one-letter escape. -/
def simple (c : Char) : Option Nat :=
  match c with
  | 'a' => some 0x07
  | 'b' => some 0x08
  | 't' => some 0x09
  | 'n' => some 0x0A
  | 'v' => some 0x0B
  | 'f' => some 0x0C
  | 'r' => some 0x0D
  | 'e' => some 0x1B
  | 'd' => some 0x7F
  | '\\' => some 0x5C
  | '\'' => some 0x27
  | '"' => some 0x22
  | _ => none

/-- The value and number of the leading hex digits, at most `max` of them. -/
def hexRun (max : Nat) : List Char → Nat × Nat
  | [] => (0, 0)
  | c :: cs =>
    match max, c.isHexDigit with
    | m + 1, true =>
      let d := if c.isDigit then c.toNat - 48 else (c.toLower.toNat - 87)
      let (v, n) := hexRun m cs
      (d * Nat.pow 16 n + v, n + 1)
    | _, _ => (0, 0)

/-- The value and number of the leading digits from `1` to `7`, at most `max` of them. -/
def octalRun (max : Nat) : List Char → Nat × Nat
  | [] => (0, 0)
  | c :: cs =>
    match max with
    | m + 1 =>
      if '1' ≤ c && c ≤ '7' then
        let (v, n) := octalRun m cs
        ((c.toNat - 48) * Nat.pow 8 n + v, n + 1)
      else (0, 0)
    | 0 => (0, 0)

/-- The unit of a character, or an error and the replacement unit. -/
def charUnit (ctx : LiteralContext) (c : Char) (span : Span) : Nat × List LexError :=
  let fits : Bool := match ctx.encoding with
    | .narrow => c.toNat < 0x80
    | .wide => c.toNat ≤ 0xFFFF
  if fits then (c.toNat, []) else (replacementUnit, [⟨.notRepresentable c ctx.encoding, span⟩])

/-- The unit of an escape's value, or an error and the replacement unit. -/
def numericUnit (ctx : LiteralContext) (value : Nat) (span : Span) : Nat × List LexError :=
  if value ≤ ctx.maxUnit then (value, [])
  else (replacementUnit, [⟨.invalidEscape .unitOverflow, span⟩])

/-- The units of a `\U` code point. -/
def codePointUnits (ctx : LiteralContext) (cp : Nat) (span : Span) :
    List Nat × List LexError :=
  if cp > 0x10FFFF then ([], [⟨.invalidEscape .beyondUnicode, span⟩])
  else if Unicode.isSurrogate cp then ([], [⟨.invalidEscape .surrogate, span⟩])
  else
    match ctx.encoding with
    | .narrow => (Unicode.utf8Bytes cp, [])
    | .wide => (Unicode.utf16Units cp, [])

/-- The units of an escape whose letter `esc` is followed by `more`, the escape starting at
byte `start` and its letter ending at byte `stop`; also the number of characters of `more` it
takes. -/
def escapeUnits (ctx : LiteralContext) (esc : Char) (more : List Char) (start stop : Nat) :
    List Nat × List LexError × Nat :=
  if '0' ≤ esc && esc ≤ '7' then
    let (v, n) := octalRun 5 more
    let (u, es) := numericUnit ctx ((esc.toNat - 48) * Nat.pow 8 n + v) ⟨start, stop + n⟩
    ([u], es, n)
  else if esc = 'x' then
    let (v, n) := hexRun 4 more
    if n = 0 then ([], [⟨.invalidEscape .noHexDigit, ⟨start, stop⟩⟩], 0)
    else
      let (u, es) := numericUnit ctx v ⟨start, stop + n⟩
      ([u], es, n)
  else if esc = 'u' then
    let (v, n) := hexRun 4 more
    let span : Span := ⟨start, stop + n⟩
    if n ≠ 4 then ([], [⟨.invalidEscape .needsFourHex, span⟩], n)
    else if ctx.encoding = .narrow then ([], [⟨.invalidEscape .fourHexNarrow, span⟩], n)
    else
      let (u, es) := numericUnit ctx v span
      ([u], es, n)
  else if esc = 'U' then
    let (v, n) := hexRun 6 more
    let span : Span := ⟨start, stop + n⟩
    if n ≠ 6 then ([], [⟨.invalidEscape .needsSixHex, span⟩], n)
    else if ctx.isChar then ([], [⟨.invalidEscape .sixHexInChar, span⟩], n)
    else
      let (us, es) := codePointUnits ctx v span
      (us, es, n)
  else
    match simple esc with
    | some u => ([u], [], 0)
    | none =>
      let span : Span := ⟨start, stop⟩
      let (u, es) := charUnit ctx esc span
      ([u], ⟨.unknownEscape esc, span⟩ :: es, 0)

/-- The units of a literal body whose first character starts at byte `pos`, and the errors
found, in order. A backslash at the very end is dropped. -/
def cookFrom (ctx : LiteralContext) (pos : Nat) : List Char → List Nat × List LexError
  | [] => ([], [])
  | c :: rest =>
    if c ≠ '\\' then
      let (u, es) := charUnit ctx c ⟨pos, pos + c.utf8Size⟩
      let (us, es') := cookFrom ctx (pos + c.utf8Size) rest
      (u :: us, es ++ es')
    else
      match rest with
      | [] => ([], [])
      | esc :: more =>
        let stop := pos + 1 + esc.utf8Size
        let (us, es, n) := escapeUnits ctx esc more pos stop
        -- The digits an escape takes are ASCII, one byte each.
        let (us', es') := cookFrom ctx (stop + n) (more.drop n)
        (us ++ us', es ++ es')
termination_by cs => cs.length
decreasing_by all_goals simp only [List.length_cons, List.length_drop]; omega

end Escape

end SolarFront
