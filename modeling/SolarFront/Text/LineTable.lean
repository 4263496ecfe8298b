/-!
Line and column of a byte offset. Lines start at offset zero and after every newline byte;
columns count characters from the start of the line. Both are numbered from one. An offset
past the end of the text counts as the end, and an offset inside a multi-byte character has
column one.
-/

set_option autoImplicit false
set_option linter.all false

namespace SolarFront

/-- The byte offsets at which the lines of a text start, in increasing order. -/
structure LineTable where
  starts : List Nat
  deriving Repr, Inhabited

namespace LineTable

/-- Line starts after each newline among characters that begin at byte `pos`. -/
def newlineStarts : List Char → Nat → List Nat
  | [], _ => []
  | c :: cs, pos =>
    let next := pos + c.utf8Size
    if c = '\n' then next :: newlineStarts cs next else newlineStarts cs next

/-- The table of a text. -/
def build (text : String) : LineTable := ⟨0 :: newlineStarts text.toList 0⟩

/-- Number of lines of the text: one more than the number of newlines. -/
def lineCount (t : LineTable) : Nat := t.starts.length

/-- The one-based line holding `offset`: the number of line starts at or before it. -/
def line (t : LineTable) (offset : Nat) : Nat := (t.starts.filter (· ≤ offset)).length

/-- Number of characters between byte `start` and byte `stop` of a text whose characters
begin at byte `pos`; `none` when `stop` falls inside a character. -/
def charsBetween : List Char → Nat → Nat → Nat → Option Nat
  | [], pos, _, stop => if pos = stop then some 0 else none
  | c :: cs, pos, start, stop =>
    if stop ≤ pos then (if stop = pos then some 0 else none)
    else
      let rest := charsBetween cs (pos + c.utf8Size) start stop
      if start ≤ pos then rest.map (· + 1) else rest

/-- The one-based line and column of a byte offset of `text`. -/
def lineCol (t : LineTable) (text : String) (offset : Nat) : Nat × Nat :=
  let line := t.line offset
  let lineStart := (t.starts[line - 1]?).getD 0
  let stop := max (min offset text.utf8ByteSize) lineStart
  let col := (charsBetween text.toList 0 lineStart stop).getD 0
  (line, col + 1)

end LineTable

end SolarFront
