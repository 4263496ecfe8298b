import SolarFront.Syntax.Token

/-!
Splitting source text into lexemes by longest match. At each point the rule that matches the
longest text wins; a keyword wins over a name of the same length. Blanks (space, tab, carriage
return, newline, vertical tab, form feed) separate lexemes and are dropped. A character no rule
matches is a lexeme of its own, an invalid one.

* a line comment runs from `//` to the end of the line; a block comment from `/*` to the next
  `*/`, or to the end of the text when there is none;
* a name is a letter or `_` followed by letters, digits and `_`;
* a number is a digit followed by letters, digits and `_`;
* a string is `"`, then characters other than `"`, `\` and newline or a `\` with any character
  but newline, then `"`; without the closing `"` it ends before the newline or the end of the
  text, taking one final `\` if there is one. Character literals are the same with `'`. Either
  may start with `w` or `W` for a wide literal.
-/

set_option autoImplicit false
set_option linter.all false

namespace SolarFront

/-- What a lexeme is. -/
inductive LexemeKind where
  | blank
  | lineComment
  | blockComment (closed : Bool)
  | name
  | number
  | str (terminated : Bool)
  | char (terminated : Bool)
  | fixed (kind : TokenKind)
  | invalid
  deriving DecidableEq, Repr, Inhabited

namespace Scan

/-- The blank characters between lexemes. -/
def isBlank (c : Char) : Bool :=
  c = ' ' || c = '\t' || c = '\r' || c = '\n' || c = '\x0B' || c = '\x0C'

def isNameStart (c : Char) : Bool := c.isAlpha || c = '_'

def isNameChar (c : Char) : Bool := c.isAlphanum || c = '_'

/-- Length of the longest run of characters satisfying `p`. -/
def runLength (p : Char → Bool) (cs : List Char) : Nat := (cs.takeWhile p).length

/-- Length of the body of a quoted literal: plain characters other than the quote and newline,
and backslash pairs whose second character is not a newline. -/
def bodyLength (quote : Char) : List Char → Nat
  | [] => 0
  | c :: rest =>
    if c = quote || c = '\n' then 0
    else if c = '\\' then
      match rest with
      | d :: rest' => if d = '\n' then 0 else 2 + bodyLength quote rest'
      | [] => 0
    else 1 + bodyLength quote rest

/-- A quoted literal opening with `quote` (after an optional wide prefix) at the front of `cs`:
whether it is terminated, and its length. -/
def quoted (quote : Char) (cs : List Char) : Option (Bool × Nat) :=
  let (prefixLen, rest) := match cs with
    | c :: d :: r => if (c = 'w' || c = 'W') && d = quote then (1, d :: r) else (0, cs)
    | _ => (0, cs)
  match rest with
  | q :: body =>
    if q ≠ quote then none
    else
      let n := bodyLength quote body
      match body.drop n with
      | c :: _ =>
        if c = quote then some (true, prefixLen + n + 2)
        else if c = '\\' then some (false, prefixLen + n + 2)
        else some (false, prefixLen + n + 1)
      | [] => some (false, prefixLen + n + 1)
  | [] => none

/-- The longest fixed spelling at the front of `cs`, keywords listed before punctuation. -/
def longestFixed (cs : List Char) : Option (TokenKind × Nat) :=
  (TokenKind.keywords ++ TokenKind.punctuation).foldl (fun best (text, kind) =>
    let t := text.toList
    if t.isPrefixOf cs then
      match best with
      | some (_, n) => if t.length > n then some (kind, t.length) else best
      | none => some (kind, t.length)
    else best) none

/-- Length of a block comment at the front of `cs` (which starts with `/*`), and whether it is
closed. -/
def blockComment (rest : List Char) : Bool × Nat :=
  let rec go : List Char → Nat → Bool × Nat
    | '*' :: '/' :: _, n => (true, n + 2)
    | _ :: r, n => go r (n + 1)
    | [], n => (false, n)
  go rest 2

/-- The lexeme at the front of a nonempty text: its kind and its length in characters. -/
def lexeme (cs : List Char) : LexemeKind × Nat :=
  match cs with
  | [] => (.invalid, 1)
  | c :: rest =>
    if isBlank c then (.blank, runLength isBlank cs)
    else if c = '/' && rest.head? = some '/' then (.lineComment, runLength (· ≠ '\n') cs)
    else if c = '/' && rest.head? = some '*' then
      let (closed, n) := blockComment (rest.drop 1)
      (.blockComment closed, n)
    else
      -- Candidates in order of priority; the first of the greatest length wins.
      let fixed := (longestFixed cs).map fun (k, n) => (LexemeKind.fixed k, n)
      let name := if isNameStart c then some (LexemeKind.name, runLength isNameChar cs) else none
      let number := if c.isDigit then some (LexemeKind.number, 1 + runLength isNameChar rest)
        else none
      let str := (quoted '"' cs).map fun (t, n) => (LexemeKind.str t, n)
      let chr := (quoted '\'' cs).map fun (t, n) => (LexemeKind.char t, n)
      let best := [fixed, name, number, str, chr].foldl (fun best cand =>
        match best, cand with
        | some (_, n), some (k, m) => if m > n then some (k, m) else best
        | none, some km => some km
        | _, none => best) none
      best.getD (.invalid, 1)

end Scan

end SolarFront
