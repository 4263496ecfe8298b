import SolarFront.Syntax.Parse.Grammar

/-!
Parsing a whole token list. Declarations are read until the end of file. After an error the
parser records it and skips to the next boundary, moving at least one token so that it always
gets on; an unterminated block ends the parse.
-/

set_option autoImplicit false
set_option linter.all false

namespace SolarFront

/-- The declarations of a token list, the grammar errors in the order found, and the number of
node identifiers handed out. -/
structure Parsed where
  module : Module
  errors : List ParseError
  nodeCount : Nat
  deriving Inhabited

namespace Parser

/-- Fuel for one declaration: more than the calls any token list can need. -/
def declFuel (s : ParseState) : Nat := 64 * (s.tokens.size + 2)

/-- What became of one attempt at a declaration. -/
inductive Attempt where
  | parsed (d : Decl)
  | skipped
  | stopped

/-- One attempt at a declaration. After an error the parser records it and skips to the next
boundary, and moves one token further when skipping did not move. -/
def declAttempt : Parser Attempt := do
  let before := (← get).pos
  tryCatch (Attempt.parsed <$> parseDecl (declFuel (← get))) fun e => do
    if e.isFatal then
      report e
      return .stopped
    recover e
    if (← get).pos == before then
      let _ ← advance
    return .skipped

/-- Read declarations until the end of file or an unterminated block, at most `fuel` of them,
after those in `acc` (latest first). -/
def parseDecls : Nat → List Decl → Parser (List Decl)
  | 0, acc => return acc.reverse
  | fuel + 1, acc => do
    if ← atEnd then return acc.reverse
    match ← declAttempt with
    | .parsed d => parseDecls fuel (d :: acc)
    | .skipped => parseDecls fuel acc
    | .stopped => return acc.reverse

end Parser

/-- Parse a token list. -/
def parse (tokens : TokenList) : Parsed :=
  let init : ParseState := { tokens := tokens.tokens, comments := tokens.comments }
  let (r, s) := (Parser.parseDecls (tokens.tokens.size + 1) []).run.run init
  let decls := match r with
    | .ok ds => ds
    | .error _ => []
  ⟨⟨decls⟩, s.errors.toList, s.nextId⟩

end SolarFront
