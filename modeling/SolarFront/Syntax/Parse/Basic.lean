import SolarFront.Syntax.Tree
import SolarFront.Diagnostic.Basic

/-!
The parser's state and its primitive steps. The parser reads a token list that ends in the
end-of-file token; reading never moves past it, and looking past it sees it again. A parse
error carries a code, a message, the span it points at, what was expected there and, for some,
a second span. Errors that the parser survives are collected in order; an error that unwinds a
construct is thrown and caught where recovery takes place.

Nesting is limited: every construct that may contain itself enters one level, and entering
more than 512 levels is an error.
-/

set_option autoImplicit false
set_option linter.all false

namespace SolarFront

/-- A grammar error. -/
structure ParseError where
  code : Code
  message : String
  span : Span
  context : Option String := none
  related : Option (Span × String) := none
  deriving Repr, Inhabited

namespace ParseError

/-- `expected X, found Y`, where X is a list of token kinds. -/
def unexpected (expected : List TokenKind) (found : TokenKind) (span : Span) : ParseError :=
  let wanted := match expected with
    | [] => "something else"
    | [one] => one.display
    | many => "one of " ++ ", ".intercalate (many.map TokenKind.display)
  { code := .e1001, message := "expected " ++ wanted ++ ", found " ++ found.display, span }

/-- `expected X, found Y`, where X names a construct. -/
def expectedConstruct (what : String) (found : TokenKind) (span : Span) : ParseError :=
  { code := .e1001, message := "expected " ++ what ++ ", found " ++ found.display, span,
    context := some ("expected " ++ what) }

/-- The end of the text inside a block: the one error that ends the parse. -/
def unterminatedBlock (open_ eof : Span) : ParseError :=
  { code := .e1002, message := "unterminated block", span := eof,
    context := some "expected `\x7d` before end of file",
    related := some (open_, "block opened here") }

/-- Too deep a nesting. -/
def nestingTooDeep (span : Span) (limit : Nat) : ParseError :=
  { code := .e1006, message := s!"nesting exceeds the limit of {limit} levels", span }

/-- Only an unterminated block stops the parse. -/
def isFatal (e : ParseError) : Bool := e.code == .e1002

/-- The diagnostic of the error. -/
def toDiagnostic (e : ParseError) : Diagnostic :=
  let d := (Diagnostic.error e.code e.message).withLabel e.span (e.context.getD "here")
  match e.related with
  | some (span, text) => d.withSecondary span text
  | none => d

end ParseError

/-- The deepest nesting the parser enters. -/
def nestingLimit : Nat := 512

/-- Where the parser stands. -/
structure ParseState where
  tokens : Array Token
  comments : List Comment
  pos : Nat := 0
  depth : Nat := 0
  nextId : Nat := 0
  errors : Array ParseError := #[]
  deriving Inhabited

/-- Parsing: errors unwind, the state stays. -/
abbrev Parser := ExceptT ParseError (StateM ParseState)

namespace Parser

/-- The token at `n` places ahead, or the last token when that is past the end. -/
def peekAt (s : ParseState) (n : Nat) : Token :=
  s.tokens[min (s.pos + n) (s.tokens.size - 1)]?.getD ⟨.eof, Span.dummy, .none⟩

def current : Parser Token := do return peekAt (← get) 0

def currentKind : Parser TokenKind := do return (peekAt (← get) 0).kind

def currentSpan : Parser Span := do return (peekAt (← get) 0).span

def peekKind (n : Nat) : Parser TokenKind := do return (peekAt (← get) n).kind

/-- The span of the token before the current one, or the dummy span at the start. -/
def previousSpan : Parser Span := do
  let s ← get
  match s.pos with
  | 0 => return Span.dummy
  | p + 1 => return (s.tokens[p]?.map (·.span)).getD Span.dummy

def atEnd : Parser Bool := do return (← currentKind) == .eof

def check (k : TokenKind) : Parser Bool := do return (← currentKind) == k

/-- Move past the current token, unless it is the end of file; returns it. -/
def advance : Parser Token := do
  let t ← current
  if t.kind != .eof then modify fun s => { s with pos := s.pos + 1 }
  return t

/-- Move past the current token if it is of the kind. -/
def eat (k : TokenKind) : Parser Bool := do
  if ← check k then
    let _ ← advance
    return true
  else return false

/-- The current token, which must be of the kind. -/
def expect (k : TokenKind) : Parser Token := do
  let t ← current
  if t.kind == k then advance
  else throw { ParseError.unexpected [k] t.kind t.span with context := some ("expected " ++ k.display) }

/-- The current token, which must be a name. -/
def expectIdent : Parser (String × Span) := do
  let t ← current
  match t.kind, t.value with
  | .ident, .name n =>
    let _ ← advance
    return (n, t.span)
  | _, _ => throw (ParseError.expectedConstruct "identifier" t.kind t.span)

/-- The current token, which must be an integer literal. -/
def expectInt : Parser (Nat × Span) := do
  let t ← current
  match t.kind, t.value with
  | .int, .int v _ =>
    let _ ← advance
    return (v, t.span)
  | _, _ => throw (ParseError.expectedConstruct "integer literal" t.kind t.span)

/-- The span from `start` to the end of the last token read. -/
def spanFrom (start : Span) : Parser Span := do return start.merge (← previousSpan)

/-- A fresh node identifier. -/
def freshId : Parser Nat := modifyGet fun s => (s.nextId, { s with nextId := s.nextId + 1 })

/-- Record an error and go on. -/
def report (e : ParseError) : Parser Unit := modify fun s => { s with errors := s.errors.push e }

/-- Run a construct one nesting level deeper; the level is left again however it ends. -/
def nested {α : Type} (x : Parser α) : Parser α := do
  let s ← get
  if s.depth ≥ nestingLimit then throw (ParseError.nestingTooDeep (peekAt s 0).span nestingLimit)
  set { s with depth := s.depth + 1 }
  let r ← tryCatch x fun e => do
    modify fun s => { s with depth := s.depth - 1 }
    throw e
  modify fun s => { s with depth := s.depth - 1 }
  return r

/-- The `}` that closes a construct opened at `open_`; the end of file here ends the parse. -/
def expectCloseBrace (open_ : Span) : Parser Unit := do
  if ← atEnd then throw (ParseError.unterminatedBlock open_ (← currentSpan))
  let _ ← expect .rBrace

/-- Skip to the next boundary after an error: past the next `;` outside brackets, past the `}`
that closes a block opened while skipping (and one `;` after it), or up to a `}` that closes an
enclosing block. Brackets are counted from where skipping starts. -/
def synchronizeFrom (tokens : Array Token) : Nat → Nat → Nat → Nat
  | 0, _, pos => pos
  | fuel + 1, depth, pos =>
    let k := (tokens[pos]?.map (·.kind)).getD .eof
    let next := pos + 1
    match k with
    | .eof => pos
    | .semicolon => if depth = 0 then next else synchronizeFrom tokens fuel depth next
    | .rBrace =>
      if depth = 0 then pos
      else if depth = 1 then
        if (tokens[next]?.map (·.kind)) = some .semicolon then next + 1 else next
      else synchronizeFrom tokens fuel (depth - 1) next
    | .lBrace | .lParen | .lBracket => synchronizeFrom tokens fuel (depth + 1) next
    | .rParen | .rBracket =>
      synchronizeFrom tokens fuel (if depth > 0 then depth - 1 else depth) next
    | _ => synchronizeFrom tokens fuel depth next

/-- Record an error and skip to the next boundary. -/
def recover (e : ParseError) : Parser Unit := do
  report e
  modify fun s => { s with pos := synchronizeFrom s.tokens s.tokens.size 0 s.pos }

end Parser

end SolarFront
