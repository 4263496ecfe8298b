import SolarFront.Syntax.Token.Scan
import SolarFront.Syntax.Token.Number
import SolarFront.Syntax.Token.Escape

/-!
Reading a source text into tokens. Each lexeme becomes a token, a comment, or nothing (blanks);
literals are cooked into values, and every problem is recorded as an error in the order met.
The token list ends with one end-of-file token at the end of the text.

A name that starts with `_` and an uppercase letter is reserved for library code unless
reserved names are allowed.
-/

set_option autoImplicit false
set_option linter.all false

namespace SolarFront

/-- Tokens, comments and errors of a source text. -/
structure Lexed where
  tokens : TokenList
  errors : List LexError
  deriving Inhabited

namespace Lexed

/-- Whether an error (not a warning) was found. -/
def hasErrors (l : Lexed) : Bool := l.errors.any (!·.isWarning)

end Lexed

namespace Lex

/-- Names starting with `_` and an ASCII uppercase letter. -/
def isReserved (name : List Char) : Bool :=
  match name with
  | '_' :: c :: _ => c.isUpper
  | _ => false

/-- Byte length of characters. -/
def byteLength (cs : List Char) : Nat := cs.foldl (fun n c => n + c.utf8Size) 0

/-- The text of a comment lexeme, delimiters removed and trimmed. -/
def commentText (kind : LexemeKind) (text : List Char) : String :=
  match kind with
  | .lineComment => Unicode.trim (String.ofList (text.dropWhile (· = '/')))
  | .blockComment closed =>
    let body := text.drop 2
    let body := if closed then body.take (body.length - 2) else body
    Unicode.trim (String.ofList body)
  | _ => ""

/-- Encoding, body and the byte offset of the body of a quoted literal lexeme. -/
def literalBody (text : List Char) (start : Nat) (terminated : Bool) :
    Encoding × List Char × Nat :=
  let (enc, rest) := match text with
    | 'w' :: r | 'W' :: r => (Encoding.wide, r)
    | _ => (Encoding.narrow, text)
  let body := rest.drop 1
  let body := if terminated then body.take (body.length - 1) else body
  (enc, body, start + (text.length - rest.length) + 1)

/-- What a lexeme adds: a token, a comment, and errors in the order found. -/
def cook (allowReserved : Bool) (kind : LexemeKind) (text : List Char) (span : Span) :
    Option Token × Option Comment × List LexError :=
  match kind with
  | .blank => (none, none, [])
  | .lineComment => (none, some ⟨span, commentText kind text⟩, [])
  | .blockComment closed =>
    (none, some ⟨span, commentText kind text⟩,
      if closed then [] else [⟨.unterminatedComment, span⟩])
  | .name =>
    let name := String.ofList text
    let errs := if !allowReserved && isReserved text then [⟨.reservedName name, span⟩] else []
    (some ⟨.ident, span, .name name⟩, none, errs)
  | .number =>
    match IntLiteral.cook text with
    | .ok (v, w) => (some ⟨.int, span, .int v w⟩, none, [])
    | .error p => (some ⟨.int, span, .int 0 .w16⟩, none, [⟨p, span⟩])
  | .str terminated =>
    let (enc, body, base) := literalBody text span.start terminated
    let (units, errs) := Escape.cookFrom ⟨enc, false⟩ base body
    let first := if terminated then [] else [⟨.unterminatedString, span⟩]
    (some ⟨.str, span, .str units enc⟩, none, first ++ errs)
  | .char terminated =>
    let (enc, body, base) := literalBody text span.start terminated
    let (units, errs) := Escape.cookFrom ⟨enc, true⟩ base body
    let last : List LexError :=
      if !terminated then [⟨.unterminatedChar, span⟩]
      else if units.isEmpty then [⟨.emptyChar, span⟩]
      else if units.length > 1 then [⟨.multiUnitChar, span⟩]
      else []
    (some ⟨.int, span, .int (units.headD 0) .w16⟩, none, errs ++ last)
  | .fixed k => (some ⟨k, span, .none⟩, none, [])
  | .invalid =>
    match text with
    | c :: _ => (none, none, [⟨.invalidCharacter c, span⟩])
    | [] => (none, none, [])

/-- Read the text from byte `pos` on, adding to what was read so far. -/
def run (allowReserved : Bool) (cs : List Char) (pos : Nat) (tokens : Array Token)
    (comments : Array Comment) (errors : Array LexError) :
    Array Token × Array Comment × Array LexError :=
  match cs with
  | [] => (tokens.push ⟨.eof, Span.point pos, .none⟩, comments, errors)
  | c :: rest =>
    let (kind, n) := Scan.lexeme (c :: rest)
    let n := max n 1
    let text := (c :: rest).take n
    let stop := pos + byteLength text
    let (tok, com, errs) := cook allowReserved kind text ⟨pos, stop⟩
    let tokens := match tok with | some t => tokens.push t | none => tokens
    let comments := match com with | some x => comments.push x | none => comments
    run allowReserved ((c :: rest).drop n) stop tokens comments (errors ++ errs.toArray)
termination_by cs.length
decreasing_by simp only [List.length_drop, List.length_cons]; omega

end Lex

/-- Read a source text into tokens. -/
def lex (source : String) (allowReserved : Bool := false) : Lexed :=
  let (tokens, comments, errors) := Lex.run allowReserved source.toList 0 #[] #[] #[]
  ⟨⟨tokens, comments.toList⟩, errors.toList⟩

end SolarFront
