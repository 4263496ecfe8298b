import SolarFront.Syntax.Token
import SolarFront.Diagnostic.Basic

/-!
Errors found while reading characters into tokens. Reading never stops at an error: the
error is recorded and a token is still produced.
-/

set_option autoImplicit false
set_option linter.all false

namespace SolarFront

/-- Why an escape sequence is invalid. -/
inductive EscapeProblem where
  | noHexDigit
  | needsFourHex
  | fourHexNarrow
  | needsSixHex
  | sixHexInChar
  | beyondUnicode
  | surrogate
  | unitOverflow
  deriving DecidableEq, Repr, Inhabited

/-- The problem in words. -/
def EscapeProblem.text : EscapeProblem → String
  | .noHexDigit => "`\\x` needs at least one hex digit"
  | .needsFourHex => "`\\u` needs exactly 4 hex digits"
  | .fourHexNarrow => "`\\u` is only allowed in wide literals"
  | .needsSixHex => "`\\U` needs exactly 6 hex digits"
  | .sixHexInChar => "`\\U` is not allowed in character literals"
  | .beyondUnicode => "`\\U` escape is beyond U+10FFFF"
  | .surrogate => "`\\U` escape names a surrogate code point"
  | .unitOverflow => "escape value does not fit one code unit"

/-- What went wrong while reading characters. -/
inductive LexProblem where
  | invalidDigit (digit : Char) (base : Nat)
  | missingDigits
  | intOverflow (bits : Nat)
  | unterminatedString
  | unterminatedChar
  | unterminatedComment
  | invalidEscape (what : EscapeProblem)
  | unknownEscape (c : Char)
  | invalidCharacter (c : Char)
  | emptyChar
  | multiUnitChar
  | notRepresentable (c : Char) (encoding : Encoding)
  | reservedName (name : String)
  deriving DecidableEq, Repr, Inhabited

namespace LexProblem

/-- The problem in words. -/
def message : LexProblem → String
  | .invalidDigit d base => s!"invalid digit `{d}` in a base-{base} integer literal"
  | .missingDigits => "integer literal has no digits after its base prefix"
  | .intOverflow bits => s!"integer literal does not fit in {bits} bits"
  | .unterminatedString => "unterminated string literal"
  | .unterminatedChar => "unterminated character literal"
  | .unterminatedComment => "unterminated block comment"
  | .invalidEscape what => "invalid escape sequence: " ++ what.text
  | .unknownEscape c => "unknown escape sequence `\\" ++ c.toString ++ "`"
  | .invalidCharacter c => "invalid character `" ++ c.toString ++ "` in source"
  | .emptyChar => "empty character literal"
  | .multiUnitChar => "character literal must contain exactly one code unit"
  | .notRepresentable c enc =>
    "`" ++ c.toString ++ "` cannot be represented in a " ++
      (match enc with | .narrow => "narrow" | .wide => "wide") ++ " literal"
  | .reservedName n => "`" ++ n ++ "` is reserved for library code"

/-- The code of the problem. -/
def code : LexProblem → Code
  | .invalidDigit .. | .missingDigits | .intOverflow _ => .e0001
  | .unterminatedString | .unterminatedChar => .e0002
  | .unterminatedComment => .e0003
  | .invalidEscape _ => .e0004
  | .invalidCharacter _ => .e0005
  | .emptyChar | .multiUnitChar => .e0006
  | .notRepresentable .. => .e0007
  | .reservedName _ => .e0008
  | .unknownEscape _ => .w0001

/-- The text of the problem's label. -/
def labelText : LexProblem → String
  | .unterminatedString | .unterminatedChar | .unterminatedComment => "literal starts here"
  | .invalidEscape _ | .unknownEscape _ => "in this escape"
  | .reservedName _ => "reserved identifier"
  | _ => "here"

end LexProblem

/-- A problem at a span of the source. -/
structure LexError where
  problem : LexProblem
  span : Span
  deriving DecidableEq, Repr, Inhabited

namespace LexError

/-- An unknown escape only warns. -/
def isWarning (e : LexError) : Bool := e.problem.code.isWarning

/-- The diagnostic of the error. -/
def toDiagnostic (e : LexError) : Diagnostic :=
  let d : Diagnostic :=
    ⟨e.problem.code, if e.isWarning then .warning else .error, e.problem.message, [], []⟩
  let d := d.withLabel e.span e.problem.labelText
  match e.problem with
  | .reservedName _ => d.withNote "names starting with `_` and an uppercase letter are reserved"
  | .unknownEscape c => d.withNote ("the escape is read as a literal `" ++ c.toString ++ "`")
  | _ => d

end LexError

end SolarFront
