import SolarFront.Syntax.Token.Lex
import SolarFront.Report.Diagnostic

/-!
Reports of tokens, comments and the result of reading a source text.
-/

set_option autoImplicit false
set_option linter.all false

namespace SolarFront

/-- A token: its kind, its span and its payload. -/
def Token.report (t : Token) : Value :=
  let base := [("kind", Value.str t.kind.name), ("span", t.span.report)]
  match t.value with
  | .none => .obj base
  | .name n => .obj (base ++ [("name", .str n)])
  | .int v w => .obj (base ++ [("value", .nat v), ("width", .str w.name)])
  | .str units enc => .obj (base ++ [("encoding", .str enc.name), ("units", .arr (units.map .nat))])

/-- A comment: its span and text. -/
def Comment.report (c : Comment) : Value := .obj [("span", c.span.report), ("text", .str c.text)]

/-- Tokens, comments and errors of a source text. -/
def Lexed.report (l : Lexed) : Value :=
  .obj [("comments", .arr (l.tokens.comments.map Comment.report)),
    ("errors", .arr (l.errors.map fun e => .obj e.toDiagnostic.report)),
    ("has_errors", .bool l.hasErrors),
    ("tokens", .arr (l.tokens.tokens.toList.map Token.report))]

end SolarFront
