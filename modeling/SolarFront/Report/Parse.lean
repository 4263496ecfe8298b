import SolarFront.Syntax.Parse.Module
import SolarFront.Syntax.Token.Lex
import SolarFront.Report.Tree

/-!
The report of parsing a source text: its declarations and its grammar errors in the order
found. Errors of reading characters are not part of it.
-/

set_option autoImplicit false
set_option linter.all false

namespace SolarFront

/-- Declarations and grammar errors of a parse. -/
def Parsed.report (p : Parsed) : Value :=
  .obj [("decls", .arr (p.module.decls.map ({} : Annotator).declValue)),
    ("diagnostics", .arr (p.errors.map fun e => .obj e.toDiagnostic.report))]

end SolarFront
