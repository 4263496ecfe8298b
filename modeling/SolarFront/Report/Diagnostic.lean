import SolarFront.Diagnostic.Basic
import SolarFront.Report.Value

/-!
Reports of spans and diagnostics.
-/

set_option autoImplicit false
set_option linter.all false

namespace SolarFront

/-- A span as a pair of offsets. -/
def Span.report (s : Span) : Value := .arr [.nat s.start, .nat s.stop]

/-- A diagnostic with its code, kind, severity, message, labels and notes. -/
def Diagnostic.report (d : Diagnostic) : List (String × Value) :=
  [("code", .str d.code.text),
   ("kind", .str d.code.kind.text),
   ("labels", .arr (d.labels.map fun (span, text, primary) =>
      .obj [("message", .str text), ("primary", .bool primary), ("span", span.report)])),
   ("message", .str d.message),
   ("notes", .arr (d.notes.map .str)),
   ("severity", .str d.severity.text)]

end SolarFront
