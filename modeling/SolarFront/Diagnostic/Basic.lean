import SolarFront.Text.Span
import SolarFront.Diagnostic.Code

/-!
Diagnostics: a code, a severity, a message, labelled spans and notes. The first primary label
gives the diagnostic its position.
-/

set_option autoImplicit false
set_option linter.all false

namespace SolarFront

/-- Errors make a compilation fail; warnings do not. -/
inductive Severity where
  | error
  | warning
  deriving DecidableEq, Repr, Inhabited

def Severity.text : Severity → String
  | .error => "error"
  | .warning => "warning"

/-- A report about the source text. -/
structure Diagnostic where
  code : Code
  severity : Severity
  message : String
  labels : List (Span × String × Bool) := []
  notes : List String := []
  deriving Repr, Inhabited

namespace Diagnostic

/-- An error of a code with a message. -/
def error (code : Code) (message : String) : Diagnostic := ⟨code, .error, message, [], []⟩

/-- A warning of a code with a message. -/
def warning (code : Code) (message : String) : Diagnostic := ⟨code, .warning, message, [], []⟩

/-- Add a primary label. -/
def withLabel (d : Diagnostic) (span : Span) (text : String) : Diagnostic :=
  { d with labels := d.labels ++ [(span, text, true)] }

/-- Add a secondary label. -/
def withSecondary (d : Diagnostic) (span : Span) (text : String) : Diagnostic :=
  { d with labels := d.labels ++ [(span, text, false)] }

/-- Add a note. -/
def withNote (d : Diagnostic) (note : String) : Diagnostic := { d with notes := d.notes ++ [note] }

/-- The span of the first primary label. -/
def primarySpan? (d : Diagnostic) : Option Span :=
  (d.labels.find? (·.2.2)).map (·.1)

def isError (d : Diagnostic) : Bool := d.severity == .error

/-- An error whose message also labels its span. -/
def spanned (code : Code) (span : Span) (message : String) : Diagnostic :=
  (error code message).withLabel span message

end Diagnostic

end SolarFront
