import SolarFront.Syntax.Token.Lex
import SolarFront.Syntax.Parse.Module
import SolarFront.Check.Module
import SolarFront.Diagnostic.Queue

/-!
Compiling one source text: read its tokens, parse its declarations and check the module. The
diagnostics of the three stages are collected together: an exact duplicate (same code, primary
span and message) is dropped, and the rest are sorted by where their primary span starts, in
the order found where two start together. The checker hands over its diagnostics already
collected, so they pass through collection twice.
-/

set_option autoImplicit false
set_option linter.all false

namespace SolarFront

/-- The outcome of compiling one source text. -/
structure Compilation where
  source : String
  /-- The number that names the source in located diagnostics. -/
  sourceId : Nat
  parsed : Parsed
  checked : CheckState
  diagnostics : List Diagnostic
  deriving Inhabited

namespace Compilation

/-- Compile a source text; `allowReserved` lets reserved words be names. -/
def run (source : String) (allowReserved : Bool) (sourceId : Nat) : Compilation :=
  let lexed := lex source allowReserved
  let parsed := parse lexed.tokens
  let checked := parsed.module.check parsed.nodeCount
  let found := lexed.errors.map (·.toDiagnostic) ++ parsed.errors.map (·.toDiagnostic) ++
    checked.flushed
  ⟨source, sourceId, parsed, checked, Diagnostic.collect found⟩

/-- Whether some diagnostic is an error rather than a warning. -/
def hasErrors (c : Compilation) : Bool := c.diagnostics.any (·.isError)

end Compilation

end SolarFront
