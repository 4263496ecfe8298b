import SolarFront.Check.Stmt
import SolarFront.Diagnostic.Queue

/-!
Checking a whole module, in three passes. First every module-level type name is bound, so
that types may be used before their declaration. Then the module-level declarations are
checked in order, each type declaration resolved on first use. Last the function bodies are
checked, in the order of their declarations, and every record not yet laid out is laid out.
The checker collects its own diagnostics as the pipeline does: duplicates dropped, the rest
ordered by position.
-/

set_option autoImplicit false
set_option linter.all false

namespace SolarFront

namespace Check

/-- Recursion budget for a module of the given number of nodes: a chain of calls enters each
node a bounded number of times. -/
def budgetFor (nodeCount : Nat) : Nat := 8 * (nodeCount + 4)

/-- The three passes over a module. -/
def passes (m : Module) : CheckM Unit := do
  for d in m.decls do bindGlobalType d
  for d in m.decls do checkDecl d
  for (d, ty) in (← get).pending do checkBody d ty
  layoutAll

end Check

/-- Check a module whose parse made `nodeCount` nodes; all that was learned about it. -/
def Module.check (m : Module) (nodeCount : Nat) : CheckState :=
  ((Check.passes m).run { budget := Check.budgetFor nodeCount }).2

/-- The diagnostics a finished check hands over: those found, collected. -/
def CheckState.flushed (s : CheckState) : List Diagnostic := Diagnostic.collect s.diagnostics.toList

end SolarFront
