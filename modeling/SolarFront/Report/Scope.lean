import SolarFront.Typing.Scope
import SolarFront.Typing.Labels
import SolarFront.Report.Diagnostic

/-!
Reports of symbols, scope refusals and jump resolution.
-/

set_option autoImplicit false
set_option linter.all false

namespace SolarFront

/-- A symbol of the scope stack with its index. -/
def Symbol.info (pool : TypePool) (id : Nat) (s : Symbol) : Value :=
  .obj [("defined", .bool s.defined), ("id", .nat id), ("inline", .bool s.isInline),
    ("kind", .str s.kind.name), ("name", .str s.name), ("span", s.span.report),
    ("static", .bool s.isStatic), ("type", .str (pool.format s.ty))]

/-- A refused declaration. -/
def SymbolError.report : SymbolError → Value
  | e@(.redefinition p) =>
    .obj [("code", .str "E2001"), ("error", .str "Redefinition"), ("message", .str e.message),
      ("previous", p.report)]
  | e@(.conflicting p) =>
    .obj [("code", .str "E2006"), ("error", .str "Conflicting"), ("message", .str e.message),
      ("previous", p.report)]

/-- The module-level bindings, sorted by name. -/
def ScopeStack.globalsReport (pool : TypePool) (s : ScopeStack) : Value :=
  .arr (s.globals.map fun (name, id) =>
    let sym := s.symbol id
    .obj [("defined", .bool sym.defined), ("id", .nat id), ("kind", .str sym.kind.name),
      ("name", .str name), ("type", .str (pool.format sym.ty))])

/-- A jump that found no target. -/
def LabelError.report : LabelError → Value
  | e@.noTarget => .obj [("code", .str "E2005"), ("error", .str "NoTarget"), ("message", .str e.message)]
  | e@.unknown => .obj [("code", .str "E2002"), ("error", .str "Unknown"), ("message", .str e.message)]
  | e@(.wrongKind s) =>
    .obj [("code", .str "E2003"), ("error", .str "WrongKind"), ("label_span", s.report),
      ("message", .str e.message)]

end SolarFront
