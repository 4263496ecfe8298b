import SolarFront.Compilation
import SolarFront.Text.LineTable
import SolarFront.Report.Tree

/-!
The report of a compilation: its diagnostics with their line, column and one-line text, the
syntax tree with what the checker found about each node beside it, the module-level symbols,
the `static` variables of functions, and every record with its layout.
-/

set_option autoImplicit false
set_option linter.all false

namespace SolarFront

namespace CheckState

variable (s : CheckState)

/-- The text of a type. -/
def typeText (t : TypeId) : Value := .str (s.pool.format t)

/-- A short reference to a symbol: its name, kind and first appearance. -/
def symbolRef (id : Nat) : Value :=
  let sym := s.scopes.symbol id
  .obj [("kind", .str sym.kind.name), ("name", .str sym.name), ("span", sym.span.report)]

/-- The span of a declaration, if it reached a symbol. -/
def declSpan (id : Nat) : Value := Value.opt Span.report (s.declSpans.get? id)

/-- A symbol in full. -/
def symbolValue (id : Nat) : Value :=
  let sym := s.scopes.symbol id
  .obj [("decl", (sym.decl.map s.declSpan).getD .null), ("defined", .bool sym.defined),
    ("definition", (sym.definition.map s.declSpan).getD .null), ("global", .bool sym.isGlobal),
    ("inline", .bool sym.isInline), ("kind", .str sym.kind.name), ("name", .str sym.name),
    ("span", sym.span.report), ("static", .bool sym.isStatic), ("type", s.typeText sym.ty),
    ("value", Value.opt .nat sym.value)]

/-- The fields the checker adds to each node of the tree. -/
def annotator : Annotator where
  onExpr e :=
    [("ty", s.typeText (s.typeOf e.id))] ++
    ((s.consts.get? e.id).map fun v => ("const", Value.nat v)).toList ++
    ((s.implicitCasts.get? e.id).map fun t => ("icast", s.typeText t)).toList ++
    ((s.bindings.get? e.id).map fun sym => ("bind", s.symbolRef sym)).toList
  onType t := [("rty", s.typeText (s.typeNodes.getD t.id .error))]
  onStmt st :=
    match st.kind with
    | .jump .. => [("target", Value.opt (·.span.report) (s.jumpTargets.get? st.id))]
    | _ => []
  onDecl d :=
    [("dty", s.typeText (s.declTypes.getD d.id .error)),
      ("sym", Value.opt s.symbolRef (s.declSymbols.get? d.id))]

end CheckState

/-- Where a member of a record lies. -/
def MemberLayout.report (m : MemberLayout) : Value :=
  .obj [("bit_offset", .nat m.bitOffset), ("bit_width", Value.opt .nat m.bitWidth),
    ("name", .str m.name), ("offset", .nat m.offset)]

/-- A record layout. -/
def Layout.report (l : Layout) : Value :=
  .obj [("align", .nat l.align), ("members", .arr (l.members.map MemberLayout.report)),
    ("size", .nat l.size)]

/-- A record with its members and layout. -/
def RecordDef.report (p : TypePool) (r : RecordDef) : Value :=
  .obj [("kind", .str r.kind.keyword), ("layout", Value.opt Layout.report r.layout?),
    ("members", .arr (r.members.map fun m =>
      .obj [("bits", Value.opt .nat m.bits), ("name", .str m.name), ("span", m.span.report),
        ("type", .str (p.format m.ty))])),
    ("name", Value.opt .str r.name), ("span", r.span.report), ("volatile", .bool r.volatile)]

/-- Records ordered by where they start, then by where they end. -/
def RecordDef.before (a b : RecordDef) : Bool :=
  a.span.start < b.span.start || (a.span.start == b.span.start && a.span.stop ≤ b.span.stop)

namespace Compilation

variable (c : Compilation)

/-- A diagnostic with its one-based line and column and its one-line text. -/
def located (table : LineTable) (d : Diagnostic) : Value :=
  let tail := d.severity.text ++ " [" ++ d.code.text ++ "]: " ++ d.message
  let name := "#" ++ toString c.sourceId
  match d.primarySpan? with
  | some span =>
    let (line, col) := table.lineCol c.source span.start
    .obj (d.report ++ [("line", .nat line), ("col", .nat col),
      ("text", .str (name ++ ":" ++ toString line ++ ":" ++ toString col ++ ": " ++ tail))])
  | none => .obj (d.report ++ [("line", .null), ("col", .null), ("text", .str (name ++ ": " ++ tail))])

/-- The whole report. -/
def report : Value :=
  let s := c.checked
  let table := LineTable.build c.source
  .obj [("has_errors", .bool c.hasErrors),
    ("diagnostics", .arr (c.diagnostics.map (c.located table))),
    ("decls", .arr (c.parsed.module.decls.map s.annotator.declValue)),
    ("globals", .arr (s.scopes.globals.map fun (_, id) => s.symbolValue id)),
    ("static_locals", .arr (s.staticLocals.toList.map s.symbolValue)),
    ("records", .arr ((s.pool.records.toList.mergeSort RecordDef.before).map
      (RecordDef.report s.pool)))]

end Compilation

end SolarFront
