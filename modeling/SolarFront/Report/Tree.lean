import SolarFront.Syntax.Tree
import SolarFront.Report.Diagnostic

/-!
Reports of syntax trees. Every node is an object with its kind under `k` and its span; an
annotator may add fields to each node, which is how the checker's findings are shown beside
the tree.
-/

set_option autoImplicit false
set_option linter.all false

namespace SolarFront

/-- Extra fields for each kind of node. -/
structure Annotator where
  onExpr : Expr → List (String × Value) := fun _ => []
  onType : TypeExpr → List (String × Value) := fun _ => []
  onStmt : Stmt → List (String × Value) := fun _ => []
  onDecl : Decl → List (String × Value) := fun _ => []

/-- A statement label. -/
def Label.report (l : Label) : Value := .obj [("name", .str l.name), ("span", l.span.report)]

/-- The name of a record kind in reports. -/
def RecordKind.name : RecordKind → String
  | .struct => "Struct"
  | .union => "Union"

namespace Annotator

variable (a : Annotator)

mutual

/-- An expression node. -/
def exprValue : Expr → Value
  | e@(.mk _ span kind) =>
    let fields : List (String × Value) := match kind with
      | .name n => [("k", .str "Name"), ("name", .str n)]
      | .int v w => [("k", .str "Int"), ("value", .nat v), ("width", .str w.name)]
      | .str units enc =>
        [("k", .str "Str"), ("units", .arr (units.map .nat)), ("encoding", .str enc.name)]
      | .sizeofExpr x => [("k", .str "SizeofExpr"), ("operand", exprValue x)]
      | .sizeofType t => [("k", .str "SizeofType"), ("operand", typeValue t)]
      | .call f args => [("k", .str "Call"), ("func", exprValue f), ("args", .arr (exprValues args))]
      | .index x i => [("k", .str "Index"), ("array", exprValue x), ("index", exprValue i)]
      | .access r m ms =>
        [("k", .str "Access"), ("record", exprValue r), ("member", .str m), ("member_span", ms.report)]
      | .cast x t signed =>
        [("k", .str "Cast"), ("expr", exprValue x), ("to", typeValue t), ("signed", .bool signed)]
      | .deref x => [("k", .str "Deref"), ("operand", exprValue x)]
      | .addrOf x => [("k", .str "AddrOf"), ("operand", exprValue x)]
      | .unary op x => [("k", .str "Unary"), ("op", .str op.symbol), ("operand", exprValue x)]
      | .not x => [("k", .str "UnaryCond"), ("op", .str "!"), ("operand", exprValue x)]
      | .binary op l r =>
        [("k", .str "Binary"), ("op", .str op.symbol), ("left", exprValue l), ("right", exprValue r)]
      | .cond op l r =>
        [("k", .str "BinaryCond"), ("op", .str op.symbol), ("left", exprValue l), ("right", exprValue r)]
      | .ternary c t f => [("k", .str "Ternary"), ("cond", exprValue c), ("then", exprValue t), ("else", exprValue f)]
      | .assign op t v =>
        [("k", .str "Assign"), ("op", Value.opt (fun o => .str o.symbol) op), ("target", exprValue t),
          ("value", exprValue v)]
      | .comma xs => [("k", .str "Comma"), ("exprs", .arr (exprValues xs))]
      | .arrayInit xs =>
        [("k", .str "AggregateInit"), ("agg", .str "Array"), ("elements", .arr (exprValues xs))]
      | .recordInit kind fs =>
        [("k", .str "AggregateInit"), ("agg", .str kind.name), ("fields", .arr (fieldInitValues fs))]
    .obj (fields ++ [("span", span.report)] ++ a.onExpr e)

def exprValues : List Expr → List Value
  | [] => []
  | x :: xs => exprValue x :: exprValues xs

def optExprValue : Option Expr → Value
  | some x => exprValue x
  | none => .null

def fieldInitValues : List FieldInit → List Value
  | [] => []
  | .mk n v s :: fs => .obj [("name", .str n), ("value", exprValue v), ("span", s.report)] :: fieldInitValues fs

/-- A type node. -/
def typeValue : TypeExpr → Value
  | t@(.mk _ span volatile kind) =>
    let fields : List (String × Value) := match kind with
      | .void => [("k", .str "Void")]
      | .int w => [("k", .str "Int"), ("bits", .nat w.bits)]
      | .ref n => [("k", .str "Ref"), ("name", .str n)]
      | .array inner size => [("k", .str "Array"), ("inner", typeValue inner), ("size", optExprValue size)]
      | .func ret params variadic =>
        [("k", .str "Func"), ("ret", typeValue ret), ("params", .arr (typeValues params)),
          ("variadic", .bool variadic)]
      | .record kind members => [("k", .str kind.name), ("members", .arr (memberValues members))]
      | .typeOf x => [("k", .str "Typeof"), ("expr", exprValue x)]
    .obj (fields ++ [("span", span.report), ("volatile", .bool volatile)] ++ a.onType t)

def typeValues : List TypeExpr → List Value
  | [] => []
  | t :: ts => typeValue t :: typeValues ts

def memberValues : List MemberDecl → List Value
  | [] => []
  | .mk n t bits s :: ms =>
    .obj [("name", .str n), ("ty", typeValue t), ("bits", Value.opt .nat bits), ("span", s.report)] ::
      memberValues ms

end

mutual

/-- A statement node. -/
def stmtValue : Stmt → Value
  | s@(.mk _ span kind) =>
    let label (l : Option Label) : Value := Value.opt Label.report l
    let fields : List (String × Value) := match kind with
      | .empty => [("k", .str "Empty")]
      | .decl d => [("k", .str "Def"), ("decl", declValue d)]
      | .block ss => [("k", .str "Compound"), ("stmts", .arr (stmtValues ss))]
      | .expr x => [("k", .str "Expr"), ("expr", exprValue a x)]
      | .jump .continue l => [("k", .str "Continue"), ("label", label l)]
      | .jump .break l => [("k", .str "Break"), ("label", label l)]
      | .jump .breakIf l => [("k", .str "BreakIf"), ("label", label l)]
      | .ret v => [("k", .str "Return"), ("value", optExprValue a v)]
      | .branch l c t e =>
        [("k", .str "If"), ("label", label l), ("cond", exprValue a c), ("then", stmtValue t),
          ("else", optStmtValue e)]
      | .loop l i c st body e =>
        [("k", .str "Iter"), ("label", label l), ("init", optExprValue a i), ("cond", optExprValue a c),
          ("step", optExprValue a st), ("body", stmtValue body), ("else", optStmtValue e)]
    .obj (fields ++ [("span", span.report)] ++ a.onStmt s)

def stmtValues : List Stmt → List Value
  | [] => []
  | s :: ss => stmtValue s :: stmtValues ss

def optStmtValue : Option Stmt → Value
  | some s => stmtValue s
  | none => .null

/-- A declaration node. -/
def declValue : Decl → Value
  | d@(.mk _ name nameSpan span ty isDeclare description kind) =>
    let fields : List (String × Value) := match kind with
      | .var v isStatic => [("k", .str "Var"), ("static", .bool isStatic), ("value", optExprValue a v)]
      | .const v isStatic => [("k", .str "Const"), ("static", .bool isStatic), ("value", exprValue a v)]
      | .func params body isStatic isInline =>
        [("k", .str "Func"), ("static", .bool isStatic), ("inline", .bool isInline),
          ("params", .arr (params.map fun p => .obj [("name", .str p.name), ("span", p.span.report)])),
          ("body", optStmtValue body)]
      | .type => [("k", .str "Type")]
    .obj (fields ++ [("name", .str name), ("name_span", nameSpan.report), ("span", span.report),
      ("declare", .bool isDeclare), ("description", Value.opt .str description),
      ("ty", typeValue a ty)] ++ a.onDecl d)

end

end Annotator

end SolarFront
