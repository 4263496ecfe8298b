import SolarFront.Syntax.Token
import SolarFront.Syntax.Operator
import SolarFront.Typing.Type
import SolarFront.Typing.Labels

/-!
Syntax trees. Every expression, type, statement and declaration node carries an identifier,
unique within one parse, and the span of the text it was read from; parentheses leave no node.
The checker keeps what it learns about a node in tables keyed by the node's identifier.
-/

set_option autoImplicit false
set_option linter.all false

namespace SolarFront

/-- A parameter of a function declaration. -/
structure Param where
  name : String
  span : Span
  deriving Repr, Inhabited

mutual

/-- An expression node: identifier, span and what it is. -/
inductive Expr where
  | mk (id : Nat) (span : Span) (kind : ExprKind)

/-- The forms of expression. -/
inductive ExprKind where
  | name (n : String)
  | int (value : Nat) (width : LitWidth)
  | str (units : List Nat) (encoding : Encoding)
  | sizeofExpr (operand : Expr)
  | sizeofType (operand : TypeExpr)
  | call (func : Expr) (args : List Expr)
  | index (array index : Expr)
  | access (record : Expr) (member : String) (memberSpan : Span)
  | cast (operand : Expr) (target : TypeExpr) (signed : Bool)
  | deref (operand : Expr)
  | addrOf (operand : Expr)
  | unary (op : UnaryOp) (operand : Expr)
  | not (operand : Expr)
  | binary (op : BinaryOp) (left right : Expr)
  | cond (op : CondOp) (left right : Expr)
  | ternary (cond thenE elseE : Expr)
  | assign (op : Option BinaryOp) (target value : Expr)
  | comma (exprs : List Expr)
  | arrayInit (elements : List Expr)
  | recordInit (kind : RecordKind) (fields : List FieldInit)

/-- A named value in a struct or union initializer. -/
inductive FieldInit where
  | mk (name : String) (value : Expr) (span : Span)

/-- A type node: identifier, span, the `volatile` mark and what it is. -/
inductive TypeExpr where
  | mk (id : Nat) (span : Span) (volatile : Bool) (kind : TypeExprKind)

/-- The forms of type. An array without a size is a pointer. -/
inductive TypeExprKind where
  | void
  | int (w : Width)
  | ref (name : String)
  | array (inner : TypeExpr) (size : Option Expr)
  | func (ret : TypeExpr) (params : List TypeExpr) (variadic : Bool)
  | record (kind : RecordKind) (members : List MemberDecl)
  | typeOf (operand : Expr)

/-- A member of a record type as written. -/
inductive MemberDecl where
  | mk (name : String) (ty : TypeExpr) (bits : Option Nat) (span : Span)

end

mutual

/-- A statement node: identifier, span and what it is. -/
inductive Stmt where
  | mk (id : Nat) (span : Span) (kind : StmtKind)

/-- The forms of statement. A `while` loop is a loop with only a condition. -/
inductive StmtKind where
  | empty
  | decl (d : Decl)
  | block (stmts : List Stmt)
  | expr (e : Expr)
  | jump (kind : JumpKind) (label : Option Label)
  | ret (value : Option Expr)
  | branch (label : Option Label) (cond : Expr) (thenS : Stmt) (elseS : Option Stmt)
  | loop (label : Option Label) (init cond step : Option Expr) (body : Stmt)
      (elseS : Option Stmt)

/-- A declaration node. -/
inductive Decl where
  | mk (id : Nat) (name : String) (nameSpan span : Span) (ty : TypeExpr) (isDeclare : Bool)
      (description : Option String) (kind : DeclKind)

/-- The forms of declaration; `using`, `struct` and `union` declare types. -/
inductive DeclKind where
  | var (value : Option Expr) (isStatic : Bool)
  | const (value : Expr) (isStatic : Bool)
  | func (params : List Param) (body : Option Stmt) (isStatic isInline : Bool)
  | type

end

instance : Inhabited Expr := ⟨.mk 0 Span.dummy (.name "")⟩
instance : Inhabited TypeExpr := ⟨.mk 0 Span.dummy false .void⟩
instance : Inhabited Stmt := ⟨.mk 0 Span.dummy .empty⟩
instance : Inhabited Decl := ⟨.mk 0 "" Span.dummy Span.dummy default false none .type⟩

namespace Expr

def id : Expr → Nat | .mk i _ _ => i
def span : Expr → Span | .mk _ s _ => s
def kind : Expr → ExprKind | .mk _ _ k => k

end Expr

namespace TypeExpr

def id : TypeExpr → Nat | .mk i _ _ _ => i
def span : TypeExpr → Span | .mk _ s _ _ => s
def volatile : TypeExpr → Bool | .mk _ _ v _ => v
def kind : TypeExpr → TypeExprKind | .mk _ _ _ k => k

end TypeExpr

namespace FieldInit

def name : FieldInit → String | .mk n _ _ => n
def value : FieldInit → Expr | .mk _ v _ => v
def span : FieldInit → Span | .mk _ _ s => s

end FieldInit

namespace MemberDecl

def name : MemberDecl → String | .mk n _ _ _ => n
def ty : MemberDecl → TypeExpr | .mk _ t _ _ => t
def bits : MemberDecl → Option Nat | .mk _ _ b _ => b
def span : MemberDecl → Span | .mk _ _ _ s => s

end MemberDecl

namespace Stmt

def id : Stmt → Nat | .mk i _ _ => i
def span : Stmt → Span | .mk _ s _ => s
def kind : Stmt → StmtKind | .mk _ _ k => k

end Stmt

namespace Decl

def id : Decl → Nat | .mk i _ _ _ _ _ _ _ => i
def name : Decl → String | .mk _ n _ _ _ _ _ _ => n
def nameSpan : Decl → Span | .mk _ _ s _ _ _ _ _ => s
def span : Decl → Span | .mk _ _ _ s _ _ _ _ => s
def ty : Decl → TypeExpr | .mk _ _ _ _ t _ _ _ => t
def isDeclare : Decl → Bool | .mk _ _ _ _ _ d _ _ => d
def description : Decl → Option String | .mk _ _ _ _ _ _ d _ => d
def kind : Decl → DeclKind | .mk _ _ _ _ _ _ _ k => k

end Decl

/-- A parsed module: its declarations in order. -/
structure Module where
  decls : List Decl
  deriving Inhabited

end SolarFront
