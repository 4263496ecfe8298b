import Std.Data.TreeMap
import Std.Data.TreeSet
import SolarFront.Syntax.Tree
import SolarFront.Typing.Type
import SolarFront.Typing.Scope
import SolarFront.Typing.Labels
import SolarFront.Diagnostic.Basic

/-!
The state of checking one module, and the small operations on it that every part of the
checker shares.

What the checker learns about a node goes into a table keyed by the node's identifier: the
type of every expression, type node and declaration, the folded value of constant
expressions, the conversion applied to the right operand of a binary operator, the symbol a
name is bound to, and the statement a jump leaves. A node that never gets an entry has the
error type. Diagnostics are kept in the order they are found; duplicates are removed and the
rest sorted when the check is finished.
-/

set_option autoImplicit false
set_option linter.all false

namespace SolarFront

/-- How far a module-level type declaration has been resolved. Type names are bound before
any declaration is checked and resolved on first use, so a declaration met again while it is
being resolved is defined in terms of itself. -/
inductive TypeDeclState where
  | unresolved
  | resolving
  | done
  deriving DecidableEq, Repr, Inhabited

/-- A statement a jump may leave: its node and its span. -/
structure JumpTarget where
  stmt : Nat
  span : Span
  deriving Repr, Inhabited

/-- Everything the checker has learned so far about one module. -/
structure CheckState where
  pool : TypePool := {}
  scopes : ScopeStack := {}
  labels : LabelStack JumpTarget := []
  /-- The return type of the function whose body is being checked. -/
  returnType : Option TypeId := none
  diagnostics : Array Diagnostic := #[]
  exprTypes : Std.TreeMap Nat TypeId := {}
  typeNodes : Std.TreeMap Nat TypeId := {}
  declTypes : Std.TreeMap Nat TypeId := {}
  /-- Folded values of constant expressions. -/
  consts : Std.TreeMap Nat Nat := {}
  /-- The type the value of an expression is converted to before use. -/
  implicitCasts : Std.TreeMap Nat TypeId := {}
  /-- The symbol each name expression is bound to. -/
  bindings : Std.TreeMap Nat Nat := {}
  /-- The symbol each declaration introduced or merged into. -/
  declSymbols : Std.TreeMap Nat Nat := {}
  /-- The span of every declaration that reached a symbol. -/
  declSpans : Std.TreeMap Nat Span := {}
  jumpTargets : Std.TreeMap Nat JumpTarget := {}
  /-- Statements that some `break` or `breakif` leaves. -/
  broken : Std.TreeSet Nat := {}
  /-- Module-level type declarations with their resolution state. -/
  typeDecls : Std.TreeMap Nat (Decl × TypeDeclState) := {}
  /-- Symbols of `static` variables declared inside functions, in the order found. -/
  staticLocals : Array Nat := #[]
  /-- Functions whose bodies are checked after every module-level declaration. -/
  pending : Array (Decl × TypeId) := #[]
  /-- How deep one check may recurse: enough for every node of the module. -/
  budget : Nat := 0
  deriving Inhabited

/-- Checking reads and extends the state of one module. -/
abbrev CheckM := StateM CheckState

namespace CheckM

/-- Add a diagnostic. -/
def report (d : Diagnostic) : CheckM Unit :=
  modify fun s => { s with diagnostics := s.diagnostics.push d }

/-- Add an error whose message also labels its span. -/
def fail (code : Code) (span : Span) (message : String) : CheckM Unit :=
  report (Diagnostic.spanned code span message)

/-- The text of a type. -/
def fmt (t : TypeId) : CheckM String := return (← get).pool.format t

/-- Run a pool operation that yields a type. -/
def withPool (f : TypePool → TypePool × TypeId) : CheckM TypeId :=
  modifyGet fun s =>
    let (pool, t) := f s.pool
    (t, { s with pool })

def pointer (elem : TypeId) : CheckM TypeId := withPool (·.pointer elem)

def array (elem : TypeId) (len : Nat) : CheckM TypeId := withPool (·.array elem len)

def func (ret : TypeId) (params : List TypeId) (variadic : Bool) : CheckM TypeId :=
  withPool (·.func ret params variadic)

def decay (t : TypeId) : CheckM TypeId := withPool (·.decay t)

/-- What a type is. -/
def typeData (t : TypeId) : CheckM TypeData := return (← get).pool.get t

/-- The symbol of an index. -/
def symbol (id : Nat) : CheckM Symbol := return (← get).scopes.symbol id

def modifySymbol (id : Nat) (f : Symbol → Symbol) : CheckM Unit :=
  modify fun s => { s with scopes := s.scopes.modifySymbol id f }

def setExprType (id : Nat) (t : TypeId) : CheckM Unit :=
  modify fun s => { s with exprTypes := s.exprTypes.insert id t }

/-- The recorded type of an expression; the error type if there is none. -/
def exprType (id : Nat) : CheckM TypeId := return (← get).exprTypes.getD id .error

def setTypeNode (id : Nat) (t : TypeId) : CheckM Unit :=
  modify fun s => { s with typeNodes := s.typeNodes.insert id t }

def setDeclType (id : Nat) (t : TypeId) : CheckM Unit :=
  modify fun s => { s with declTypes := s.declTypes.insert id t }

/-- Record a folded value, if there is one. -/
def setConst (id : Nat) : Option Nat → CheckM Unit
  | some v => modify fun s => { s with consts := s.consts.insert id v }
  | none => pure ()

def constOf (id : Nat) : CheckM (Option Nat) := return (← get).consts.get? id

def bind (id sym : Nat) : CheckM Unit :=
  modify fun s => { s with bindings := s.bindings.insert id sym }

/-- Open a scope. -/
def pushScope : CheckM Unit := modify fun s => { s with scopes := s.scopes.push }

/-- Close the innermost scope. -/
def popScope : CheckM Unit := modify fun s => { s with scopes := s.scopes.pop }

/-- Run an action in a scope of its own. -/
def withScope {α : Type} (act : CheckM α) : CheckM α := do
  pushScope
  let r ← act
  popScope
  return r

end CheckM

/-- A name that is bound nowhere. -/
def unknownName (span : Span) (name : String) : Diagnostic :=
  (Diagnostic.error .e2004 ("cannot find `" ++ name ++ "` in this scope")).withLabel span
    "not found in this scope"

/-- A value whose type is not the one wanted. -/
def typeMismatch (span : Span) (expected found context : String) : Diagnostic :=
  (Diagnostic.error .e3001 ("type mismatch: expected `" ++ expected ++ "`, found `" ++ found ++
    "`")).withLabel span ("expected `" ++ expected ++ "` " ++ context)

/-- Operands an operator cannot take. -/
def invalidOperands (span : Span) (op left right : String) : Diagnostic :=
  (Diagnostic.error .e3004 ("invalid operands to `" ++ op ++ "`: `" ++ left ++ "` and `" ++
    right ++ "`")).withLabel span ("`" ++ op ++ "` cannot be applied to these operands")

/-- A cast between types that do not convert. -/
def incompatibleCast (span : Span) (source target : String) : Diagnostic :=
  (Diagnostic.error .e3002 ("cannot cast `" ++ source ++ "` to `" ++ target ++ "`")).withLabel
    span "invalid cast"

end SolarFront
