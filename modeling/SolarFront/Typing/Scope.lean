import SolarFront.Typing.Type

/-!
Symbols and the scope stack. Symbols live in one table and are named by their index there;
frames map names to indices, so shadowing and leaving a scope never move a symbol. The bottom
frame is the module scope and is never left.

Declaring a name again in the same frame merges the two declarations into one symbol when
both are variables or both functions, of one type and with the same `static` and `inline`
marks, and at most one of them is a definition; every other repetition is an error.
-/

set_option autoImplicit false
set_option linter.all false

namespace SolarFront

/-- What a name stands for. -/
inductive SymbolKind where
  | var
  | const
  | func
  | type
  deriving DecidableEq, Repr, Inhabited

namespace SymbolKind

/-- The kind in words, for messages. -/
def describe : SymbolKind → String
  | .var => "variable"
  | .const => "constant"
  | .func => "function"
  | .type => "type"

/-- The kind's name in reports. -/
def name : SymbolKind → String
  | .var => "Var"
  | .const => "Const"
  | .func => "Func"
  | .type => "Type"

end SymbolKind

/-- A declared name. `decl` is the declaration that introduced it and `definition` the one
that defined it, as indices of declarations. -/
structure Symbol where
  name : String
  kind : SymbolKind
  ty : TypeId
  isStatic : Bool := false
  isInline : Bool := false
  isGlobal : Bool := false
  defined : Bool := true
  decl : Option Nat := none
  definition : Option Nat := none
  span : Span
  value : Option Nat := none
  deriving Repr, Inhabited

/-- Objects at module level and `static` locals keep their storage for the whole run. -/
def Symbol.hasStaticStorage (s : Symbol) : Bool := s.isGlobal || s.isStatic

/-- Why a declaration was refused; `previous` is where the name was first declared. -/
inductive SymbolError where
  | redefinition (previous : Span)
  | conflicting (previous : Span)
  deriving DecidableEq, Repr, Inhabited

namespace SymbolError

def previous : SymbolError → Span
  | .redefinition p | .conflicting p => p

/-- The refusal in words. -/
def message : SymbolError → String
  | .redefinition _ => "name is already defined in this scope"
  | .conflicting _ => "declaration conflicts with an earlier declaration"

end SymbolError

/-- One scope: names bound in it, the latest binding first. -/
abbrev Frame := List (String × Nat)

/-- The symbol table and the open scopes, innermost first. The last frame is the module's. -/
structure ScopeStack where
  symbols : Array Symbol := #[]
  frames : List Frame := [[]]
  deriving Inhabited

namespace ScopeStack

/-- Open a scope. -/
def push (s : ScopeStack) : ScopeStack := { s with frames := [] :: s.frames }

/-- Close the innermost scope; the module scope stays open. -/
def pop (s : ScopeStack) : ScopeStack :=
  match s.frames with
  | _ :: rest@(_ :: _) => { s with frames := rest }
  | _ => s

/-- Number of open scopes, the module's included. -/
def depth (s : ScopeStack) : Nat := s.frames.length

def atModuleLevel (s : ScopeStack) : Bool := s.frames.length ≤ 1

/-- The symbol of an index. -/
def symbol (s : ScopeStack) (id : Nat) : Symbol := s.symbols[id]?.getD default

/-- Change the symbol of an index. -/
def modifySymbol (s : ScopeStack) (id : Nat) (f : Symbol → Symbol) : ScopeStack :=
  { s with symbols := s.symbols.modify id f }

/-- The symbol the name is bound to in the innermost scope, if any. -/
def resolveLocal (s : ScopeStack) (name : String) : Option Nat :=
  match s.frames with
  | frame :: _ => frame.lookup name
  | [] => none

/-- The symbol of the innermost binding of the name. -/
def resolve (s : ScopeStack) (name : String) : Option Nat :=
  s.frames.findSome? (·.lookup name)

/-- Whether a second declaration may merge into an existing symbol, and how. -/
def mergeCheck (existing new : Symbol) : Except SymbolError Unit :=
  let previous := existing.span
  let mergeable := existing.kind == .var || existing.kind == .func
  if existing.kind != new.kind || !mergeable then .error (.redefinition previous)
  else
    let typesAgree := existing.ty == new.ty || existing.ty.isError || new.ty.isError
    if !typesAgree || existing.isStatic != new.isStatic || existing.isInline != new.isInline then
      .error (.conflicting previous)
    else if existing.defined && new.defined then .error (.redefinition previous)
    else .ok ()

/-- The merged symbol: a definition completes a declaration, and a known type replaces the
error type. -/
def merge (existing new : Symbol) : Symbol :=
  let merged :=
    if new.defined then { existing with defined := true, definition := new.definition }
    else existing
  if existing.ty.isError then { merged with ty := new.ty } else merged

/-- Bind a symbol in the innermost scope, or merge it into the symbol already bound there.
Returns the symbol's index. -/
def declare (s : ScopeStack) (sym : Symbol) : Except SymbolError (ScopeStack × Nat) :=
  match s.resolveLocal sym.name with
  | some id =>
    match mergeCheck (s.symbol id) sym with
    | .error e => .error e
    | .ok () => .ok (s.modifySymbol id (merge · sym), id)
  | none =>
    let id := s.symbols.size
    let frames := match s.frames with
      | frame :: rest => ((sym.name, id) :: frame) :: rest
      | [] => [[(sym.name, id)]]
    .ok ({ symbols := s.symbols.push sym, frames }, id)

/-- The module-level bindings with their indices, sorted by name. -/
def globals (s : ScopeStack) : List (String × Nat) :=
  let frame := s.frames.getLast?.getD []
  frame.mergeSort fun a b => decide (a.1 ≤ b.1)

end ScopeStack

end SolarFront
