import SolarFront.Check.State

/-!
Places and constant initializers, read off what the checker has recorded about an expression.

A place is an expression that designates storage: a variable, an element, a dereference, or
a member of a place. An object has static storage when it is a module-level or `static`
variable. A static address is the address of a function, of an object with static storage,
of a constant element of a static array, or of a member of one of those. A module-level or
`static` variable needs a constant initializer: a folded constant, a string, a function, a
static array, a static address, a cast of a constant initializer, a constant initializer plus
or minus a folded constant, or a brace initializer of constant initializers.
-/

set_option autoImplicit false
set_option linter.all false

namespace SolarFront

namespace CheckState

variable (s : CheckState)

/-- The kind of symbol a name expression is bound to. -/
def boundKind (id : Nat) : Option SymbolKind := (s.bindings.get? id).map (s.scopes.symbol · |>.kind)

/-- The recorded type of an expression; the error type if there is none. -/
def typeOf (id : Nat) : TypeId := s.exprTypes.getD id .error

/-- Whether a constant value was folded for an expression. -/
def isFolded (id : Nat) : Bool := (s.consts.get? id).isSome

/-- Whether a type is an array with a length. -/
def isSizedArray (t : TypeId) : Bool :=
  match s.pool.get t with
  | .array _ (some _) => true
  | _ => false

/-- Whether an expression designates storage. -/
def isPlace : Expr → Bool
  | .mk id _ (.name _) => s.boundKind id == some .var
  | .mk _ _ (.index ..) => true
  | .mk _ _ (.deref _) => true
  | .mk _ _ (.access r _ _) => isPlace r
  | _ => false

/-- Whether an expression is a name bound to a function. -/
def namesFunction : Expr → Bool
  | .mk id _ (.name _) => s.boundKind id == some .func
  | _ => false

/-- Whether a name expression is bound to a variable with static storage. -/
def isStaticObject (id : Nat) : Bool :=
  match s.bindings.get? id with
  | some sym =>
    let symbol := s.scopes.symbol sym
    symbol.kind == .var && symbol.hasStaticStorage
  | none => false

/-- Whether the address of an expression is known before the program runs. -/
def isStaticAddress : Expr → Bool
  | e@(.mk id _ (.name _)) => s.namesFunction e || s.isStaticObject id
  | .mk _ _ (.index array index) =>
    s.isSizedArray (s.typeOf array.id) && isStaticAddress array && s.isFolded index.id
  | .mk _ _ (.access r _ _) => isStaticAddress r
  | _ => false

mutual

/-- Whether an initial value is known before the program runs. -/
def isConstantInit : Expr → Bool
  | e@(.mk id _ kind) =>
    s.isFolded id ||
    match kind with
    | .str .. => true
    | .name _ => s.namesFunction e || (s.isStaticObject id && s.isSizedArray (s.typeOf id))
    | .addrOf inner => s.isStaticAddress inner
    | .cast inner .. => isConstantInit inner
    | .binary .add left right => isConstantInit left && s.isFolded right.id
    | .binary .sub left right => isConstantInit left && s.isFolded right.id
    | .arrayInit elements => allConstantInit elements
    | .recordInit _ fields => allFieldsConstantInit fields
    | _ => false

/-- Whether every expression of a list is a constant initializer. -/
def allConstantInit : List Expr → Bool
  | [] => true
  | e :: es => isConstantInit e && allConstantInit es

/-- Whether every field value of a list is a constant initializer. -/
def allFieldsConstantInit : List FieldInit → Bool
  | [] => true
  | .mk _ value _ :: fs => isConstantInit value && allFieldsConstantInit fs

end

end CheckState

end SolarFront
