import SolarFront.Check.Operation

/-!
Typing of type nodes, expressions and initial values. These three recurse into one another:
an array size and `typeof` are expressions, `sizeof` and casts name types, and a type name
resolves the declaration it names on first use, which may be anywhere in the module. Every
function takes fuel, one unit per call; the checker starts each top-level check with its
budget, which exceeds the depth of any chain of calls because each node of the module is
entered at most a few times along one chain.

A module-level type declaration is resolved on first use. One met again while it is being
resolved is defined in terms of itself; a struct or union declaration is marked resolved
before its members are, so a record may refer to itself through a pointer.
-/

set_option autoImplicit false
set_option linter.all false

namespace SolarFront

namespace Check

open CheckM

/-- Check the width of a bitfield against its type; the width if it is valid. -/
def checkBitfield (name : String) (ty : TypeId) (bits : Nat) (span : Span) :
    CheckM (Option Nat) := do
  if ty.isError then return none
  match (← get).pool.intWidth? ty with
  | none =>
    fail .e3010 span ("bitfield `" ++ name ++ "` must have an integer type, found `" ++
      (← fmt ty) ++ "`")
    return none
  | some w =>
    if bits == 0 || bits > w.bits then
      fail .e3010 span ("bitfield `" ++ name ++ "` has width " ++ toString bits ++ ", but `" ++
        TypePool.widthName w ++ "` allows 1 to " ++ toString w.bits)
      return none
    return some bits

/-- A member whose name an earlier member of the record already has. -/
def duplicateMember (name : String) (span first : Span) : Diagnostic :=
  (((Diagnostic.error .e2001 ("member `" ++ name ++ "` is defined more than once")).withLabel
    span "redefined here").withSecondary first "first defined here")

/-- A member after its type is resolved: dropped if its name is taken, of the error type if
it is `void`, and with its bit width if that is valid. Also gives the names seen so far. -/
def memberResult (seen : List (String × Span)) (m : MemberDecl) (ty : TypeId) :
    CheckM (Option Member × List (String × Span)) := do
  match seen.lookup m.name with
  | some first =>
    report (duplicateMember m.name m.span first)
    return (none, seen)
  | none =>
    let ty ← if ty.isVoid then do
        fail .e3001 m.span ("member `" ++ m.name ++ "` cannot have type `void`")
        pure TypeId.error
      else pure ty
    let bits ← match m.bits with
      | some b => checkBitfield m.name ty b m.span
      | none => pure none
    return (some ⟨m.name, ty, bits, m.span⟩, (m.name, m.span) :: seen)

/-- The type of a parameter: `void` is not a parameter type. -/
def paramType (param : TypeExpr) (ty : TypeId) : CheckM TypeId := do
  if ty.isVoid then
    fail .e3001 param.span "a parameter cannot have type `void`"
    return .error
  return ty

/-- The array type of an element type and a typed size, which must be an integer constant. -/
def sizedArrayResult (elem : TypeId) (size : Expr) (sizeTy : TypeId) : CheckM TypeId := do
  let span := size.span
  if sizeTy.isError || elem.isError then return .error
  if !(← get).pool.isIntegral sizeTy then
    fail .e3001 span ("array size must be an integer, found `" ++ (← fmt sizeTy) ++ "`")
    return .error
  match ← constOf size.id with
  | none =>
    fail .e3007 span "array size must be a compile-time constant"
    return .error
  | some len =>
    if elem.isVoid then
      fail .e3005 span "an array of `void` has no size"
      return .error
    array elem len

/-- Make a record for a struct or union node and bind the type name to it, before its members
are resolved; the record and its type. -/
def openRecord (node : TypeExpr) (kind : RecordKind) (name : Option String)
    (binding : Option Nat) : CheckM (Nat × TypeId) := do
  let (rid, ty) ← modifyGet fun s =>
    let (pool, rid, ty) := s.pool.newRecord kind name node.volatile node.span
    ((rid, ty), { s with pool })
  setTypeNode node.id ty
  if let some sym := binding then modifySymbol sym ({ · with ty })
  setLayout rid .inProgress
  return (rid, ty)

/-- Give a record its members; its layout waits until it is needed, unless a member already
found it containing itself. -/
def closeRecord (rid : Nat) (members : List Member) : CheckM Unit := do
  modify fun s => { s with pool := s.pool.modifyRecord rid ({ · with members }) }
  if ((← get).pool.record rid).layout == .inProgress then setLayout rid .pending

/-- Set the resolution state of a module-level type declaration. -/
def setTypeDeclState (d : Decl) (state : TypeDeclState) : CheckM Unit :=
  modify fun s => { s with typeDecls := s.typeDecls.insert d.id (d, state) }

/-- A type declaration met again while it is being resolved. -/
def circularType (d : Decl) : Diagnostic :=
  (Diagnostic.error .e3009 ("type `" ++ d.name ++ "` is defined in terms of itself")).withLabel
    d.nameSpan "circular type definition"

/-- The type of a string used as an initial value: it fills an array of its unit type, which
takes its length from the string when it has none. -/
def stringInitResult (found ty : TypeId) (span : Span) : CheckM TypeId := do
  let p := (← get).pool
  match p.get ty, p.get found with
  | .array want len, .array unit (some units) =>
    if want != unit then
      discard <| checkAssignable found ty span "in initializer"
      return ty
    match len with
    | none => return found
    | some capacity =>
      if units > capacity then
        fail .e3006 span ("string of " ++ toString units ++
          " units including the terminator does not fit in `" ++ (← fmt ty) ++ "`")
      return ty
  | _, _ =>
    discard <| checkAssignable found ty span "in initializer"
    return ty

/-- The type of an array initializer whose elements are checked: an array without a length
takes the number of elements, and an array with one must hold them all. -/
def arrayInitResult (elements : List Expr) (elem : TypeId) (len : Option Nat) (ty : TypeId)
    (span : Span) : CheckM TypeId := do
  let count := elements.length
  match len with
  | none => array elem count
  | some capacity =>
    if count > capacity then
      let firstExtra := (elements[capacity]?.map (·.span)).getD span
      report (((Diagnostic.error .e3006 ("too many initializers: `" ++ (← fmt ty) ++ "` holds " ++
        toString capacity ++ " element(s) but " ++ toString count ++ " were given")).withLabel
        firstExtra "no room for this element").withSecondary span "in this initializer")
    return ty

mutual

/-- Resolve a type node and record its type. -/
def resolveType : Nat → TypeExpr → CheckM TypeId
  | 0, _ => pure .error
  | fuel + 1, t => do
    let ty ← match t.kind with
      | .void => pure TypeId.void
      | .int w => pure (TypeId.ofWidth w)
      | .ref name => resolveTypeName fuel name t.span
      | .array inner size => do
        let elem ← resolveType fuel inner
        match size with
        | none => pointer elem
        | some size => sizedArrayResult elem size (← checkValue fuel size)
      | .func ret params variadic => do
        let r ← resolveType fuel ret
        let ps ← resolveParams fuel params
        func r ps variadic
      | .record kind members => defineRecord fuel t kind none members none
      | .typeOf e => checkExpr fuel e
    setTypeNode t.id ty
    return ty

/-- Resolve parameter types in order. -/
def resolveParams : Nat → List TypeExpr → CheckM (List TypeId)
  | 0, _ => pure []
  | _ + 1, [] => pure []
  | fuel + 1, p :: ps => do
    let ty ← paramType p (← resolveType fuel p)
    let rest ← resolveParams fuel ps
    return ty :: rest

/-- The type a name used as a type stands for. -/
def resolveTypeName : Nat → String → Span → CheckM TypeId
  | 0, _, _ => pure .error
  | fuel + 1, name, span => do
    match (← get).scopes.resolve name with
    | none =>
      report (unknownName span name)
      return .error
    | some sym =>
      let kind := (← symbol sym).kind
      if kind != .type then
        fail .e2007 span ("`" ++ name ++ "` is a " ++ kind.describe ++ ", not a type")
        return .error
      typeSymbolType fuel sym

/-- The type a type symbol stands for, resolving its declaration first. -/
def typeSymbolType : Nat → Nat → CheckM TypeId
  | 0, _ => pure .error
  | fuel + 1, sym => do
    if let some d := (← symbol sym).decl then ensureTypeDecl fuel d sym
    return (← symbol sym).ty

/-- Resolve a module-level type declaration unless that is done or under way. -/
def ensureTypeDecl : Nat → Nat → Nat → CheckM Unit
  | 0, _, _ => pure ()
  | fuel + 1, declId, sym => do
    match (← get).typeDecls.get? declId with
    | none | some (_, .done) => pure ()
    | some (d, .resolving) =>
      report (circularType d)
      modifySymbol sym ({ · with ty := .error })
    | some (d, .unresolved) =>
      let ty ← match d.ty.kind with
        | .record kind members => do
          setTypeDeclState d .done
          defineRecord fuel d.ty kind (some d.name) members (some sym)
        | _ => do
          setTypeDeclState d .resolving
          let ty ← resolveType fuel d.ty
          setTypeDeclState d .done
          if (← symbol sym).ty.isError && !ty.isError then modifySymbol sym ({ · with ty })
          pure (← symbol sym).ty
      setDeclType declId ty

/-- Make the record of a struct or union node and resolve its members. -/
def defineRecord : Nat → TypeExpr → RecordKind → Option String → List MemberDecl →
    Option Nat → CheckM TypeId
  | 0, _, _, _, _, _ => pure .error
  | fuel + 1, node, kind, name, members, binding => do
    let (rid, ty) ← openRecord node kind name binding
    let ms ← resolveMembers fuel [] members
    closeRecord rid ms
    return ty

/-- Resolve members in order, given the names already seen. -/
def resolveMembers : Nat → List (String × Span) → List MemberDecl → CheckM (List Member)
  | 0, _, _ => pure []
  | _ + 1, _, [] => pure []
  | fuel + 1, seen, m :: ms => do
    let ty ← resolveType fuel m.ty
    let (member?, seen) ← memberResult seen m ty
    let rest ← resolveMembers fuel seen ms
    return match member? with
      | some member => member :: rest
      | none => rest

/-- Type an expression and record its type. -/
def checkExpr : Nat → Expr → CheckM TypeId
  | 0, _ => pure .error
  | fuel + 1, e => do
    let ty ← inferExpr fuel e
    setExprType e.id ty
    return ty

/-- Type an expression whose value is used, which cannot be `void`. -/
def checkValue : Nat → Expr → CheckM TypeId
  | 0, _ => pure .error
  | fuel + 1, e => do
    let ty ← checkExpr fuel e
    if ty.isVoid then
      fail .e3014 e.span voidValueMessage
      return .error
    return ty

/-- Type a condition, which must be an integer, pointer or function. -/
def checkCondition : Nat → Expr → CheckM TypeId
  | 0, _ => pure .error
  | fuel + 1, e => do
    let ty ← checkValue fuel e
    if !ty.isError && !(← get).pool.isScalar ty then
      fail .e3001 e.span ("condition has type `" ++ (← fmt ty) ++
        "`, which is not an integer, pointer or function")
    return ty

/-- Type values in order. -/
def checkValues : Nat → List Expr → CheckM (List TypeId)
  | 0, _ => pure []
  | _ + 1, [] => pure []
  | fuel + 1, e :: es => do
    let ty ← checkValue fuel e
    let rest ← checkValues fuel es
    return ty :: rest

/-- Type the expressions of a comma list in order; the type of the last one. -/
def checkSequence : Nat → TypeId → List Expr → CheckM TypeId
  | 0, _, _ => pure .error
  | _ + 1, ty, [] => pure ty
  | fuel + 1, _, e :: es => do
    let ty ← checkExpr fuel e
    checkSequence fuel ty es

/-- The type of an expression. -/
def inferExpr : Nat → Expr → CheckM TypeId
  | 0, _ => pure .error
  | fuel + 1, .mk id span kind => do
    match kind with
    | .name n => nameResult id n span
    | .int value width =>
      setConst id (some value)
      match width with
      | .w16 => return .int16
      | .w32 => return .int32
      | .ptr => pointer .void
    | .str units encoding =>
      let unit := match encoding with
        | .narrow => TypeId.int8
        | .wide => TypeId.int16
      array unit (units.length + 1)
    | .sizeofExpr operand =>
      let ty ← match ← sizeofTypeOperand fuel operand with
        | some ty => pure ty
        | none => checkExpr fuel operand
      sizeofResult id ty span
    | .sizeofType t => sizeofResult id (← resolveType fuel t) span
    | .call f args =>
      let callee ← checkValue fuel f
      let argTypes ← checkValues fuel args
      callResult f args callee argTypes
    | .index a i =>
      let base ← checkValue fuel a
      let indexTy ← checkValue fuel i
      indexResult a i base indexTy
    | .access r member memberSpan => accessResult (← checkValue fuel r) member memberSpan
    | .cast inner t signed =>
      let source ← checkExpr fuel inner
      let target ← resolveType fuel t
      castResult id inner source target signed span
    | .deref inner => derefResult inner (← checkValue fuel inner)
    | .addrOf inner => addrOfResult inner (← checkExpr fuel inner)
    | .unary op operand => unaryResult id op operand (← checkValue fuel operand) span
    | .not operand =>
      discard <| checkCondition fuel operand
      setConst id ((← constOf operand.id).map Width.foldNot)
      return .int16
    | .binary op l r =>
      let lt ← checkValue fuel l
      let rt ← checkValue fuel r
      let ty ← arithResult op lt rt r span
      foldArith id op l r ty
      return ty
    | .cond op l r =>
      if op.isLogical then
        let lt ← checkCondition fuel l
        let rt ← checkCondition fuel r
        condResult id op l r lt rt span
      else
        let lt ← checkValue fuel l
        let rt ← checkValue fuel r
        condResult id op l r lt rt span
    | .ternary c t e =>
      discard <| checkCondition fuel c
      let thenTy ← checkValue fuel t
      let elseTy ← checkValue fuel e
      ternaryResult id c t e thenTy elseTy
    | .assign op target value =>
      let targetTy ← checkExpr fuel target
      let valueTy ← checkValue fuel value
      assignResult op target value targetTy valueTy span
    | .comma es => checkSequence fuel .void es
    | .arrayInit _ | .recordInit .. =>
      fail .e3001 span "a brace initializer is only allowed as an initial value"
      return .error

/-- The type a `sizeof` operand spelled `T`, `*T`, `**T`, ... measures when `T` names a
type; none when the operand is an expression. -/
def sizeofTypeOperand : Nat → Expr → CheckM (Option TypeId)
  | 0, _ => pure none
  | fuel + 1, .mk id _ kind => do
    let ty? ← match kind with
      | .name n =>
        match (← get).scopes.resolve n with
        | none => pure none
        | some sym =>
          if (← symbol sym).kind != .type then pure none
          else do
            bind id sym
            some <$> typeSymbolType fuel sym
      | .deref inner =>
        match ← sizeofTypeOperand fuel inner with
        | none => pure none
        | some target => if target.isError then pure (some .error) else some <$> pointer target
      | _ => pure none
    if let some ty := ty? then setExprType id ty
    return ty?

/-- Check an initial value against the type it initializes; the completed type, which an
array without a length takes from its initializer. -/
def checkInit : Nat → Expr → TypeId → CheckM TypeId
  | 0, _, _ => pure .error
  | fuel + 1, init, ty => do
    match init.kind with
    | .arrayInit elements =>
      let completed ← checkArrayInit fuel elements ty init.span
      setExprType init.id completed
      return completed
    | .recordInit kind fields =>
      let completed ← checkRecordInit fuel kind fields ty init.span
      setExprType init.id completed
      return completed
    | .str .. => stringInitResult (← checkExpr fuel init) ty init.span
    | _ =>
      let found ← checkValue fuel init
      discard <| checkAssignable found ty init.span "in initializer"
      return ty

/-- Check the elements of an array initializer. -/
def checkArrayInit : Nat → List Expr → TypeId → Span → CheckM TypeId
  | 0, _, _, _ => pure .error
  | fuel + 1, elements, ty, span => do
    if ty.isError then
      checkInits fuel elements .error
      return .error
    match ← typeData ty with
    | .array elem len =>
      checkInits fuel elements elem
      arrayInitResult elements elem len ty span
    | _ =>
      checkInits fuel elements .error
      fail .e3001 span ("an array initializer cannot initialize a value of type `" ++
        (← fmt ty) ++ "`")
      return ty

/-- Check initial values against one type. -/
def checkInits : Nat → List Expr → TypeId → CheckM Unit
  | 0, _, _ => pure ()
  | _ + 1, [], _ => pure ()
  | fuel + 1, e :: es, ty => do
    discard <| checkInit fuel e ty
    checkInits fuel es ty

/-- Check the fields of a struct or union initializer. -/
def checkRecordInit : Nat → RecordKind → List FieldInit → TypeId → Span → CheckM TypeId
  | 0, _, _, _, _ => pure .error
  | fuel + 1, kind, fields, ty, span => do
    if ty.isError then
      checkInits fuel (fields.map (·.value)) .error
      return .error
    let p := (← get).pool
    match (p.recordOf? ty).filter (fun rid => (p.record rid).kind == kind) with
    | none =>
      checkInits fuel (fields.map (·.value)) .error
      fail .e3001 span ("a " ++ kind.keyword ++ " initializer cannot initialize a value of type `" ++
        (← fmt ty) ++ "`")
      return ty
    | some rid =>
      if kind == .union && fields.length != 1 then
        fail .e3006 span "a union initializer must name exactly one member"
      checkFields fuel rid ty fields
      return ty

/-- Check each field value against the type of the member it names. -/
def checkFields : Nat → Nat → TypeId → List FieldInit → CheckM Unit
  | 0, _, _, _ => pure ()
  | _ + 1, _, _, [] => pure ()
  | fuel + 1, rid, ty, f :: fs => do
    match ((← get).pool.record rid).member? f.name with
    | some m => discard <| checkInit fuel f.value m.ty
    | none =>
      fail .e3003 f.span ("`" ++ (← fmt ty) ++ "` has no member `" ++ f.name ++ "`")
      discard <| checkInit fuel f.value .error
    checkFields fuel rid ty fs

end

/-- Resolve a type node with the module's budget. -/
def typeOfNode (t : TypeExpr) : CheckM TypeId := do resolveType (← get).budget t

/-- Type an expression with the module's budget. -/
def typeOfExpr (e : Expr) : CheckM TypeId := do checkExpr (← get).budget e

/-- Type a used value with the module's budget. -/
def typeOfValue (e : Expr) : CheckM TypeId := do checkValue (← get).budget e

/-- Type a condition with the module's budget. -/
def typeOfCondition (e : Expr) : CheckM TypeId := do checkCondition (← get).budget e

/-- Check an initial value with the module's budget. -/
def typeOfInit (e : Expr) (ty : TypeId) : CheckM TypeId := do checkInit (← get).budget e ty

/-- Make a record for a declared struct or union with the module's budget. -/
def declareRecord (node : TypeExpr) (kind : RecordKind) (name : Option String)
    (members : List MemberDecl) (binding : Option Nat) : CheckM TypeId := do
  defineRecord (← get).budget node kind name members binding

/-- Resolve a module-level type declaration with the module's budget. -/
def resolveTypeDecl (declId sym : Nat) : CheckM Unit := do
  ensureTypeDecl (← get).budget declId sym

end Check

end SolarFront
