import SolarFront.Check.Expr

/-!
Declarations. A variable, constant or function declaration resolves its type, checks its value
and binds its name in the innermost scope, merging into an earlier declaration of the name
where the scope rules allow. Module-level variables and `static` ones need constant initial
values; a module-level variable without a value must be marked `declare`, and so must a
function without a body. Function bodies are checked after every module-level declaration.
A type declaration inside a function is resolved where it stands.
-/

set_option autoImplicit false
set_option linter.all false

namespace SolarFront

/-- The diagnostic of a declaration the scope rules refuse. -/
def SymbolError.diagnostic (e : SymbolError) (name : String) (span : Span) : Diagnostic :=
  let (code, message, previous) := match e with
    | .redefinition _ => (Code.e2001, "`" ++ name ++ "` is defined more than once",
        "first defined here")
    | .conflicting _ => (Code.e2006, "conflicting declarations of `" ++ name ++ "`",
        "previously declared here")
  (((Diagnostic.error code message).withLabel span e.message).withSecondary e.previous previous)

namespace Check

open CheckM

/-- Bind a symbol in the innermost scope; its index, or none after reporting why not. -/
def declareSymbol (sym : Symbol) : CheckM (Option Nat) := do
  match (← get).scopes.declare sym with
  | .ok (scopes, id) =>
    modify fun s => { s with scopes }
    return some id
  | .error e =>
    report (e.diagnostic sym.name sym.span)
    return none

/-- Bind the symbol a declaration introduces and remember which symbol that is. -/
def bindDecl (d : Decl) (sym : Symbol) : CheckM (Option Nat) := do
  modify fun s => { s with declSpans := s.declSpans.insert d.id d.span }
  let bound ← declareSymbol sym
  if let some id := bound then
    modify fun s => { s with declSymbols := s.declSymbols.insert d.id id }
  return bound

/-- Bind a module-level type name before any declaration is checked; its type is found on
first use. -/
def bindGlobalType (d : Decl) : CheckM Unit := do
  match d.kind with
  | .type =>
    let sym : Symbol :=
      { name := d.name, kind := .type, ty := .error, isGlobal := true,
        decl := some d.id, definition := some d.id, span := d.nameSpan }
    if (← bindDecl d sym).isSome then setTypeDeclState d .unresolved
  | _ => pure ()

/-- The check that a module-level or `static` variable has a constant initial value. A value
typed as the error type was reported where its type was found, and is not reported again. -/
def constantInitCheck (d : Decl) (v : Expr) (needsConstant : Bool) : CheckM Unit := do
  let typed := !(← exprType v.id).isError
  if needsConstant && typed && !(← get).isConstantInit v then
    fail .e3007 v.span ("initial value of `" ++ d.name ++ "` is not a compile-time constant")

/-- The value of a constant whose value has type `found`, cut to the width of its type `ty`
when that is an integer type. A value that does not fold is reported, unless it was typed as
the error type. -/
def constValue (d : Decl) (value : Expr) (found ty : TypeId) : CheckM (Option Nat) := do
  match ← constOf value.id, (← get).pool.intWidth? ty with
  | some v, some w => pure (some (w.truncate v))
  | some v, none => pure (some v)
  | none, _ => do
    if !found.isError then
      fail .e3007 value.span ("value of `" ++ d.name ++ "` is not a compile-time constant")
    pure none

/-- Check a variable declaration. -/
def checkVar (d : Decl) (value : Option Expr) (isStatic : Bool) : CheckM Unit := do
  let global := (← get).scopes.atModuleLevel
  let declared ← typeOfNode d.ty
  let ty ← (if declared.isVoid then do
      fail .e3001 d.ty.span ("variable `" ++ d.name ++ "` cannot have type `void`")
      pure TypeId.error
    else pure declared)
  let ty ← (match value with
    | some v => do
      let ty ← typeOfInit v ty
      constantInitCheck d v (global || isStatic)
      pure ty
    | none => do
      if global && !d.isDeclare then
        fail .e3013 d.nameSpan ("`" ++ d.name ++
          "` is defined without a value; give it one or mark it `declare`")
      pure ty)
  let defined := !d.isDeclare || value.isSome
  let sym : Symbol :=
    { name := d.name, kind := .var, ty, isStatic, isGlobal := global, defined,
      decl := some d.id, definition := if defined then some d.id else none, span := d.nameSpan }
  let bound ← bindDecl d sym
  (match bound with
    | some id => do
      if isStatic && !global && !(← get).staticLocals.contains id then
        modify fun s => { s with staticLocals := s.staticLocals.push id }
    | none => pure ())
  setDeclType d.id ty

/-- Check a constant declaration: an integer type and a value folded at its width. -/
def checkConst (d : Decl) (value : Expr) (isStatic : Bool) : CheckM Unit := do
  let declared ← typeOfNode d.ty
  let ty ← (if !declared.isError && !(← get).pool.isIntegral declared then do
      fail .e3001 d.ty.span ("constant `" ++ d.name ++ "` must have an integer type, found `" ++
        (← fmt declared) ++ "`")
      pure TypeId.error
    else pure declared)
  let found ← typeOfValue value
  discard <| checkAssignable found ty value.span "for this constant"
  let folded ← constValue d value found ty
  let global := (← get).scopes.atModuleLevel
  let sym : Symbol :=
    { name := d.name, kind := .const, ty, isStatic, isGlobal := global,
      decl := some d.id, definition := some d.id, span := d.nameSpan, value := folded }
  discard <| bindDecl d sym
  setDeclType d.id ty

/-- Check a function declaration; its body waits for the last pass. -/
def checkFuncDecl (d : Decl) (hasBody isStatic isInline : Bool) : CheckM Unit := do
  let ty ← typeOfNode d.ty
  (if !d.isDeclare && !hasBody then
    fail .e3013 d.nameSpan ("function `" ++ d.name ++
      "` has no body; give it one or mark it `declare`")
  else pure ())
  let sym : Symbol :=
    { name := d.name, kind := .func, ty, isStatic, isInline, isGlobal := true,
      defined := hasBody, decl := some d.id, definition := if hasBody then some d.id else none,
      span := d.nameSpan }
  discard <| bindDecl d sym
  setDeclType d.id ty
  if hasBody then modify fun s => { s with pending := s.pending.push (d, ty) }

/-- Resolve a type declaration inside a function. A struct or union binds its name before
its members are resolved, so that they may point to it. -/
def defineLocalType (d : Decl) : CheckM Unit := do
  let placeholder : Symbol :=
    { name := d.name, kind := .type, ty := .error,
      decl := some d.id, definition := some d.id, span := d.nameSpan }
  let ty ← (match d.ty.kind with
    | .record kind members => do
      let sym ← bindDecl d placeholder
      declareRecord d.ty kind (some d.name) members sym
    | _ => do
      let ty ← typeOfNode d.ty
      discard <| bindDecl d { placeholder with ty }
      pure ty)
  setDeclType d.id ty

/-- Check a module-level declaration. -/
def checkDecl (d : Decl) : CheckM Unit := do
  match d.kind with
  | .var value isStatic => checkVar d value isStatic
  | .const value isStatic => checkConst d value isStatic
  | .func _ body isStatic isInline => checkFuncDecl d body.isSome isStatic isInline
  | .type =>
    if let some sym := (← get).declSymbols.get? d.id then resolveTypeDecl d.id sym

/-- Check a declaration inside a function; a nested function declaration is ignored. -/
def checkLocalDecl (d : Decl) : CheckM Unit := do
  match d.kind with
  | .var value isStatic => checkVar d value isStatic
  | .const value isStatic => checkConst d value isStatic
  | .func .. => pure ()
  | .type => defineLocalType d

end Check

end SolarFront
