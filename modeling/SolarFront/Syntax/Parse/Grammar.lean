import SolarFront.Syntax.Parse.Basic

/-!
The grammar, by recursive descent. Binary operators are parsed by precedence climbing over ten
levels, loosest first: `||`; `&&`; `|`; `^`; `&`; `==` and `!=`; the order comparisons with
their `$` forms; the shifts; `+` and `-`; `*`, `/`, `/$`, `%` and `%$`. All of them group to
the left. Assignment and `?:` group to the right, and the middle of `?:` is a full expression.

Every grammar function takes `fuel`, which bounds the depth of the calls below it; the entry
point gives more than any token list can use, since every call either reads a token or is one
of a bounded chain of calls before the next read.
-/

set_option autoImplicit false
set_option linter.all false

namespace SolarFront

namespace Parser

/-- An infix operator. -/
inductive Infix where
  | arith (op : BinaryOp)
  | cond (op : CondOp)

/-- The node an infix operator makes of its two operands. -/
def Infix.node : Infix → Expr → Expr → ExprKind
  | .arith o, l, r => .binary o l r
  | .cond o, l, r => .cond o l r

/-- Binding power and operator of an infix token. -/
def infixOp : TokenKind → Option (Nat × Infix)
  | .pipePipe => some (1, .cond .or)
  | .ampAmp => some (2, .cond .and)
  | .pipe => some (3, .arith .bitOr)
  | .caret => some (4, .arith .bitXor)
  | .amp => some (5, .arith .bitAnd)
  | .eqEq => some (6, .cond .eq)
  | .notEq => some (6, .cond .notEq)
  | .lt => some (7, .cond .ult)
  | .ltEq => some (7, .cond .ulte)
  | .gt => some (7, .cond .ugt)
  | .gtEq => some (7, .cond .ugte)
  | .ltDollar => some (7, .cond .slt)
  | .ltEqDollar => some (7, .cond .slte)
  | .gtDollar => some (7, .cond .sgt)
  | .gtEqDollar => some (7, .cond .sgte)
  | .shl => some (8, .arith .shl)
  | .shr => some (8, .arith .shr)
  | .shrDollar => some (8, .arith .sar)
  | .plus => some (9, .arith .add)
  | .minus => some (9, .arith .sub)
  | .star => some (10, .arith .mul)
  | .slash => some (10, .arith .udiv)
  | .slashDollar => some (10, .arith .sdiv)
  | .percent => some (10, .arith .umod)
  | .percentDollar => some (10, .arith .smod)
  | _ => none

/-- The operator of a compound assignment; plain `:=` has none. -/
def compoundOp : TokenKind → Option BinaryOp
  | .plusEq => some .add
  | .minusEq => some .sub
  | .starEq => some .mul
  | .slashEq => some .udiv
  | .slashDollarEq => some .sdiv
  | .percentEq => some .umod
  | .percentDollarEq => some .smod
  | .shlEq => some .shl
  | .shrEq => some .shr
  | .shrDollarEq => some .sar
  | .ampEq => some .bitAnd
  | .pipeEq => some .bitOr
  | .caretEq => some .bitXor
  | _ => none

/-- A prefix operator. -/
inductive Prefix where
  | arith (op : UnaryOp)
  | not
  | deref
  | addrOf

/-- The node a prefix operator makes of its operand. -/
def Prefix.node : Prefix → Expr → ExprKind
  | .arith o, e => .unary o e
  | .not, e => .not e
  | .deref, e => .deref e
  | .addrOf, e => .addrOf e

def prefixOp : TokenKind → Option Prefix
  | .plus => some (.arith .plus)
  | .minus => some (.arith .neg)
  | .tilde => some (.arith .bitNot)
  | .bang => some .not
  | .star => some .deref
  | .amp => some .addrOf
  | _ => none

/-- Tokens that start a declaration. -/
def declStart : TokenKind → Bool
  | .kwDeclare | .kwStatic | .kwInline | .kwVar | .kwConst | .kwFun | .kwUsing | .kwStruct
  | .kwUnion => true
  | _ => false

/-- Tokens that start a type and never an expression. -/
def typeOnlyStart : TokenKind → Bool
  | .kwVoid | .kwInt16 | .kwInt32 | .lBracket | .kwFun | .kwStruct | .kwUnion | .kwVolatile
  | .kwTypeof => true
  | _ => false

/-- Keywords that start a statement. -/
def stmtKeyword : TokenKind → Bool
  | .kwIf | .kwWhile | .kwFor | .kwContinue | .kwBreak | .kwBreakIf | .kwReturn => true
  | _ => false

/-- Whether a type starts `n` tokens ahead, after any number of `*`. -/
def typeStartsAt (s : ParseState) : Nat → Nat → Bool
  | 0, _ => false
  | fuel + 1, n =>
    let k := (peekAt s n).kind
    if k == .star then typeStartsAt s fuel (n + 1) else typeOnlyStart k

/-- Eat a run of tokens of one kind; whether there was any. -/
def eatRun (k : TokenKind) : Nat → Parser Bool
  | 0 => return false
  | fuel + 1 => do
    if ← eat k then
      let _ ← eatRun k fuel
      return true
    else return false

/-- The modifiers before a declaration, each with the span where it was last written. -/
structure Modifiers where
  declare : Option Span := none
  static : Option Span := none
  inline : Option Span := none

/-- What comes before a declaration's keyword. -/
structure DeclHead where
  start : Span
  modifiers : Modifiers
  description : Option String

/-- Read modifiers, reporting repeated ones. -/
def parseModifiers : Nat → Modifiers → Parser Modifiers
  | 0, m => return m
  | fuel + 1, m => do
    let t ← current
    let slot := match t.kind with
      | .kwDeclare => some m.declare
      | .kwStatic => some m.static
      | .kwInline => some m.inline
      | _ => none
    match slot with
    | none => return m
    | some prev =>
      if prev.isSome then
        report { code := .e1003, message := "duplicate modifier " ++ t.kind.display,
                 span := t.span, context := some "repeated here" }
      let m := match t.kind with
        | .kwDeclare => { m with declare := some t.span }
        | .kwStatic => { m with static := some t.span }
        | _ => { m with inline := some t.span }
      let _ ← advance
      parseModifiers fuel m

/-- The comments between the previous token and the current one, joined by newlines. -/
def leadingComment : Parser (Option String) := do
  let s ← get
  let start := (← previousSpan).stop
  let stop := (← currentSpan).start
  let found := (TokenList.mk s.tokens s.comments).commentsBetween start stop
  if found.isEmpty then return none
  return some ("\n".intercalate (found.map (·.text)))

def parseDeclHead : Parser DeclHead := do
  let start ← currentSpan
  let description ← leadingComment
  let modifiers ← parseModifiers ((← get).tokens.size + 1) {}
  return ⟨start, modifiers, description⟩

/-- Report each modifier that the declaration does not allow. -/
def rejectModifiers (m : Modifiers) (what : String) (allowed : List TokenKind) : Parser Unit := do
  for (k, span?) in [(TokenKind.kwDeclare, m.declare), (.kwStatic, m.static), (.kwInline, m.inline)] do
    if let some span := span? then
      if !allowed.contains k then
        report { code := .e1003, message := k.display ++ " is not allowed on " ++ what, span,
                 context := some "invalid modifier" }

/-- An expression node from `start` to the last token read. -/
def mkExpr (kind : ExprKind) (start : Span) : Parser Expr := do
  let span ← spanFrom start
  return .mk (← freshId) span kind

/-- A statement node from `start` to the last token read. -/
def mkStmt (kind : StmtKind) (start : Span) : Parser Stmt := do
  let span ← spanFrom start
  return .mk (← freshId) span kind

/-- `...`, which must end a parameter list. -/
def parseVariadicMarker : Parser Bool := do
  let span := (← expect .ellipsis).span
  if ← check .comma then
    throw { code := .e1008, message := "`...` must be the last parameter", span,
            context := some "variadic marker" }
  return true

/-- The error when the fuel runs out, which no token list reaches. -/
def exhausted {α : Type} : Parser α := do throw (ParseError.nestingTooDeep (← currentSpan) nestingLimit)

/-- A declaration node; only variables and functions keep a `declare` mark. -/
def finishDecl (head : DeclHead) (name : String) (nameSpan : Span) (ty : TypeExpr)
    (kind : DeclKind) : Parser Decl := do
    let isDeclare := match kind with
      | .var .. | .func .. => head.modifiers.declare.isSome
      | _ => false
    let span ← spanFrom head.start
    return .mk (← freshId) name nameSpan span ty isDeclare head.description kind

/-- An optional label after `continue`, `break` or `breakif`, then `;`. -/
def parseJumpLabel : Parser (Option Label) := do
  let label ← if ← check .ident then do
      let (n, s) ← expectIdent
      pure (some (Label.mk n s))
    else pure none
  let _ ← expect .semicolon
  return label

/-- One item of a block: a statement, or nothing once an error that does not end the parse has
been recorded and skipped. -/
def blockItem (stmt : Parser Stmt) : Parser (Option Stmt) :=
  tryCatch (some <$> stmt) fun e => do
    if e.isFatal then throw e
    recover e
    pure none

mutual

/-- `expr := assign (',' assign)*` -/
def parseExpr : Nat → Parser Expr
  | 0 => exhausted
  | fuel + 1 => do
    let first ← parseAssign fuel
    if !(← check .comma) then return first
    let rest ← parseCommaTail fuel
    mkExpr (.comma (first :: rest)) first.span

def parseCommaTail : Nat → Parser (List Expr)
  | 0 => exhausted
  | fuel + 1 => do
    if ← eat .comma then
      let e ← parseAssign fuel
      return e :: (← parseCommaTail fuel)
    else return []

/-- `assign := ternary (ASSIGNOP assign)?` -/
def parseAssign : Nat → Parser Expr
  | 0 => exhausted
  | fuel + 1 => do
    let target ← parseTernary fuel
    let k ← currentKind
    if !k.isAssign then return target
    let _ ← advance
    let value ← nested (parseAssign fuel)
    mkExpr (.assign (compoundOp k) target value) target.span

/-- `ternary := binary ('?' expr ':' ternary)?` -/
def parseTernary : Nat → Parser Expr
  | 0 => exhausted
  | fuel + 1 => do
    let c ← parseBinary fuel 1
    if !(← eat .question) then return c
    let t ← nested (parseExpr fuel)
    let _ ← expect .colon
    let e ← nested (parseTernary fuel)
    mkExpr (.ternary c t e) c.span

/-- Operators binding at least as tightly as `minPrec`, grouped to the left. -/
def parseBinary : Nat → Nat → Parser Expr
  | 0, _ => exhausted
  | fuel + 1, minPrec => do
    let left ← parsePrefix fuel
    parseBinaryTail fuel minPrec left

def parseBinaryTail : Nat → Nat → Expr → Parser Expr
  | 0, _, _ => exhausted
  | fuel + 1, minPrec, left => do
    match infixOp (← currentKind) with
    | some (prec, op) =>
      if prec < minPrec then return left
      let _ ← advance
      let right ← nested (parseBinary fuel (prec + 1))
      let e ← mkExpr (op.node left right) left.span
      parseBinaryTail fuel minPrec e
    | none => return left

def parsePrefix : Nat → Parser Expr
  | 0 => exhausted
  | fuel + 1 => do
    if ← check .kwSizeof then return ← parseSizeof fuel
    match prefixOp (← currentKind) with
    | none => parsePostfix fuel
    | some op =>
      let start := (← advance).span
      let operand ← nested (parsePrefix fuel)
      mkExpr (op.node operand) start

/-- `sizeof (type)` when a type surely follows the parenthesis, else `sizeof` of an operand. -/
def parseSizeof : Nat → Parser Expr
  | 0 => exhausted
  | fuel + 1 => do
    let start := (← expect .kwSizeof).span
    let s ← get
    if (← check .lParen) && typeStartsAt s (s.tokens.size + 1) 1 then
      let _ ← advance
      let ty ← parseType fuel
      let _ ← expect .rParen
      mkExpr (.sizeofType ty) start
    else
      let e ← nested (parsePrefix fuel)
      mkExpr (.sizeofExpr e) start

def parsePostfix : Nat → Parser Expr
  | 0 => exhausted
  | fuel + 1 => do
    let e ← parsePrimary fuel
    parsePostfixTail fuel e

/-- Calls, indexing, member access and casts after an operand. `p->m` reads as `(*p).m`. -/
def parsePostfixTail : Nat → Expr → Parser Expr
  | 0, _ => exhausted
  | fuel + 1, e => do
    let start := e.span
    match ← currentKind with
    | .lParen =>
      let _ ← advance
      let args ← parseCallArgs fuel
      parsePostfixTail fuel (← mkExpr (.call e args) start)
    | .lBracket =>
      let _ ← advance
      let i ← nested (parseExpr fuel)
      let _ ← expect .rBracket
      parsePostfixTail fuel (← mkExpr (.index e i) start)
    | .dot =>
      let _ ← advance
      let (m, ms) ← expectIdent
      parsePostfixTail fuel (← mkExpr (.access e m ms) start)
    | .arrow =>
      let _ ← advance
      let r ← mkExpr (.deref e) start
      let (m, ms) ← expectIdent
      parsePostfixTail fuel (← mkExpr (.access r m ms) start)
    | .kwAs | .kwAsSigned =>
      let t ← advance
      let ty ← parseType fuel
      parsePostfixTail fuel (← mkExpr (.cast e ty (t.kind == .kwAsSigned)) start)
    | _ => return e

def parseCallArgs : Nat → Parser (List Expr)
  | 0 => exhausted
  | fuel + 1 => do
    if ← eat .rParen then return []
    let args ← parseArgList fuel
    let _ ← expect .rParen
    return args

def parseArgList : Nat → Parser (List Expr)
  | 0 => exhausted
  | fuel + 1 => do
    let a ← nested (parseAssign fuel)
    if ← eat .comma then return a :: (← parseArgList fuel) else return [a]

def parsePrimary : Nat → Parser Expr
  | 0 => exhausted
  | fuel + 1 => do
    let t ← current
    match t.kind, t.value with
    | .ident, .name n =>
      let _ ← advance
      mkExpr (.name n) t.span
    | .int, .int v w =>
      let _ ← advance
      mkExpr (.int v w) t.span
    | .str, .str units enc =>
      let _ ← advance
      let units ← parseStringTail fuel enc t.span units
      mkExpr (.str units enc) t.span
    | .lParen, _ =>
      let _ ← advance
      let inner ← nested (parseExpr fuel)
      let _ ← expect .rParen
      return inner
    | k, _ => throw (ParseError.expectedConstruct "an expression" k t.span)

/-- Adjacent string literals of the first one's encoding join it; others are reported and
dropped. -/
def parseStringTail : Nat → Encoding → Span → List Nat → Parser (List Nat)
  | 0, _, _, _ => exhausted
  | fuel + 1, enc, first, acc => do
    if ← check .str then
      let next ← advance
      match next.value with
      | .str units e =>
        if e == enc then parseStringTail fuel enc first (acc ++ units)
        else
          report { code := .e1007, message := "cannot concatenate narrow and wide string literals",
                   span := next.span, related := some (first, "first literal here") }
          parseStringTail fuel enc first acc
      | _ => parseStringTail fuel enc first acc
    else return acc

def parseType : Nat → Parser TypeExpr
  | 0 => exhausted
  | fuel + 1 => nested (parseTypeInner fuel)

def parseTypeInner : Nat → Parser TypeExpr
  | 0 => exhausted
  | fuel + 1 => do
    let start ← currentSpan
    let volatile ← eatRun .kwVolatile ((← get).tokens.size + 1)
    let kind ← match ← currentKind with
      | .kwVoid => do let _ ← advance; pure TypeExprKind.void
      | .kwInt16 => do let _ ← advance; pure (.int .w16)
      | .kwInt32 => do let _ ← advance; pure (.int .w32)
      | .ident => do let (n, _) ← expectIdent; pure (.ref n)
      | .star => do
        let _ ← advance
        let inner ← parseType fuel
        pure (.array inner none)
      | .lBracket => do
        let _ ← advance
        let size ← if ← check .rBracket then pure none else some <$> parseExpr fuel
        let _ ← expect .rBracket
        let inner ← parseType fuel
        pure (.array inner size)
      | .kwFun => do
        let _ ← advance
        parseFunType fuel
      | .kwStruct => do
        let _ ← advance
        pure (.record .struct (← parseRecordBody fuel))
      | .kwUnion => do
        let _ ← advance
        pure (.record .union (← parseRecordBody fuel))
      | .kwTypeof => do
        let _ ← advance
        let _ ← expect .lParen
        let e ← parseExpr fuel
        let _ ← expect .rParen
        pure (.typeOf e)
      | k => do throw (ParseError.expectedConstruct "a type" k (← currentSpan))
    let span ← spanFrom start
    return .mk (← freshId) span volatile kind

/-- `fun(T, ...) -> R` after the `fun`. -/
def parseFunType : Nat → Parser TypeExprKind
  | 0 => exhausted
  | fuel + 1 => do
    let _ ← expect .lParen
    let (params, variadic) ← if ← check .rParen then pure ([], false) else parseTypeParams fuel
    let _ ← expect .rParen
    let ret ← parseReturnType fuel
    return .func ret params variadic

def parseTypeParams : Nat → Parser (List TypeExpr × Bool)
  | 0 => exhausted
  | fuel + 1 => do
    if ← check .ellipsis then return ([], ← parseVariadicMarker)
    let t ← parseType fuel
    if ← eat .comma then
      let (ts, v) ← parseTypeParams fuel
      return (t :: ts, v)
    else return ([t], false)

/-- `-> T`, or `void` at the end of the last token read. -/
def parseReturnType : Nat → Parser TypeExpr
  | 0 => exhausted
  | fuel + 1 => do
    if ← eat .arrow then parseType fuel
    else
      let point := Span.point (← previousSpan).stop
      return .mk (← freshId) point false .void

/-- `{ name: T [: bits], ... }`; an empty record is reported. -/
def parseRecordBody : Nat → Parser (List MemberDecl)
  | 0 => exhausted
  | fuel + 1 => do
    let open_ := (← expect .lBrace).span
    let members ← parseMembers fuel
    expectCloseBrace open_
    if members.isEmpty then
      report { code := .e1004, message := "a record needs at least one member",
               span := ← spanFrom open_, context := some "empty record" }
    return members

def parseMembers : Nat → Parser (List MemberDecl)
  | 0 => exhausted
  | fuel + 1 => do
    if (← check .rBrace) || (← atEnd) then return []
    let (name, nameSpan) ← expectIdent
    let _ ← expect .colon
    let ty ← parseType fuel
    let bits ← if ← eat .colon then some <$> (·.1) <$> expectInt else pure none
    let m := MemberDecl.mk name ty bits (← spanFrom nameSpan)
    if ← eat .comma then return m :: (← parseMembers fuel) else return [m]

/-- `{ stmt* }`; the end of file inside ends the parse. -/
def parseBlock : Nat → Parser Stmt
  | 0 => exhausted
  | fuel + 1 => do
    let open_ := (← expect .lBrace).span
    let stmts ← parseBlockItems fuel open_
    mkStmt (.block stmts) open_

def parseBlockItems : Nat → Span → Parser (List Stmt)
  | 0, _ => exhausted
  | fuel + 1, open_ => do
    match ← currentKind with
    | .rBrace =>
      let _ ← advance
      return []
    | .eof => throw (ParseError.unterminatedBlock open_ (← currentSpan))
    | _ =>
      let r ← blockItem (parseStmt fuel)
      let rest ← parseBlockItems fuel open_
      return r.toList ++ rest

def parseStmt : Nat → Parser Stmt
  | 0 => exhausted
  | fuel + 1 => nested (parseStmtInner fuel)

def parseStmtInner : Nat → Parser Stmt
  | 0 => exhausted
  | fuel + 1 => do
    let start ← currentSpan
    let k ← currentKind
    if k == .semicolon then
      let _ ← advance
      mkStmt .empty start
    else if k == .lBrace then parseBlock fuel
    else if declStart k then
      let d ← parseLocalDecl fuel
      mkStmt (.decl d) start
    else if stmtKeyword k then parseKeywordStmt fuel none start
    else if k == .ident && (← peekKind 1) == .colon then
      let (name, span) ← expectIdent
      let _ ← advance
      let c ← currentKind
      if c == .kwIf || c == .kwWhile || c == .kwFor then
        parseKeywordStmt fuel (some ⟨name, span⟩) start
      else
        throw { ParseError.unexpected [.kwIf, .kwWhile, .kwFor] c (← currentSpan) with
                context := some "after a label" }
    else
      let e ← parseExpr fuel
      let _ ← expect .semicolon
      mkStmt (.expr e) start

def parseKeywordStmt : Nat → Option Label → Span → Parser Stmt
  | 0, _, _ => exhausted
  | fuel + 1, label, start => do
    match ← currentKind with
    | .kwIf =>
      let _ ← advance
      let c ← parseCondition fuel
      let t ← parseStmt fuel
      let e ← parseElse fuel
      mkStmt (.branch label c t e) start
    | .kwWhile =>
      let _ ← advance
      let c ← parseCondition fuel
      let body ← parseStmt fuel
      let e ← parseElse fuel
      mkStmt (.loop label none (some c) none body e) start
    | .kwFor =>
      let _ ← advance
      let _ ← expect .lParen
      let init ← parseOptionalExpr fuel .semicolon
      let _ ← expect .semicolon
      let cond ← parseOptionalExpr fuel .semicolon
      let _ ← expect .semicolon
      let step ← parseOptionalExpr fuel .rParen
      let _ ← expect .rParen
      let body ← parseStmt fuel
      let e ← parseElse fuel
      mkStmt (.loop label init cond step body e) start
    | .kwContinue =>
      let _ ← advance
      let l ← parseJumpLabel
      mkStmt (.jump .continue l) start
    | .kwBreak | .kwBreakIf =>
      let t ← advance
      let l ← parseJumpLabel
      mkStmt (.jump (if t.kind == .kwBreakIf then .breakIf else .break) l) start
    | .kwReturn =>
      let _ ← advance
      let v ← parseOptionalExpr fuel .semicolon
      let _ ← expect .semicolon
      mkStmt (.ret v) start
    | k => throw (ParseError.expectedConstruct "a statement" k (← currentSpan))

def parseCondition : Nat → Parser Expr
  | 0 => exhausted
  | fuel + 1 => do
    let _ ← expect .lParen
    let c ← parseExpr fuel
    let _ ← expect .rParen
    return c

def parseElse : Nat → Parser (Option Stmt)
  | 0 => exhausted
  | fuel + 1 => do
    if ← eat .kwElse then return some (← parseStmt fuel) else return none

def parseOptionalExpr : Nat → TokenKind → Parser (Option Expr)
  | 0, _ => exhausted
  | fuel + 1, terminator => do
    if ← check terminator then return none else return some (← parseExpr fuel)

/-- An initial value: a brace list, a struct or union initializer, or an expression. -/
def parseInit : Nat → Parser Expr
  | 0 => exhausted
  | fuel + 1 => nested (parseInitInner fuel)

def parseInitInner : Nat → Parser Expr
  | 0 => exhausted
  | fuel + 1 => do
    let start ← currentSpan
    match ← currentKind with
    | .lBrace =>
      let open_ := (← advance).span
      let elems ← parseElements fuel
      expectCloseBrace open_
      mkExpr (.arrayInit elems) start
    | .kwStruct | .kwUnion =>
      if (← peekKind 1) == .lBrace then
        let kind : RecordKind := if (← advance).kind == .kwUnion then .union else .struct
        let fields ← parseFieldInits fuel
        mkExpr (.recordInit kind fields) start
      else parseAssign fuel
    | _ => parseAssign fuel

def parseElements : Nat → Parser (List Expr)
  | 0 => exhausted
  | fuel + 1 => do
    if (← check .rBrace) || (← atEnd) then return []
    let e ← parseInit fuel
    if ← eat .comma then return e :: (← parseElements fuel) else return [e]

def parseFieldInits : Nat → Parser (List FieldInit)
  | 0 => exhausted
  | fuel + 1 => do
    let open_ := (← expect .lBrace).span
    let fields ← parseFieldList fuel []
    expectCloseBrace open_
    return fields

/-- Field initializers; a field named again is reported and dropped. -/
def parseFieldList : Nat → List (String × Span) → Parser (List FieldInit)
  | 0, _ => exhausted
  | fuel + 1, seen => do
    if (← check .rBrace) || (← atEnd) then return []
    let (name, nameSpan) ← expectIdent
    let _ ← expect .colon
    let value ← parseInit fuel
    let span ← spanFrom nameSpan
    let (keep, seen) ← match seen.lookup name with
      | some first => do
        report { code := .e1005, message := "field `" ++ name ++ "` is initialized more than once",
                 span := nameSpan, related := some (first, "first initialized here") }
        pure (none, seen)
      | none => pure (some (FieldInit.mk name value span), (name, nameSpan) :: seen)
    if ← eat .comma then return keep.toList ++ (← parseFieldList fuel seen)
    else return keep.toList

def parseDecl : Nat → Parser Decl
  | 0 => exhausted
  | fuel + 1 => do
    let head ← parseDeclHead
    parseDeclBody fuel head

/-- A declaration inside a function body, where functions are not allowed. -/
def parseLocalDecl : Nat → Parser Decl
  | 0 => exhausted
  | fuel + 1 => do
    let head ← parseDeclHead
    if ← check .kwFun then
      throw { code := .e1001, message := "functions can only be declared at module level",
              span := ← currentSpan, context := some "nested function" }
    parseDeclBody fuel head

def parseDeclBody : Nat → DeclHead → Parser Decl
  | 0, _ => exhausted
  | fuel + 1, head => do
    match ← currentKind with
    | .kwFun => parseFun fuel head
    | .kwVar =>
      rejectModifiers head.modifiers "a variable" [.kwDeclare, .kwStatic]
      let _ ← expect .kwVar
      let (name, nameSpan) ← expectIdent
      let _ ← expect .colon
      let ty ← parseType fuel
      let value ← if ← eat .assign then some <$> parseInit fuel else pure none
      let _ ← expect .semicolon
      finishDecl head name nameSpan ty (.var value head.modifiers.static.isSome)
    | .kwConst =>
      rejectModifiers head.modifiers "a constant" [.kwStatic]
      let _ ← expect .kwConst
      let (name, nameSpan) ← expectIdent
      let _ ← expect .colon
      let ty ← parseType fuel
      let _ ← expect .assign
      let value ← parseAssign fuel
      let _ ← expect .semicolon
      finishDecl head name nameSpan ty (.const value head.modifiers.static.isSome)
    | .kwUsing =>
      rejectModifiers head.modifiers "a type alias" []
      let _ ← expect .kwUsing
      let (name, nameSpan) ← expectIdent
      let _ ← expect .assign
      let ty ← parseType fuel
      let _ ← expect .semicolon
      finishDecl head name nameSpan ty .type
    | .kwStruct | .kwUnion =>
      rejectModifiers head.modifiers "a record type" []
      let keyword ← advance
      let (name, nameSpan) ← expectIdent
      let members ← parseRecordBody fuel
      let kind : RecordKind := if keyword.kind == .kwUnion then .union else .struct
      let ty := TypeExpr.mk (← freshId) (← spanFrom keyword.span) false (.record kind members)
      let _ ← expect .semicolon
      finishDecl head name nameSpan ty .type
    | k => throw (ParseError.expectedConstruct "a declaration" k (← currentSpan))

/-- `fun name(params) [-> T]` and a body or `;`. `inline` implies `static`. -/
def parseFun : Nat → DeclHead → Parser Decl
  | 0, _ => exhausted
  | fuel + 1, head => do
    let _ ← expect .kwFun
    let (name, nameSpan) ← expectIdent
    let sigStart ← currentSpan
    let _ ← expect .lParen
    let (params, tys, variadic) ←
      if ← check .rParen then pure ([], [], false) else parseParams fuel
    let _ ← expect .rParen
    let ret ← parseReturnType fuel
    let ty := TypeExpr.mk (← freshId) (← spanFrom sigStart) false (.func ret tys variadic)
    let body ← if ← eat .semicolon then pure none else some <$> parseBlock fuel
    let m := head.modifiers
    finishDecl head name nameSpan ty
      (.func params body (m.static.isSome || m.inline.isSome) m.inline.isSome)

def parseParams : Nat → Parser (List Param × List TypeExpr × Bool)
  | 0 => exhausted
  | fuel + 1 => do
    if ← check .ellipsis then return ([], [], ← parseVariadicMarker)
    let (p, span) ← expectIdent
    let _ ← expect .colon
    let t ← parseType fuel
    if ← eat .comma then
      let (ps, ts, v) ← parseParams fuel
      return (⟨p, span⟩ :: ps, t :: ts, v)
    else return ([⟨p, span⟩], [t], false)

end

end Parser

end SolarFront
