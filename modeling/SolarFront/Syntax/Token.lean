import SolarFront.Text.Span

/-!
Tokens: the words of the language. A token has a kind, a span and, for names and literals, a
payload. Keywords and punctuation are spelled by fixed text; a keyword is also a name by its
shape and wins over the name when both cover the same text.
-/

set_option autoImplicit false
set_option linter.all false

namespace SolarFront

/-- The kinds of token. -/
inductive TokenKind where
  | ident
  | int
  | str
  | eof
  | kwDeclare
  | kwStatic
  | kwInline
  | kwVar
  | kwConst
  | kwFun
  | kwStruct
  | kwUnion
  | kwUsing
  | kwVolatile
  | kwInt16
  | kwInt32
  | kwVoid
  | kwTypeof
  | kwSizeof
  | kwIf
  | kwElse
  | kwWhile
  | kwFor
  | kwContinue
  | kwBreak
  | kwBreakIf
  | kwReturn
  | kwAs
  | kwAsSigned
  | lParen
  | rParen
  | lBrace
  | rBrace
  | lBracket
  | rBracket
  | dot
  | comma
  | arrow
  | colon
  | semicolon
  | question
  | ellipsis
  | pipeArrow
  | plus
  | minus
  | star
  | slash
  | slashDollar
  | percent
  | percentDollar
  | shl
  | shr
  | shrDollar
  | eqEq
  | notEq
  | lt
  | ltEq
  | gt
  | gtEq
  | ltDollar
  | ltEqDollar
  | gtDollar
  | gtEqDollar
  | bang
  | ampAmp
  | pipePipe
  | tilde
  | amp
  | pipe
  | caret
  | assign
  | plusEq
  | minusEq
  | starEq
  | slashEq
  | slashDollarEq
  | percentEq
  | percentDollarEq
  | shlEq
  | shrEq
  | shrDollarEq
  | ampEq
  | pipeEq
  | caretEq
  deriving DecidableEq, Repr, Inhabited

namespace TokenKind

/-- The kind's name in reports. -/
def name : TokenKind → String
  | .ident => "Ident"
  | .int => "Int"
  | .str => "Str"
  | .eof => "Eof"
  | .kwDeclare => "Declare"
  | .kwStatic => "Static"
  | .kwInline => "Inline"
  | .kwVar => "Var"
  | .kwConst => "Const"
  | .kwFun => "Fun"
  | .kwStruct => "Struct"
  | .kwUnion => "Union"
  | .kwUsing => "Using"
  | .kwVolatile => "Volatile"
  | .kwInt16 => "Int16"
  | .kwInt32 => "Int32"
  | .kwVoid => "Void"
  | .kwTypeof => "Typeof"
  | .kwSizeof => "Sizeof"
  | .kwIf => "If"
  | .kwElse => "Else"
  | .kwWhile => "While"
  | .kwFor => "For"
  | .kwContinue => "Continue"
  | .kwBreak => "Break"
  | .kwBreakIf => "BreakIf"
  | .kwReturn => "Return"
  | .kwAs => "As"
  | .kwAsSigned => "AsSigned"
  | .lParen => "LParen"
  | .rParen => "RParen"
  | .lBrace => "LBrace"
  | .rBrace => "RBrace"
  | .lBracket => "LBracket"
  | .rBracket => "RBracket"
  | .dot => "Dot"
  | .comma => "Comma"
  | .arrow => "Arrow"
  | .colon => "Colon"
  | .semicolon => "Semicolon"
  | .question => "Question"
  | .ellipsis => "Ellipsis"
  | .pipeArrow => "PipeArrow"
  | .plus => "Plus"
  | .minus => "Minus"
  | .star => "Star"
  | .slash => "Slash"
  | .slashDollar => "SlashDollar"
  | .percent => "Percent"
  | .percentDollar => "PercentDollar"
  | .shl => "Shl"
  | .shr => "Shr"
  | .shrDollar => "ShrDollar"
  | .eqEq => "EqEq"
  | .notEq => "NotEq"
  | .lt => "Lt"
  | .ltEq => "LtEq"
  | .gt => "Gt"
  | .gtEq => "GtEq"
  | .ltDollar => "LtDollar"
  | .ltEqDollar => "LtEqDollar"
  | .gtDollar => "GtDollar"
  | .gtEqDollar => "GtEqDollar"
  | .bang => "Bang"
  | .ampAmp => "AmpAmp"
  | .pipePipe => "PipePipe"
  | .tilde => "Tilde"
  | .amp => "Amp"
  | .pipe => "Pipe"
  | .caret => "Caret"
  | .assign => "Assign"
  | .plusEq => "PlusEq"
  | .minusEq => "MinusEq"
  | .starEq => "StarEq"
  | .slashEq => "SlashEq"
  | .slashDollarEq => "SlashDollarEq"
  | .percentEq => "PercentEq"
  | .percentDollarEq => "PercentDollarEq"
  | .shlEq => "ShlEq"
  | .shrEq => "ShrEq"
  | .shrDollarEq => "ShrDollarEq"
  | .ampEq => "AmpEq"
  | .pipeEq => "PipeEq"
  | .caretEq => "CaretEq"

/-- The kind as messages show it: a class in words, or the fixed text in backquotes. -/
def display : TokenKind → String
  | .ident => "identifier"
  | .int => "integer literal"
  | .str => "string literal"
  | .eof => "end of file"
  | .kwDeclare => "`declare`"
  | .kwStatic => "`static`"
  | .kwInline => "`inline`"
  | .kwVar => "`var`"
  | .kwConst => "`const`"
  | .kwFun => "`fun`"
  | .kwStruct => "`struct`"
  | .kwUnion => "`union`"
  | .kwUsing => "`using`"
  | .kwVolatile => "`volatile`"
  | .kwInt16 => "`int16`"
  | .kwInt32 => "`int32`"
  | .kwVoid => "`void`"
  | .kwTypeof => "`typeof`"
  | .kwSizeof => "`sizeof`"
  | .kwIf => "`if`"
  | .kwElse => "`else`"
  | .kwWhile => "`while`"
  | .kwFor => "`for`"
  | .kwContinue => "`continue`"
  | .kwBreak => "`break`"
  | .kwBreakIf => "`breakif`"
  | .kwReturn => "`return`"
  | .kwAs => "`as`"
  | .kwAsSigned => "`as$`"
  | .lParen => "`(`"
  | .rParen => "`)`"
  | .lBrace => "`\x7b`"
  | .rBrace => "`\x7d`"
  | .lBracket => "`[`"
  | .rBracket => "`]`"
  | .dot => "`.`"
  | .comma => "`,`"
  | .arrow => "`->`"
  | .colon => "`:`"
  | .semicolon => "`;`"
  | .question => "`?`"
  | .ellipsis => "`...`"
  | .pipeArrow => "`:>`"
  | .plus => "`+`"
  | .minus => "`-`"
  | .star => "`*`"
  | .slash => "`/`"
  | .slashDollar => "`/$`"
  | .percent => "`%`"
  | .percentDollar => "`%$`"
  | .shl => "`<<`"
  | .shr => "`>>`"
  | .shrDollar => "`>>$`"
  | .eqEq => "`==`"
  | .notEq => "`!=`"
  | .lt => "`<`"
  | .ltEq => "`<=`"
  | .gt => "`>`"
  | .gtEq => "`>=`"
  | .ltDollar => "`<$`"
  | .ltEqDollar => "`<=$`"
  | .gtDollar => "`>$`"
  | .gtEqDollar => "`>=$`"
  | .bang => "`!`"
  | .ampAmp => "`&&`"
  | .pipePipe => "`||`"
  | .tilde => "`~`"
  | .amp => "`&`"
  | .pipe => "`|`"
  | .caret => "`^`"
  | .assign => "`:=`"
  | .plusEq => "`+=`"
  | .minusEq => "`-=`"
  | .starEq => "`*=`"
  | .slashEq => "`/=`"
  | .slashDollarEq => "`/$=`"
  | .percentEq => "`%=`"
  | .percentDollarEq => "`%$=`"
  | .shlEq => "`<<=`"
  | .shrEq => "`>>=`"
  | .shrDollarEq => "`>>$=`"
  | .ampEq => "`&=`"
  | .pipeEq => "`|=`"
  | .caretEq => "`^=`"

/-- Keywords with their text. -/
def keywords : List (String × TokenKind) :=
  [("declare", .kwDeclare),
   ("static", .kwStatic),
   ("inline", .kwInline),
   ("var", .kwVar),
   ("const", .kwConst),
   ("fun", .kwFun),
   ("struct", .kwStruct),
   ("union", .kwUnion),
   ("using", .kwUsing),
   ("volatile", .kwVolatile),
   ("int16", .kwInt16),
   ("int32", .kwInt32),
   ("void", .kwVoid),
   ("typeof", .kwTypeof),
   ("sizeof", .kwSizeof),
   ("if", .kwIf),
   ("else", .kwElse),
   ("while", .kwWhile),
   ("for", .kwFor),
   ("continue", .kwContinue),
   ("break", .kwBreak),
   ("breakif", .kwBreakIf),
   ("return", .kwReturn),
   ("as", .kwAs),
   ("as$", .kwAsSigned)]

/-- Punctuation and operators with their text. -/
def punctuation : List (String × TokenKind) :=
  [("(", .lParen),
   (")", .rParen),
   ("\x7b", .lBrace),
   ("\x7d", .rBrace),
   ("[", .lBracket),
   ("]", .rBracket),
   (".", .dot),
   (",", .comma),
   ("->", .arrow),
   (":", .colon),
   (";", .semicolon),
   ("?", .question),
   ("...", .ellipsis),
   (":>", .pipeArrow),
   ("+", .plus),
   ("-", .minus),
   ("*", .star),
   ("/", .slash),
   ("/$", .slashDollar),
   ("%", .percent),
   ("%$", .percentDollar),
   ("<<", .shl),
   (">>", .shr),
   (">>$", .shrDollar),
   ("==", .eqEq),
   ("!=", .notEq),
   ("<", .lt),
   ("<=", .ltEq),
   (">", .gt),
   (">=", .gtEq),
   ("<$", .ltDollar),
   ("<=$", .ltEqDollar),
   (">$", .gtDollar),
   (">=$", .gtEqDollar),
   ("!", .bang),
   ("&&", .ampAmp),
   ("||", .pipePipe),
   ("~", .tilde),
   ("&", .amp),
   ("|", .pipe),
   ("^", .caret),
   (":=", .assign),
   ("+=", .plusEq),
   ("-=", .minusEq),
   ("*=", .starEq),
   ("/=", .slashEq),
   ("/$=", .slashDollarEq),
   ("%=", .percentEq),
   ("%$=", .percentDollarEq),
   ("<<=", .shlEq),
   (">>=", .shrEq),
   (">>$=", .shrDollarEq),
   ("&=", .ampEq),
   ("|=", .pipeEq),
   ("^=", .caretEq)]

/-- The assignment operators. -/
def isAssign : TokenKind → Bool
  | .assign | .plusEq | .minusEq | .starEq | .slashEq | .slashDollarEq | .percentEq
  | .percentDollarEq | .shlEq | .shrEq | .shrDollarEq | .ampEq | .pipeEq | .caretEq => true
  | _ => false

end TokenKind

/-- The width of an integer literal: plain literals are 16 bits, an `l` suffix makes 32 bits
and a `p` suffix a pointer. -/
inductive LitWidth where
  | w16
  | w32
  | ptr
  deriving DecidableEq, Repr, Inhabited

namespace LitWidth

def bits : LitWidth → Nat
  | .w16 => 16
  | .w32 | .ptr => 32

/-- The largest value of the width. -/
def maxValue (w : LitWidth) : Nat := Nat.pow 2 w.bits - 1

def name : LitWidth → String
  | .w16 => "W16"
  | .w32 => "W32"
  | .ptr => "Ptr"

end LitWidth

/-- String literals are narrow (8-bit units) or wide (16-bit units). -/
inductive Encoding where
  | narrow
  | wide
  deriving DecidableEq, Repr, Inhabited

def Encoding.name : Encoding → String
  | .narrow => "Narrow"
  | .wide => "Wide"

/-- What a token carries beyond its kind. -/
inductive TokenValue where
  | none
  | name (n : String)
  | int (value : Nat) (width : LitWidth)
  | str (units : List Nat) (encoding : Encoding)
  deriving DecidableEq, Repr, Inhabited

/-- A token. -/
structure Token where
  kind : TokenKind
  span : Span
  value : TokenValue := .none
  deriving Repr, Inhabited

/-- A comment with its delimiters removed and its text trimmed. -/
structure Comment where
  span : Span
  text : String
  deriving Repr, Inhabited, DecidableEq

/-- The tokens of a source, ending in one end-of-file token, and its comments in order. -/
structure TokenList where
  tokens : Array Token
  comments : List Comment
  deriving Inhabited

namespace TokenList

/-- The comments lying wholly between two offsets: those from the first that starts at or
after `start`, up to the last that ends at or before `stop`. -/
def commentsBetween (t : TokenList) (start stop : Nat) : List Comment :=
  let first := (t.comments.takeWhile (·.span.start < start)).length
  let last := (t.comments.takeWhile (·.span.stop ≤ stop)).length
  if first < last then (t.comments.drop first).take (last - first) else []

end TokenList

end SolarFront
