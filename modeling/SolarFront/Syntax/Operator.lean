/-!
Operators of the expression language. Arithmetic operators produce a value of the left
operand's type; condition operators produce a truth value. A trailing `$` marks the signed
reading of division, remainder, right shift and the order comparisons.
-/

set_option autoImplicit false
set_option linter.all false

namespace SolarFront

/-- Prefix arithmetic operators. -/
inductive UnaryOp where
  | plus
  | neg
  | bitNot
  deriving Repr, DecidableEq, Inhabited

/-- Infix arithmetic and bitwise operators. -/
inductive BinaryOp where
  | add
  | sub
  | mul
  | udiv
  | sdiv
  | umod
  | smod
  | shl
  | shr
  | sar
  | bitAnd
  | bitXor
  | bitOr
  deriving Repr, DecidableEq, Inhabited

/-- Infix operators whose result is a truth value. -/
inductive CondOp where
  | and
  | or
  | eq
  | notEq
  | ult
  | ulte
  | ugt
  | ugte
  | slt
  | slte
  | sgt
  | sgte
  deriving Repr, DecidableEq, Inhabited

namespace UnaryOp

/-- How the operator is written. -/
def symbol : UnaryOp → String
  | .plus => "+"
  | .neg => "-"
  | .bitNot => "~"

/-- Every unary operator. -/
def all : List UnaryOp := [.plus, .neg, .bitNot]

/-- The operator written as `s`. -/
def ofSymbol? (s : String) : Option UnaryOp := all.find? (·.symbol == s)

end UnaryOp

namespace BinaryOp

/-- How the operator is written. -/
def symbol : BinaryOp → String
  | .add => "+"
  | .sub => "-"
  | .mul => "*"
  | .udiv => "/"
  | .sdiv => "/$"
  | .umod => "%"
  | .smod => "%$"
  | .shl => "<<"
  | .shr => ">>"
  | .sar => ">>$"
  | .bitAnd => "&"
  | .bitXor => "^"
  | .bitOr => "|"

/-- Every arithmetic operator. -/
def all : List BinaryOp :=
  [.add, .sub, .mul, .udiv, .sdiv, .umod, .smod, .shl, .shr, .sar, .bitAnd, .bitXor, .bitOr]

/-- The operator written as `s`. -/
def ofSymbol? (s : String) : Option BinaryOp := all.find? (·.symbol == s)

/-- Only addition and subtraction take addresses. -/
def allowsPointers : BinaryOp → Bool
  | .add | .sub => true
  | _ => false

end BinaryOp

namespace CondOp

/-- How the operator is written. -/
def symbol : CondOp → String
  | .and => "&&"
  | .or => "||"
  | .eq => "=="
  | .notEq => "!="
  | .ult => "<"
  | .ulte => "<="
  | .ugt => ">"
  | .ugte => ">="
  | .slt => "<$"
  | .slte => "<=$"
  | .sgt => ">$"
  | .sgte => ">=$"

/-- Every condition operator. -/
def all : List CondOp :=
  [.and, .or, .eq, .notEq, .ult, .ulte, .ugt, .ugte, .slt, .slte, .sgt, .sgte]

/-- The operator written as `s`. -/
def ofSymbol? (s : String) : Option CondOp := all.find? (·.symbol == s)

/-- `&&` and `||` combine truth values. -/
def isLogical : CondOp → Bool
  | .and | .or => true
  | _ => false

/-- The logical operators and equality take addresses. -/
def allowsPointers : CondOp → Bool
  | .and | .or | .eq | .notEq => true
  | _ => false

end CondOp

end SolarFront
