/-!
Diagnostic codes. A code names one rule of the language; codes starting with `E0` come from
reading characters, `E1` from the grammar, `E2` from names and labels, `E3` from types, and
`W0001` is the one warning. Each code belongs to a kind, and each kind to a family.
-/

set_option autoImplicit false
set_option linter.all false

namespace SolarFront

/-- The diagnostic codes. -/
inductive Code where
  | e0001
  | e0002
  | e0003
  | e0004
  | e0005
  | e0006
  | e0007
  | e0008
  | e1001
  | e1002
  | e1003
  | e1004
  | e1005
  | e1006
  | e1007
  | e1008
  | e2001
  | e2002
  | e2003
  | e2004
  | e2005
  | e2006
  | e2007
  | e3001
  | e3002
  | e3003
  | e3004
  | e3005
  | e3006
  | e3007
  | e3008
  | e3009
  | e3010
  | e3011
  | e3012
  | e3013
  | e3014
  | w0001
  deriving DecidableEq, Repr, Inhabited

/-- Kinds of diagnostics; each code has one. -/
inductive Code.Kind where
  | malformed
  | reservedName
  | unexpectedToken
  | unterminatedBlock
  | redefinition
  | unknownLabel
  | labelKindMismatch
  | unknownName
  | mismatch
  | incompatibleCast
  | badMemberAccess
  | invalidOperands
  | incompleteArray
  | circularType
  deriving DecidableEq, Repr, Inhabited

namespace Code

/-- How the code is written. -/
def text : Code → String
  | .e0001 => "E0001"
  | .e0002 => "E0002"
  | .e0003 => "E0003"
  | .e0004 => "E0004"
  | .e0005 => "E0005"
  | .e0006 => "E0006"
  | .e0007 => "E0007"
  | .e0008 => "E0008"
  | .e1001 => "E1001"
  | .e1002 => "E1002"
  | .e1003 => "E1003"
  | .e1004 => "E1004"
  | .e1005 => "E1005"
  | .e1006 => "E1006"
  | .e1007 => "E1007"
  | .e1008 => "E1008"
  | .e2001 => "E2001"
  | .e2002 => "E2002"
  | .e2003 => "E2003"
  | .e2004 => "E2004"
  | .e2005 => "E2005"
  | .e2006 => "E2006"
  | .e2007 => "E2007"
  | .e3001 => "E3001"
  | .e3002 => "E3002"
  | .e3003 => "E3003"
  | .e3004 => "E3004"
  | .e3005 => "E3005"
  | .e3006 => "E3006"
  | .e3007 => "E3007"
  | .e3008 => "E3008"
  | .e3009 => "E3009"
  | .e3010 => "E3010"
  | .e3011 => "E3011"
  | .e3012 => "E3012"
  | .e3013 => "E3013"
  | .e3014 => "E3014"
  | .w0001 => "W0001"

/-- The kind of the code. -/
def kind : Code → Code.Kind
  | .e0001 => .malformed
  | .e0002 => .malformed
  | .e0003 => .malformed
  | .e0004 => .malformed
  | .e0005 => .malformed
  | .e0006 => .malformed
  | .e0007 => .malformed
  | .e0008 => .reservedName
  | .e1001 => .unexpectedToken
  | .e1002 => .unterminatedBlock
  | .e1003 => .unexpectedToken
  | .e1004 => .unexpectedToken
  | .e1005 => .unexpectedToken
  | .e1006 => .unexpectedToken
  | .e1007 => .unexpectedToken
  | .e1008 => .unexpectedToken
  | .e2001 => .redefinition
  | .e2002 => .unknownLabel
  | .e2003 => .labelKindMismatch
  | .e2004 => .unknownName
  | .e2005 => .unknownLabel
  | .e2006 => .redefinition
  | .e2007 => .unknownName
  | .e3001 => .mismatch
  | .e3002 => .incompatibleCast
  | .e3003 => .badMemberAccess
  | .e3004 => .invalidOperands
  | .e3005 => .incompleteArray
  | .e3006 => .mismatch
  | .e3007 => .mismatch
  | .e3008 => .invalidOperands
  | .e3009 => .circularType
  | .e3010 => .mismatch
  | .e3011 => .mismatch
  | .e3012 => .mismatch
  | .e3013 => .mismatch
  | .e3014 => .mismatch
  | .w0001 => .malformed

/-- The one warning code. -/
def isWarning : Code → Bool
  | .w0001 => true
  | _ => false

namespace Kind

/-- The family a kind belongs to. -/
def family : Kind → String
  | .malformed | .reservedName => "LexError"
  | .unexpectedToken | .unterminatedBlock => "ParseError"
  | .redefinition | .unknownLabel | .labelKindMismatch | .unknownName => "SymbolError"
  | .mismatch | .incompatibleCast | .badMemberAccess | .invalidOperands | .incompleteArray
  | .circularType => "TypeError"

/-- The kind's own name. -/
def name : Kind → String
  | .malformed => "Malformed"
  | .reservedName => "ReservedName"
  | .unexpectedToken => "UnexpectedToken"
  | .unterminatedBlock => "UnterminatedBlock"
  | .redefinition => "Redefinition"
  | .unknownLabel => "UnknownLabel"
  | .labelKindMismatch => "LabelKindMismatch"
  | .unknownName => "UnknownName"
  | .mismatch => "Mismatch"
  | .incompatibleCast => "IncompatibleCast"
  | .badMemberAccess => "BadMemberAccess"
  | .invalidOperands => "InvalidOperands"
  | .incompleteArray => "IncompleteArray"
  | .circularType => "CircularType"

/-- The kind written with its family, as `TypeError::Mismatch`. -/
def text (k : Kind) : String := k.family ++ "::" ++ k.name

end Kind

end Code

end SolarFront
