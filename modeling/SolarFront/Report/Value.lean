/-!
Report values: the tree in which the front end hands its results to a machine reader
(tokens, syntax trees, diagnostics, symbol tables), and their JSON text. Objects keep their
fields in the order given; numbers are integers.
-/

set_option autoImplicit false
set_option linter.all false

namespace SolarFront

/-- A machine-readable report: null, a truth value, an integer, a string, a list or an object
with named fields. -/
inductive Value where
  | null
  | bool (b : Bool)
  | int (n : Int)
  | str (s : String)
  | arr (items : List Value)
  | obj (fields : List (String × Value))
  deriving Repr, Inhabited

namespace Value

/-- A natural number. -/
def nat (n : Nat) : Value := .int n

/-- An optional value, `null` when absent. -/
def opt {α : Type} (f : α → Value) : Option α → Value
  | some a => f a
  | none => .null

/-- Hexadecimal digit of a number below sixteen. -/
def hexDigit (n : Nat) : Char :=
  if n < 10 then Char.ofNat (48 + n) else Char.ofNat (87 + n)

/-- One character of a JSON string, appended: quotes, backslashes and control characters are
escaped. -/
def pushChar (acc : String) (c : Char) : String :=
  if c = '"' then acc ++ "\\\""
  else if c = '\\' then acc ++ "\\\\"
  else if c = '\n' then acc ++ "\\n"
  else if c = '\r' then acc ++ "\\r"
  else if c = '\t' then acc ++ "\\t"
  else if c.toNat < 32 then
    ((acc ++ "\\u00").push (hexDigit (c.toNat / 16))).push (hexDigit (c.toNat % 16))
  else acc.push c

/-- A string in JSON quotes, appended. -/
def pushQuoted (acc s : String) : String :=
  (s.toList.foldl pushChar (acc.push '"')).push '"'

mutual

/-- The compact JSON text of a value, appended to `acc`. -/
def renderInto (acc : String) : Value → String
  | .null => acc ++ "null"
  | .bool b => acc ++ (if b then "true" else "false")
  | .int n => acc ++ toString n
  | .str s => pushQuoted acc s
  | .arr items => (renderItems (acc.push '[') items).push ']'
  | .obj fields => (renderFields (acc.push '\x7b') fields).push '\x7d'

/-- The items of a list, separated by commas, appended. -/
def renderItems (acc : String) : List Value → String
  | [] => acc
  | [v] => renderInto acc v
  | v :: rest => renderItems ((renderInto acc v).push ',') rest

/-- The fields of an object, separated by commas, appended. -/
def renderFields (acc : String) : List (String × Value) → String
  | [] => acc
  | [(k, v)] => renderInto ((pushQuoted acc k).push ':') v
  | (k, v) :: rest => renderFields ((renderInto ((pushQuoted acc k).push ':') v).push ',') rest

end

/-- The compact JSON text of a value. -/
def render (v : Value) : String := renderInto "" v

end Value

end SolarFront
