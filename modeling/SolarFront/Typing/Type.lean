import SolarFront.Text.Span
import SolarFront.Word.Width

/-!
Types and the type pool. Every type the checker meets lives in one pool and is named by its
index there. Integer, array and function types are interned, so two such types are equal
exactly when their indices are; records are nominal, each definition getting an index of its
own. The five primitive types sit at indices zero to four.

The text of a type is the spelling used in messages: `void`, `int16`, `*T` for pointers and
arrays without a length, `[N]T`, `fun(A, B, ...) -> R` and `struct Name`.
-/

set_option autoImplicit false
set_option linter.all false

namespace SolarFront

/-- The index of a type in its pool. -/
structure TypeId where
  idx : Nat
  deriving DecidableEq, Repr, Inhabited, Hashable, Ord

namespace TypeId

def void : TypeId := ⟨0⟩
def int8 : TypeId := ⟨1⟩
def int16 : TypeId := ⟨2⟩
def int32 : TypeId := ⟨3⟩
/-- The type of a node whose type could not be found; it suppresses follow-on errors. -/
def error : TypeId := ⟨4⟩

def isVoid (t : TypeId) : Bool := t.idx == 0
def isError (t : TypeId) : Bool := t.idx == 4

/-- The integer type of a width. -/
def ofWidth : Width → TypeId
  | .w8 => int8
  | .w16 => int16
  | .w32 => int32

end TypeId

/-- The two kinds of record. -/
inductive RecordKind where
  | struct
  | union
  deriving DecidableEq, Repr, Inhabited

/-- The keyword that introduces a record of the kind. -/
def RecordKind.keyword : RecordKind → String
  | .struct => "struct"
  | .union => "union"

/-- What a type is. An array without a length is a pointer. -/
inductive TypeData where
  | void
  | int (w : Width)
  | error
  | array (elem : TypeId) (len : Option Nat)
  | func (ret : TypeId) (params : List TypeId) (variadic : Bool)
  | record (id : Nat)
  deriving DecidableEq, Repr, Inhabited

/-- The number of parameters of a function type; other types have none. -/
def TypeData.arity : TypeData → Nat
  | .func _ params _ => params.length
  | _ => 0

/-- A member of a record, as declared. -/
structure Member where
  name : String
  ty : TypeId
  bits : Option Nat
  span : Span
  deriving Repr, Inhabited

/-- Where a member lies in its record: byte offset, and bit offset within a bitfield word. -/
structure MemberLayout where
  name : String
  offset : Nat
  bitOffset : Nat
  bitWidth : Option Nat
  deriving Repr, Inhabited, DecidableEq

/-- Size, alignment and member placement of a record. -/
structure Layout where
  size : Nat
  align : Nat
  members : List MemberLayout
  deriving Repr, Inhabited, DecidableEq

/-- How far the layout of a record has got. -/
inductive LayoutState where
  | pending
  | inProgress
  | done (layout : Layout)
  | failed
  deriving Repr, Inhabited, DecidableEq

/-- A record definition. -/
structure RecordDef where
  kind : RecordKind
  name : Option String
  members : List Member
  volatile : Bool
  span : Span
  layout : LayoutState
  deriving Repr, Inhabited

namespace RecordDef

/-- The first member of the name. -/
def member? (r : RecordDef) (name : String) : Option Member := r.members.find? (·.name == name)

/-- The finished layout, if there is one. -/
def layout? (r : RecordDef) : Option Layout :=
  match r.layout with
  | .done l => some l
  | _ => none

end RecordDef

/-- The largest value of a 32-bit word; sizes stop growing there. -/
def wordMax : Nat := Nat.pow 2 32 - 1

/-- Multiplication that stops at `wordMax`. -/
def satMul (a b : Nat) : Nat := min (a * b) wordMax

/-- Addition that stops at `wordMax`. -/
def satAdd (a b : Nat) : Nat := min (a + b) wordMax

/-- Pointers, unsized arrays and functions take four bytes. -/
def pointerSize : Nat := 4

/-- All types of one module. -/
structure TypePool where
  types : Array TypeData
  records : Array RecordDef
  deriving Inhabited

namespace TypePool

/-- The pool that holds only the primitive types. -/
def empty : TypePool :=
  ⟨#[.void, .int .w8, .int .w16, .int .w32, .error], #[]⟩

instance : EmptyCollection TypePool := ⟨empty⟩

/-- What a type is; an index outside the pool reads as the error type. -/
def get (p : TypePool) (t : TypeId) : TypeData := p.types[t.idx]?.getD .error

/-- The index of interned data, adding it if it is new. -/
def intern (p : TypePool) (d : TypeData) : TypePool × TypeId :=
  match p.types.findIdx? (· == d) with
  | some i => (p, ⟨i⟩)
  | none => ({ p with types := p.types.push d }, ⟨p.types.size⟩)

/-- The pointer to a type. -/
def pointer (p : TypePool) (elem : TypeId) : TypePool × TypeId := p.intern (.array elem none)

/-- The array of a length. -/
def array (p : TypePool) (elem : TypeId) (len : Nat) : TypePool × TypeId :=
  p.intern (.array elem (some len))

/-- The function type of a signature. -/
def func (p : TypePool) (ret : TypeId) (params : List TypeId) (variadic : Bool) :
    TypePool × TypeId :=
  p.intern (.func ret params variadic)

/-- A fresh record with no members yet, and its type. -/
def newRecord (p : TypePool) (kind : RecordKind) (name : Option String) (volatile : Bool)
    (span : Span) : TypePool × Nat × TypeId :=
  let rid := p.records.size
  let def_ : RecordDef := ⟨kind, name, [], volatile, span, .pending⟩
  ({ types := p.types.push (.record rid), records := p.records.push def_ }, rid, ⟨p.types.size⟩)

/-- The record of an index. -/
def record (p : TypePool) (rid : Nat) : RecordDef := p.records[rid]?.getD default

/-- Change the record of an index. -/
def modifyRecord (p : TypePool) (rid : Nat) (f : RecordDef → RecordDef) : TypePool :=
  { p with records := p.records.modify rid f }

/-- The record a type names. -/
def recordOf? (p : TypePool) (t : TypeId) : Option Nat :=
  match p.get t with
  | .record rid => some rid
  | _ => none

/-- The width of an integer type. -/
def intWidth? (p : TypePool) (t : TypeId) : Option Width :=
  match p.get t with
  | .int w => some w
  | _ => none

def isIntegral (p : TypePool) (t : TypeId) : Bool := (p.intWidth? t).isSome

/-- Pointers and arrays. -/
def isPointerLike (p : TypePool) (t : TypeId) : Bool :=
  match p.get t with
  | .array .. => true
  | _ => false

def isFunc (p : TypePool) (t : TypeId) : Bool :=
  match p.get t with
  | .func .. => true
  | _ => false

/-- Integers, pointers, arrays and functions: the types a condition may have. -/
def isScalar (p : TypePool) (t : TypeId) : Bool :=
  match p.get t with
  | .int _ | .array .. | .func .. => true
  | _ => false

/-- The element type of a pointer or array. -/
def elem? (p : TypePool) (t : TypeId) : Option TypeId :=
  match p.get t with
  | .array e _ => some e
  | _ => none

/-- The type a value takes when used: an array with a length becomes a pointer to its element
and a function a pointer to itself. -/
def decay (p : TypePool) (t : TypeId) : TypePool × TypeId :=
  match p.get t with
  | .array e (some _) => p.pointer e
  | .func .. => p.pointer t
  | _ => (p, t)

/-- Size and alignment of a type whose records are already laid out; `none` for `void`, the
error type and records without a layout. -/
def sizeAlign (p : TypePool) (t : TypeId) : Option (Nat × Nat) :=
  match p.get t with
  | .void | .error => none
  | .int w => some (w.bytes, w.bytes)
  | .func .. | .array _ none => some (pointerSize, pointerSize)
  | .array e (some len) =>
    if e.idx < t.idx then (p.sizeAlign e).map fun (size, align) => (satMul size len, align)
    else none
  | .record rid => (p.record rid).layout?.map fun l => (l.size, l.align)
termination_by t.idx

/-- The name of an integer width. -/
def widthName : Width → String
  | .w8 => "int8"
  | .w16 => "int16"
  | .w32 => "int32"

/-- The text of a type. Component types always have smaller indices than the type itself;
a component that did not would be written as the error type. -/
def format (p : TypePool) (t : TypeId) : String :=
  match p.get t with
  | .void => "void"
  | .int w => widthName w
  | .error => "<error>"
  | .array e none => "*" ++ (if e.idx < t.idx then p.format e else "<error>")
  | .array e (some len) =>
    "[" ++ toString len ++ "]" ++ (if e.idx < t.idx then p.format e else "<error>")
  | .func ret params variadic =>
    let shown := params.attach.map fun ⟨q, _⟩ => if q.idx < t.idx then p.format q else "<error>"
    let shown := if variadic then shown ++ ["..."] else shown
    "fun(" ++ ", ".intercalate shown ++ ") -> " ++
      (if ret.idx < t.idx then p.format ret else "<error>")
  | .record rid =>
    let r := p.record rid
    r.kind.keyword ++ " " ++ r.name.getD "\x7b...\x7d"
termination_by t.idx

end TypePool

end SolarFront
