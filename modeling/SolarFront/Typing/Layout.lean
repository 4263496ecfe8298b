import SolarFront.Typing.Type

/-!
Record layout. A struct places its members in order with no padding. Bitfields pack from the
least significant bit into storage words of their declared type: a new word starts when the
type changes, when the bits would overflow the word, and a member without a narrower bit width
closes the open word. A union places every member at offset zero and is as large as its
largest member. The alignment is the largest member alignment, and at least one.
-/

set_option autoImplicit false
set_option linter.all false

namespace SolarFront

/-- What layout needs to know of a member. -/
structure FieldShape where
  name : String
  ty : TypeId
  size : Nat
  align : Nat
  bits : Option Nat
  deriving Repr, Inhabited

/-- The open storage word of a run of bitfields. -/
structure BitWord where
  ty : TypeId
  offset : Nat
  used : Nat
  width : Nat
  deriving Repr, Inhabited

/-- Where struct layout stands after some members. -/
structure StructCursor where
  offset : Nat := 0
  align : Nat := 1
  word : Option BitWord := none
  deriving Repr, Inhabited

/-- Place one struct member: its byte offset and bit offset, and the cursor after it. -/
def StructCursor.place (c : StructCursor) (f : FieldShape) : MemberLayout × StructCursor :=
  let align := max c.align f.align
  let width := satMul f.size 8
  match f.bits with
  | some bits =>
    if bits < width then
      let fits := match c.word with
        | some w => w.ty == f.ty && w.used + bits ≤ w.width
        | none => false
      let (word, offset) := match c.word with
        | some w => if fits then (w, c.offset) else (⟨f.ty, c.offset, 0, width⟩, satAdd c.offset f.size)
        | none => (⟨f.ty, c.offset, 0, width⟩, satAdd c.offset f.size)
      (⟨f.name, word.offset, word.used, f.bits⟩,
        { offset, align, word := some { word with used := word.used + bits } })
    else (⟨f.name, c.offset, 0, f.bits⟩, { offset := satAdd c.offset f.size, align, word := none })
  | none => (⟨f.name, c.offset, 0, f.bits⟩, { offset := satAdd c.offset f.size, align, word := none })

/-- Place members in order. -/
def StructCursor.placeAll (c : StructCursor) : List FieldShape → List MemberLayout × StructCursor
  | [] => ([], c)
  | f :: fs =>
    let (m, c) := c.place f
    let (ms, c) := c.placeAll fs
    (m :: ms, c)

/-- The layout of a struct with these members. -/
def structLayout (fields : List FieldShape) : Layout :=
  let (members, c) := ({} : StructCursor).placeAll fields
  ⟨c.offset, c.align, members⟩

/-- The layout of a union with these members. -/
def unionLayout (fields : List FieldShape) : Layout :=
  let size := fields.foldl (fun m f => max m f.size) 0
  let align := match fields with
    | [] => 1
    | f :: fs => fs.foldl (fun m f => max m f.align) f.align
  ⟨size, align, fields.map fun f => ⟨f.name, 0, 0, f.bits⟩⟩

end SolarFront
