import SolarFront.Check.State
import SolarFront.Typing.Layout

/-!
Record layout on demand. A record is laid out the first time its size is needed (by `sizeof`,
or as a member of another record) and every record left over is laid out at the end of the
module. A record met again while its own layout is in progress contains itself without a
pointer: that is reported once, and the record, and every record that needs it, gets no
layout.
-/

set_option autoImplicit false
set_option linter.all false

namespace SolarFront

namespace Check

open CheckM

/-- Set how far the layout of a record has got. -/
def setLayout (rid : Nat) (state : LayoutState) : CheckM Unit :=
  modify fun s => { s with pool := s.pool.modifyRecord rid ({ · with layout := state }) }

/-- The text naming a record in messages: the keyword, and the name if it has one. -/
def recordTitle (r : RecordDef) : String :=
  match r.name with
  | some n => r.kind.keyword ++ " " ++ n
  | none => r.kind.keyword

/-- A record that contains itself without a pointer. -/
def containsItself (r : RecordDef) : Diagnostic :=
  (((Diagnostic.error .e3009 ("`" ++ recordTitle r ++ "` contains itself")).withLabel r.span
    "recursive without a pointer").withNote "use a pointer member to refer to the same record")

mutual

/-- Size and alignment of a type, laying out the records it needs first. The error type,
`void` and records without a layout have none. -/
def sizeAlignOf : Nat → TypeId → CheckM (Option (Nat × Nat))
  | 0, _ => pure none
  | fuel + 1, t => do
    if let some rid := (← get).pool.recordOf? t then
      discard <| ensureLayout fuel rid
    match (← typeData t) with
    | .array elem (some len) =>
      return (← sizeAlignOf fuel elem).map fun (size, align) => (satMul size len, align)
    | _ => return (← get).pool.sizeAlign t

/-- Lay out a record unless that is already done; whether it has a layout. -/
def ensureLayout : Nat → Nat → CheckM Bool
  | 0, _ => pure false
  | fuel + 1, rid => do
    let r := (← get).pool.record rid
    match r.layout with
    | .done _ => return true
    | .failed => return false
    | .inProgress =>
      report (containsItself r)
      setLayout rid .failed
      return false
    | .pending =>
      setLayout rid .inProgress
      let (fields, complete) ← shapeMembers fuel r.members
      let now := ((← get).pool.record rid).layout
      if !complete || now == .failed then
        setLayout rid .failed
        return false
      let layout := match r.kind with
        | .struct => structLayout fields
        | .union => unionLayout fields
      setLayout rid (.done layout)
      return true

/-- The shapes of the members that have a size, and whether all have one. A member of the
error type takes no room. -/
def shapeMembers : Nat → List Member → CheckM (List FieldShape × Bool)
  | 0, _ => pure ([], false)
  | _ + 1, [] => pure ([], true)
  | fuel + 1, m :: ms => do
    let shape? ← if m.ty.isError then pure (some (0, 1)) else sizeAlignOf fuel m.ty
    let (rest, complete) ← shapeMembers fuel ms
    match shape? with
    | some (size, align) => return (⟨m.name, m.ty, size, align, m.bits⟩ :: rest, complete)
    | none => return (rest, false)

end

/-- Enough fuel for any layout in the current pool: between two records laid out one inside
the other the walk goes down arrays, to smaller type indices, or along a member list. -/
def layoutFuel : CheckM Nat := do
  let p := (← get).pool
  let members := p.records.foldl (fun n r => n + r.members.length) 0
  return 2 * (p.records.size + 1) * (p.types.size + members + 2)

/-- Size and alignment of a type, laying out records as needed. -/
def sizeAlign (t : TypeId) : CheckM (Option (Nat × Nat)) := do
  sizeAlignOf (← layoutFuel) t

/-- Lay out every record not laid out yet, in the order they were made. -/
def layoutAll : CheckM Unit := do
  let count := (← get).pool.records.size
  for rid in List.range count do
    discard <| ensureLayout (← layoutFuel) rid

end Check

end SolarFront
