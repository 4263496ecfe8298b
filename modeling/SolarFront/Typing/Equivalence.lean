import SolarFront.Typing.Type

/-!
Structural equality of types: two types are equal in structure when they are the same type,
or arrays of one length over equal elements, or functions with equal signatures, or records of
one kind whose members agree in name, bit width and type, in order. A pair of records met
again while it is being compared is taken as equal, so types that refer to themselves through
records compare without end.
-/

set_option autoImplicit false
set_option linter.all false

namespace SolarFront

namespace TypePool

/-- Pairs of records already assumed equal. -/
abbrev Assumed := List (TypeId × TypeId)

mutual

/-- Structural equality with the given pairs assumed; it also returns the pairs assumed after
the comparison. Every step spends one unit of `fuel`; out of fuel, the types count as
different. -/
def equivAt (p : TypePool) : Nat → TypeId → TypeId → Assumed → Bool × Assumed
  | 0, _, _, assumed => (false, assumed)
  | fuel + 1, a, b, assumed =>
    if a = b then (true, assumed)
    else
      match p.get a, p.get b with
      | .array ea la, .array eb lb =>
        if la = lb then p.equivAt fuel ea eb assumed else (false, assumed)
      | .func ra pa va, .func rb pb vb =>
        if va = vb && pa.length = pb.length then
          let (same, assumed) := p.equivAt fuel ra rb assumed
          if same then p.equivAll fuel (pa.zip pb) assumed else (false, assumed)
        else (false, assumed)
      | .record ia, .record ib =>
        if (a, b) ∈ assumed then (true, assumed)
        else
          let assumed := (a, b) :: assumed
          let (ra, rb) := (p.record ia, p.record ib)
          if ra.kind = rb.kind && ra.members.length = rb.members.length then
            p.equivMembers fuel (ra.members.zip rb.members) assumed
          else (false, assumed)
      | _, _ => (false, assumed)

/-- Structural equality of every pair, left to right, stopping at the first difference. -/
def equivAll (p : TypePool) : Nat → List (TypeId × TypeId) → Assumed → Bool × Assumed
  | 0, _, assumed => (false, assumed)
  | _ + 1, [], assumed => (true, assumed)
  | fuel + 1, (a, b) :: rest, assumed =>
    let (same, assumed) := p.equivAt fuel a b assumed
    if same then p.equivAll fuel rest assumed else (false, assumed)

/-- Agreement of member pairs in name, bit width and type, left to right. -/
def equivMembers (p : TypePool) : Nat → List (Member × Member) → Assumed → Bool × Assumed
  | 0, _, assumed => (false, assumed)
  | _ + 1, [], assumed => (true, assumed)
  | fuel + 1, (ma, mb) :: rest, assumed =>
    if ma.name = mb.name && ma.bits = mb.bits then
      let (same, assumed) := p.equivAt fuel ma.ty mb.ty assumed
      if same then p.equivMembers fuel rest assumed else (false, assumed)
    else (false, assumed)

end

/-- All parameter and member lists of the pool together: no list a comparison walks along is
longer. -/
def listTotal (p : TypePool) : Nat :=
  p.types.foldl (fun n d => n + d.arity) 0 + p.records.foldl (fun n r => n + r.members.length) 0

/-- Enough fuel for any comparison in a pool whose entries name only earlier entries: each pair
of types is assumed at most once, and between two such steps the comparison walks down to
earlier types, spending at most one step per element of a list at each. -/
def equivFuel (p : TypePool) : Nat :=
  let n := p.types.size
  (n * n + 1) * (n + 1) * (p.listTotal + 2)

/-- Whether two types are equal in structure. -/
def structurallyEqual (p : TypePool) (a b : TypeId) : Bool :=
  (p.equivAt p.equivFuel a b []).1

end TypePool

end SolarFront
