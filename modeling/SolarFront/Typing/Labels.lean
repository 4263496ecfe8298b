import SolarFront.Text.Span

/-!
Jump targets. Every `if` and loop opens an entry, labeled or not, that closes when the
statement ends. An unlabeled `continue` or `break` leaves the innermost loop and an unlabeled
`breakif` the innermost `if`; a labeled jump leaves the innermost statement with that label,
which must be of the kind the jump wants.
-/

set_option autoImplicit false
set_option linter.all false

namespace SolarFront

/-- Statements a jump can leave. -/
inductive TargetKind where
  | loop
  | cond
  deriving DecidableEq, Repr, Inhabited

/-- The jumps. -/
inductive JumpKind where
  | continue
  | break
  | breakIf
  deriving DecidableEq, Repr, Inhabited

namespace JumpKind

/-- The kind of statement the jump leaves. -/
def target : JumpKind → TargetKind
  | .continue | .break => .loop
  | .breakIf => .cond

/-- The keyword of the jump. -/
def keyword : JumpKind → String
  | .continue => "continue"
  | .break => "break"
  | .breakIf => "breakif"

end JumpKind

/-- A label: its name and where it is written. -/
structure Label where
  name : String
  span : Span
  deriving DecidableEq, Repr, Inhabited

/-- Why a jump has no target. -/
inductive LabelError where
  | noTarget
  | unknown
  | wrongKind (label : Span)
  deriving DecidableEq, Repr, Inhabited

/-- The failure in words. -/
def LabelError.message : LabelError → String
  | .noTarget => "jump is not inside a statement it can leave"
  | .unknown => "no enclosing statement has this label"
  | .wrongKind _ => "label names a statement of the wrong kind for this jump"

/-- An enclosing statement a jump may leave. -/
structure LabelEntry (α : Type) where
  label : Option Label
  kind : TargetKind
  target : α
  deriving Repr, Inhabited

/-- The enclosing statements, innermost first. -/
abbrev LabelStack (α : Type) := List (LabelEntry α)

namespace LabelStack

variable {α : Type}

/-- The statement a jump leaves. -/
def resolve (s : LabelStack α) (jump : JumpKind) (label : Option String) :
    Except LabelError α :=
  let wanted := jump.target
  match label with
  | none =>
    match s.find? (·.kind == wanted) with
    | some e => .ok e.target
    | none => .error .noTarget
  | some name =>
    match s.find? (fun e => (e.label.map (·.name)) == some name) with
    | none => .error .unknown
    | some e =>
      if e.kind == wanted then .ok e.target
      else .error (.wrongKind ((e.label.map (·.span)).getD Span.dummy))

end LabelStack

end SolarFront
