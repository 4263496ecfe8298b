import SolarFront.Proofs.Check.FitFrame
import SolarFront.Proofs.Check.FoldSteps
import SolarFront.Proofs.Syntax.Size

/-!
# Initial values complete their types

An initial value is checked against the type it initializes and may complete it: an array
without a length takes the number of elements of a brace list, or the units of a string of its
unit type with the terminator (`TypePool.completion?`, `TypePool.Completes`). Every element of a
brace list is checked against the array's element type, every field of a record initializer
against the type of the member it names (`TypePool.elementTarget`, `TypePool.fieldTarget`), and
a completion inside never changes the type outside. E3006 is reported for each brace list longer
than its array, each string longer than an array of its unit type, and each union initializer
that does not name exactly one member, and for nothing else (`TypePool.fitSpans`).

The checks of initial values are followed run by run, fuel by fuel (`Check.InitsComplete`), as
in `Check.TypingSound`: each check, with fuel enough for the nodes it checks, leaves what
`Check.Initialized` asks. The element and member types are read from the pool the check starts
from; the pool only grows, and keeps every type it had (`TypePool.Keeps.fitSpans_eq`), so a
completion inside never changes the type outside. `Check.typeOfInit_initialized` says this of a
check with the module's budget, and `Check.checkVar_records_completion` that a variable
declaration records the completed type of its declared type.
-/

set_option autoImplicit false
set_option linter.all false
set_option mvcgen.warning false

namespace SolarFront

/-- The type of one unit of a string literal. -/
def Encoding.unit : Encoding → TypeId
  | .narrow => .int8
  | .wide => .int16

namespace TypePool

/-- The type the elements of a brace list for `ty` are checked against: the element type of an
array, the error type for anything else. -/
def elementTarget (p : TypePool) (ty : TypeId) : TypeId :=
  match p.get ty with
  | .array elem _ => elem
  | _ => .error

/-- The record a struct or union initializer fills: the record of `ty`, if it is of the
initializer's kind. -/
def initRecord? (p : TypePool) (kind : RecordKind) (ty : TypeId) : Option Nat :=
  (p.recordOf? ty).filter fun rid => (p.record rid).kind == kind

/-- The type the value of a field is checked against: the type of the member it names in the
record the initializer fills, the error type if there is none. -/
def fieldTarget (p : TypePool) (kind : RecordKind) (ty : TypeId) (name : String) : TypeId :=
  match p.initRecord? kind ty with
  | some rid => (((p.record rid).member? name).map (·.ty)).getD .error
  | none => .error

/-- The type an initial value completes `ty` to, as type data, when it completes it: an array
without a length takes the number of elements of a brace list, or the units of a string of its
unit type with the terminator. -/
def completion? (p : TypePool) (ty : TypeId) : Expr → Option TypeData
  | .mk _ _ (.arrayInit es) =>
    match p.get ty with
    | .array elem none => some (.array elem (some es.length))
    | _ => none
  | .mk _ _ (.str units enc) =>
    match p.get ty with
    | .array elem none =>
      if elem = enc.unit then some (.array elem (some (units.length + 1))) else none
    | _ => none
  | _ => none

/-- `r` in the pool `q` is what `init` completes `ty` of the pool `p` to: a type with the data
of the completion, or `ty` itself when `init` completes nothing. -/
def Completes (p : TypePool) (ty : TypeId) (init : Expr) (q : TypePool) (r : TypeId) : Prop :=
  match p.completion? ty init with
  | some d => q.get r = d
  | none => r = ty

mutual

/-- Where checking `init` against `ty` reports that an initial value does not fit, in the order
of the check: a brace list with more elements than its array holds, at its first element without
room and after its elements; a string whose units and terminator overflow an array of its unit
type, at the string; a union initializer that does not name exactly one member, at the
initializer and before its fields. -/
def fitSpans (p : TypePool) (ty : TypeId) : Expr → List Span
  | .mk _ span (.arrayInit es) =>
    fitSpansAll p (p.elementTarget ty) es ++
      match p.get ty with
      | .array _ (some cap) => if cap < es.length then [((es[cap]?).map Expr.span).getD span] else []
      | _ => []
  | .mk _ span (.recordInit kind fields) =>
    (if (p.initRecord? kind ty).isSome ∧ kind = .union ∧ fields.length ≠ 1 then [span] else []) ++
      fitSpansFields p kind ty fields
  | .mk _ span (.str units enc) =>
    match p.get ty with
    | .array elem (some cap) => if elem = enc.unit ∧ cap < units.length + 1 then [span] else []
    | _ => []
  | _ => []

/-- `fitSpans` of the elements of a brace list, in order. -/
def fitSpansAll (p : TypePool) (ty : TypeId) : List Expr → List Span
  | [] => []
  | e :: es => fitSpans p ty e ++ fitSpansAll p ty es

/-- `fitSpans` of the fields of a record initializer, each against its member's type. -/
def fitSpansFields (p : TypePool) (kind : RecordKind) (ty : TypeId) : List FieldInit → List Span
  | [] => []
  | .mk name value _ :: fs => fitSpans p (p.fieldTarget kind ty name) value ++ fitSpansFields p kind ty fs

end

theorem WellFormed.get_error {p : TypePool} (wf : p.WellFormed) : p.get .error = .error :=
  wf.base .error (by decide)

section Keeps

variable {p q : TypePool} {ty : TypeId}

theorem WellFormed.has_elementTarget (wf : p.WellFormed) (ty : TypeId) :
    p.Has (p.elementTarget ty) := by
  unfold elementTarget
  split
  · next elem len hget => exact wf.has_of_get_array hget
  · exact wf.has_error

theorem WellFormed.has_fieldTarget (wf : p.WellFormed) (kind : RecordKind) (ty : TypeId)
    (name : String) : p.Has (p.fieldTarget kind ty name) := by
  unfold fieldTarget
  split
  · next rid hrid =>
    cases hm : (p.record rid).member? name with
    | none => exact wf.has_error
    | some m => exact wf.has_of_member (wf.lt_of_filter_recordOf? hrid) hm
  · exact wf.has_error

theorem WellFormed.elementTarget_error (wf : p.WellFormed) : p.elementTarget .error = .error := by
  simp [elementTarget, wf.get_error]

theorem WellFormed.initRecord?_error (wf : p.WellFormed) (kind : RecordKind) :
    p.initRecord? kind .error = none := by
  simp [initRecord?, recordOf?, wf.get_error]

theorem fieldTarget_of_initRecord?_none {kind : RecordKind} (h : p.initRecord? kind ty = none)
    (name : String) : p.fieldTarget kind ty name = .error := by
  simp [fieldTarget, h]

theorem Keeps.elementTarget_eq (hk : p.Keeps q) (ht : p.Has ty) :
    q.elementTarget ty = p.elementTarget ty := by
  unfold elementTarget
  rw [hk.get_eq ty ht]

theorem Keeps.initRecord?_eq (hk : p.Keeps q) (wf : p.WellFormed) (ht : p.Has ty)
    (kind : RecordKind) : q.initRecord? kind ty = p.initRecord? kind ty := by
  have hrec : q.recordOf? ty = p.recordOf? ty := by
    unfold recordOf?
    rw [hk.get_eq ty ht]
  unfold initRecord?
  rw [hrec]
  cases h : p.recordOf? ty with
  | none => rfl
  | some rid => simp only [Option.filter_some, hk.kind_eq (wf.lt_of_recordOf? h)]

theorem Keeps.fieldTarget_eq (hk : p.Keeps q) (wf : p.WellFormed) (ht : p.Has ty)
    (kind : RecordKind) (name : String) : q.fieldTarget kind ty name = p.fieldTarget kind ty name := by
  unfold fieldTarget
  rw [hk.initRecord?_eq wf ht]
  cases hrid : p.initRecord? kind ty with
  | none => rfl
  | some rid =>
    simp only [RecordDef.member?, hk.members_eq (wf.lt_of_filter_recordOf? hrid)]

theorem Keeps.completion?_eq (hk : p.Keeps q) (ht : p.Has ty) (init : Expr) :
    q.completion? ty init = p.completion? ty init := by
  unfold completion?
  simp only [hk.get_eq ty ht]

mutual

/-- A pool that keeps `p` sees an initial value fit or not fit where `p` does: the element and
member types it checks against are those of `p`. -/
theorem Keeps.fitSpans_eq (hk : p.Keeps q) (wf : p.WellFormed) :
    ∀ (init : Expr) {ty : TypeId}, p.Has ty → q.fitSpans ty init = p.fitSpans ty init
  | .mk id span kind, ty, ht => by
    cases kind with
    | arrayInit es =>
      simp only [fitSpans, hk.get_eq ty ht, hk.elementTarget_eq ht,
        hk.fitSpansAll_eq wf es (wf.has_elementTarget ty)]
    | recordInit kind fields =>
      simp only [fitSpans, hk.initRecord?_eq wf ht, hk.fitSpansFields_eq wf kind ht fields]
    | str units enc => simp only [fitSpans, hk.get_eq ty ht]
    | _ => simp only [fitSpans]

theorem Keeps.fitSpansAll_eq (hk : p.Keeps q) (wf : p.WellFormed) :
    ∀ (es : List Expr) {ty : TypeId}, p.Has ty → q.fitSpansAll ty es = p.fitSpansAll ty es
  | [], _, _ => rfl
  | e :: es, ty, ht => by
    simp only [fitSpansAll, hk.fitSpans_eq wf e ht, hk.fitSpansAll_eq wf es ht]

theorem Keeps.fitSpansFields_eq (hk : p.Keeps q) (wf : p.WellFormed) (kind : RecordKind) :
    ∀ {ty : TypeId}, p.Has ty → ∀ (fs : List FieldInit),
      q.fitSpansFields kind ty fs = p.fitSpansFields kind ty fs
  | _, _, [] => rfl
  | ty, ht, .mk name value _ :: fs => by
    simp only [fitSpansFields, hk.fieldTarget_eq wf ht,
      hk.fitSpans_eq wf value (wf.has_fieldTarget kind ty name), hk.fitSpansFields_eq wf kind ht fs]

end

end Keeps

/-- The fields of an initializer that fills no record are each checked against the error type. -/
theorem fitSpansFields_of_initRecord?_none {p : TypePool} {kind : RecordKind} {ty : TypeId}
    (h : p.initRecord? kind ty = none) (fs : List FieldInit) :
    p.fitSpansFields kind ty fs = p.fitSpansAll .error (fs.map (·.value)) := by
  induction fs with
  | nil => rfl
  | cons f fs ih =>
    obtain ⟨name, value, span⟩ := f
    simp only [fitSpansFields, fitSpansAll, List.map_cons, FieldInit.value,
      fieldTarget_of_initRecord?_none h, ih]

end TypePool

namespace CheckState

/-- Where the reports that an initial value does not fit point: the primary span of each, in
the order made. -/
def fitSites (s : CheckState) : List (Option Span) := s.fitErrors.map (·.primarySpan?)

theorem fitSites_push_of_fit (s : CheckState) {d : Diagnostic} (hd : d.code = .e3006) :
    ({ s with diagnostics := s.diagnostics.push d } : CheckState).fitSites =
      s.fitSites ++ [d.primarySpan?] := by
  simp [fitSites, fitErrors, hd]

end CheckState

namespace Check

open Std.Do CheckM CheckState TypePool

/-- A check of `init` against `ty` from `s`, giving `r` and leaving `s'`, did what it should:
`r` is what `init` completes `ty` to, and the reports that a value does not fit are those that
`fitSpans` predicts, after the earlier ones. -/
structure Initialized (s : CheckState) (ty : TypeId) (init : Expr) (r : TypeId) (s' : CheckState) :
    Prop where
  completes : s.pool.Completes ty init s'.pool r
  fits : s'.fitSites = s.fitSites ++ (s.pool.fitSpans ty init).map some

section Initialized

variable {s s₁ s' : CheckState} {ty r : TypeId} {init : Expr}

/-- A check that starts with steps that only grow the pool and report no misfit. -/
theorem Initialized.after (h : Initialized s₁ ty init r s') (wf : s.pool.WellFormed)
    (hty : s.pool.Has ty) (hk : s.pool.Keeps s₁.pool) (hq : s₁.fitErrors = s.fitErrors) :
    Initialized s ty init r s' where
  completes := by
    unfold Completes
    rw [← hk.completion?_eq hty]
    exact h.completes
  fits := by rw [h.fits, fitSites, hq, hk.fitSpans_eq wf init hty, fitSites]

/-- A check that ends with steps that only grow the pool and report no misfit. -/
theorem Initialized.then (h : Initialized s ty init r s₁) (hk : s₁.pool.Keeps s'.pool)
    (hr : s₁.pool.Has r) (hq : s'.fitErrors = s₁.fitErrors) : Initialized s ty init r s' where
  completes := by
    have hc := h.completes
    unfold Completes at hc ⊢
    split at hc
    · rw [hk.get_eq r hr]
      exact hc
    · exact hc
  fits := by rw [← h.fits, fitSites, hq, fitSites]

end Initialized

/-! ## The rules that complete a type or report a misfit -/

section Rules

variable {s s' : CheckState} {u : Unit}

theorem report_fit_run {d : Diagnostic} (hd : d.code = .e3006) (h : Runs (report d) s u s') :
    s'.fitSites = s.fitSites ++ [d.primarySpan?] := by
  unfold report at h
  rw [h.of_modify]
  exact fitSites_push_of_fit s hd

theorem fail_fit_run {span : Span} {message : String} (h : Runs (fail .e3006 span message) s u s') :
    s'.fitSites = s.fitSites ++ [some span] := by
  unfold fail at h
  rw [report_fit_run rfl h]
  simp [Diagnostic.spanned, Diagnostic.withLabel, Diagnostic.primarySpan?, Diagnostic.error]

theorem array_run {elem r : TypeId} {len : Nat} (h : Runs (array elem len) s r s') :
    s'.pool.get r = .array elem (some len) ∧ s'.diagnostics = s.diagnostics := by
  have hrun : (array elem len).run s =
      ((s.pool.array elem len).2, { s with pool := (s.pool.array elem len).1 }) := rfl
  unfold Runs at h
  rw [hrun, Prod.mk.injEq] at h
  obtain ⟨rfl, rfl⟩ := h
  exact ⟨intern_get _ _, rfl⟩

/-- A string literal is typed as the array of its units and the terminator. -/
theorem checkExpr_str_run {n id : Nat} {span : Span} {units : List Nat} {enc : Encoding} {r : TypeId}
    (h : Runs (checkExpr (n + 2) (.mk id span (.str units enc))) s r s') :
    s'.pool.get r = .array enc.unit (some (units.length + 1)) := by
  rw [checkExpr] at h
  obtain ⟨ty, s₁, h₁, h⟩ := h.of_bind
  simp only [inferExpr] at h₁
  obtain ⟨hget, -⟩ := array_run h₁
  obtain ⟨_, s₂, h₂, h⟩ := h.of_bind
  have hs₂ := h₂.of_modify
  obtain ⟨rfl, rfl⟩ := h.of_pure
  rw [hs₂]
  cases enc <;> exact hget

/-- An array without a length takes the number of elements of its brace list. -/
theorem arrayInitResult_none_run {es : List Expr} {elem ty r : TypeId} {span : Span}
    (h : Runs (arrayInitResult es elem none ty span) s r s') :
    s'.pool.get r = .array elem (some es.length) ∧ s'.diagnostics = s.diagnostics := by
  unfold arrayInitResult at h
  exact array_run h

/-- An array with a length keeps its type, and reports its brace list at the first element it
has no room for. -/
theorem arrayInitResult_some_run {es : List Expr} {elem ty r : TypeId} {cap : Nat} {span : Span}
    (h : Runs (arrayInitResult es elem (some cap) ty span) s r s') :
    r = ty ∧ s'.fitSites =
      s.fitSites ++ (if cap < es.length then [some ((es[cap]?.map Expr.span).getD span)] else []) := by
  unfold arrayInitResult at h
  dsimp only at h
  split at h
  · next hlong =>
    obtain ⟨_, s₁, h₁, h⟩ := h.of_bind
    obtain ⟨rfl, rfl⟩ := h₁.of_read
    obtain ⟨_, s₂, h₂, h⟩ := h.of_bind
    obtain ⟨rfl, rfl⟩ := h.of_pure
    refine ⟨rfl, ?_⟩
    rw [report_fit_run rfl h₂, if_pos hlong]
    simp [Diagnostic.primarySpan?, Diagnostic.withLabel, Diagnostic.withSecondary,
      Diagnostic.error]
  · next hfits =>
    obtain ⟨rfl, rfl⟩ := h.of_pure
    rw [if_neg hfits, List.append_nil]
    exact ⟨rfl, rfl⟩

/-- A value found assignable or not keeps the type, with no report of a misfit. -/
theorem assignable_run {found ty r : TypeId} {span : Span} {context : String}
    (h : Runs (discard (checkAssignable found ty span context) >>= fun _ => pure ty) s r s') :
    r = ty ∧ s'.fitErrors = s.fitErrors := by
  obtain ⟨_, s₁, h₁, h⟩ := h.of_bind
  obtain ⟨_, h₁⟩ := h₁.of_discard
  obtain ⟨hq, -⟩ :=
    Runs.of_triple (checkAssignable_fitErrors _ _ found ty span context) h₁ ⟨rfl, rfl⟩
  obtain ⟨rfl, rfl⟩ := h.of_pure
  exact ⟨rfl, hq⟩

/-- A string, typed as the array of its units, fills an array of its unit type: one without a
length takes the string's, one with a length too short for it is reported at the string. -/
theorem stringInitResult_initialized {id : Nat} {span : Span} {units : List Nat} {enc : Encoding}
    {found ty r : TypeId} (hfound : s.pool.get found = .array enc.unit (some (units.length + 1)))
    (h : Runs (stringInitResult found ty span) s r s') :
    Initialized s ty (.mk id span (.str units enc)) r s' := by
  unfold stringInitResult at h
  obtain ⟨_, s₁, h₁, h⟩ := h.of_bind
  obtain ⟨rfl, rfl⟩ := h₁.of_get
  dsimp only at h
  rw [hfound] at h
  cases hty : s.pool.get ty with
  | array want len =>
    rw [hty] at h
    dsimp only at h
    split at h
    · -- a string of another unit type is checked as a value
      next hne =>
      have hne' : want ≠ enc.unit := by simpa using hne
      obtain ⟨rfl, hq⟩ := assignable_run h
      constructor
      · cases len <;> simp [Completes, completion?, hty, hne']
      · cases len <;> simp [fitSpans, hty, hne', fitSites, hq]
    · next heq =>
      have hwant : want = enc.unit := by simpa using heq
      subst hwant
      cases len with
      | none =>
        obtain ⟨rfl, rfl⟩ := h.of_pure
        constructor
        · simp [Completes, completion?, hty, hfound]
        · simp [fitSpans, hty]
      | some cap =>
        dsimp only at h
        split at h
        · next hlong =>
          obtain ⟨_, s₁, h₁, h⟩ := h.of_bind
          obtain ⟨rfl, rfl⟩ := h₁.of_read
          obtain ⟨_, s₂, h₂, h⟩ := h.of_bind
          obtain ⟨rfl, rfl⟩ := h.of_pure
          constructor
          · simp [Completes, completion?, hty]
          · rw [fail_fit_run h₂]
            simp [fitSpans, hty, hlong]
        · next hfits =>
          obtain ⟨rfl, rfl⟩ := h.of_pure
          constructor
          · simp [Completes, completion?, hty]
          · simp [fitSpans, hty]
            omega
  | _ =>
    rw [hty] at h
    obtain ⟨rfl, hq⟩ := assignable_run h
    constructor
    · simp [Completes, completion?, hty]
    · simp [fitSpans, hty, fitSites, hq]

end Rules

/-- An initial value that is no brace list, record initializer or string completes nothing and
always fits. -/
theorem completion?_fitSpans_of_value {p : TypePool} {ty : TypeId} {id : Nat} {span : Span}
    {kind : ExprKind} (ha : ∀ es, kind ≠ .arrayInit es) (hr : ∀ k fs, kind ≠ .recordInit k fs)
    (hs : ∀ units enc, kind ≠ .str units enc) :
    p.completion? ty (.mk id span kind) = none ∧ p.fitSpans ty (.mk id span kind) = [] := by
  cases kind with
  | arrayInit es => exact absurd rfl (ha es)
  | recordInit k fs => exact absurd rfl (hr k fs)
  | str units enc => exact absurd rfl (hs units enc)
  | _ => exact ⟨rfl, rfl⟩

/-! ## Checking initial values, fuel by fuel -/

/-- Every check of an initial value, with fuel enough for the nodes it checks, completes its
type as its value does and reports a misfit exactly where `fitSpans` says. -/
structure InitsComplete (n : Nat) : Prop where
  init : ∀ (init : Expr) (ty : TypeId) (s s' : CheckState) (r : TypeId),
    8 * init.size + 3 ≤ n → s.Sound → s.pool.Has ty → Runs (checkInit n init ty) s r s' →
    Initialized s ty init r s'
  arrayInit : ∀ (id : Nat) (span : Span) (es : List Expr) (ty : TypeId) (s s' : CheckState)
      (r : TypeId),
    8 * Expr.listSize es + 5 ≤ n → s.Sound → s.pool.Has ty →
    Runs (checkArrayInit n es ty span) s r s' → Initialized s ty (.mk id span (.arrayInit es)) r s'
  inits : ∀ (es : List Expr) (ty : TypeId) (s s' : CheckState),
    8 * Expr.listSize es + 4 ≤ n → s.Sound → s.pool.Has ty → Runs (checkInits n es ty) s () s' →
    s'.fitSites = s.fitSites ++ (s.pool.fitSpansAll ty es).map some
  recordInit : ∀ (id : Nat) (span : Span) (kind : RecordKind) (fields : List FieldInit)
      (ty : TypeId) (s s' : CheckState) (r : TypeId),
    8 * FieldInit.listSize fields + 5 ≤ n → s.Sound → s.pool.Has ty →
    Runs (checkRecordInit n kind fields ty span) s r s' →
    Initialized s ty (.mk id span (.recordInit kind fields)) r s'
  fields : ∀ (rid : Nat) (kind : RecordKind) (ty : TypeId) (fs : List FieldInit) (s s' : CheckState),
    8 * FieldInit.listSize fs + 4 ≤ n → s.Sound → s.pool.Has ty →
    s.pool.initRecord? kind ty = some rid → Runs (checkFields n rid ty fs) s () s' →
    s'.fitSites = s.fitSites ++ (s.pool.fitSpansFields kind ty fs).map some

/-- Without fuel there is nothing to check: no node fits in it. -/
theorem initsComplete_zero : InitsComplete 0 where
  init _ _ _ _ _ hrank := absurd hrank (by omega)
  arrayInit _ _ _ _ _ _ _ hrank := absurd hrank (by omega)
  inits _ _ _ _ hrank := absurd hrank (by omega)
  recordInit _ _ _ _ _ _ _ _ hrank := absurd hrank (by omega)
  fields _ _ _ _ _ _ hrank := absurd hrank (by omega)

section Step

variable {n : Nat} (ih : InitsComplete n) {s s' : CheckState}
include ih

theorem checkInits_initialized (es : List Expr) (ty : TypeId)
    (h : Runs (checkInits (n + 1) es ty) s () s') (hrank : 8 * Expr.listSize es + 4 ≤ n + 1)
    (hs : s.Sound) (hty : s.pool.Has ty) :
    s'.fitSites = s.fitSites ++ (s.pool.fitSpansAll ty es).map some := by
  cases es with
  | nil =>
    rw [checkInits] at h
    obtain ⟨-, rfl⟩ := h.of_pure
    simp [fitSpansAll]
  | cons e es =>
    rw [Expr.listSize] at hrank
    have hpos := e.size_pos
    rw [checkInits] at h
    obtain ⟨_, s₁, h₁, h⟩ := h.of_bind
    obtain ⟨r, h₁⟩ := h₁.of_discard
    have i₁ := ih.init e ty s s₁ r (by omega) hs hty h₁
    obtain ⟨hs₁, hg₁, -⟩ := Runs.of_triple ((typingSound n).init e ty s) h₁ ⟨.refl _, hs, hty⟩
    rw [ih.inits es ty s₁ s' (by omega) hs₁ (hg₁.has hty) h, i₁.fits,
      hg₁.keeps.fitSpansAll_eq hs.wf es hty, fitSpansAll, List.map_append, List.append_assoc]

theorem checkArrayInit_initialized (id : Nat) (span : Span) (es : List Expr) (ty : TypeId)
    {r : TypeId} (h : Runs (checkArrayInit (n + 1) es ty span) s r s')
    (hrank : 8 * Expr.listSize es + 5 ≤ n + 1) (hs : s.Sound) (hty : s.pool.Has ty) :
    Initialized s ty (.mk id span (.arrayInit es)) r s' := by
  rw [checkArrayInit] at h
  split at h
  · -- the elements of an initializer of no type are checked against the error type
    next herr =>
    obtain rfl : ty = .error := TypeId.isError_iff.1 herr
    obtain ⟨_, s₁, h₁, h⟩ := h.of_bind
    have hfit := ih.inits es .error s s₁ (by omega) hs hty h₁
    obtain ⟨rfl, rfl⟩ := h.of_pure
    constructor
    · simp [Completes, completion?, hs.wf.get_error]
    · simp [hfit, fitSpans, hs.wf.elementTarget_error, hs.wf.get_error]
  · obtain ⟨_, s₁, h₁, h⟩ := h.of_bind
    obtain ⟨rfl, rfl⟩ := h₁.of_read
    split at h
    · next elem len hget =>
      obtain ⟨_, s₂, h₂, h⟩ := h.of_bind
      have hfit₂ := ih.inits es elem s s₂ (by omega) hs (hs.wf.has_of_get_array hget) h₂
      have htarget : s.pool.elementTarget ty = elem := by simp [elementTarget, hget]
      cases len with
      | none =>
        -- an array without a length takes the number of elements
        obtain ⟨hres, hdiag⟩ := arrayInitResult_none_run h
        constructor
        · simp only [Completes, completion?, hget]
          exact hres
        · rw [fitSites, fitErrors, hdiag, ← fitErrors, ← fitSites, hfit₂]
          simp [fitSpans, hget, htarget]
      | some cap =>
        obtain ⟨rfl, hfit⟩ := arrayInitResult_some_run h
        constructor
        · simp [Completes, completion?, hget]
        · rw [hfit, hfit₂]
          simp [fitSpans, hget, htarget, apply_ite (List.map some)]
    · -- a type that is no array is refused, and the elements checked against the error type
      next hnot =>
      obtain ⟨_, s₂, h₂, h⟩ := h.of_bind
      have hfit₂ := ih.inits es .error s s₂ (by omega) hs hs.wf.has_error h₂
      obtain ⟨_, s₃, h₃, h⟩ := h.of_bind
      obtain ⟨rfl, rfl⟩ := h₃.of_read
      obtain ⟨_, s₄, h₄, h⟩ := h.of_bind
      obtain ⟨hq, -⟩ := Runs.of_triple (fail_fitErrors _ _ .e3001 span _) h₄ ⟨⟨rfl, rfl⟩, by decide⟩
      obtain ⟨rfl, rfl⟩ := h.of_pure
      cases hget : s.pool.get ty with
      | array elem len => exact absurd hget (hnot elem len)
      | _ =>
        constructor
        · simp [Completes, completion?, hget]
        · rw [fitSites, hq, ← fitSites, hfit₂]
          simp [fitSpans, elementTarget, hget]

theorem checkRecordInit_initialized (id : Nat) (span : Span) (kind : RecordKind)
    (fields : List FieldInit) (ty : TypeId) {r : TypeId}
    (h : Runs (checkRecordInit (n + 1) kind fields ty span) s r s')
    (hrank : 8 * FieldInit.listSize fields + 5 ≤ n + 1) (hs : s.Sound) (hty : s.pool.Has ty) :
    Initialized s ty (.mk id span (.recordInit kind fields)) r s' := by
  have hvalues : 8 * Expr.listSize (fields.map (·.value)) + 4 ≤ n := by
    rw [Expr.listSize_values]
    omega
  rw [checkRecordInit] at h
  split at h
  · -- the fields of an initializer of no type are checked against the error type
    next herr =>
    obtain rfl : ty = .error := TypeId.isError_iff.1 herr
    obtain ⟨_, s₁, h₁, h⟩ := h.of_bind
    have hfit := ih.inits _ .error s s₁ hvalues hs hty h₁
    obtain ⟨rfl, rfl⟩ := h.of_pure
    have hnone := hs.wf.initRecord?_error kind
    constructor
    · simp [Completes, completion?]
    · simp [hfit, fitSpans, hnone, fitSpansFields_of_initRecord?_none hnone]
  · obtain ⟨_, s₁, h₁, h⟩ := h.of_bind
    obtain ⟨rfl, rfl⟩ := h₁.of_get
    dsimp only at h
    split at h
    · -- a type that is no record of the kind is refused, and the fields checked against the
      -- error type
      next hnone =>
      have hnone : s.pool.initRecord? kind ty = none := hnone
      obtain ⟨_, s₂, h₂, h⟩ := h.of_bind
      have hfit₂ := ih.inits _ .error s s₂ hvalues hs hs.wf.has_error h₂
      obtain ⟨_, s₃, h₃, h⟩ := h.of_bind
      obtain ⟨rfl, rfl⟩ := h₃.of_read
      obtain ⟨_, s₄, h₄, h⟩ := h.of_bind
      obtain ⟨hq, -⟩ := Runs.of_triple (fail_fitErrors _ _ .e3001 span _) h₄ ⟨⟨rfl, rfl⟩, by decide⟩
      obtain ⟨rfl, rfl⟩ := h.of_pure
      constructor
      · simp [Completes, completion?]
      · rw [fitSites, hq, ← fitSites, hfit₂]
        simp [fitSpans, hnone, fitSpansFields_of_initRecord?_none hnone]
    · next rid hrid =>
      have hrid : s.pool.initRecord? kind ty = some rid := hrid
      -- a union initializer that names other than one member is reported first
      have hunion : ∃ s₂, s₂.Sound ∧ s.Grows s₂ ∧
          s₂.fitSites = s.fitSites ++ (if kind = .union ∧ fields.length ≠ 1 then [some span] else []) ∧
          Runs (checkFields n rid ty fields >>= fun _ => pure ty) s₂ r s' := by
        split at h
        · next hbad =>
          obtain ⟨_, s₂, h₂, h⟩ := h.of_bind
          obtain ⟨hs₂, hg₂⟩ := Runs.of_triple (fail_spec s .e3006 span _) h₂ ⟨.refl _, hs, rfl⟩
          refine ⟨s₂, hs₂, hg₂, ?_, h⟩
          rw [fail_fit_run h₂, if_pos (by simpa using hbad)]
        · next hgood =>
          refine ⟨s, hs, .refl _, ?_, h⟩
          rw [if_neg (by simpa using hgood), List.append_nil]
      obtain ⟨s₂, hs₂, hg₂, hfit₂, h⟩ := hunion
      obtain ⟨_, s₃, h₃, h⟩ := h.of_bind
      have hfit₃ := ih.fields rid kind ty fields s₂ s₃ (by omega) hs₂ (hg₂.has hty)
        (by rw [hg₂.keeps.initRecord?_eq hs.wf hty]; exact hrid) h₃
      obtain ⟨rfl, rfl⟩ := h.of_pure
      constructor
      · simp [Completes, completion?]
      · rw [hfit₃, hfit₂, hg₂.keeps.fitSpansFields_eq hs.wf kind hty]
        simp [fitSpans, hrid, apply_ite (List.map some)]

theorem checkFields_initialized (rid : Nat) (kind : RecordKind) (ty : TypeId) (fs : List FieldInit)
    (h : Runs (checkFields (n + 1) rid ty fs) s () s')
    (hrank : 8 * FieldInit.listSize fs + 4 ≤ n + 1) (hs : s.Sound) (hty : s.pool.Has ty)
    (hrid : s.pool.initRecord? kind ty = some rid) :
    s'.fitSites = s.fitSites ++ (s.pool.fitSpansFields kind ty fs).map some := by
  cases fs with
  | nil =>
    rw [checkFields] at h
    obtain ⟨-, rfl⟩ := h.of_pure
    simp [fitSpansFields]
  | cons f fs =>
    obtain ⟨name, value, fspan⟩ := f
    rw [FieldInit.listSize] at hrank
    have hpos := value.size_pos
    have hlt := hs.wf.lt_of_filter_recordOf? hrid
    rw [checkFields] at h
    obtain ⟨_, s₁, h₁, h⟩ := h.of_bind
    obtain ⟨rfl, rfl⟩ := h₁.of_get
    dsimp only [FieldInit.name, FieldInit.value, FieldInit.span] at h
    -- the value is checked against the type of the member it names, or else against the error
    -- type once the name is refused
    have hvalue : ∃ s₂, s₂.Sound ∧ s.Grows s₂ ∧
        s₂.fitSites = s.fitSites ++ (s.pool.fitSpans (s.pool.fieldTarget kind ty name) value).map some ∧
        Runs (checkFields n rid ty fs) s₂ () s' := by
      split at h
      · next m hm =>
        obtain ⟨_, s₂, h₂, h⟩ := h.of_bind
        obtain ⟨r₂, h₂⟩ := h₂.of_discard
        have hmty := hs.wf.has_of_member hlt hm
        obtain ⟨hs₂, hg₂, -⟩ :=
          Runs.of_triple ((typingSound n).init value m.ty s) h₂ ⟨.refl _, hs, hmty⟩
        have htarget : s.pool.fieldTarget kind ty name = m.ty := by
          simp [fieldTarget, hrid, hm]
        refine ⟨s₂, hs₂, hg₂, ?_, h⟩
        rw [htarget]
        exact (ih.init value m.ty s s₂ r₂ (by omega) hs hmty h₂).fits
      · next hm =>
        obtain ⟨_, s₂, h₂, h⟩ := h.of_bind
        obtain ⟨rfl, rfl⟩ := h₂.of_read
        obtain ⟨_, s₃, h₃, h⟩ := h.of_bind
        obtain ⟨hs₃, hg₃⟩ := Runs.of_triple (fail_spec s .e3003 _ _) h₃ ⟨.refl _, hs, rfl⟩
        obtain ⟨hq₃, -⟩ :=
          Runs.of_triple (fail_fitErrors _ _ .e3003 _ _) h₃ ⟨⟨rfl, rfl⟩, by decide⟩
        obtain ⟨_, s₄, h₄, h⟩ := h.of_bind
        obtain ⟨r₄, h₄⟩ := h₄.of_discard
        have herr := hs₃.wf.has_error
        obtain ⟨hs₄, hg₄, -⟩ :=
          Runs.of_triple ((typingSound n).init value .error s₃) h₄ ⟨.refl _, hs₃, herr⟩
        have htarget : s.pool.fieldTarget kind ty name = .error := by
          simp [fieldTarget, hrid, hm]
        refine ⟨s₄, hs₄, hg₃.trans hg₄, ?_, h⟩
        rw [(ih.init value .error s₃ s₄ r₄ (by omega) hs₃ herr h₄).fits, fitSites, hq₃,
          ← fitSites, htarget, hg₃.keeps.fitSpans_eq hs.wf value hs.wf.has_error]
    obtain ⟨s₂, hs₂, hg₂, hfit₂, h⟩ := hvalue
    rw [ih.fields rid kind ty fs s₂ s' (by omega) hs₂ (hg₂.has hty)
        (by rw [hg₂.keeps.initRecord?_eq hs.wf hty]; exact hrid) h, hfit₂,
      hg₂.keeps.fitSpansFields_eq hs.wf kind hty, fitSpansFields, List.map_append,
      List.append_assoc]

theorem checkInit_initialized (init : Expr) (ty : TypeId) {r : TypeId}
    (h : Runs (checkInit (n + 1) init ty) s r s') (hrank : 8 * init.size + 3 ≤ n + 1)
    (hs : s.Sound) (hty : s.pool.Has ty) : Initialized s ty init r s' := by
  obtain ⟨id, span, kind⟩ := init
  rw [checkInit] at h
  split at h
  · -- a brace list records the type it completes at its own node
    next es hkind =>
    obtain rfl : kind = .arrayInit es := hkind
    simp only [Expr.size, ExprKind.size] at hrank
    obtain ⟨c, s₁, h₁, h⟩ := h.of_bind
    have i₁ := ih.arrayInit id span es ty s s₁ c (by omega) hs hty h₁
    obtain ⟨-, -, hc⟩ := Runs.of_triple ((typingSound n).arrayInit es ty span s) h₁ ⟨.refl _, hs, hty⟩
    obtain ⟨_, s₂, h₂, h⟩ := h.of_bind
    obtain rfl := h₂.of_modify
    obtain ⟨rfl, rfl⟩ := h.of_pure
    exact i₁.then (Keeps.refl _) hc rfl
  · next k fields hkind =>
    obtain rfl : kind = .recordInit k fields := hkind
    simp only [Expr.size, ExprKind.size] at hrank
    obtain ⟨c, s₁, h₁, h⟩ := h.of_bind
    have i₁ := ih.recordInit id span k fields ty s s₁ c (by omega) hs hty h₁
    obtain ⟨-, -, hc⟩ :=
      Runs.of_triple ((typingSound n).recordInit k fields ty span s) h₁ ⟨.refl _, hs, hty⟩
    obtain ⟨_, s₂, h₂, h⟩ := h.of_bind
    obtain rfl := h₂.of_modify
    obtain ⟨rfl, rfl⟩ := h.of_pure
    exact i₁.then (Keeps.refl _) hc rfl
  · -- a string is typed as an expression, then fills the type
    next units enc hkind =>
    obtain rfl : kind = .str units enc := hkind
    obtain ⟨m, rfl⟩ : ∃ m, n = m + 2 := ⟨n - 2, by simp only [Expr.size, ExprKind.size] at hrank; omega⟩
    obtain ⟨found, s₁, h₁, h⟩ := h.of_bind
    obtain ⟨hs₁, hg₁, -⟩ := Runs.of_triple ((typingSound _).expr _ s) h₁ ⟨.refl _, hs⟩
    obtain ⟨hq₁, -⟩ := Runs.of_triple ((fitFrame _).expr _ _ _) h₁ ⟨rfl, rfl⟩
    exact (stringInitResult_initialized (checkExpr_str_run h₁) h).after hs.wf hty hg₁.keeps hq₁
  · -- any other value is typed as a value and checked assignable
    next ha hr hstr =>
    obtain ⟨found, s₁, h₁, h⟩ := h.of_bind
    obtain ⟨hs₁, hg₁, -⟩ := Runs.of_triple ((typingSound n).value _ s) h₁ ⟨.refl _, hs⟩
    obtain ⟨hq₁, -⟩ := Runs.of_triple ((fitFrame n).value _ _ _) h₁ ⟨rfl, rfl⟩
    obtain ⟨rfl, hq⟩ := assignable_run h
    have hvalue : s.pool.completion? r (.mk id span kind) = none ∧
        s.pool.fitSpans r (.mk id span kind) = [] :=
      completion?_fitSpans_of_value (fun es hk => ha es hk) (fun k fs hk => hr k fs hk)
        (fun units enc hk => hstr units enc hk)
    obtain ⟨hnone, hnil⟩ := hvalue
    constructor
    · simp [Completes, hnone]
    · rw [fitSites, hq, hq₁, ← fitSites, hnil, List.map_nil, List.append_nil]

end Step

/-- With one more unit of fuel every check keeps its promise, given that each keeps it with
less. -/
theorem initsComplete_succ {n : Nat} (ih : InitsComplete n) : InitsComplete (n + 1) where
  init e ty _ _ _ hrank hs hty h := checkInit_initialized ih e ty h hrank hs hty
  arrayInit id span es ty _ _ _ hrank hs hty h :=
    checkArrayInit_initialized ih id span es ty h hrank hs hty
  inits es ty _ _ hrank hs hty h := checkInits_initialized ih es ty h hrank hs hty
  recordInit id span kind fields ty _ _ _ hrank hs hty h :=
    checkRecordInit_initialized ih id span kind fields ty h hrank hs hty
  fields rid kind ty fs _ _ hrank hs hty hrid h :=
    checkFields_initialized ih rid kind ty fs h hrank hs hty hrid

/-- Every check of an initial value keeps its promise at every fuel: by induction on the fuel,
each check calling the others with one unit less. -/
theorem initsComplete : ∀ n, InitsComplete n
  | 0 => initsComplete_zero
  | n + 1 => initsComplete_succ (initsComplete n)

/-- Checking an initial value with a budget that covers its nodes completes its type as the value
does and reports a misfit exactly where `fitSpans` says. -/
theorem typeOfInit_initialized {init : Expr} {ty r : TypeId} {s s' : CheckState} (hs : s.Sound)
    (hty : s.pool.Has ty) (hbudget : 8 * init.size + 3 ≤ s.budget)
    (h : Runs (typeOfInit init ty) s r s') : Initialized s ty init r s' := by
  unfold typeOfInit at h
  obtain ⟨_, s₁, h₁, h⟩ := h.of_bind
  obtain ⟨rfl, rfl⟩ := h₁.of_get
  exact (initsComplete s.budget).init init ty s s' r hbudget hs hty h

/-! ## A variable declaration records the completed type -/

theorem SymbolError.diagnostic_code_ne (e : SymbolError) (name : String) (span : Span) :
    (e.diagnostic name span).code ≠ .e3006 := by
  cases e <;> exact fun h => by cases h

section Var

variable (L : List Diagnostic) (B : Nat)

theorem typeOfNode_fitErrors (t : TypeExpr) :
    ⦃fun s => ⌜s.fitErrors = L ∧ s.budget = B⌝⦄ typeOfNode t
    ⦃⇓ _ s => ⌜s.fitErrors = L ∧ s.budget = B⌝⦄ := by
  have htype := fun fuel => (fitFrame fuel).type t L B
  mvcgen [typeOfNode, htype, -typeOfNode_spec]

theorem constantInitCheck_fitErrors (d : Decl) (v : Expr) (needsConstant : Bool) :
    ⦃fun s => ⌜s.fitErrors = L ∧ s.budget = B⌝⦄ constantInitCheck d v needsConstant
    ⦃⇓ _ s => ⌜s.fitErrors = L ∧ s.budget = B⌝⦄ := by
  mvcgen [constantInitCheck, fail_fitErrors, -fail_spec]

theorem declareSymbol_fitErrors (sym : Symbol) :
    ⦃fun s => ⌜s.fitErrors = L ∧ s.budget = B⌝⦄ declareSymbol sym
    ⦃⇓ _ s => ⌜s.fitErrors = L ∧ s.budget = B⌝⦄ := by
  mvcgen [declareSymbol, report_fitErrors, -declareSymbol_spec, -report_spec]
  all_goals simp_all [SymbolError.diagnostic_code_ne]

theorem bindDecl_fitErrors (d : Decl) (sym : Symbol) :
    ⦃fun s => ⌜s.fitErrors = L ∧ s.budget = B⌝⦄ bindDecl d sym
    ⦃⇓ _ s => ⌜s.fitErrors = L ∧ s.budget = B⌝⦄ := by
  mvcgen [bindDecl, declareSymbol_fitErrors, -bindDecl_spec, -declareSymbol_spec]
  all_goals simp_all +zetaDelta [fitErrors]

end Var

theorem constantInitCheck_grows (s₀ : CheckState) (d : Decl) (v : Expr) (needsConstant : Bool) :
    ⦃fun s => ⌜s₀.Grows s ∧ s.Sound⌝⦄ constantInitCheck d v needsConstant
    ⦃⇓ _ s => ⌜s.Sound ∧ s₀.Grows s⌝⦄ := by
  mvcgen [constantInitCheck]
  all_goals simp_all [Code.isStatementError]

/-- A variable declaration with an initial value `v`, checked from a sound state whose budget
covers `v`, records for itself the type that `v` completes its declared type `ty` to (the error
type standing for `void`): the length of a brace list or of a string with its terminator for an
array without a length, `ty` itself otherwise. Its reports that a value does not fit are those of
`fitSpans`: each brace list longer than its array, each string longer than an array of its unit
type, each union initializer that does not name exactly one member, at every depth, against the
element and member types of `ty` in the pool in which `ty` was resolved. -/
theorem checkVar_records_completion {d : Decl} {v : Expr} {isStatic : Bool}
    {s s₁ s' : CheckState} {declared : TypeId} (hs : s.Sound)
    (hbudget : 8 * v.size + 3 ≤ s.budget) (hnode : Runs (typeOfNode d.ty) s declared s₁)
    (h : Runs (checkVar d (some v) isStatic) s () s') :
    let ty := if declared.isVoid then TypeId.error else declared
    ∃ r, s'.declTypes[d.id]? = some r ∧ s₁.pool.Completes ty v s'.pool r ∧
      s'.fitSites = s.fitSites ++ (s₁.pool.fitSpans ty v).map some := by
  intro ty
  unfold checkVar at h
  obtain ⟨_, s₂, h₂, h⟩ := h.of_bind
  obtain ⟨rfl, rfl⟩ := h₂.of_get
  dsimp only at h
  obtain ⟨declared', s₂, h₂, h⟩ := h.of_bind
  obtain ⟨rfl, rfl⟩ : declared = declared' ∧ s₁ = s₂ := Prod.mk.inj ((Eq.symm hnode).trans h₂)
  obtain ⟨hs₁, hg₁, hdeclared⟩ := Runs.of_triple (typeOfNode_spec s d.ty) hnode ⟨.refl _, hs⟩
  obtain ⟨hq₁, hb₁⟩ := Runs.of_triple (typeOfNode_fitErrors _ _ d.ty) hnode ⟨rfl, rfl⟩
  have hty : s₁.pool.Has ty := by
    simp only [ty]
    split
    · exact hs₁.wf.has_error
    · exact hdeclared
  -- the declared type, with the error type in place of `void`
  obtain ⟨T, s₃, h₃, h⟩ := h.of_bind
  have hT : T = ty ∧ s₃.Sound ∧ s₁.Grows s₃ ∧ s₃.fitErrors = s₁.fitErrors ∧
      s₃.budget = s₁.budget := by
    split at h₃
    · next hvoid =>
      obtain ⟨_, s₄, h₄, h₃⟩ := h₃.of_bind
      obtain ⟨hs₄, hg₄⟩ := Runs.of_triple (fail_spec s₁ .e3001 _ _) h₄ ⟨.refl _, hs₁, rfl⟩
      obtain ⟨hq₄, hb₄⟩ :=
        Runs.of_triple (fail_fitErrors _ _ .e3001 _ _) h₄ ⟨⟨rfl, rfl⟩, by decide⟩
      obtain ⟨rfl, rfl⟩ := h₃.of_pure
      exact ⟨by simp [ty, hvoid], hs₄, hg₄, hq₄, hb₄⟩
    · next hvoid =>
      obtain ⟨rfl, rfl⟩ := h₃.of_pure
      exact ⟨by simp [ty, hvoid], hs₁, .refl _, rfl, rfl⟩
  obtain ⟨rfl, hs₃, hg₃, hq₃, hb₃⟩ := hT
  -- the initial value, checked against it with the budget
  obtain ⟨_, s₄, h₄, h⟩ := h.of_bind
  obtain ⟨R, s₅, h₅, h₄⟩ := h₄.of_bind
  have i₅ := typeOfInit_initialized hs₃ (hg₃.has hty) (by rw [hb₃, hb₁]; exact hbudget) h₅
  obtain ⟨hs₅, hg₅, hR⟩ := Runs.of_triple (typeOfInit_spec s₃ v ty) h₅ ⟨.refl _, hs₃, hg₃.has hty⟩
  obtain ⟨_, s₆, h₆, h₄⟩ := h₄.of_bind
  obtain ⟨hs₆, hg₆⟩ := Runs.of_triple (constantInitCheck_grows s₅ d v _) h₆ ⟨.refl _, hs₅⟩
  obtain ⟨hq₆, -⟩ := Runs.of_triple (constantInitCheck_fitErrors _ _ d v _) h₆ ⟨rfl, rfl⟩
  obtain ⟨rfl, rfl⟩ := h₄.of_pure
  -- binding the name touches neither the pool nor the reports of a misfit
  obtain ⟨bound, s₇, h₇, h⟩ := h.of_bind
  obtain ⟨hs₇, hg₇⟩ := Runs.of_triple (bindDecl_spec s₆ d _) h₇ ⟨.refl _, hs₆, hg₆.has hR⟩
  obtain ⟨hq₇, -⟩ := Runs.of_triple (bindDecl_fitErrors _ _ d _) h₇ ⟨rfl, rfl⟩
  obtain ⟨_, s₈, h₈, h⟩ := h.of_bind
  have h₈' : s₈.pool = s₇.pool ∧ s₈.diagnostics = s₇.diagnostics := by
    split at h₈
    · obtain ⟨_, s₉, h₉, h₈⟩ := h₈.of_bind
      obtain ⟨rfl, rfl⟩ := h₉.of_get
      split at h₈
      · rw [h₈.of_modify]
        exact ⟨rfl, rfl⟩
      · obtain ⟨-, rfl⟩ := h₈.of_pure
        exact ⟨rfl, rfl⟩
    · obtain ⟨-, rfl⟩ := h₈.of_pure
      exact ⟨rfl, rfl⟩
  have hfinal := h.of_modify
  have hk : s₅.pool.Keeps s'.pool := by
    rw [hfinal, h₈'.1]
    exact (hg₆.trans hg₇).keeps
  have hq : s'.fitErrors = s₅.fitErrors := by
    rw [hfinal, fitErrors, h₈'.2, ← fitErrors, hq₇, hq₆]
  have i := (i₅.after hs₁.wf hty hg₃.keeps hq₃).then hk hR hq
  refine ⟨R, by simp [hfinal], i.completes, ?_⟩
  rw [i.fits, fitSites, hq₁, ← fitSites]

/-- The brace list `{1, 2, 3}`. -/
def braceOfThree : Expr :=
  .mk 3 ⟨14, 23⟩ (.arrayInit
    [.mk 4 ⟨15, 16⟩ (.int 1 .w16), .mk 5 ⟨18, 19⟩ (.int 2 .w16), .mk 6 ⟨21, 22⟩ (.int 3 .w16)])

/-- `var xs : []int16 = {1, 2, 3}`: an array without a length and a brace list for it. -/
def unsizedArrayVar : Decl :=
  .mk 0 "xs" ⟨4, 6⟩ ⟨0, 23⟩ (.mk 1 ⟨9, 16⟩ false (.array (.mk 2 ⟨11, 16⟩ false (.int .w16)) none))
    false none (.var (some braceOfThree) false)

/-- `var xs : []int16 = {1, 2, 3}` checked from the start of a module. -/
theorem unsizedArrayVar_records_completion :
    let s : CheckState := { budget := 64 }
    let node := (typeOfNode unsizedArrayVar.ty).run s
    let s' := ((checkVar unsizedArrayVar (some braceOfThree) false).run s).2
    let ty := if node.1.isVoid then TypeId.error else node.1
    ∃ r, s'.declTypes[unsizedArrayVar.id]? = some r ∧
      node.2.pool.Completes ty braceOfThree s'.pool r ∧
      s'.fitSites = s.fitSites ++ (node.2.pool.fitSpans ty braceOfThree).map some :=
  @checkVar_records_completion unsizedArrayVar braceOfThree false _ _ _ _
    (sound_initial 64) (by decide) rfl rfl

end Check

end SolarFront
