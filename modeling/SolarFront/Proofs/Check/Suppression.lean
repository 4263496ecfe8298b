import SolarFront.Check.Module

/-!
# The error type does not cascade

A node whose type could not be found gets the error type, and its diagnostic is reported where
that happened. Every rule that uses a type first asks whether it is the error type and, if so,
reports nothing more: typing an expression whose operands came out as the error type adds no
diagnostic to those of its operands, and the checks of assignments, conditions, returns and
constant values say nothing about a value of the error type.

The statements are about runs: `CheckM.Runs x s a s'` says that `x`, run from `s`, gives `a`
and leaves `s'`, and `CheckM.Yields x s a ds` that it gives `a` and leaves the diagnostics `ds`.
Each form of expression with operands has its rule in `Check.NoCascade`, stated from the runs
of its operand checks, and `Check.errors_do_not_cascade` proves all of them.
-/

set_option autoImplicit false
set_option linter.all false

namespace SolarFront

namespace CheckM

/-- `x`, run from `s`, gives `a` and leaves `s'`. -/
def Runs {α : Type} (x : CheckM α) (s : CheckState) (a : α) (s' : CheckState) : Prop :=
  x.run s = (a, s')

/-- `x`, run from `s`, gives `a` and leaves the diagnostics `ds`, whatever else it changes. -/
def Yields {α : Type} (x : CheckM α) (s : CheckState) (a : α) (ds : Array Diagnostic) : Prop :=
  ∃ s', Runs x s a s' ∧ s'.diagnostics = ds

section Runs

variable {α β : Type} {x : CheckM α} {f : α → CheckM β} {s s₁ : CheckState} {a : α} {b : β}
  {ds : Array Diagnostic}

theorem runs_pure (a : α) (s : CheckState) : Runs (pure a : CheckM α) s a s := rfl

theorem Runs.bind {s₂ : CheckState} (hx : Runs x s a s₁) (hf : Runs (f a) s₁ b s₂) :
    Runs (x >>= f) s b s₂ := by
  unfold Runs at *
  simp only [StateT.run_bind, hx]
  exact hf

theorem Runs.bind_yields (hx : Runs x s a s₁) (hf : Yields (f a) s₁ b ds) :
    Yields (x >>= f) s b ds := by
  obtain ⟨s₂, hrun, hds⟩ := hf
  exact ⟨s₂, hx.bind hrun, hds⟩

theorem Runs.yields (h : Runs x s a s₁) : Yields x s a s₁.diagnostics := ⟨s₁, h, rfl⟩

theorem Runs.discard (h : Runs x s a s₁) : Runs (discard x) s () s₁ :=
  show Runs (x >>= fun _ => pure ()) s () s₁ from h.bind (runs_pure _ _)

theorem runs_get (s : CheckState) : Runs (get : CheckM CheckState) s s s := rfl

theorem Yields.bind {ds₁ : Array Diagnostic} (hx : Yields x s a ds₁)
    (hf : ∀ s', s'.diagnostics = ds₁ → Yields (f a) s' b ds) : Yields (x >>= f) s b ds := by
  obtain ⟨s', hrun, hds⟩ := hx
  exact hrun.bind_yields (hf s' hds)

/-- `x` reports nothing: every run of it leaves the diagnostics as they were. -/
def Quiet (x : CheckM α) : Prop := ∀ s, (x.run s).2.diagnostics = s.diagnostics

theorem Quiet.pure (a : α) : Quiet (Pure.pure a : CheckM α) := fun _ => rfl

theorem Quiet.bind (hx : Quiet x) (hf : ∀ a, Quiet (f a)) : Quiet (x >>= f) := by
  intro s
  simp only [StateT.run_bind]
  exact (hf _ _).trans (hx s)

theorem Quiet.modify {g : CheckState → CheckState} (hg : ∀ s, (g s).diagnostics = s.diagnostics) :
    Quiet (modify g : CheckM Unit) := hg

theorem Quiet.yields (hx : Quiet x) (s : CheckState) : Yields x s (x.run s).1 s.diagnostics :=
  ⟨(x.run s).2, rfl, hx s⟩

/-- A quiet step followed by a step that yields from wherever it starts with the same
diagnostics. -/
theorem Quiet.bind_yields (hx : Quiet x)
    (hf : ∀ s', s'.diagnostics = s.diagnostics → Yields (f (x.run s).1) s' b ds) :
    Yields (x >>= f) s b ds :=
  (hx.yields s).bind hf

end Runs

end CheckM

namespace Check

open CheckM

theorem setConst_quiet (id : Nat) (v : Option Nat) : Quiet (setConst id v) := by
  cases v with
  | none => exact Quiet.pure ()
  | some v => exact Quiet.modify fun _ => rfl

theorem get_quiet : Quiet (get : CheckM CheckState) := fun _ => rfl

theorem constOf_quiet (id : Nat) : Quiet (constOf id) := fun _ => rfl

theorem valueWidth_quiet (t : TypeId) : Quiet (valueWidth t) := fun _ => rfl

theorem foldArith_quiet (id : Nat) (op : BinaryOp) (left right : Expr) (ty : TypeId) :
    Quiet (foldArith id op left right ty) := by
  unfold foldArith
  refine (constOf_quiet _).bind fun l => (constOf_quiet _).bind fun r =>
    (valueWidth_quiet _).bind fun w => ?_
  split
  · exact setConst_quiet _ _
  · exact Quiet.pure ()

/-! ## The rules of the expression forms

Each rule, given an operand of the error type, returns at once or only folds. -/

theorem arithResult_error (op : BinaryOp) {lt rt : TypeId} (right : Expr) (span : Span)
    (h : lt = .error ∨ rt = .error) (s : CheckState) :
    Runs (arithResult op lt rt right span) s .error s := by
  have hguard : (lt.isError || rt.isError) = true := by
    rcases h with rfl | rfl <;> simp [TypeId.isError, TypeId.error]
  simp only [Runs, arithResult, hguard, if_true]
  rfl

theorem callResult_error (func : Expr) (args : List Expr) (argTypes : List TypeId)
    (s : CheckState) : Runs (callResult func args .error argTypes) s .error s := rfl

theorem indexResult_error (array index : Expr) (indexTy : TypeId) (s : CheckState) :
    Runs (indexResult array index .error indexTy) s .error s := rfl

theorem accessResult_error (member : String) (memberSpan : Span) (s : CheckState) :
    Runs (accessResult .error member memberSpan) s .error s := rfl

theorem derefResult_error (inner : Expr) (s : CheckState) :
    Runs (derefResult inner .error) s .error s := rfl

theorem addrOfResult_error (inner : Expr) (s : CheckState) :
    Runs (addrOfResult inner .error) s .error s := rfl

theorem unaryResult_error (id : Nat) (op : UnaryOp) (operand : Expr) (span : Span)
    (s : CheckState) : Runs (unaryResult id op operand .error span) s .error s := rfl

theorem sizeofResult_error (id : Nat) (span : Span) (s : CheckState) :
    Runs (sizeofResult id .error span) s .error s := rfl

theorem assignResult_error (op : Option BinaryOp) (target value : Expr) (valueTy : TypeId)
    (span : Span) (s : CheckState) :
    Runs (assignResult op target value .error valueTy span) s .error s := rfl

/-- A cast of an operand of the error type to a type other than `void` reports nothing, folds
nothing and has its target type. -/
theorem castResult_error (id : Nat) (inner : Expr) {target : TypeId} (signed : Bool)
    (span : Span) (ht : target.isVoid = false) (s : CheckState) :
    Runs (castResult id inner .error target signed span) s target s := by
  simp only [Runs, castResult, checkCast, ht]
  rfl

/-- A logical operator, or a comparison with an operand of the error type, reports nothing of
its own and is a 16-bit truth value. -/
theorem condResult_error (id : Nat) (op : CondOp) (left right : Expr) {lt rt : TypeId}
    (span : Span) (h : op.isLogical = true ∨ lt = .error ∨ rt = .error) (s : CheckState) :
    Yields (condResult id op left right lt rt span) s .int16 s.diagnostics := by
  have hguard : (!op.isLogical && !lt.isError && !rt.isError) = false := by
    rcases h with h | h | h
    · simp [h]
    · simp [h, TypeId.isError, TypeId.error]
    · simp [h, TypeId.isError, TypeId.error]
  unfold condResult
  simp only [hguard, Bool.false_eq_true, ↓reduceIte]
  -- what is left only reads widths and folded values, and may fold this one
  refine (valueWidth_quiet _).bind_yields fun s₁ h₁ => (valueWidth_quiet _).bind_yields
    fun s₂ h₂ => (constOf_quiet _).bind_yields fun s₃ h₃ => (constOf_quiet _).bind_yields
    fun s₄ h₄ => ?_
  split
  · refine (setConst_quiet _ _).bind_yields fun s₅ h₅ => ?_
    exact ⟨s₅, rfl, by rw [h₅, h₄, h₃, h₂, h₁]⟩
  · exact ⟨s₄, rfl, by rw [h₄, h₃, h₂, h₁]⟩

/-- A conditional expression with a branch of the error type reports nothing of its own and
has the error type. -/
theorem ternaryResult_error (id : Nat) (cond thenE elseE : Expr) {thenTy elseTy : TypeId}
    (h : thenTy = .error ∨ elseTy = .error) (s : CheckState) :
    Yields (ternaryResult id cond thenE elseE thenTy elseTy) s .error s.diagnostics := by
  have hguard : (thenTy.isError || elseTy.isError) = true := by
    rcases h with rfl | rfl <;> simp [TypeId.isError, TypeId.error]
  unfold ternaryResult
  simp only [hguard, ↓reduceIte]
  -- the pool is read, and the value of the chosen branch may be taken over
  refine get_quiet.bind_yields fun s₁ h₁ => (Quiet.pure _).bind_yields fun s₂ h₂ =>
    (constOf_quiet _).bind_yields fun s₃ h₃ => ?_
  split
  · refine (constOf_quiet _).bind_yields fun s₄ h₄ => (setConst_quiet _ _).bind_yields
      fun s₅ h₅ => ⟨s₅, rfl, ?_⟩
    rw [h₅, h₄, h₃, h₂, h₁]
  · exact ⟨s₃, rfl, by rw [h₃, h₂, h₁]⟩

/-! ## Typing an expression after its operands

Each lemma takes the runs of the operand checks that typing the expression starts with, and
concludes that the rest adds no diagnostic. -/

section Forms

-- Every lemma below starts from one equation of `inferExpr`; registering them here builds the
-- equations once, before the proofs that read them.
attribute [local simp] inferExpr

variable {fuel id : Nat} {span : Span} {s s₁ s₂ : CheckState}

theorem inferExpr_binary_error {op : BinaryOp} {l r : Expr} {lt rt : TypeId}
    (hl : Runs (checkValue fuel l) s lt s₁) (hr : Runs (checkValue fuel r) s₁ rt s₂)
    (h : lt = .error ∨ rt = .error) :
    Yields (inferExpr (fuel + 1) ⟨id, span, .binary op l r⟩) s .error s₂.diagnostics := by
  simp only [inferExpr]
  exact hl.bind_yields (hr.bind_yields ((arithResult_error op r span h s₂).bind_yields
    ((foldArith_quiet _ _ _ _ _).bind_yields fun s' hs' => ⟨s', rfl, hs'⟩)))

theorem inferExpr_call_error {f : Expr} {args : List Expr} {argTypes : List TypeId}
    (hf : Runs (checkValue fuel f) s .error s₁) (hargs : Runs (checkValues fuel args) s₁ argTypes s₂) :
    Yields (inferExpr (fuel + 1) ⟨id, span, .call f args⟩) s .error s₂.diagnostics := by
  simp only [inferExpr]
  exact hf.bind_yields (hargs.bind_yields (callResult_error f args argTypes s₂).yields)

theorem inferExpr_index_error {a i : Expr} {indexTy : TypeId}
    (ha : Runs (checkValue fuel a) s .error s₁) (hi : Runs (checkValue fuel i) s₁ indexTy s₂) :
    Yields (inferExpr (fuel + 1) ⟨id, span, .index a i⟩) s .error s₂.diagnostics := by
  simp only [inferExpr]
  exact ha.bind_yields (hi.bind_yields (indexResult_error a i indexTy s₂).yields)

theorem inferExpr_access_error {r : Expr} {member : String} {memberSpan : Span}
    (hr : Runs (checkValue fuel r) s .error s₁) :
    Yields (inferExpr (fuel + 1) ⟨id, span, .access r member memberSpan⟩) s .error
      s₁.diagnostics := by
  simp only [inferExpr]
  exact hr.bind_yields (accessResult_error member memberSpan s₁).yields

/-- A cast takes its target type whatever its operand's; only a cast to `void` is reported. -/
theorem inferExpr_cast_error {inner : Expr} {t : TypeExpr} {signed : Bool} {target : TypeId}
    (hi : Runs (checkExpr fuel inner) s .error s₁) (ht : Runs (resolveType fuel t) s₁ target s₂)
    (hv : target.isVoid = false) :
    Yields (inferExpr (fuel + 1) ⟨id, span, .cast inner t signed⟩) s target s₂.diagnostics := by
  simp only [inferExpr]
  exact hi.bind_yields (ht.bind_yields (castResult_error id inner signed span hv s₂).yields)

theorem inferExpr_deref_error {inner : Expr} (hi : Runs (checkValue fuel inner) s .error s₁) :
    Yields (inferExpr (fuel + 1) ⟨id, span, .deref inner⟩) s .error s₁.diagnostics := by
  simp only [inferExpr]
  exact hi.bind_yields (derefResult_error inner s₁).yields

theorem inferExpr_addrOf_error {inner : Expr} (hi : Runs (checkExpr fuel inner) s .error s₁) :
    Yields (inferExpr (fuel + 1) ⟨id, span, .addrOf inner⟩) s .error s₁.diagnostics := by
  simp only [inferExpr]
  exact hi.bind_yields (addrOfResult_error inner s₁).yields

theorem inferExpr_unary_error {op : UnaryOp} {operand : Expr}
    (ho : Runs (checkValue fuel operand) s .error s₁) :
    Yields (inferExpr (fuel + 1) ⟨id, span, .unary op operand⟩) s .error s₁.diagnostics := by
  simp only [inferExpr]
  exact ho.bind_yields (unaryResult_error id op operand span s₁).yields

/-- `!` is a 16-bit truth value whatever its operand's type, and reports nothing of its own. -/
theorem inferExpr_not {operand : Expr} {ty : TypeId}
    (ho : Runs (checkCondition fuel operand) s ty s₁) :
    Yields (inferExpr (fuel + 1) ⟨id, span, .not operand⟩) s .int16 s₁.diagnostics := by
  simp only [inferExpr]
  exact ho.discard.bind_yields ((constOf_quiet _).bind_yields fun s₂ h₂ =>
    (setConst_quiet _ _).bind_yields fun s₃ h₃ => ⟨s₃, rfl, h₃.trans h₂⟩)

/-- `&&` and `||` are 16-bit truth values and report nothing beyond their operands'
conditions. -/
theorem inferExpr_logical {op : CondOp} {l r : Expr} {lt rt : TypeId} (hop : op.isLogical = true)
    (hl : Runs (checkCondition fuel l) s lt s₁) (hr : Runs (checkCondition fuel r) s₁ rt s₂) :
    Yields (inferExpr (fuel + 1) ⟨id, span, .cond op l r⟩) s .int16 s₂.diagnostics := by
  simp only [inferExpr, hop, ↓reduceIte]
  exact hl.bind_yields (hr.bind_yields (condResult_error id op l r span (.inl hop) s₂))

theorem inferExpr_compare_error {op : CondOp} {l r : Expr} {lt rt : TypeId}
    (hop : op.isLogical = false) (hl : Runs (checkValue fuel l) s lt s₁)
    (hr : Runs (checkValue fuel r) s₁ rt s₂) (h : lt = .error ∨ rt = .error) :
    Yields (inferExpr (fuel + 1) ⟨id, span, .cond op l r⟩) s .int16 s₂.diagnostics := by
  simp only [inferExpr, hop, Bool.false_eq_true, ↓reduceIte]
  exact hl.bind_yields (hr.bind_yields (condResult_error id op l r span (.inr h) s₂))

theorem inferExpr_ternary_error {s₃ : CheckState} {c t e : Expr} {ct tt et : TypeId}
    (hc : Runs (checkCondition fuel c) s ct s₁) (ht : Runs (checkValue fuel t) s₁ tt s₂)
    (he : Runs (checkValue fuel e) s₂ et s₃) (h : tt = .error ∨ et = .error) :
    Yields (inferExpr (fuel + 1) ⟨id, span, .ternary c t e⟩) s .error s₃.diagnostics := by
  simp only [inferExpr]
  exact hc.discard.bind_yields (ht.bind_yields (he.bind_yields (ternaryResult_error id c t e h s₃)))

theorem inferExpr_assign_error {op : Option BinaryOp} {target value : Expr} {valueTy : TypeId}
    (ht : Runs (checkExpr fuel target) s .error s₁) (hv : Runs (checkValue fuel value) s₁ valueTy s₂) :
    Yields (inferExpr (fuel + 1) ⟨id, span, .assign op target value⟩) s .error s₂.diagnostics := by
  simp only [inferExpr]
  exact ht.bind_yields (hv.bind_yields (assignResult_error op target value valueTy span s₂).yields)

/-- `sizeof` of an operand of the error type, whether it was read as a type or checked as an
expression, is the error type and reports nothing of its own. -/
theorem inferExpr_sizeof_error {operand : Expr}
    (h : Runs (sizeofTypeOperand fuel operand) s (some .error) s₁ ∨
      ∃ s₀, Runs (sizeofTypeOperand fuel operand) s none s₀ ∧
        Runs (checkExpr fuel operand) s₀ .error s₁) :
    Yields (inferExpr (fuel + 1) ⟨id, span, .sizeofExpr operand⟩) s .error s₁.diagnostics := by
  simp only [inferExpr]
  rcases h with h | ⟨s₀, h₀, h⟩
  · exact h.bind_yields ((runs_pure _ _).bind_yields (sizeofResult_error id span s₁).yields)
  · exact h₀.bind_yields (h.bind_yields (sizeofResult_error id span s₁).yields)

/-- A comma list is typed by typing its elements in order, and adds nothing. -/
theorem inferExpr_comma {es : List Expr} {ty : TypeId}
    (h : Runs (checkSequence fuel .void es) s ty s₁) :
    Runs (inferExpr (fuel + 1) ⟨id, span, .comma es⟩) s ty s₁ := h

end Forms

/-! ## The checks of values -/

theorem checkAssignable_error (expected : TypeId) (span : Span) (context : String)
    (s : CheckState) : Runs (checkAssignable .error expected span context) s true s := by
  simp [Runs, checkAssignable, TypeId.isVoid, TypeId.error, TypePool.isAssignable,
    TypeId.isError]
  rfl

theorem checkCondition_error {fuel : Nat} {e : Expr} {s s₁ : CheckState}
    (h : Runs (checkValue fuel e) s .error s₁) :
    Runs (checkCondition (fuel + 1) e) s .error s₁ := by
  unfold checkCondition
  exact h.bind (by simp [Runs, TypeId.isError, TypeId.error]; rfl)

/-- A returned value of the error type is checked against nothing. -/
theorem checkReturn_error {v : Expr} (span : Span) {s s₁ : CheckState}
    (h : Runs (typeOfExpr v) s .error s₁) : Runs (checkReturn (some v) span) s () s₁ := by
  unfold checkReturn
  refine (runs_get s).bind (h.bind ?_)
  split
  · simp [Runs, TypeId.isVoid, TypeId.isError, TypeId.error]
    rfl
  · exact (checkAssignable_error _ _ _ s₁).discard

/-- In a function whose return type is the error type, a missing return value is not reported. -/
theorem checkReturn_none_error (span : Span) {s : CheckState}
    (h : s.returnType.getD .error = .error) : Runs (checkReturn none span) s () s := by
  unfold checkReturn
  refine (runs_get s).bind ?_
  simp only [h]
  rfl

/-- A variable's initial value of the error type is not reported as not constant. -/
theorem constantInitCheck_error (d : Decl) (v : Expr) (needsConstant : Bool) {s : CheckState}
    (h : s.exprTypes.getD v.id .error = .error) :
    Runs (constantInitCheck d v needsConstant) s () s := by
  unfold constantInitCheck
  refine (show Runs (exprType v.id) s .error s from by simp [Runs, exprType, h]; rfl).bind ?_
  simp [Runs, TypeId.isError, TypeId.error]
  rfl

/-- A constant's value of the error type is not reported as not constant; its value is read and
cut, and nothing else happens. -/
theorem constValue_error (d : Decl) (value : Expr) (ty : TypeId) :
    Quiet (constValue d value .error ty) := by
  unfold constValue
  refine (constOf_quiet _).bind fun c => get_quiet.bind fun st => ?_
  -- every branch returns at once: the one that reports is closed off by the error type
  split
  · exact Quiet.pure _
  · exact Quiet.pure _
  · exact Quiet.pure _

/-! ## All the rules together -/

/-- The error type does not cascade. For every form of expression with operands, other than a
brace initializer and a cast to `void`: once the checks of its operands have run and an operand
that the form's rule looks at came out as the error type, typing the expression adds no
diagnostic and gives the error type, except where the type does not depend on the operands
(a 16-bit truth value for `!`, comparisons, `&&` and `||`, the target of a cast, the last
element of a comma list). The checks of an assigned, tested, returned or constant value report
nothing about a value of the error type. -/
structure NoCascade : Prop where
  sizeofExpr : ∀ fuel id span operand (s s₁ : CheckState),
    (Runs (sizeofTypeOperand fuel operand) s (some .error) s₁ ∨
      ∃ s₀, Runs (sizeofTypeOperand fuel operand) s none s₀ ∧
        Runs (checkExpr fuel operand) s₀ .error s₁) →
    Yields (inferExpr (fuel + 1) ⟨id, span, .sizeofExpr operand⟩) s .error s₁.diagnostics
  call : ∀ fuel id span f args argTypes (s s₁ s₂ : CheckState),
    Runs (checkValue fuel f) s .error s₁ → Runs (checkValues fuel args) s₁ argTypes s₂ →
    Yields (inferExpr (fuel + 1) ⟨id, span, .call f args⟩) s .error s₂.diagnostics
  index : ∀ fuel id span a i indexTy (s s₁ s₂ : CheckState),
    Runs (checkValue fuel a) s .error s₁ → Runs (checkValue fuel i) s₁ indexTy s₂ →
    Yields (inferExpr (fuel + 1) ⟨id, span, .index a i⟩) s .error s₂.diagnostics
  access : ∀ fuel id span r member memberSpan (s s₁ : CheckState),
    Runs (checkValue fuel r) s .error s₁ →
    Yields (inferExpr (fuel + 1) ⟨id, span, .access r member memberSpan⟩) s .error
      s₁.diagnostics
  cast : ∀ fuel id span inner t signed target (s s₁ s₂ : CheckState),
    Runs (checkExpr fuel inner) s .error s₁ → Runs (resolveType fuel t) s₁ target s₂ →
    target.isVoid = false →
    Yields (inferExpr (fuel + 1) ⟨id, span, .cast inner t signed⟩) s target s₂.diagnostics
  deref : ∀ fuel id span inner (s s₁ : CheckState),
    Runs (checkValue fuel inner) s .error s₁ →
    Yields (inferExpr (fuel + 1) ⟨id, span, .deref inner⟩) s .error s₁.diagnostics
  addrOf : ∀ fuel id span inner (s s₁ : CheckState),
    Runs (checkExpr fuel inner) s .error s₁ →
    Yields (inferExpr (fuel + 1) ⟨id, span, .addrOf inner⟩) s .error s₁.diagnostics
  unary : ∀ fuel id span op operand (s s₁ : CheckState),
    Runs (checkValue fuel operand) s .error s₁ →
    Yields (inferExpr (fuel + 1) ⟨id, span, .unary op operand⟩) s .error s₁.diagnostics
  not : ∀ fuel id span operand ty (s s₁ : CheckState),
    Runs (checkCondition fuel operand) s ty s₁ →
    Yields (inferExpr (fuel + 1) ⟨id, span, .not operand⟩) s .int16 s₁.diagnostics
  binary : ∀ fuel id span op l r lt rt (s s₁ s₂ : CheckState),
    Runs (checkValue fuel l) s lt s₁ → Runs (checkValue fuel r) s₁ rt s₂ →
    lt = .error ∨ rt = .error →
    Yields (inferExpr (fuel + 1) ⟨id, span, .binary op l r⟩) s .error s₂.diagnostics
  logical : ∀ fuel id span (op : CondOp) l r lt rt (s s₁ s₂ : CheckState), op.isLogical = true →
    Runs (checkCondition fuel l) s lt s₁ → Runs (checkCondition fuel r) s₁ rt s₂ →
    Yields (inferExpr (fuel + 1) ⟨id, span, .cond op l r⟩) s .int16 s₂.diagnostics
  compare : ∀ fuel id span (op : CondOp) l r lt rt (s s₁ s₂ : CheckState),
    op.isLogical = false → Runs (checkValue fuel l) s lt s₁ → Runs (checkValue fuel r) s₁ rt s₂ →
    lt = .error ∨ rt = .error →
    Yields (inferExpr (fuel + 1) ⟨id, span, .cond op l r⟩) s .int16 s₂.diagnostics
  ternary : ∀ fuel id span c t e ct tt et (s s₁ s₂ s₃ : CheckState),
    Runs (checkCondition fuel c) s ct s₁ → Runs (checkValue fuel t) s₁ tt s₂ →
    Runs (checkValue fuel e) s₂ et s₃ → tt = .error ∨ et = .error →
    Yields (inferExpr (fuel + 1) ⟨id, span, .ternary c t e⟩) s .error s₃.diagnostics
  assign : ∀ fuel id span op target value valueTy (s s₁ s₂ : CheckState),
    Runs (checkExpr fuel target) s .error s₁ → Runs (checkValue fuel value) s₁ valueTy s₂ →
    Yields (inferExpr (fuel + 1) ⟨id, span, .assign op target value⟩) s .error s₂.diagnostics
  comma : ∀ fuel id span es ty (s s₁ : CheckState),
    Runs (checkSequence fuel .void es) s ty s₁ →
    Runs (inferExpr (fuel + 1) ⟨id, span, .comma es⟩) s ty s₁
  assignable : ∀ expected span context (s : CheckState),
    Runs (checkAssignable .error expected span context) s true s
  condition : ∀ fuel e (s s₁ : CheckState),
    Runs (checkValue fuel e) s .error s₁ → Runs (checkCondition (fuel + 1) e) s .error s₁
  returnValue : ∀ v span (s s₁ : CheckState),
    Runs (typeOfExpr v) s .error s₁ → Runs (checkReturn (some v) span) s () s₁
  returnNothing : ∀ span (s : CheckState),
    s.returnType.getD .error = .error → Runs (checkReturn none span) s () s
  varConstant : ∀ d v needsConstant (s : CheckState),
    s.exprTypes.getD v.id .error = .error → Runs (constantInitCheck d v needsConstant) s () s
  constConstant : ∀ d value ty, Quiet (constValue d value .error ty)

/-- **The error type does not cascade**: every rule of `NoCascade` holds. -/
theorem errors_do_not_cascade : NoCascade where
  sizeofExpr _ _ _ _ _ _ h := inferExpr_sizeof_error h
  call _ _ _ _ _ _ _ _ _ hf hargs := inferExpr_call_error hf hargs
  index _ _ _ _ _ _ _ _ _ ha hi := inferExpr_index_error ha hi
  access _ _ _ _ _ _ _ _ hr := inferExpr_access_error hr
  cast _ _ _ _ _ _ _ _ _ _ hi ht hv := inferExpr_cast_error hi ht hv
  deref _ _ _ _ _ _ hi := inferExpr_deref_error hi
  addrOf _ _ _ _ _ _ hi := inferExpr_addrOf_error hi
  unary _ _ _ _ _ _ _ ho := inferExpr_unary_error ho
  not _ _ _ _ _ _ _ ho := inferExpr_not ho
  binary _ _ _ _ _ _ _ _ _ _ _ hl hr h := inferExpr_binary_error hl hr h
  logical _ _ _ _ _ _ _ _ _ _ _ hop hl hr := inferExpr_logical hop hl hr
  compare _ _ _ _ _ _ _ _ _ _ _ hop hl hr h := inferExpr_compare_error hop hl hr h
  ternary _ _ _ _ _ _ _ _ _ _ _ _ _ hc ht he h := inferExpr_ternary_error hc ht he h
  assign _ _ _ _ _ _ _ _ _ _ ht hv := inferExpr_assign_error ht hv
  comma _ _ _ _ _ _ _ h := inferExpr_comma h
  assignable := checkAssignable_error
  condition _ _ _ _ h := checkCondition_error h
  returnValue _ span _ _ h := checkReturn_error span h
  returnNothing span _ h := checkReturn_none_error span h
  varConstant d v needsConstant _ h := constantInitCheck_error d v needsConstant h
  constConstant := constValue_error

end Check

end SolarFront
