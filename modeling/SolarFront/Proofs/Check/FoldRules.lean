import SolarFront.Proofs.Check.FoldFrame

/-!
# The typing rules fold within their widths

Every value the rules fold is cut to a width: the folders truncate, a comparison or a logical
operator yields zero or one, `sizeof` cuts the size to 16 bits, and a cast converts to the width
of its target. Each rule that folds records the value at the width of the type it yields, so the
value fits that type; a name of a constant takes the constant's value with its type, and a
conditional takes the value of one branch, whose type its own type covers.

The rules that fold nothing, the pool operations and the layout engine change nothing folding
reads (`_view` lemmas). Together with the triples of `Check.Rules` they give the `_folds`
triples that the typing functions are proved with.
-/

set_option autoImplicit false
set_option linter.all false
set_option mvcgen.warning false

namespace SolarFront

namespace Width

theorem one_lt_modulus (w : Width) : 1 < w.modulus := by
  cases w <;> decide

theorem modulus_le_max_left (a b : Width) : a.modulus ≤ (a.max b).modulus := by
  unfold max modulus
  split
  · exact Nat.pow_le_pow_right (by decide) ‹_›
  · exact Nat.le_refl _

theorem modulus_le_max_right (a b : Width) : b.modulus ≤ (a.max b).modulus := by
  unfold max modulus
  split
  · exact Nat.le_refl _
  · exact Nat.pow_le_pow_right (by decide) (by omega)

theorem ofSigned_lt (w : Width) (x : Int) : w.ofSigned x < w.modulus := by
  have hpos : (0 : Int) < w.modulus := by exact_mod_cast w.modulus_pos
  have hlo := Int.emod_nonneg x (Int.ne_of_gt hpos)
  have hhi := Int.emod_lt_of_pos x hpos
  unfold ofSigned
  omega

theorem foldUnary_lt (w : Width) (op : UnaryOp) (v : Nat) : w.foldUnary op v < w.modulus := by
  cases op <;> exact truncate_lt _ _

theorem foldNot_lt (w : Width) (v : Nat) : foldNot v < w.modulus := by
  have := w.one_lt_modulus
  unfold foldNot
  split <;> omega

/-- A condition folds to zero or one, which fits every width. -/
theorem foldCond_lt (w : Width) (op : CondOp) (l r : Nat) (w' : Width) :
    w.foldCond op l r < w'.modulus := by
  have hle : ∀ b : Bool, (if b = true then 1 else 0) ≤ 1 := fun b => by cases b <;> simp
  exact Nat.lt_of_le_of_lt (hle _) w'.one_lt_modulus

/-- Every arithmetic result is cut to the width. -/
theorem foldBinary_lt {w : Width} {op : BinaryOp} {l r v : Nat}
    (h : w.foldBinary op l r = some v) : v < w.modulus := by
  have hpos := w.modulus_pos
  -- each operator yields a cut value, a signed value read back at the width, zero, or nothing
  cases op <;> simp only [foldBinary] at h <;> (try split_ifs at h) <;>
    simp only [Option.some.injEq] at h <;> subst h <;> simp [ofSigned_lt, hpos]

end Width

/-- A conversion yields a value of the target width. -/
theorem convertWord_lt (v : Nat) (source target : Width) (signed : Bool) :
    convertWord v source target signed < target.modulus := by
  unfold convertWord
  split
  · exact target.ofSigned_lt _
  · exact target.truncate_lt _

/-- A literal no larger than the largest value of its width is below the width's modulus. -/
theorem LitWidth.lt_of_le_maxValue {w : LitWidth} {v : Nat} (h : v ≤ w.maxValue) :
    v < Nat.pow 2 w.bits := by
  have : 0 < Nat.pow 2 w.bits := Nat.pow_pos (by decide)
  unfold maxValue at h
  omega

end SolarFront

namespace SolarFront

namespace Check

open Std.Do CheckM CheckState TypePool

/-- Two triples of one action give the triple of their conjunctions. -/
theorem triple_and {α : Type} {x : CheckM α} {P₁ P₂ : CheckState → Prop}
    {Q₁ Q₂ : α → CheckState → Prop}
    (h₁ : ⦃fun s => ⌜P₁ s⌝⦄ x ⦃⇓ r s => ⌜Q₁ r s⌝⦄) (h₂ : ⦃fun s => ⌜P₂ s⌝⦄ x ⦃⇓ r s => ⌜Q₂ r s⌝⦄) :
    ⦃fun s => ⌜P₁ s ∧ P₂ s⌝⦄ x ⦃⇓ r s => ⌜Q₁ r s ∧ Q₂ r s⌝⦄ := by
  have h := Triple.and x h₁ h₂
  exact Triple.entails_wp_of_pre_post h (fun s hs => ⟨hs.1, hs.2⟩) (by constructor <;> simp)

/-! ## Steps that change nothing folding reads -/

section View

variable (t : CheckState)

theorem report_view (d : Diagnostic) :
    ⦃fun s => ⌜s.foldView = t.foldView⌝⦄ report d ⦃⇓ _ s => ⌜s.foldView = t.foldView⌝⦄ := by
  mvcgen [report, -report_spec]

theorem fail_view (code : Code) (span : Span) (message : String) :
    ⦃fun s => ⌜s.foldView = t.foldView⌝⦄ fail code span message
    ⦃⇓ _ s => ⌜s.foldView = t.foldView⌝⦄ := by
  mvcgen [fail, report_view, -fail_spec, -report_spec]

theorem withPool_view (f : TypePool → TypePool × TypeId) :
    ⦃fun s => ⌜s.foldView = t.foldView⌝⦄ withPool f ⦃⇓ _ s => ⌜s.foldView = t.foldView⌝⦄ := by
  mvcgen [withPool]

theorem pointer_view (e : TypeId) :
    ⦃fun s => ⌜s.foldView = t.foldView⌝⦄ pointer e ⦃⇓ _ s => ⌜s.foldView = t.foldView⌝⦄ := by
  mvcgen [CheckM.pointer, withPool_view, -pointer_spec]

theorem array_view (e : TypeId) (len : Nat) :
    ⦃fun s => ⌜s.foldView = t.foldView⌝⦄ array e len ⦃⇓ _ s => ⌜s.foldView = t.foldView⌝⦄ := by
  mvcgen [CheckM.array, withPool_view, -array_spec]

theorem func_view (ret : TypeId) (params : List TypeId) (variadic : Bool) :
    ⦃fun s => ⌜s.foldView = t.foldView⌝⦄ func ret params variadic
    ⦃⇓ _ s => ⌜s.foldView = t.foldView⌝⦄ := by
  mvcgen [CheckM.func, withPool_view, -func_spec]

theorem decay_view (ty : TypeId) :
    ⦃fun s => ⌜s.foldView = t.foldView⌝⦄ decay ty ⦃⇓ _ s => ⌜s.foldView = t.foldView⌝⦄ := by
  mvcgen [CheckM.decay, withPool_view, -CheckM.decay_spec]

theorem setTypeNode_view (i : Nat) (ty : TypeId) :
    ⦃fun s => ⌜s.foldView = t.foldView⌝⦄ setTypeNode i ty ⦃⇓ _ s => ⌜s.foldView = t.foldView⌝⦄ := by
  mvcgen [setTypeNode, -setTypeNode_spec]

theorem setDeclType_view (i : Nat) (ty : TypeId) :
    ⦃fun s => ⌜s.foldView = t.foldView⌝⦄ setDeclType i ty ⦃⇓ _ s => ⌜s.foldView = t.foldView⌝⦄ := by
  mvcgen [setDeclType, -setDeclType_spec]

theorem bind_view (i sym : Nat) :
    ⦃fun s => ⌜s.foldView = t.foldView⌝⦄ bind i sym ⦃⇓ _ s => ⌜s.foldView = t.foldView⌝⦄ := by
  mvcgen [CheckM.bind, -bind_spec]

theorem setLayout_view (rid : Nat) (st : LayoutState) :
    ⦃fun s => ⌜s.foldView = t.foldView⌝⦄ setLayout rid st ⦃⇓ _ s => ⌜s.foldView = t.foldView⌝⦄ := by
  mvcgen [setLayout]

theorem widenRight_view (right : Expr) (lt rt : TypeId) :
    ⦃fun s => ⌜s.foldView = t.foldView⌝⦄ widenRight right lt rt
    ⦃⇓ _ s => ⌜s.foldView = t.foldView⌝⦄ := by
  mvcgen [widenRight, decay_view, -widenRight_spec, -CheckM.decay_spec]
  all_goals grind [foldView]

theorem checkAssignable_view (found expected : TypeId) (span : Span) (context : String) :
    ⦃fun s => ⌜s.foldView = t.foldView⌝⦄ checkAssignable found expected span context
    ⦃⇓ _ s => ⌜s.foldView = t.foldView⌝⦄ := by
  mvcgen [checkAssignable, fail_view, report_view, -checkAssignable_spec, -fail_spec,
    -report_spec]
  all_goals grind [foldView]

theorem checkCast_view (source target : TypeId) (signed : Bool) (span : Span) :
    ⦃fun s => ⌜s.foldView = t.foldView⌝⦄ checkCast source target signed span
    ⦃⇓ _ s => ⌜s.foldView = t.foldView⌝⦄ := by
  mvcgen [checkCast, fail_view, report_view, -checkCast_spec, -fail_spec, -report_spec]
  all_goals grind [foldView]

theorem arithResult_view (op : BinaryOp) (lt rt : TypeId) (right : Expr) (span : Span) :
    ⦃fun s => ⌜s.foldView = t.foldView⌝⦄ arithResult op lt rt right span
    ⦃⇓ _ s => ⌜s.foldView = t.foldView⌝⦄ := by
  mvcgen [arithResult, widenRight_view, report_view, -arithResult_spec, -widenRight_spec,
    -report_spec]
  all_goals grind [foldView]

theorem indexResult_view (array index : Expr) (base indexTy : TypeId) :
    ⦃fun s => ⌜s.foldView = t.foldView⌝⦄ indexResult array index base indexTy
    ⦃⇓ _ s => ⌜s.foldView = t.foldView⌝⦄ := by
  mvcgen [indexResult, fail_view, -indexResult_spec, -fail_spec]
  all_goals grind [foldView]

theorem accessResult_view (ty : TypeId) (member : String) (memberSpan : Span) :
    ⦃fun s => ⌜s.foldView = t.foldView⌝⦄ accessResult ty member memberSpan
    ⦃⇓ _ s => ⌜s.foldView = t.foldView⌝⦄ := by
  mvcgen [accessResult, fail_view, -accessResult_spec, -fail_spec]
  all_goals grind [foldView]

theorem derefResult_view (inner : Expr) (ty : TypeId) :
    ⦃fun s => ⌜s.foldView = t.foldView⌝⦄ derefResult inner ty
    ⦃⇓ _ s => ⌜s.foldView = t.foldView⌝⦄ := by
  mvcgen [derefResult, fail_view, -derefResult_spec, -fail_spec]
  all_goals grind [foldView]

theorem addrOfResult_view (inner : Expr) (ty : TypeId) :
    ⦃fun s => ⌜s.foldView = t.foldView⌝⦄ addrOfResult inner ty
    ⦃⇓ _ s => ⌜s.foldView = t.foldView⌝⦄ := by
  mvcgen [addrOfResult, fail_view, pointer_view, -addrOfResult_spec, -fail_spec, -pointer_spec]
  all_goals grind [foldView]

theorem assignResult_view (op : Option BinaryOp) (target value : Expr)
    (targetTy valueTy : TypeId) (span : Span) :
    ⦃fun s => ⌜s.foldView = t.foldView⌝⦄ assignResult op target value targetTy valueTy span
    ⦃⇓ _ s => ⌜s.foldView = t.foldView⌝⦄ := by
  mvcgen [assignResult, fail_view, arithResult_view, checkAssignable_view, -assignResult_spec,
    -fail_spec, -arithResult_spec, -checkAssignable_spec]
  all_goals grind [foldView]

theorem callResult_view (func : Expr) (args : List Expr) (callee : TypeId)
    (argTypes : List TypeId) :
    ⦃fun s => ⌜s.foldView = t.foldView⌝⦄ callResult func args callee argTypes
    ⦃⇓ _ s => ⌜s.foldView = t.foldView⌝⦄ := by
  mvcgen [callResult, fail_view, checkAssignable_view, -callResult_spec, -fail_spec,
    -checkAssignable_spec] invariants
  · ⇓ _ s => ⌜s.foldView = t.foldView⌝
  · ⇓ _ s => ⌜s.foldView = t.foldView⌝
  all_goals grind [foldView]

theorem checkBitfield_view (name : String) (ty : TypeId) (bits : Nat) (span : Span) :
    ⦃fun s => ⌜s.foldView = t.foldView⌝⦄ checkBitfield name ty bits span
    ⦃⇓ _ s => ⌜s.foldView = t.foldView⌝⦄ := by
  mvcgen [checkBitfield, fail_view, -checkBitfield_spec, -fail_spec]
  all_goals grind [foldView]

theorem memberResult_view (seen : List (String × Span)) (m : MemberDecl) (ty : TypeId) :
    ⦃fun s => ⌜s.foldView = t.foldView⌝⦄ memberResult seen m ty
    ⦃⇓ _ s => ⌜s.foldView = t.foldView⌝⦄ := by
  mvcgen [memberResult, report_view, fail_view, checkBitfield_view, -memberResult_spec,
    -report_spec, -fail_spec, -checkBitfield_spec]
  all_goals grind [foldView]

theorem paramType_view (param : TypeExpr) (ty : TypeId) :
    ⦃fun s => ⌜s.foldView = t.foldView⌝⦄ paramType param ty
    ⦃⇓ _ s => ⌜s.foldView = t.foldView⌝⦄ := by
  mvcgen [paramType, fail_view, -paramType_spec, -fail_spec]
  all_goals grind [foldView]

theorem sizedArrayResult_view (elem : TypeId) (size : Expr) (sizeTy : TypeId) :
    ⦃fun s => ⌜s.foldView = t.foldView⌝⦄ sizedArrayResult elem size sizeTy
    ⦃⇓ _ s => ⌜s.foldView = t.foldView⌝⦄ := by
  mvcgen [sizedArrayResult, fail_view, array_view, -sizedArrayResult_spec, -fail_spec,
    -array_spec]
  all_goals grind [foldView]

theorem closeRecord_view (rid : Nat) (ms : List Member) :
    ⦃fun s => ⌜s.foldView = t.foldView⌝⦄ closeRecord rid ms
    ⦃⇓ _ s => ⌜s.foldView = t.foldView⌝⦄ := by
  mvcgen [closeRecord, setLayout_view, -closeRecord_spec]

theorem stringInitResult_view (found ty : TypeId) (span : Span) :
    ⦃fun s => ⌜s.foldView = t.foldView⌝⦄ stringInitResult found ty span
    ⦃⇓ _ s => ⌜s.foldView = t.foldView⌝⦄ := by
  mvcgen [stringInitResult, fail_view, checkAssignable_view, -stringInitResult_spec, -fail_spec,
    -checkAssignable_spec]
  all_goals grind [foldView]

theorem arrayInitResult_view (elements : List Expr) (elem : TypeId) (len : Option Nat)
    (ty : TypeId) (span : Span) :
    ⦃fun s => ⌜s.foldView = t.foldView⌝⦄ arrayInitResult elements elem len ty span
    ⦃⇓ _ s => ⌜s.foldView = t.foldView⌝⦄ := by
  mvcgen [arrayInitResult, report_view, array_view, -arrayInitResult_spec, -report_spec,
    -array_spec]
  all_goals grind [foldView]

/-- The layout engine changes nothing folding reads, at any fuel: it sets layouts of records
and reports records that contain themselves. -/
theorem layout_view (fuel : Nat) :
    (∀ (rid : Nat) (t : CheckState), ⦃fun s => ⌜s.foldView = t.foldView⌝⦄ ensureLayout fuel rid
      ⦃⇓ _ s => ⌜s.foldView = t.foldView⌝⦄) ∧
    (∀ (ty : TypeId) (t : CheckState), ⦃fun s => ⌜s.foldView = t.foldView⌝⦄ sizeAlignOf fuel ty
      ⦃⇓ _ s => ⌜s.foldView = t.foldView⌝⦄) ∧
    (∀ (ms : List Member) (t : CheckState), ⦃fun s => ⌜s.foldView = t.foldView⌝⦄
      shapeMembers fuel ms ⦃⇓ _ s => ⌜s.foldView = t.foldView⌝⦄) := by
  induction fuel with
  | zero =>
    refine ⟨fun _ _ => ?_, fun _ _ => ?_, fun _ _ => ?_⟩ <;>
      mvcgen [ensureLayout, sizeAlignOf, shapeMembers]
  | succ n ih =>
    obtain ⟨hensure, hsize, hshape⟩ := ih
    refine ⟨fun rid t => ?_, fun ty t => ?_, fun ms t => ?_⟩
    · mvcgen [ensureLayout, hshape, report_view, setLayout_view, -report_spec]
      all_goals grind [foldView]
    · mvcgen [sizeAlignOf, hensure, hsize]
      all_goals grind [foldView]
    · cases ms with
      | nil => mvcgen [shapeMembers]
      | cons m ms =>
        mvcgen [shapeMembers, hsize, hshape]
        all_goals grind [foldView]

theorem sizeAlign_view (ty : TypeId) :
    ⦃fun s => ⌜s.foldView = t.foldView⌝⦄ sizeAlign ty ⦃⇓ _ s => ⌜s.foldView = t.foldView⌝⦄ := by
  have hsize := fun fuel => (layout_view fuel).2.1 ty t
  mvcgen [sizeAlign, hsize, -sizeAlign_spec]

theorem layoutAll_view :
    ⦃fun s => ⌜s.foldView = t.foldView⌝⦄ layoutAll ⦃⇓ _ s => ⌜s.foldView = t.foldView⌝⦄ := by
  have hensure := fun fuel rid => (layout_view fuel).1 rid t
  mvcgen [layoutAll, hensure, -layoutAll_spec] invariants
  · ⇓ _ s => ⌜s.foldView = t.foldView⌝

end View

/-! ## Steps that fold nothing

The triple of each such step from `Check.Rules`, with what folding reads kept. -/

/-- A triple of a step that changes nothing folding reads, with that added. -/
theorem kept_of_view {α : Type} {x : CheckM α} {P : CheckState → Prop}
    {Q : α → CheckState → Prop} {t : CheckState} (h : ⦃fun s => ⌜P s⌝⦄ x ⦃⇓ r s => ⌜Q r s⌝⦄)
    (hv : ∀ u : CheckState,
      ⦃fun s => ⌜s.foldView = u.foldView⌝⦄ x ⦃⇓ _ s => ⌜s.foldView = u.foldView⌝⦄) :
    ⦃fun s => ⌜P s ∧ t.Kept s⌝⦄ x ⦃⇓ r s => ⌜Q r s ∧ t.Kept s⌝⦄ :=
  Triple.entails_wp_of_pre_post (Triple.and x h (hv t)) (fun _ hs => ⟨hs.1, hs.2.view⟩)
    (by constructor <;> simp; exact fun _ _ hq hv => ⟨hq, ⟨hv⟩⟩)

section Kept

variable (t : CheckState)

theorem report_folds (d : Diagnostic) :
    ⦃fun s => ⌜(t.Grows s ∧ s.Sound ∧ d.code.isStatementError = false) ∧ t.Kept s⌝⦄ report d
    ⦃⇓ _ s => ⌜(s.Sound ∧ t.Grows s) ∧ t.Kept s⌝⦄ :=
  kept_of_view (report_spec t d) (report_view · d)

theorem fail_folds (code : Code) (span : Span) (message : String) :
    ⦃fun s => ⌜(t.Grows s ∧ s.Sound ∧ code.isStatementError = false) ∧ t.Kept s⌝⦄ fail code span message
    ⦃⇓ _ s => ⌜(s.Sound ∧ t.Grows s) ∧ t.Kept s⌝⦄ :=
  kept_of_view (fail_spec t code span message) (fail_view · code span message)

theorem bind_folds (i sym : Nat) :
    ⦃fun s => ⌜(t.Grows s ∧ s.Sound) ∧ t.Kept s⌝⦄ bind i sym
    ⦃⇓ _ s => ⌜(s.Sound ∧ t.Grows s) ∧ t.Kept s⌝⦄ :=
  kept_of_view (CheckM.bind_spec t i sym) (bind_view · i sym)

theorem array_folds (e : TypeId) (len : Nat) :
    ⦃fun s => ⌜(t.Grows s ∧ s.Sound ∧ s.pool.Has e) ∧ t.Kept s⌝⦄ array e len
    ⦃⇓ r s => ⌜(s.Sound ∧ t.Grows s ∧ s.pool.Has r) ∧ t.Kept s⌝⦄ :=
  kept_of_view (CheckM.array_spec t e len) (array_view · e len)

theorem func_folds (ret : TypeId) (params : List TypeId) (variadic : Bool) :
    ⦃fun s => ⌜(t.Grows s ∧ s.Sound ∧ s.pool.Has ret ∧ ∀ q ∈ params, s.pool.Has q) ∧ t.Kept s⌝⦄ func ret params variadic
    ⦃⇓ r s => ⌜(s.Sound ∧ t.Grows s ∧ s.pool.Has r) ∧ t.Kept s⌝⦄ :=
  kept_of_view (CheckM.func_spec t ret params variadic) (func_view · ret params variadic)

theorem setTypeNode_folds (i : Nat) (ty : TypeId) :
    ⦃fun s => ⌜(t.Grows s ∧ s.Sound) ∧ t.Kept s⌝⦄ setTypeNode i ty
    ⦃⇓ _ s => ⌜(s.Sound ∧ t.Grows s) ∧ t.Kept s⌝⦄ :=
  kept_of_view (setTypeNode_spec t i ty) (setTypeNode_view · i ty)

theorem setDeclType_folds (i : Nat) (ty : TypeId) :
    ⦃fun s => ⌜(t.Grows s ∧ s.Sound) ∧ t.Kept s⌝⦄ setDeclType i ty
    ⦃⇓ _ s => ⌜(s.Sound ∧ t.Grows s) ∧ t.Kept s⌝⦄ :=
  kept_of_view (setDeclType_spec t i ty) (setDeclType_view · i ty)

theorem widenRight_folds (right : Expr) (lt rt : TypeId) :
    ⦃fun s => ⌜(t.Grows s ∧ s.Sound ∧ s.pool.Has lt ∧ s.pool.Has rt) ∧ t.Kept s⌝⦄ widenRight right lt rt
    ⦃⇓ r s => ⌜(s.Sound ∧ t.Grows s ∧ s.pool.Has r) ∧ t.Kept s⌝⦄ :=
  kept_of_view (widenRight_spec t right lt rt) (widenRight_view · right lt rt)

theorem checkAssignable_folds (found expected : TypeId) (span : Span) (context : String) :
    ⦃fun s => ⌜(t.Grows s ∧ s.Sound) ∧ t.Kept s⌝⦄ checkAssignable found expected span context
    ⦃⇓ _ s => ⌜(s.Sound ∧ t.Grows s) ∧ t.Kept s⌝⦄ :=
  kept_of_view (checkAssignable_spec t found expected span context) (checkAssignable_view · found expected span context)

theorem checkCast_folds (source target : TypeId) (signed : Bool) (span : Span) :
    ⦃fun s => ⌜(t.Grows s ∧ s.Sound) ∧ t.Kept s⌝⦄ checkCast source target signed span
    ⦃⇓ _ s => ⌜(s.Sound ∧ t.Grows s) ∧ t.Kept s⌝⦄ :=
  kept_of_view (checkCast_spec t source target signed span) (checkCast_view · source target signed span)

theorem arithResult_folds (op : BinaryOp) (lt rt : TypeId) (right : Expr) (span : Span) :
    ⦃fun s => ⌜(t.Grows s ∧ s.Sound ∧ s.pool.Has lt ∧ s.pool.Has rt) ∧ t.Kept s⌝⦄ arithResult op lt rt right span
    ⦃⇓ r s => ⌜(s.Sound ∧ t.Grows s ∧ s.pool.Has r) ∧ t.Kept s⌝⦄ :=
  kept_of_view (arithResult_spec t op lt rt right span) (arithResult_view · op lt rt right span)

theorem indexResult_folds (array index : Expr) (base indexTy : TypeId) :
    ⦃fun s => ⌜(t.Grows s ∧ s.Sound) ∧ t.Kept s⌝⦄ indexResult array index base indexTy
    ⦃⇓ r s => ⌜(s.Sound ∧ t.Grows s ∧ s.pool.Has r) ∧ t.Kept s⌝⦄ :=
  kept_of_view (indexResult_spec t array index base indexTy) (indexResult_view · array index base indexTy)

theorem accessResult_folds (ty : TypeId) (member : String) (memberSpan : Span) :
    ⦃fun s => ⌜(t.Grows s ∧ s.Sound) ∧ t.Kept s⌝⦄ accessResult ty member memberSpan
    ⦃⇓ r s => ⌜(s.Sound ∧ t.Grows s ∧ s.pool.Has r) ∧ t.Kept s⌝⦄ :=
  kept_of_view (accessResult_spec t ty member memberSpan) (accessResult_view · ty member memberSpan)

theorem derefResult_folds (inner : Expr) (ty : TypeId) :
    ⦃fun s => ⌜(t.Grows s ∧ s.Sound) ∧ t.Kept s⌝⦄ derefResult inner ty
    ⦃⇓ r s => ⌜(s.Sound ∧ t.Grows s ∧ s.pool.Has r) ∧ t.Kept s⌝⦄ :=
  kept_of_view (derefResult_spec t inner ty) (derefResult_view · inner ty)

theorem addrOfResult_folds (inner : Expr) (ty : TypeId) :
    ⦃fun s => ⌜(t.Grows s ∧ s.Sound ∧ s.pool.Has ty) ∧ t.Kept s⌝⦄ addrOfResult inner ty
    ⦃⇓ r s => ⌜(s.Sound ∧ t.Grows s ∧ s.pool.Has r) ∧ t.Kept s⌝⦄ :=
  kept_of_view (addrOfResult_spec t inner ty) (addrOfResult_view · inner ty)

theorem assignResult_folds (op : Option BinaryOp) (target value : Expr) (targetTy valueTy : TypeId)
    (span : Span) :
    ⦃fun s => ⌜(t.Grows s ∧ s.Sound ∧ s.pool.Has targetTy ∧ s.pool.Has valueTy) ∧ t.Kept s⌝⦄ assignResult op target value targetTy valueTy span
    ⦃⇓ r s => ⌜(s.Sound ∧ t.Grows s ∧ s.pool.Has r) ∧ t.Kept s⌝⦄ :=
  kept_of_view (assignResult_spec t op target value targetTy valueTy span) (assignResult_view · op target value targetTy valueTy span)

theorem callResult_folds (func : Expr) (args : List Expr) (callee : TypeId) (argTypes : List TypeId) :
    ⦃fun s => ⌜(t.Grows s ∧ s.Sound) ∧ t.Kept s⌝⦄ callResult func args callee argTypes
    ⦃⇓ r s => ⌜(s.Sound ∧ t.Grows s ∧ s.pool.Has r) ∧ t.Kept s⌝⦄ :=
  kept_of_view (callResult_spec t func args callee argTypes) (callResult_view · func args callee argTypes)

theorem memberResult_folds (seen : List (String × Span)) (m : MemberDecl) (ty : TypeId) :
    ⦃fun s => ⌜(t.Grows s ∧ s.Sound ∧ s.pool.Has ty) ∧ t.Kept s⌝⦄ memberResult seen m ty
    ⦃⇓ r s => ⌜(s.Sound ∧ t.Grows s ∧ ∀ member ∈ r.1, s.pool.Has member.ty) ∧ t.Kept s⌝⦄ :=
  kept_of_view (memberResult_spec t seen m ty) (memberResult_view · seen m ty)

theorem paramType_folds (param : TypeExpr) (ty : TypeId) :
    ⦃fun s => ⌜(t.Grows s ∧ s.Sound ∧ s.pool.Has ty) ∧ t.Kept s⌝⦄ paramType param ty
    ⦃⇓ r s => ⌜(s.Sound ∧ t.Grows s ∧ s.pool.Has r) ∧ t.Kept s⌝⦄ :=
  kept_of_view (paramType_spec t param ty) (paramType_view · param ty)

theorem sizedArrayResult_folds (elem : TypeId) (size : Expr) (sizeTy : TypeId) :
    ⦃fun s => ⌜(t.Grows s ∧ s.Sound ∧ s.pool.Has elem) ∧ t.Kept s⌝⦄ sizedArrayResult elem size sizeTy
    ⦃⇓ r s => ⌜(s.Sound ∧ t.Grows s ∧ s.pool.Has r) ∧ t.Kept s⌝⦄ :=
  kept_of_view (sizedArrayResult_spec t elem size sizeTy) (sizedArrayResult_view · elem size sizeTy)

theorem stringInitResult_folds (found ty : TypeId) (span : Span) :
    ⦃fun s => ⌜(t.Grows s ∧ s.Sound ∧ s.pool.Has found ∧ s.pool.Has ty) ∧ t.Kept s⌝⦄ stringInitResult found ty span
    ⦃⇓ r s => ⌜(s.Sound ∧ t.Grows s ∧ s.pool.Has r) ∧ t.Kept s⌝⦄ :=
  kept_of_view (stringInitResult_spec t found ty span) (stringInitResult_view · found ty span)

theorem arrayInitResult_folds (elements : List Expr) (elem : TypeId) (len : Option Nat) (ty : TypeId)
    (span : Span) :
    ⦃fun s => ⌜(t.Grows s ∧ s.Sound ∧ s.pool.Has elem ∧ s.pool.Has ty) ∧ t.Kept s⌝⦄ arrayInitResult elements elem len ty span
    ⦃⇓ r s => ⌜(s.Sound ∧ t.Grows s ∧ s.pool.Has r) ∧ t.Kept s⌝⦄ :=
  kept_of_view (arrayInitResult_spec t elements elem len ty span) (arrayInitResult_view · elements elem len ty span)

theorem sizeAlign_folds (ty : TypeId) :
    ⦃fun s => ⌜(t.Grows s ∧ s.Sound ∧ s.pool.Has ty) ∧ t.Kept s⌝⦄ sizeAlign ty
    ⦃⇓ r s => ⌜(s.Sound ∧ t.Grows s ∧ r = s.pool.sizeAlign ty ∧ s.pool.Settled ty) ∧ t.Kept s⌝⦄ :=
  kept_of_view (sizeAlign_spec t ty) (sizeAlign_view · ty)

theorem closeRecord_folds (rid : Nat) (ms : List Member) :
    ⦃fun s => ⌜(s = t ∧ s.Sound ∧ rid < s.pool.records.size ∧ (s.pool.record rid).members = [] ∧
      ¬ s.pool.LaidOut rid ∧ ∀ m ∈ ms, s.pool.Has m.ty) ∧ t.Kept s⌝⦄
    closeRecord rid ms
    ⦃⇓ _ s => ⌜(s.Sound ∧ s.diagnostics = t.diagnostics ∧ s.pool.types = t.pool.types ∧
      s.labels = t.labels ∧ s.jumpTargets = t.jumpTargets ∧ s.broken = t.broken ∧
      ∀ p : TypePool, p.records.size ≤ rid → p.Extends t.pool → p.Extends s.pool) ∧
      t.Kept s⌝⦄ :=
  kept_of_view (closeRecord_spec t rid ms) (closeRecord_view · rid ms)

end Kept

/-- A triple with a stronger precondition and a weaker postcondition. -/
theorem triple_mono {α : Type} {x : CheckM α} {P P' : CheckState → Prop}
    {Q Q' : α → CheckState → Prop} (h : ⦃fun s => ⌜P s⌝⦄ x ⦃⇓ r s => ⌜Q r s⌝⦄)
    (hP : ∀ s, P' s → P s) (hQ : ∀ r s, Q r s → Q' r s) :
    ⦃fun s => ⌜P' s⌝⦄ x ⦃⇓ r s => ⌜Q' r s⌝⦄ :=
  Triple.entails_wp_of_pre_post h hP (by constructor <;> simp; exact hQ)

/-- A fact about the state before a step holds after it as well. -/
theorem triple_fact {α : Type} {x : CheckM α} {P : CheckState → Prop}
    {Q : α → CheckState → Prop} {φ : Prop} (h : ⦃fun s => ⌜P s⌝⦄ x ⦃⇓ r s => ⌜Q r s⌝⦄) :
    ⦃fun s => ⌜P s ∧ φ⌝⦄ x ⦃⇓ r s => ⌜Q r s ∧ φ⌝⦄ := by
  by_cases hφ : φ
  · exact triple_mono h (fun _ hs => hs.1) (fun _ _ hq => ⟨hq, hφ⟩)
  · intro s hs
    exact absurd hs.2 hφ

/-! ## The primitive steps of folding and typing -/

section Primitives

variable (m : Module) (t : CheckState)

/-- A pool operation yields what the operation on the pool yields. -/
theorem withPool_exact (f : TypePool → TypePool × TypeId) :
    ⦃fun s => ⌜s = t⌝⦄ withPool f ⦃⇓ r s => ⌜t.Kept s ∧ f t.pool = (s.pool, r)⌝⦄ := by
  mvcgen [withPool]
  rename_i s h _
  subst h
  exact ⟨⟨rfl⟩, rfl⟩

/-- The pointer to a type is a pointer to that type. -/
theorem pointer_folds (e : TypeId) :
    ⦃fun s => ⌜s = t ∧ t.Sound ∧ t.pool.Has e⌝⦄ pointer e
    ⦃⇓ r s => ⌜s.Sound ∧ t.Grows s ∧ s.pool.Has r ∧ t.Kept s ∧ s.pool.get r = .array e none⌝⦄ := by
  refine triple_mono (triple_and (pointer_spec t e) (withPool_exact t _)) ?_ ?_
  · rintro s ⟨rfl, hs, he⟩
    exact ⟨⟨Grows.refl s, hs, he⟩, rfl⟩
  · rintro r s ⟨⟨hs, hg, hr⟩, hv, hpool⟩
    refine ⟨hs, hg, hr, hv, ?_⟩
    have := intern_get t.pool (.array e none)
    rw [show t.pool.intern (.array e none) = t.pool.pointer e from rfl, hpool] at this
    exact this

/-- Decaying a type yields what decay in the pool yields. -/
theorem decay_folds (ty : TypeId) :
    ⦃fun s => ⌜s = t ∧ t.Sound ∧ t.pool.Has ty⌝⦄ decay ty
    ⦃⇓ r s => ⌜s.Sound ∧ t.Grows s ∧ s.pool.Has r ∧ t.Kept s ∧ t.pool.decay ty = (s.pool, r)⌝⦄ := by
  refine triple_mono (triple_and (CheckM.decay_spec t ty) (withPool_exact t _)) ?_ ?_
  · rintro s ⟨rfl, hs, hty⟩
    exact ⟨⟨Grows.refl s, hs, hty⟩, rfl⟩
  · rintro r s ⟨⟨hs, hg, hr⟩, hv, hpool⟩
    exact ⟨hs, hg, hr, hv, hpool⟩

/-- Recording a folded value at a node without one changes that node's value only. -/
theorem setConst_folds (i : Nat) (v : Option Nat) :
    ⦃fun s => ⌜s = t ∧ t.Sound ∧ t.consts[i]? = none⌝⦄ setConst i v
    ⦃⇓ _ s => ⌜s.Sound ∧ t.Grows s ∧ s.pool = t.pool ∧ t.SetsConst i s ∧ s.consts[i]? = v⌝⦄ := by
  cases v with
  | none =>
    mvcgen [setConst, -setConst_spec]
    rename_i s h
    obtain ⟨rfl, hs, hnone⟩ := h
    exact ⟨hs, Grows.refl s, rfl, ⟨rfl, rfl, rfl, fun _ _ => rfl, rfl, rfl⟩, hnone⟩
  | some v =>
    mvcgen [setConst, -setConst_spec]
    rename_i s h _
    obtain ⟨rfl, hs, -⟩ := h
    refine ⟨hs.frame rfl rfl fun _ => rfl, Grows.frame rfl rfl rfl rfl rfl, rfl,
      ⟨rfl, rfl, rfl, fun j hj => ?_, rfl, rfl⟩, ?_⟩
    · show (s.consts.insert i v)[j]? = s.consts[j]?
      simp [Std.TreeMap.getElem?_insert, Ne.symm hj]
    · show (s.consts.insert i v)[i]? = some v
      simp

/-- Recording at a node without a type a type that its value fits keeps the invariant. -/
theorem setExprType_folds (i : Nat) (ty : TypeId) :
    ⦃fun s => ⌜s = t ∧ t.Sound ∧ t.Folds m ∧ t.FitsAt i ty ∧ t.Untyped i⌝⦄ setExprType i ty
    ⦃⇓ _ s => ⌜s.Sound ∧ t.Grows s ∧ s.pool = t.pool ∧ s.Folds m ∧ t.Settles s ∧
      t.SetsType i s ∧ s.exprTypes[i]? = some ty⌝⦄ := by
  mvcgen [setExprType, -setExprType_spec]
  rename_i s h _
  obtain ⟨rfl, hs, hf, hfit, hnone, hp⟩ := h
  have hget : ∀ j, j ≠ i → (s.exprTypes.insert i ty)[j]? = s.exprTypes[j]? := fun j hj => by
    simp [Std.TreeMap.getElem?_insert, Ne.symm hj]
  refine ⟨hs.frame rfl rfl fun _ => rfl, Grows.frame rfl rfl rfl rfl rfl, rfl,
    hf.setExprType hfit hp, ⟨fun _ => rfl, fun j ty' hj => ?_, rfl, rfl⟩, ⟨rfl, rfl, rfl, hget⟩, ?_⟩
  · have hji : j ≠ i := by
      rintro rfl
      rw [hnone] at hj
      cases hj
    show (s.exprTypes.insert i ty)[j]? = some ty'
    rw [hget j hji, hj]
  · show (s.exprTypes.insert i ty)[i]? = some ty
    simp

/-- Giving a type symbol a type of the pool keeps the invariant: it has no value. -/
theorem modifySymbol_folds (sym : Nat) (ty : TypeId) :
    ⦃fun s => ⌜s = t ∧ t.Sound ∧ t.pool.Has ty ∧ t.Folds m ∧
      (t.scopes.symbol sym).kind = .type⌝⦄ modifySymbol sym ({ · with ty })
    ⦃⇓ _ s => ⌜s.Sound ∧ t.Grows s ∧ s.Folds m ∧ t.Settles s ∧ s.consts = t.consts ∧
      s.exprTypes = t.exprTypes ∧ s.typeDecls = t.typeDecls⌝⦄ := by
  mvcgen [modifySymbol, -modifySymbol_spec]
  rename_i s h _
  obtain ⟨rfl, hs, hty, hf, hkind⟩ := h
  -- only the symbol changed, which keeps its kind, and has no value since it is a type's
  have hsym := s.scopes.symbol_modifySymbol sym ({ · with ty })
  refine ⟨hs.modifySymbol hty, Grows.frame rfl rfl rfl rfl rfl,
    hf.of_tables (fun _ _ h => h) rfl rfl rfl fun j => ?_, ⟨fun j => ?_, fun _ _ h => h, rfl, rfl⟩, rfl, rfl,
    rfl⟩
  · rcases hsym j with heq | ⟨rfl, heq⟩
    · exact .inl heq
    · right
      rw [heq]
      exact hf.value_eq_none (by rw [hkind]; decide)
  · rcases hsym j with heq | ⟨rfl, heq⟩ <;> rw [heq]

/-- Opening a record changes, of what folding reads, the type of the symbol it is bound to
only: a type name, which has no value. -/
theorem openRecord_frame (node : TypeExpr) (kind : RecordKind) (name : Option String)
    (binding : Option Nat) :
    ⦃fun s => ⌜s = t ∧ t.Folds m ∧ ∀ sym ∈ binding, (t.scopes.symbol sym).kind = .type⌝⦄
    openRecord node kind name binding
    ⦃⇓ _ s => ⌜s.consts = t.consts ∧ s.exprTypes = t.exprTypes ∧ s.typeDecls = t.typeDecls ∧
      t.Settles s ∧
      ∀ j, s.scopes.symbol j = t.scopes.symbol j ∨ (s.scopes.symbol j).value = none⌝⦄ := by
  mvcgen [openRecord, setLayout_spec, setTypeNode, modifySymbol, -openRecord_spec]
  · -- bound to a type name: that symbol keeps its kind, and has no value as a type's
    rename_i s h _ _ _ sym hb _ _ s' hs'
    obtain ⟨rfl, hf, hkind⟩ := h
    let f : Symbol → Symbol := ({ · with ty := (s.pool.newRecord kind name node.volatile node.span).2.2 })
    have hscopes : s'.scopes = s.scopes.modifySymbol sym f := by subst hs'; rfl
    have hsym := s.scopes.symbol_modifySymbol sym f
    subst hs'
    refine ⟨rfl, rfl, rfl, ⟨fun j => ?_, fun _ _ h => h, rfl, rfl⟩, fun j => ?_⟩
    · rw [hscopes]
      rcases hsym j with heq | ⟨rfl, heq⟩ <;> rw [heq]
    · rw [hscopes]
      rcases hsym j with heq | ⟨rfl, heq⟩
      · exact .inl heq
      · right
        rw [heq]
        exact hf.value_eq_none (by rw [hkind j hb]; decide)
  · -- anonymous: no symbol changes
    rename_i s h _ _ _ _ _ _ _ s' hs'
    obtain ⟨rfl, -, -⟩ := h
    subst hs'
    exact ⟨rfl, rfl, rfl, ⟨fun _ => rfl, fun _ _ h => h, rfl, rfl⟩, fun _ => .inl rfl⟩

/-- Opening a record keeps the invariant, and the values, types and type declarations. -/
theorem openRecord_folds (node : TypeExpr) (kind : RecordKind) (name : Option String)
    (binding : Option Nat) :
    ⦃fun s => ⌜s = t ∧ t.Sound ∧ t.Folds m ∧
      ∀ sym ∈ binding, (t.scopes.symbol sym).kind = .type⌝⦄
    openRecord node kind name binding
    ⦃⇓ r s => ⌜(s.Sound ∧ t.Grows s ∧ s.pool.Has r.2 ∧ t.pool.records.size ≤ r.1 ∧
      r.1 < s.pool.records.size ∧ (s.pool.record r.1).members = [] ∧
      (s.pool.record r.1).layout = .inProgress) ∧ s.Folds m ∧ t.Settles s ∧
      s.consts = t.consts ∧ s.exprTypes = t.exprTypes ∧ s.typeDecls = t.typeDecls⌝⦄ := by
  refine triple_mono (triple_fact (φ := t.Folds m) (triple_and
    (openRecord_spec t node kind name binding) (openRecord_frame m t node kind name binding))) ?_ ?_
  · rintro s ⟨rfl, hs, hf, hkind⟩
    exact ⟨⟨⟨Grows.refl s, hs⟩, rfl, hf, hkind⟩, hf⟩
  · rintro r s ⟨⟨hspec, hc, he, hd, hset, hsym⟩, hf⟩
    exact ⟨hspec, hf.of_tables (fun _ _ h => h.keeps hspec.2.1.pool.toKeeps) hc he hd hsym, hset,
      hc, he, hd⟩

/-- Setting the state of a type declaration changes the type declarations only. -/
theorem setTypeDeclState_folds (d : Decl) (st : TypeDeclState) :
    ⦃fun s => ⌜s = t ∧ t.Sound⌝⦄ setTypeDeclState d st
    ⦃⇓ _ s => ⌜s.Sound ∧ t.Grows s ∧ s = t.withTypeDecl d st⌝⦄ := by
  mvcgen [setTypeDeclState, -setTypeDeclState_spec]
  rename_i s h _
  obtain ⟨rfl, hs⟩ := h
  exact ⟨hs.frame rfl rfl fun _ => rfl, Grows.frame rfl rfl rfl rfl rfl, rfl⟩

end Primitives

end Check

end SolarFront

namespace SolarFront
namespace Check
open Std.Do CheckM CheckState TypePool
section Folding
variable (m : Module) (t : CheckState)
theorem nameResult_folds (id : Nat) (name : String) (span : Span) :
    ⦃fun s => ⌜s = t ∧ t.Sound ∧ t.Folds m ∧ t.FreshAt id⌝⦄ nameResult id name span
    ⦃⇓ r s => ⌜s.Sound ∧ t.Grows s ∧ s.pool.Has r ∧ s.Folds m ∧ t.SetsConst id s ∧
      s.FitsAt id r⌝⦄ := by
  mvcgen [nameResult, report_folds, bind_folds, fail_folds, setConst_folds, -nameResult_spec,
    -report_spec, -bind_spec, -fail_spec, -setConst_spec]
  all_goals grind [Grows.refl, Grows.trans, Grows.has, Grows.keeps, Kept.refl, Kept.trans, sound_iff,
    WellFormed.has_error, Kept.setsConst, SetsConst.trans, → SetsConst.kept_left,
    → SetsConst.kept_right, → Kept.folds, fitsAt_error, fitsAt_of_none, FreshAt, → Kept.freshAt,
    Folds.fitsAt_symbol, Folds.setsConst, Keeps.refl]
theorem sizeofResult_folds (id : Nat) (ty : TypeId) (span : Span) :
    ⦃fun s => ⌜s = t ∧ t.Sound ∧ t.pool.Has ty ∧ t.Folds m ∧ t.FreshAt id⌝⦄ sizeofResult id ty span
    ⦃⇓ r s => ⌜s.Sound ∧ t.Grows s ∧ s.pool.Has r ∧ s.Folds m ∧ t.SetsConst id s ∧
      s.FitsAt id r⌝⦄ := by
  mvcgen [sizeofResult, sizeAlign_folds, fail_folds, setConst_folds, -sizeofResult_spec,
    -sizeAlign_spec, -fail_spec, -setConst_spec]
  all_goals grind [Grows.refl, Grows.trans, Grows.has, Grows.keeps, Kept.refl, Kept.trans, sound_iff,
    WellFormed.has_error, WellFormed.has_int16, Kept.setsConst, SetsConst.trans,
    → SetsConst.kept_left, → SetsConst.kept_right, → Kept.folds, fitsAt_error, fitsAt_of_none,
    fitsAt_of_some, FreshAt, → Kept.freshAt, Folds.setsConst, Keeps.refl, WellFormed.foldsIn_int16, Width.truncate_lt]

theorem castResult_folds (id : Nat) (inner : Expr) (source target : TypeId) (signed : Bool)
    (span : Span) :
    ⦃fun s => ⌜s = t ∧ t.Sound ∧ t.pool.Has target ∧ t.Folds m ∧ t.FreshAt id⌝⦄
    castResult id inner source target signed span
    ⦃⇓ r s => ⌜s.Sound ∧ t.Grows s ∧ s.pool.Has r ∧ s.Folds m ∧ t.SetsConst id s ∧
      s.FitsAt id r⌝⦄ := by
  mvcgen [castResult, checkCast_folds, setConst_folds, -castResult_spec, -checkCast_spec,
    -setConst_spec]
  all_goals grind [Grows.refl, Grows.trans, Grows.has, Grows.keeps, Kept.refl, Kept.trans, sound_iff,
    WellFormed.has_error, WellFormed.has_int16, Kept.setsConst, SetsConst.trans,
    → SetsConst.kept_left, → SetsConst.kept_right, → Kept.folds, fitsAt_error, fitsAt_of_none,
    fitsAt_of_some, FreshAt, → Kept.freshAt, Folds.setsConst, Keeps.refl, foldsIn_of_valueWidth, convertWord_lt]

theorem unaryResult_folds (id : Nat) (op : UnaryOp) (operand : Expr) (ty : TypeId) (span : Span) :
    ⦃fun s => ⌜s = t ∧ t.Sound ∧ t.pool.Has ty ∧ t.Folds m ∧ t.FreshAt id⌝⦄
    unaryResult id op operand ty span
    ⦃⇓ r s => ⌜s.Sound ∧ t.Grows s ∧ s.pool.Has r ∧ s.Folds m ∧ t.SetsConst id s ∧
      s.FitsAt id r⌝⦄ := by
  mvcgen [unaryResult, fail_folds, setConst_folds, -unaryResult_spec, -fail_spec, -setConst_spec]
  all_goals grind [Grows.refl, Grows.trans, Grows.has, Grows.keeps, Kept.refl, Kept.trans, sound_iff,
    WellFormed.has_error, WellFormed.has_int16, Kept.setsConst, SetsConst.trans,
    → SetsConst.kept_left, → SetsConst.kept_right, → Kept.folds, fitsAt_error, fitsAt_of_none,
    fitsAt_of_some, FreshAt, → Kept.freshAt, Folds.setsConst, Keeps.refl, foldsIn_of_intWidth, Width.foldUnary_lt]

theorem foldArith_folds (id : Nat) (op : BinaryOp) (left right : Expr) (ty : TypeId) :
    ⦃fun s => ⌜s = t ∧ t.Sound ∧ t.Folds m ∧ t.FreshAt id⌝⦄ foldArith id op left right ty
    ⦃⇓ _ s => ⌜s.Sound ∧ t.Grows s ∧ s.Folds m ∧ t.SetsConst id s ∧ s.FitsAt id ty⌝⦄ := by
  mvcgen [foldArith, setConst_folds, -foldArith_spec, -setConst_spec]
  all_goals grind [Grows.refl, Grows.trans, Grows.has, Grows.keeps, Kept.refl, Kept.trans, sound_iff,
    WellFormed.has_error, WellFormed.has_int16, Kept.setsConst, SetsConst.trans,
    → SetsConst.kept_left, → SetsConst.kept_right, → Kept.folds, fitsAt_error, fitsAt_of_none,
    fitsAt_of_some, FreshAt, → Kept.freshAt, Folds.setsConst, Keeps.refl, FitsAt, foldsIn_of_valueWidth, Width.foldBinary_lt]

theorem condResult_folds (id : Nat) (op : CondOp) (left right : Expr) (lt rt : TypeId)
    (span : Span) :
    ⦃fun s => ⌜s = t ∧ t.Sound ∧ t.pool.Has lt ∧ t.pool.Has rt ∧ t.Folds m ∧ t.FreshAt id⌝⦄
    condResult id op left right lt rt span
    ⦃⇓ r s => ⌜s.Sound ∧ t.Grows s ∧ s.pool.Has r ∧ s.Folds m ∧ t.SetsConst id s ∧
      s.FitsAt id r⌝⦄ := by
  mvcgen [condResult, widenRight_folds, report_folds, setConst_folds, -condResult_spec,
    -widenRight_spec, -report_spec, -setConst_spec]
  all_goals grind [Grows.refl, Grows.trans, Grows.has, Grows.keeps, Kept.refl, Kept.trans, sound_iff,
    WellFormed.has_error, WellFormed.has_int16, Kept.setsConst, SetsConst.trans,
    → SetsConst.kept_left, → SetsConst.kept_right, → Kept.folds, fitsAt_error, fitsAt_of_none,
    fitsAt_of_some, FreshAt, → Kept.freshAt, Folds.setsConst, Keeps.refl, WellFormed.foldsIn_int16, Width.foldCond_lt]

/-- A conditional takes the value of the branch its condition picks; the type it yields covers
that branch's type: the wider of two integer types, the common type, or the common pointer. -/
theorem ternaryResult_folds (id : Nat) (cond thenE elseE : Expr) (thenTy elseTy : TypeId) :
    ⦃fun s => ⌜s = t ∧ t.Sound ∧ t.pool.Has thenTy ∧ t.pool.Has elseTy ∧ t.Folds m ∧
      t.FreshAt id ∧ t.FitsAt thenE.id thenTy ∧ t.FitsAt elseE.id elseTy⌝⦄
    ternaryResult id cond thenE elseE thenTy elseTy
    ⦃⇓ r s => ⌜s.Sound ∧ t.Grows s ∧ s.pool.Has r ∧ s.Folds m ∧ t.SetsConst id s ∧
      s.FitsAt id r⌝⦄ := by
  mvcgen [ternaryResult, decay_folds, report_folds, setConst_folds, -ternaryResult_spec,
    -CheckM.decay_spec, -report_spec, -setConst_spec]
  all_goals grind [Grows.refl, Grows.trans, Grows.has, Grows.keeps, Kept.refl, Kept.trans, sound_iff,
    WellFormed.has_error, Kept.setsConst, SetsConst.trans, → SetsConst.kept_left,
    → SetsConst.kept_right, → Kept.folds, fitsAt_error, fitsAt_of_none, fitsAt_of_some, FreshAt,
    → Kept.freshAt, Folds.setsConst, Keeps.refl, FitsAt, → Kept.fitsAt, WellFormed.has_ofWidth,
    WellFormed.valueWidth_ofWidth, WellFormed.lt_of_foldsIn, valueWidth_of_intWidth,
    foldsIn_of_valueWidth, Width.modulus_le_max_left, Width.modulus_le_max_right,
    decay_of_foldsIn, FoldsIn.keeps, → Kept.consts]

end Folding
end Check
end SolarFront
