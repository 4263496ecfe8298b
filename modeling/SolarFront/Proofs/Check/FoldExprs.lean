import SolarFront.Proofs.Check.FoldTypes

/-!
# Folded values fit their types: expressions and initial values

The step of `Check.TypingFolds` for the functions that type expressions and check initial
values, and with it the promise at every fuel (`Check.typingFolds`). `inferExpr` takes one
lemma per form that folds, built from the rule of `Check.Rules` that form ends with: a literal
gets its own value, which the parser keeps within its width; a negation or comparison folds to 0
or 1; a conditional takes its picked branch's value, which fits that branch's type.
-/

set_option autoImplicit false
set_option linter.all false

namespace SolarFront

namespace CheckState

open CheckM Check

/-- Recording a type at a node that had none, and so no value either, leaves the nodes. -/
theorem Leaves.setType {m : Module} {X : List Expr} {t s₁ s : CheckState} {i : Nat}
    {ty : TypeId} {α : Type} {a r : α} (l : t.Leaves m X s₁) (hfresh : s₁.FreshAt i)
    (hi : i ∈ X.map Expr.id) (hty : s₁.pool.Has ty)
    (h : Runs (setExprType i ty >>= fun _ => pure a) s₁ r s) :
    t.Leaves m X s ∧ r = a ∧ s.pool.Has ty := by
  obtain ⟨_, s₂, h₂, h⟩ := h.of_bind
  obtain ⟨hs, hg, hpool, hf, hset, hst, -⟩ := Runs.of_triple (setExprType_folds m s₁ i ty) h₂
    ⟨rfl, l.sound, l.folds, fitsAt_of_none hfresh.1 ty, ⟨hfresh.2.1, hfresh.2.2⟩⟩
  obtain ⟨rfl, rfl⟩ := h.of_pure
  refine ⟨l.setsType hst hs hg.toContinues hf hset hi, rfl, ?_⟩
  rw [hpool]
  exact hty

/-- A refusal leaves the nodes: a report changes nothing folding reads. -/
theorem Leaves.fail {m : Module} {X : List Expr} {t s₁ s : CheckState} {code : Code} {span : Span}
    {message : String} {u : Unit} (l : t.Leaves m X s₁) (h : Runs (fail code span message) s₁ u s)
    (hc : code.isStatementError = false) : t.Leaves m X s ∧ s₁.Grows s := by
  obtain ⟨⟨hs, hg⟩, hk⟩ := Runs.of_triple (fail_folds s₁ code span message) h
    ⟨⟨.refl _, l.sound, hc⟩, .refl _⟩
  exact ⟨l.kept hk hs hg.toContinues, hg⟩

/-- The nodes inside a node are among its nodes. -/
theorem Leaves.widen {m : Module} {e : Expr} {t s : CheckState} (l : t.Leaves m e.kind.subexprs s) :
    t.Leaves m e.subexprs s :=
  l.mono fun _ hx => by
    rw [Expr.subexprs_eq]
    exact List.mem_append_left _ hx

/-- The operands of a node are ready when the node is. -/
theorem Ready.operands {m : Module} {t : CheckState} {e : Expr} (hr : t.Ready m e.subexprs) :
    t.Ready m e.kind.subexprs := by
  rw [Expr.subexprs_eq] at hr
  exact hr.left

/-- Two operands checked one after the other leave the nodes of both, each with its type. -/
theorem Leaves.operands {m : Module} {a b : Expr} {t s₁ s₂ : CheckState} {lt rt : TypeId}
    (hr : t.Ready m (a.subexprs ++ b.subexprs))
    (ha : t.Ready m a.subexprs → t.Leaves m a.subexprs s₁ ∧ s₁.pool.Has lt ∧ s₁.TypedAs a.id lt)
    (hb : s₁.Ready m b.subexprs → s₁.Leaves m b.subexprs s₂ ∧ s₂.pool.Has rt ∧ s₂.TypedAs b.id rt) :
    t.Leaves m (a.subexprs ++ b.subexprs) s₂ ∧ s₂.pool.Has lt ∧ s₂.pool.Has rt ∧
      s₂.TypedAs a.id lt ∧ s₂.TypedAs b.id rt := by
  obtain ⟨l₁, hlt, hta⟩ := ha hr.left
  obtain ⟨l₂, hrt, htb⟩ := hb (hr.next l₁)
  exact ⟨l₁.trans l₂, l₂.has hlt, hrt, hta.settles l₂.settles, htb⟩

end CheckState

namespace Check

open CheckM CheckState TypePool

variable {m : Module}

section Step

variable {n : Nat} (ih : TypingFolds m n)
include ih

theorem checkExpr_folds (e : Expr) {t s : CheckState} {r : TypeId}
    (h : Runs (checkExpr (n + 1) e) t r s) (hr : t.Ready m e.subexprs) :
    t.Leaves m e.subexprs s ∧ s.pool.Has r ∧ s.TypedAs e.id r := by
  rw [checkExpr] at h
  obtain ⟨ty, s₁, h₁, h⟩ := h.of_bind
  obtain ⟨l₁, hty, huntyped, hfit⟩ := ih.infer e t s₁ ty h₁ hr
  obtain ⟨_, s₂, h₂, h⟩ := h.of_bind
  obtain ⟨hs, hg, hpool, hf, hset, hst, hrec⟩ :=
    Runs.of_triple (setExprType_folds m s₁ e.id ty) h₂ ⟨rfl, l₁.sound, l₁.folds, hfit, huntyped⟩
  obtain ⟨rfl, rfl⟩ := h.of_pure
  refine ⟨l₁.setsType hst hs hg.toContinues hf hset (List.mem_map_of_mem (Expr.mem_subexprs_self e)),
    ?_, .inr hrec⟩
  rw [hpool]
  exact hty

theorem checkValue_folds (e : Expr) {t s : CheckState} {r : TypeId}
    (h : Runs (checkValue (n + 1) e) t r s) (hr : t.Ready m e.subexprs) :
    t.Leaves m e.subexprs s ∧ s.pool.Has r ∧ s.TypedAs e.id r := by
  rw [checkValue] at h
  obtain ⟨ty, s₁, h₁, h⟩ := h.of_bind
  obtain ⟨l₁, hty, htyped⟩ := ih.expr e t s₁ ty h₁ hr
  split at h
  · -- a value of type `void` is refused, and typed as the error type
    obtain ⟨_, s₂, h₂, h⟩ := h.of_bind
    obtain ⟨⟨hs, hg⟩, hk⟩ := Runs.of_triple (fail_folds s₁ _ _ _) h₂
      ⟨⟨.refl _, l₁.sound, rfl⟩, .refl _⟩
    obtain ⟨rfl, rfl⟩ := h.of_pure
    exact ⟨l₁.kept hk hs hg.toContinues, hs.wf.has_error, .inl rfl⟩
  · obtain ⟨rfl, rfl⟩ := h.of_pure
    exact ⟨l₁, hty, htyped⟩

theorem checkCondition_folds (e : Expr) {t s : CheckState} {r : TypeId}
    (h : Runs (checkCondition (n + 1) e) t r s) (hr : t.Ready m e.subexprs) :
    t.Leaves m e.subexprs s ∧ s.pool.Has r ∧ s.TypedAs e.id r := by
  rw [checkCondition] at h
  obtain ⟨ty, s₁, h₁, h⟩ := h.of_bind
  obtain ⟨l₁, hty, htyped⟩ := ih.value e t s₁ ty h₁ hr
  obtain ⟨_, s₂, h₂, h⟩ := h.of_bind
  obtain ⟨rfl, rfl⟩ := h₂.of_get
  dsimp only at h
  split at h
  · -- a condition that is no integer, pointer or function is refused; it keeps its type
    obtain ⟨_, s₃, h₃, h⟩ := h.of_bind
    obtain ⟨rfl, rfl⟩ := h₃.of_read
    obtain ⟨_, s₄, h₄, h⟩ := h.of_bind
    obtain ⟨⟨hs, hg⟩, hk⟩ := Runs.of_triple (fail_folds s₁ _ _ _) h₄
      ⟨⟨.refl _, l₁.sound, rfl⟩, .refl _⟩
    obtain ⟨rfl, rfl⟩ := h.of_pure
    exact ⟨l₁.kept hk hs hg.toContinues, hg.has hty, hk.typedAs htyped⟩
  · obtain ⟨rfl, rfl⟩ := h.of_pure
    exact ⟨l₁, hty, htyped⟩

theorem checkValues_folds (es : List Expr) {t s : CheckState} {r : List TypeId}
    (h : Runs (checkValues (n + 1) es) t r s) (hr : t.Ready m (Expr.subexprsOf es)) :
    t.Leaves m (Expr.subexprsOf es) s ∧ ∀ q ∈ r, s.pool.Has q := by
  cases es with
  | nil =>
    rw [checkValues] at h
    obtain ⟨rfl, rfl⟩ := h.of_pure
    exact ⟨Leaves.refl hr.sound hr.folds, by simp⟩
  | cons e es =>
    rw [checkValues] at h
    obtain ⟨ty, s₁, h₁, h⟩ := h.of_bind
    obtain ⟨l₁, hty, -⟩ := ih.value e t s₁ ty h₁ hr.left
    obtain ⟨rest, s₂, h₂, h⟩ := h.of_bind
    obtain ⟨l₂, hrest⟩ := ih.values es s₁ s₂ rest h₂ (hr.next l₁)
    obtain ⟨rfl, rfl⟩ := h.of_pure
    refine ⟨l₁.trans l₂, fun q hq => ?_⟩
    rcases List.mem_cons.mp hq with rfl | hq
    · exact l₂.has hty
    · exact hrest q hq

theorem checkSequence_folds (ty : TypeId) (es : List Expr) {t s : CheckState} {r : TypeId}
    (h : Runs (checkSequence (n + 1) ty es) t r s) (hr : t.Ready m (Expr.subexprsOf es))
    (hty : t.pool.Has ty) : t.Leaves m (Expr.subexprsOf es) s ∧ s.pool.Has r := by
  cases es with
  | nil =>
    rw [checkSequence] at h
    obtain ⟨rfl, rfl⟩ := h.of_pure
    exact ⟨Leaves.refl hr.sound hr.folds, hty⟩
  | cons e es =>
    rw [checkSequence] at h
    obtain ⟨ty₁, s₁, h₁, h⟩ := h.of_bind
    obtain ⟨l₁, hty₁, -⟩ := ih.expr e t s₁ ty₁ h₁ hr.left
    obtain ⟨l₂, hr'⟩ := ih.sequence ty₁ es s₁ s r h (hr.next l₁) hty₁
    exact ⟨l₁.trans l₂, hr'⟩

theorem sizeofTypeOperand_folds (e : Expr) {t s : CheckState} {r : Option TypeId}
    (h : Runs (sizeofTypeOperand (n + 1) e) t r s) (hr : t.Ready m e.subexprs) :
    t.Leaves m e.subexprs s ∧ (r = none → s = t) ∧ ∀ ty ∈ r, s.pool.Has ty := by
  have hself : e.id ∈ e.subexprs.map Expr.id := List.mem_map_of_mem (Expr.mem_subexprs_self e)
  -- an operand that is no type changes nothing
  have none_tail : ∀ s₁, s₁ = t → Runs (pure none) s₁ r s →
      t.Leaves m e.subexprs s ∧ (r = none → s = t) ∧ ∀ ty ∈ r, s.pool.Has ty := by
    rintro s₁ rfl h
    obtain ⟨rfl, rfl⟩ := h.of_pure
    exact ⟨Leaves.refl hr.sound hr.folds, fun _ => rfl, by simp⟩
  obtain ⟨id, span, kind⟩ := e
  rw [sizeofTypeOperand.eq_def] at h
  dsimp only at h
  split at h
  · -- a name that names a type is read as that type
    obtain ⟨_, s₁, h₁, h⟩ := h.of_bind
    obtain ⟨rfl, rfl⟩ := h₁.of_get
    split at h
    · obtain ⟨_, s₂, h₂, h⟩ := h.of_bind
      obtain ⟨rfl, rfl⟩ := h₂.of_pure
      exact none_tail t rfl h
    · next sym _ =>
      obtain ⟨_, s₂, h₂, h⟩ := h.of_bind
      obtain ⟨rfl, rfl⟩ := h₂.of_read
      split at h
      · obtain ⟨_, s₃, h₃, h⟩ := h.of_bind
        obtain ⟨rfl, rfl⟩ := h₃.of_pure
        exact none_tail t rfl h
      · next hkind =>
        obtain ⟨_, s₃, h₃, h⟩ := h.of_bind
        obtain ⟨⟨hs₃, hg₃⟩, hk₃⟩ := Runs.of_triple (bind_folds t id sym) h₃
          ⟨⟨.refl _, hr.sound⟩, .refl _⟩
        have l₃ : t.Leaves m [] s₃ := Leaves.of_kept hk₃ hs₃ hg₃.toContinues hr.folds
        obtain ⟨_, s₄, h₄, h⟩ := h.of_bind
        obtain ⟨ty, hsym, rfl⟩ := h₄.of_map
        obtain ⟨l₄, hty⟩ := ih.symbolType sym s₃ s₄ ty hsym (Ready.nil l₃.sound l₃.folds)
          (by rw [hk₃.scopes]; simpa using hkind)
        have l₃₄ : t.Leaves m [] s₄ := l₃.trans l₄
        obtain ⟨l, rfl, hty'⟩ := (l₃₄.mono fun _ h => absurd h List.not_mem_nil).setType
          (l₃₄.frame _ (by simp) (hr.freshAt (Expr.mem_subexprs_self _))) hself hty h
        exact ⟨l, ⟨(fun hnone => by cases hnone), by simpa using hty'⟩⟩
  · -- a dereference is read as a pointer to the type its operand reads as
    next inner =>
    obtain ⟨res, s₁, h₁, h⟩ := h.of_bind
    obtain ⟨l₁, hnone, hres⟩ := ih.sizeofOperand inner t s₁ res h₁ hr.left
    have hfresh := hr.freshAt_self l₁
    split at h
    · obtain ⟨_, s₂, h₂, h⟩ := h.of_bind
      obtain ⟨rfl, rfl⟩ := h₂.of_pure
      exact none_tail s₁ (hnone rfl) h
    · next target =>
      have l₁' : t.Leaves m (Expr.mk id span (.deref inner)).subexprs s₁ :=
        l₁.mono fun _ hx => List.mem_append_left [Expr.mk id span (.deref inner)] hx
      split at h
      · obtain ⟨_, s₂, h₂, h⟩ := h.of_bind
        obtain ⟨rfl, rfl⟩ := h₂.of_pure
        obtain ⟨l, rfl, hty⟩ := l₁'.setType hfresh hself l₁.sound.wf.has_error h
        exact ⟨l, ⟨(fun hnone => by cases hnone), by simpa using hty⟩⟩
      · obtain ⟨_, s₂, h₂, h⟩ := h.of_bind
        obtain ⟨ty, hptr, rfl⟩ := h₂.of_map
        obtain ⟨hs₂, hg₂, hty, hk₂, -⟩ := Runs.of_triple (pointer_folds s₁ target) hptr
          ⟨rfl, l₁.sound, hres target rfl⟩
        obtain ⟨l, rfl, hty'⟩ := (l₁'.kept hk₂ hs₂ hg₂.toContinues).setType
          (hk₂.freshAt hfresh) hself hty h
        exact ⟨l, ⟨(fun hnone => by cases hnone), by simpa using hty'⟩⟩
  · -- an operand of any other form is no type
    obtain ⟨_, s₁, h₁, h⟩ := h.of_bind
    obtain ⟨rfl, rfl⟩ := h₁.of_pure
    exact none_tail t rfl h

section Infer

-- Every lemma below starts from one equation of `inferExpr`; registering them here builds the
-- equations once, before the proofs that read them.
attribute [local simp] inferExpr

variable {id : Nat} {span : Span} {t s : CheckState} {r : TypeId}

omit ih in
/-- A literal gets its own value, which fits the type of its width: the parser keeps literals
within their widths. -/
theorem inferExpr_int_folds {v : Nat} {w : LitWidth}
    (h : Runs (inferExpr (n + 1) ⟨id, span, .int v w⟩) t r s)
    (hr : t.Ready m (Expr.subexprs ⟨id, span, .int v w⟩)) :
    t.Inferred m ⟨id, span, .int v w⟩ s r := by
  have l : t.Leaves m [] t := Leaves.refl hr.sound hr.folds
  have hfresh := hr.freshAt_self l
  have hlit : v < Nat.pow 2 w.bits := by
    have hfits := hr.numbered.2 _ (Expr.mem_subexprs_self _)
    exact LitWidth.lt_of_le_maxValue (by simpa [Expr.literalFits] using hfits)
  simp only [inferExpr] at h
  obtain ⟨_, s₁, h₁, h⟩ := h.of_bind
  obtain ⟨hs, hg, -, hc, hv⟩ := Runs.of_triple (setConst_folds t id (some v)) h₁
    ⟨rfl, hr.sound, hfresh.1⟩
  have hf : s₁.Folds m := hr.folds.setsConst hc hg.keeps hfresh.2.1 hfresh.2.2
  cases w with
  | w16 =>
    obtain ⟨rfl, rfl⟩ := h.of_pure
    exact Inferred.of_setsConst hr l hc hs hg hf hs.wf.has_int16
      (fitsAt_of_some hv (hs.wf.foldsIn_int16 hlit))
  | w32 =>
    obtain ⟨rfl, rfl⟩ := h.of_pure
    exact Inferred.of_setsConst hr l hc hs hg hf hs.wf.has_int32
      (fitsAt_of_some hv (foldsIn_of_valueWidth (hs.wf.valueWidth_ofWidth .w32) hlit))
  | ptr =>
    -- a pointer literal folds at the 32 bits of a pointer
    obtain ⟨hs', hg', hty, hk, hget⟩ := Runs.of_triple (pointer_folds s₁ .void) h
      ⟨rfl, hs, hs.wf.has_void⟩
    have hv' : s.consts[id]? = some v := by rw [hk.consts]; exact hv
    exact Inferred.of_setsConst hr l (hc.kept_right hk) hs' (hg.trans hg') (hk.folds hg' hf) hty
      (fitsAt_of_some hv' (foldsIn_of_valueWidth (valueWidth_of_get_pointer hget) hlit))

/-- A negation takes the negated value of its operand, which fits the 16-bit result. -/
theorem inferExpr_not_folds {a : Expr} (h : Runs (inferExpr (n + 1) ⟨id, span, .not a⟩) t r s)
    (hr : t.Ready m (Expr.subexprs ⟨id, span, .not a⟩)) :
    t.Inferred m ⟨id, span, .not a⟩ s r := by
  simp only [inferExpr] at h
  obtain ⟨_, s₁, h₁, h⟩ := h.of_bind
  obtain ⟨_, h₁⟩ := h₁.of_discard
  obtain ⟨l₁, -, -⟩ := ih.condition a t s₁ _ h₁ hr.operands
  have hfresh := hr.freshAt_self l₁
  obtain ⟨_, s₂, h₂, h⟩ := h.of_bind
  obtain ⟨rfl, rfl⟩ := h₂.of_read
  obtain ⟨_, s₃, h₃, h⟩ := h.of_bind
  obtain ⟨hs, hg, -, hc, hv⟩ := Runs.of_triple (setConst_folds s₁ id _) h₃
    ⟨rfl, l₁.sound, hfresh.1⟩
  obtain ⟨rfl, rfl⟩ := h.of_pure
  refine Inferred.of_setsConst hr l₁ hc hs hg
    (l₁.folds.setsConst hc hg.keeps hfresh.2.1 hfresh.2.2) hs.wf.has_int16 ?_
  intro x hx
  rw [show (Expr.mk id span (.not a)).id = id from rfl, hv] at hx
  obtain ⟨y, -, rfl⟩ := Option.map_eq_some_iff.mp hx
  exact hs.wf.foldsIn_int16 (Width.foldNot_lt .w16 y)

/-- `sizeof` measures its operand as a type when the operand reads as one, and checks it as an
expression otherwise; either way it folds to the size, which fits its 16-bit type. -/
theorem inferExpr_sizeofExpr_folds {a : Expr}
    (h : Runs (inferExpr (n + 1) ⟨id, span, .sizeofExpr a⟩) t r s)
    (hr : t.Ready m (Expr.subexprs ⟨id, span, .sizeofExpr a⟩)) :
    t.Inferred m ⟨id, span, .sizeofExpr a⟩ s r := by
  simp only [inferExpr] at h
  obtain ⟨res, s₁, h₁, h⟩ := h.of_bind
  obtain ⟨l₁, hnone, hres⟩ := ih.sizeofOperand a t s₁ res h₁ hr.operands
  have hop : ∃ ty s₂, t.Leaves m a.subexprs s₂ ∧ s₂.pool.Has ty ∧
      Runs (sizeofResult id ty span) s₂ r s := by
    split at h
    · obtain ⟨_, s₂, h₂, h⟩ := h.of_bind
      obtain ⟨rfl, rfl⟩ := h₂.of_pure
      exact ⟨_, _, l₁, hres _ rfl, h⟩
    · obtain ⟨ty, s₂, h₂, hsize⟩ := h.of_bind
      -- an operand that is no type changed nothing, so it is still ready to be checked
      obtain rfl := hnone rfl
      obtain ⟨l₂, hty, -⟩ := ih.expr a s₁ s₂ ty h₂ hr.operands
      exact ⟨ty, s₂, l₂, hty, hsize⟩
  obtain ⟨ty, s₂, l₂, hty, h⟩ := hop
  obtain ⟨hs, hg, hty', hf, hc, hfit⟩ := Runs.of_triple (sizeofResult_folds m s₂ id ty span) h
    ⟨rfl, l₂.sound, hty, l₂.folds, hr.freshAt_self l₂⟩
  exact Inferred.of_setsConst hr l₂ hc hs hg hf hty' hfit

/-- An arithmetic operation folds, when both operands have values, to a value of the type it
yields. -/
theorem inferExpr_binary_folds {op : BinaryOp} {a b : Expr}
    (h : Runs (inferExpr (n + 1) ⟨id, span, .binary op a b⟩) t r s)
    (hr : t.Ready m (Expr.subexprs ⟨id, span, .binary op a b⟩)) :
    t.Inferred m ⟨id, span, .binary op a b⟩ s r := by
  simp only [inferExpr] at h
  obtain ⟨lt, s₁, h₁, h⟩ := h.of_bind
  obtain ⟨rt, s₂, h₂, h⟩ := h.of_bind
  obtain ⟨l₂, hlt, hrt, -, -⟩ :=
    Leaves.operands hr.operands (ih.value a t s₁ lt h₁) (ih.value b s₁ s₂ rt h₂)
  obtain ⟨ty, s₃, h₃, h⟩ := h.of_bind
  obtain ⟨⟨hs₃, hg₃, hty⟩, hk₃⟩ := Runs.of_triple (arithResult_folds s₂ op lt rt b span) h₃
    ⟨⟨.refl _, l₂.sound, hlt, hrt⟩, .refl _⟩
  have l₃ := l₂.kept hk₃ hs₃ hg₃.toContinues
  obtain ⟨_, s₄, h₄, h⟩ := h.of_bind
  obtain ⟨hs, hg, hf, hc, hfit⟩ := Runs.of_triple (foldArith_folds m s₃ id op a b ty) h₄
    ⟨rfl, hs₃, l₃.folds, hr.freshAt_self l₃⟩
  obtain ⟨rfl, rfl⟩ := h.of_pure
  exact Inferred.of_setsConst hr l₃ hc hs hg hf (hg.has hty) hfit

/-- A comparison or logical operation folds to 0 or 1, which fits its type. -/
theorem inferExpr_cond_folds {op : CondOp} {a b : Expr}
    (h : Runs (inferExpr (n + 1) ⟨id, span, .cond op a b⟩) t r s)
    (hr : t.Ready m (Expr.subexprs ⟨id, span, .cond op a b⟩)) :
    t.Inferred m ⟨id, span, .cond op a b⟩ s r := by
  simp only [inferExpr] at h
  -- logical operators check their operands as conditions, the others as values
  have hops : ∃ lt rt s₂, t.Leaves m (a.subexprs ++ b.subexprs) s₂ ∧ s₂.pool.Has lt ∧
      s₂.pool.Has rt ∧ Runs (condResult id op a b lt rt span) s₂ r s := by
    split at h
    · obtain ⟨lt, s₁, h₁, h⟩ := h.of_bind
      obtain ⟨rt, s₂, h₂, h⟩ := h.of_bind
      obtain ⟨l₂, hlt, hrt, -, -⟩ :=
        Leaves.operands hr.operands (ih.condition a t s₁ lt h₁) (ih.condition b s₁ s₂ rt h₂)
      exact ⟨lt, rt, s₂, l₂, hlt, hrt, h⟩
    · obtain ⟨lt, s₁, h₁, h⟩ := h.of_bind
      obtain ⟨rt, s₂, h₂, h⟩ := h.of_bind
      obtain ⟨l₂, hlt, hrt, -, -⟩ :=
        Leaves.operands hr.operands (ih.value a t s₁ lt h₁) (ih.value b s₁ s₂ rt h₂)
      exact ⟨lt, rt, s₂, l₂, hlt, hrt, h⟩
  obtain ⟨lt, rt, s₂, l₂, hlt, hrt, h⟩ := hops
  obtain ⟨hs, hg, hty, hf, hc, hfit⟩ := Runs.of_triple (condResult_folds m s₂ id op a b lt rt span)
    h ⟨rfl, l₂.sound, hlt, hrt, l₂.folds, hr.freshAt_self l₂⟩
  exact Inferred.of_setsConst hr l₂ hc hs hg hf hty hfit

/-- A conditional folds to the value of the branch its condition picks; that branch's value
fits the branch's type, which the type yielded covers. -/
theorem inferExpr_ternary_folds {c a b : Expr}
    (h : Runs (inferExpr (n + 1) ⟨id, span, .ternary c a b⟩) t r s)
    (hr : t.Ready m (Expr.subexprs ⟨id, span, .ternary c a b⟩)) :
    t.Inferred m ⟨id, span, .ternary c a b⟩ s r := by
  simp only [inferExpr] at h
  have hr' : t.Ready m (c.subexprs ++ (a.subexprs ++ b.subexprs)) := by
    rw [← List.append_assoc]
    exact hr.operands
  obtain ⟨_, s₁, h₁, h⟩ := h.of_bind
  obtain ⟨_, h₁⟩ := h₁.of_discard
  obtain ⟨l₁, -, -⟩ := ih.condition c t s₁ _ h₁ hr'.left
  obtain ⟨thenTy, s₂, h₂, h⟩ := h.of_bind
  obtain ⟨elseTy, s₃, h₃, h⟩ := h.of_bind
  obtain ⟨l₃, hthen, helse, htt, hte⟩ :=
    Leaves.operands (hr'.next l₁) (ih.value a s₁ s₂ thenTy h₂) (ih.value b s₂ s₃ elseTy h₃)
  have l : t.Leaves m (c.subexprs ++ a.subexprs ++ b.subexprs) s₃ := by
    rw [List.append_assoc]
    exact l₁.trans l₃
  obtain ⟨hs, hg, hty, hf, hc, hfit⟩ :=
    Runs.of_triple (ternaryResult_folds m s₃ id c a b thenTy elseTy) h
      ⟨rfl, l₃.sound, hthen, helse, l₃.folds, hr.freshAt_self l, l₃.folds.fitsAt htt,
        l₃.folds.fitsAt hte⟩
  exact Inferred.of_setsConst hr l hc hs hg hf hty hfit

/-- Inferring the type of a node leaves the nodes of its operands, and the node itself untyped
with a value, if it has one, that fits the type inferred. -/
theorem inferExpr_folds (e : Expr) (h : Runs (inferExpr (n + 1) e) t r s)
    (hr : t.Ready m e.subexprs) : t.Inferred m e s r := by
  obtain ⟨id, span, kind⟩ := e
  cases kind with
  | int v w => exact inferExpr_int_folds h hr
  | not a => exact inferExpr_not_folds ih h hr
  | sizeofExpr a => exact inferExpr_sizeofExpr_folds ih h hr
  | binary op a b => exact inferExpr_binary_folds ih h hr
  | cond op a b => exact inferExpr_cond_folds ih h hr
  | ternary c a b => exact inferExpr_ternary_folds ih h hr
  | name x =>
    simp only [inferExpr] at h
    have l : t.Leaves m [] t := Leaves.refl hr.sound hr.folds
    obtain ⟨hs, hg, hty, hf, hc, hfit⟩ := Runs.of_triple (nameResult_folds m t id x span) h
      ⟨rfl, hr.sound, hr.folds, hr.freshAt_self l⟩
    exact Inferred.of_setsConst hr l hc hs hg hf hty hfit
  | str units enc =>
    simp only [inferExpr] at h
    have l : t.Leaves m [] t := Leaves.refl hr.sound hr.folds
    -- narrow strings are arrays of bytes, wide ones of 16-bit units
    obtain ⟨⟨hs, hg, hty⟩, hk⟩ := Runs.of_triple (array_folds t _ _) h
      ⟨⟨.refl _, hr.sound, by cases enc <;> simp [hr.sound.wf.has_int8, hr.sound.wf.has_int16]⟩,
        .refl _⟩
    exact Inferred.of_kept hr l hk hs hg hty
  | sizeofType te =>
    simp only [inferExpr] at h
    obtain ⟨ty, s₁, h₁, h⟩ := h.of_bind
    obtain ⟨l₁, hty⟩ := ih.type te t s₁ ty h₁ hr.operands
    obtain ⟨hs, hg, hty', hf, hc, hfit⟩ := Runs.of_triple (sizeofResult_folds m s₁ id ty span) h
      ⟨rfl, l₁.sound, hty, l₁.folds, hr.freshAt_self l₁⟩
    exact Inferred.of_setsConst hr l₁ hc hs hg hf hty' hfit
  | call f args =>
    simp only [inferExpr] at h
    obtain ⟨callee, s₁, h₁, h⟩ := h.of_bind
    obtain ⟨l₁, -, -⟩ := ih.value f t s₁ callee h₁ hr.operands.left
    obtain ⟨argTypes, s₂, h₂, h⟩ := h.of_bind
    obtain ⟨l₂, -⟩ := ih.values args s₁ s₂ argTypes h₂ (hr.operands.next l₁)
    obtain ⟨⟨hs, hg, hty⟩, hk⟩ := Runs.of_triple (callResult_folds s₂ f args callee argTypes) h
      ⟨⟨.refl _, l₂.sound⟩, .refl _⟩
    exact Inferred.of_kept hr (l₁.trans l₂) hk hs hg hty
  | index a b =>
    simp only [inferExpr] at h
    obtain ⟨base, s₁, h₁, h⟩ := h.of_bind
    obtain ⟨indexTy, s₂, h₂, h⟩ := h.of_bind
    obtain ⟨l₂, -⟩ :=
      Leaves.operands hr.operands (ih.value a t s₁ base h₁) (ih.value b s₁ s₂ indexTy h₂)
    obtain ⟨⟨hs, hg, hty⟩, hk⟩ := Runs.of_triple (indexResult_folds s₂ a b base indexTy) h
      ⟨⟨.refl _, l₂.sound⟩, .refl _⟩
    exact Inferred.of_kept hr l₂ hk hs hg hty
  | access a member memberSpan =>
    simp only [inferExpr] at h
    obtain ⟨ty, s₁, h₁, h⟩ := h.of_bind
    obtain ⟨l₁, -, -⟩ := ih.value a t s₁ ty h₁ hr.operands
    obtain ⟨⟨hs, hg, hty⟩, hk⟩ := Runs.of_triple (accessResult_folds s₁ ty member memberSpan) h
      ⟨⟨.refl _, l₁.sound⟩, .refl _⟩
    exact Inferred.of_kept hr l₁ hk hs hg hty
  | cast a te signed =>
    simp only [inferExpr] at h
    obtain ⟨source, s₁, h₁, h⟩ := h.of_bind
    obtain ⟨l₁, -, -⟩ := ih.expr a t s₁ source h₁ hr.operands.left
    obtain ⟨target, s₂, h₂, h⟩ := h.of_bind
    obtain ⟨l₂, htarget⟩ := ih.type te s₁ s₂ target h₂ (hr.operands.next l₁)
    have l := l₁.trans l₂
    obtain ⟨hs, hg, hty, hf, hc, hfit⟩ :=
      Runs.of_triple (castResult_folds m s₂ id a source target signed span) h
        ⟨rfl, l.sound, htarget, l.folds, hr.freshAt_self l⟩
    exact Inferred.of_setsConst hr l hc hs hg hf hty hfit
  | deref a =>
    simp only [inferExpr] at h
    obtain ⟨ty, s₁, h₁, h⟩ := h.of_bind
    obtain ⟨l₁, -, -⟩ := ih.value a t s₁ ty h₁ hr.operands
    obtain ⟨⟨hs, hg, hty⟩, hk⟩ := Runs.of_triple (derefResult_folds s₁ a ty) h
      ⟨⟨.refl _, l₁.sound⟩, .refl _⟩
    exact Inferred.of_kept hr l₁ hk hs hg hty
  | addrOf a =>
    simp only [inferExpr] at h
    obtain ⟨ty, s₁, h₁, h⟩ := h.of_bind
    obtain ⟨l₁, hty₁, -⟩ := ih.expr a t s₁ ty h₁ hr.operands
    obtain ⟨⟨hs, hg, hty⟩, hk⟩ := Runs.of_triple (addrOfResult_folds s₁ a ty) h
      ⟨⟨.refl _, l₁.sound, hty₁⟩, .refl _⟩
    exact Inferred.of_kept hr l₁ hk hs hg hty
  | unary op a =>
    simp only [inferExpr] at h
    obtain ⟨ty, s₁, h₁, h⟩ := h.of_bind
    obtain ⟨l₁, hty₁, -⟩ := ih.value a t s₁ ty h₁ hr.operands
    obtain ⟨hs, hg, hty, hf, hc, hfit⟩ := Runs.of_triple (unaryResult_folds m s₁ id op a ty span) h
      ⟨rfl, l₁.sound, hty₁, l₁.folds, hr.freshAt_self l₁⟩
    exact Inferred.of_setsConst hr l₁ hc hs hg hf hty hfit
  | assign op a b =>
    simp only [inferExpr] at h
    obtain ⟨targetTy, s₁, h₁, h⟩ := h.of_bind
    obtain ⟨valueTy, s₂, h₂, h⟩ := h.of_bind
    obtain ⟨l₂, htt, hvt, -, -⟩ :=
      Leaves.operands hr.operands (ih.expr a t s₁ targetTy h₁) (ih.value b s₁ s₂ valueTy h₂)
    obtain ⟨⟨hs, hg, hty⟩, hk⟩ :=
      Runs.of_triple (assignResult_folds s₂ op a b targetTy valueTy span) h
        ⟨⟨.refl _, l₂.sound, htt, hvt⟩, .refl _⟩
    exact Inferred.of_kept hr l₂ hk hs hg hty
  | comma es =>
    simp only [inferExpr] at h
    obtain ⟨l, hty⟩ := ih.sequence .void es t s r h hr.operands hr.sound.wf.has_void
    exact Inferred.of_kept hr l (.refl _) l.sound (.refl _) hty
  | arrayInit _ | recordInit _ _ =>
    -- a brace initializer out of place is refused, and its elements are not reached
    simp only [inferExpr] at h
    obtain ⟨_, s₁, h₁, h⟩ := h.of_bind
    obtain ⟨⟨hs, hg⟩, hk⟩ := Runs.of_triple (fail_folds t _ _ _) h₁
      ⟨⟨.refl _, hr.sound, rfl⟩, .refl _⟩
    obtain ⟨rfl, rfl⟩ := h.of_pure
    exact Inferred.of_kept hr (Leaves.refl hr.sound hr.folds) hk hs hg hs.wf.has_error

end Infer

/-! ### Initial values -/

theorem checkInits_folds (es : List Expr) (ty : TypeId) {t s : CheckState}
    (h : Runs (checkInits (n + 1) es ty) t () s) (hr : t.Ready m (Expr.subexprsOf es))
    (hty : t.pool.Has ty) : t.Leaves m (Expr.subexprsOf es) s := by
  cases es with
  | nil =>
    rw [checkInits] at h
    obtain ⟨-, rfl⟩ := h.of_pure
    exact Leaves.refl hr.sound hr.folds
  | cons e es =>
    rw [checkInits] at h
    obtain ⟨_, s₁, h₁, h⟩ := h.of_bind
    obtain ⟨_, h₁⟩ := h₁.of_discard
    obtain ⟨l₁, -⟩ := ih.init e ty t s₁ _ h₁ hr.left hty
    exact l₁.trans (ih.inits es ty s₁ s h (hr.next l₁) (l₁.has hty))

theorem checkArrayInit_folds (elements : List Expr) (ty : TypeId) (span : Span)
    {t s : CheckState} {r : TypeId} (h : Runs (checkArrayInit (n + 1) elements ty span) t r s)
    (hr : t.Ready m (Expr.subexprsOf elements)) (hty : t.pool.Has ty) :
    t.Leaves m (Expr.subexprsOf elements) s ∧ s.pool.Has r := by
  rw [checkArrayInit] at h
  split at h
  · -- the elements of an initializer of no type are checked against the error type
    obtain ⟨_, s₁, h₁, h⟩ := h.of_bind
    have l₁ := ih.inits elements .error t s₁ h₁ hr hr.sound.wf.has_error
    obtain ⟨rfl, rfl⟩ := h.of_pure
    exact ⟨l₁, l₁.sound.wf.has_error⟩
  · obtain ⟨_, s₁, h₁, h⟩ := h.of_bind
    obtain ⟨rfl, rfl⟩ := h₁.of_read
    split at h
    · next elem len hget =>
      obtain ⟨_, s₂, h₂, h⟩ := h.of_bind
      have helem := hr.sound.wf.has_of_get_array hget
      have l₂ := ih.inits elements elem t s₂ h₂ hr helem
      obtain ⟨⟨hs, hg, hres⟩, hk⟩ :=
        Runs.of_triple (arrayInitResult_folds s₂ elements elem len ty span) h
          ⟨⟨.refl _, l₂.sound, l₂.has helem, l₂.has hty⟩, .refl _⟩
      exact ⟨l₂.kept hk hs hg.toContinues, hres⟩
    · -- a type that is no array is refused, and the elements checked against the error type
      obtain ⟨_, s₂, h₂, h⟩ := h.of_bind
      have l₂ := ih.inits elements .error t s₂ h₂ hr hr.sound.wf.has_error
      obtain ⟨_, s₃, h₃, h⟩ := h.of_bind
      obtain ⟨rfl, rfl⟩ := h₃.of_read
      obtain ⟨_, s₄, h₄, h⟩ := h.of_bind
      obtain ⟨l₄, -⟩ := l₂.fail h₄ rfl
      obtain ⟨rfl, rfl⟩ := h.of_pure
      exact ⟨l₄, l₄.has hty⟩

theorem checkInit_folds (init : Expr) (ty : TypeId) {t s : CheckState} {r : TypeId}
    (h : Runs (checkInit (n + 1) init ty) t r s) (hr : t.Ready m init.subexprs)
    (hty : t.pool.Has ty) : t.Leaves m init.subexprs s ∧ s.pool.Has r := by
  have hself : init.id ∈ init.subexprs.map Expr.id :=
    List.mem_map_of_mem (Expr.mem_subexprs_self init)
  rw [checkInit] at h
  split at h
  · -- a brace initializer records the type it completes at its own node
    next elements hkind =>
    obtain ⟨completed, s₁, h₁, h⟩ := h.of_bind
    have hr' : t.Ready m init.kind.subexprs := hr.operands
    rw [hkind] at hr'
    obtain ⟨l₁, hc⟩ := ih.arrayInit elements ty init.span t s₁ completed h₁ hr' hty
    have l₁' : t.Leaves m init.kind.subexprs s₁ := by
      rw [hkind]
      exact l₁
    obtain ⟨l, rfl, hc'⟩ := l₁'.widen.setType (hr.freshAt_self l₁') hself hc h
    exact ⟨l, hc'⟩
  · next kind fields hkind =>
    obtain ⟨completed, s₁, h₁, h⟩ := h.of_bind
    have hr' : t.Ready m init.kind.subexprs := hr.operands
    rw [hkind] at hr'
    obtain ⟨l₁, hc⟩ := ih.recordInit kind fields ty init.span t s₁ completed h₁ hr' hty
    have l₁' : t.Leaves m init.kind.subexprs s₁ := by
      rw [hkind]
      exact l₁
    obtain ⟨l, rfl, hc'⟩ := l₁'.widen.setType (hr.freshAt_self l₁') hself hc h
    exact ⟨l, hc'⟩
  · -- a string initializer is typed as an expression, then matched against the type
    obtain ⟨found, s₁, h₁, h⟩ := h.of_bind
    obtain ⟨l₁, hfound, -⟩ := ih.expr init t s₁ found h₁ hr
    obtain ⟨⟨hs, hg, hres⟩, hk⟩ := Runs.of_triple (stringInitResult_folds s₁ found ty init.span) h
      ⟨⟨.refl _, l₁.sound, hfound, l₁.has hty⟩, .refl _⟩
    exact ⟨l₁.kept hk hs hg.toContinues, hres⟩
  · -- any other initial value is a value assignable to the type
    obtain ⟨found, s₁, h₁, h⟩ := h.of_bind
    obtain ⟨l₁, -, -⟩ := ih.value init t s₁ found h₁ hr
    obtain ⟨_, s₂, h₂, h⟩ := h.of_bind
    obtain ⟨_, h₂⟩ := h₂.of_discard
    obtain ⟨⟨hs, hg⟩, hk⟩ := Runs.of_triple (checkAssignable_folds s₁ found ty init.span _) h₂
      ⟨⟨.refl _, l₁.sound⟩, .refl _⟩
    obtain ⟨rfl, rfl⟩ := h.of_pure
    exact ⟨l₁.kept hk hs hg.toContinues, hg.has (l₁.has hty)⟩

theorem checkRecordInit_folds (kind : RecordKind) (fields : List FieldInit) (ty : TypeId)
    (span : Span) {t s : CheckState} {r : TypeId}
    (h : Runs (checkRecordInit (n + 1) kind fields ty span) t r s)
    (hr : t.Ready m (FieldInit.subexprsOf fields)) (hty : t.pool.Has ty) :
    t.Leaves m (FieldInit.subexprsOf fields) s ∧ s.pool.Has r := by
  have hr' : t.Ready m (Expr.subexprsOf (fields.map (·.value))) := by
    rw [Expr.subexprsOf_values]
    exact hr
  rw [checkRecordInit] at h
  split at h
  · -- the fields of an initializer of no type are checked against the error type
    obtain ⟨_, s₁, h₁, h⟩ := h.of_bind
    have l₁ := ih.inits _ .error t s₁ h₁ hr' hr.sound.wf.has_error
    rw [Expr.subexprsOf_values] at l₁
    obtain ⟨rfl, rfl⟩ := h.of_pure
    exact ⟨l₁, l₁.sound.wf.has_error⟩
  · obtain ⟨_, s₁, h₁, h⟩ := h.of_bind
    obtain ⟨rfl, rfl⟩ := h₁.of_get
    dsimp only at h
    split at h
    · -- a type that is no record of the kind is refused, and the fields checked against the
      -- error type
      obtain ⟨_, s₂, h₂, h⟩ := h.of_bind
      have l₂ := ih.inits _ .error t s₂ h₂ hr' hr.sound.wf.has_error
      rw [Expr.subexprsOf_values] at l₂
      obtain ⟨_, s₃, h₃, h⟩ := h.of_bind
      obtain ⟨rfl, rfl⟩ := h₃.of_read
      obtain ⟨_, s₄, h₄, h⟩ := h.of_bind
      obtain ⟨l₄, -⟩ := l₂.fail h₄ rfl
      obtain ⟨rfl, rfl⟩ := h.of_pure
      exact ⟨l₄, l₄.has hty⟩
    · next rid hrid =>
      have hlt := hr.sound.wf.lt_of_filter_recordOf? hrid
      -- a union initializer that names other than one member is refused first
      have hunion : ∃ s₂, t.Leaves m [] s₂ ∧
          Runs (checkFields n rid ty fields >>= fun _ => pure ty) s₂ r s := by
        split at h
        · obtain ⟨_, s₂, h₂, h⟩ := h.of_bind
          exact ⟨s₂, ((Leaves.refl hr.sound hr.folds).fail h₂ rfl).1, h⟩
        · exact ⟨t, Leaves.refl hr.sound hr.folds, h⟩
      obtain ⟨s₂, l₂, h⟩ := hunion
      obtain ⟨_, s₃, h₃, h⟩ := h.of_bind
      have l₃ := ih.fields rid ty fields s₂ s₃ h₃
        ((show t.Ready m ([] ++ FieldInit.subexprsOf fields) from hr).next l₂)
        (Nat.lt_of_lt_of_le hlt l₂.continues.pool.records_le)
      have l : t.Leaves m (FieldInit.subexprsOf fields) s₃ := l₂.trans l₃
      obtain ⟨rfl, rfl⟩ := h.of_pure
      exact ⟨l, l.has hty⟩

theorem checkFields_folds (rid : Nat) (ty : TypeId) (fs : List FieldInit) {t s : CheckState}
    (h : Runs (checkFields (n + 1) rid ty fs) t () s) (hr : t.Ready m (FieldInit.subexprsOf fs))
    (hrid : rid < t.pool.records.size) : t.Leaves m (FieldInit.subexprsOf fs) s := by
  cases fs with
  | nil =>
    rw [checkFields] at h
    obtain ⟨-, rfl⟩ := h.of_pure
    exact Leaves.refl hr.sound hr.folds
  | cons f fs =>
    obtain ⟨name, value, fspan⟩ := f
    rw [checkFields] at h
    obtain ⟨_, s₁, h₁, h⟩ := h.of_bind
    obtain ⟨rfl, rfl⟩ := h₁.of_get
    dsimp only at h
    -- the value is checked against the type of the member it names, or else against the error
    -- type once the name is refused
    have hvalue : ∃ s₂, t.Leaves m value.subexprs s₂ ∧ Runs (checkFields n rid ty fs) s₂ () s := by
      split at h
      · next mem hmem =>
        obtain ⟨_, s₂, h₂, h⟩ := h.of_bind
        obtain ⟨_, h₂⟩ := h₂.of_discard
        obtain ⟨l₂, -⟩ :=
          ih.init value mem.ty t s₂ _ h₂ hr.left (hr.sound.wf.has_of_member hrid hmem)
        exact ⟨s₂, l₂, h⟩
      · obtain ⟨_, s₂, h₂, h⟩ := h.of_bind
        obtain ⟨rfl, rfl⟩ := h₂.of_read
        obtain ⟨_, s₃, h₃, h⟩ := h.of_bind
        obtain ⟨l₃, -⟩ := (Leaves.refl hr.sound hr.folds : t.Leaves m [] t).fail h₃ rfl
        obtain ⟨_, s₄, h₄, h⟩ := h.of_bind
        obtain ⟨_, h₄⟩ := h₄.of_discard
        obtain ⟨l₄, -⟩ := ih.init value .error s₃ s₄ _ h₄
          ((show t.Ready m ([] ++ value.subexprs) from hr.left).next l₃) l₃.sound.wf.has_error
        exact ⟨s₄, l₃.trans l₄, h⟩
    obtain ⟨s₂, l₂, h⟩ := hvalue
    exact l₂.trans (ih.fields rid ty fs s₂ s h (hr.next l₂)
      (Nat.lt_of_lt_of_le hrid l₂.continues.pool.records_le))

end Step

/-- With one more unit of fuel every function keeps its promise, given that each keeps it with
less. -/
theorem typingFolds_succ {n : Nat} (hm : m.Numbered) (ih : TypingFolds m n) :
    TypingFolds m (n + 1) where
  type node _ _ _ h hr := resolveType_folds ih node h hr
  params ps _ _ _ h hr := resolveParams_folds ih ps h hr
  typeName name span _ _ _ h hr := resolveTypeName_folds ih name span h hr
  symbolType sym _ _ _ h hr hkind := typeSymbolType_folds ih sym h hr hkind
  typeDecl declId sym _ _ h hr hkind := ensureTypeDecl_folds ih hm declId sym h hr hkind
  record node kind name members binding _ _ _ h hr hb :=
    defineRecord_folds ih node kind name members binding h hr hb
  members seen ms _ _ _ h hr := resolveMembers_folds ih seen ms h hr
  expr e _ _ _ h hr := checkExpr_folds ih e h hr
  value e _ _ _ h hr := checkValue_folds ih e h hr
  condition e _ _ _ h hr := checkCondition_folds ih e h hr
  values es _ _ _ h hr := checkValues_folds ih es h hr
  sequence ty es _ _ _ h hr hty := checkSequence_folds ih ty es h hr hty
  infer e _ _ _ h hr := inferExpr_folds ih e h hr
  sizeofOperand e _ _ _ h hr := sizeofTypeOperand_folds ih e h hr
  init e ty _ _ _ h hr hty := checkInit_folds ih e ty h hr hty
  arrayInit es ty span _ _ _ h hr hty := checkArrayInit_folds ih es ty span h hr hty
  inits es ty _ _ h hr hty := checkInits_folds ih es ty h hr hty
  recordInit kind fields ty span _ _ _ h hr hty :=
    checkRecordInit_folds ih kind fields ty span h hr hty
  fields rid ty fs _ _ h hr hrid := checkFields_folds ih rid ty fs h hr hrid

/-- On a parsed module every function keeps, with any fuel, the promise of `TypingFolds`: by
induction on the fuel, each function calling the others with one unit less. -/
theorem typingFolds (hm : m.Numbered) : ∀ n, TypingFolds m n
  | 0 => typingFolds_zero
  | n + 1 => typingFolds_succ hm (typingFolds hm n)

end Check

end SolarFront
