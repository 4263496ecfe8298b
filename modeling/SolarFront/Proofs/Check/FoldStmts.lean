import SolarFront.Proofs.Check.FoldDecls

/-!
# Folded values fit their types: statements and function bodies

A statement checks the declarations and expressions it holds and moves the targets of jumps,
which folding does not read; a block opens a scope and closes it again, which keeps every
symbol. So checking a statement covers its nodes (`Check.StmtCovers`): one case per form of
statement, the nested statements by the same theorem. A function body binds its parameters,
none of them with a value, in the scope of its outermost block.
-/

set_option autoImplicit false
set_option linter.all false
set_option mvcgen.warning false

namespace SolarFront

namespace Check

open Std.Do CheckM CheckState TypePool

variable {m : Module} {X : List Expr} {t s₁ s : CheckState} {u : Unit}

/-- Running `x` from a state ready for the nodes `X` covers them. -/
def Checks (m : Module) (x : CheckM Unit) (X : List Expr) : Prop :=
  ∀ {t s : CheckState} {u : Unit}, Runs x t u s → t.Ready m X → t.Covers m X s

/-! ### Steps of statements -/

theorem checkJump_view (t : CheckState) (id : Nat) (jump : JumpKind) (label : Option Label)
    (span : Span) :
    ⦃fun s => ⌜s.foldView = t.foldView⌝⦄ checkJump id jump label span
    ⦃⇓ _ s => ⌜s.foldView = t.foldView⌝⦄ := by
  mvcgen [checkJump, report_view, -report_spec, -checkJump_spec]

/-- Finding a jump's target changes nothing folding reads. -/
theorem checkJump_covers {id : Nat} {jump : JumpKind} {label : Option Label} {span : Span}
    (c : t.Covers m X s₁) (h : Runs (checkJump id jump label span) s₁ u s) : t.Covers m X s := by
  obtain ⟨⟨hs, hc⟩, hk⟩ := Runs.of_triple
    (kept_of_view (checkJump_spec s₁ id jump label span) (checkJump_view · id jump label span)) h
    ⟨⟨.refl _, c.sound⟩, .refl _⟩
  exact c.kept hk hs hc

/-- A report changes nothing folding reads. -/
theorem report_covers {d : Diagnostic} (c : t.Covers m X s₁) (h : Runs (report d) s₁ u s) :
    t.Covers m X s := by
  obtain rfl := h.of_modify
  exact ⟨c.sound.push d, c.folds.of_tables (fun _ _ h => h) rfl rfl rfl fun _ => .inl rfl, c.frame⟩

/-- Declaring a symbol with no value keeps what was covered. -/
theorem declareSymbol_covers {sym : Symbol} {r : Option Nat} (c : t.Covers m X s₁)
    (h : Runs (declareSymbol sym) s₁ r s) (hty : s₁.pool.Has sym.ty) (hval : sym.value = none) :
    t.Covers m X s ∧ s₁.Grows s := by
  obtain ⟨hs, hg⟩ := Runs.of_triple (declareSymbol_spec s₁ sym) h ⟨.refl _, c.sound, hty⟩
  rcases declareSymbol_runs h with ⟨sc, id, hd, -, rfl⟩ | ⟨-, dg, rfl⟩
  · exact ⟨⟨hs, c.folds.declare hd (fun v hv => by simp [hval] at hv) rfl rfl rfl rfl rfl,
      c.frame⟩, hg⟩
  · exact ⟨⟨hs, c.folds.of_tables (fun _ _ h => h) rfl rfl rfl fun _ => .inl rfl, c.frame⟩, hg⟩

/-- Binding a function's parameters keeps what was covered: none of them has a value. -/
theorem declareParams_covers (params : List Param) (types : List TypeId)
    (c : t.Covers m X s₁) (h : Runs (declareParams params types) s₁ u s)
    (htypes : ∀ q ∈ types, s₁.pool.Has q) : t.Covers m X s := by
  unfold declareParams at h
  -- the parameter types stay types of the pool from one parameter to the next
  refine (Runs.forIn_list (fun _ s' => t.Covers m X s' ∧ ∀ q ∈ types, s'.pool.Has q) ?_ h
    ⟨c, htypes⟩).1
  rintro ⟨p, i⟩ rest s₂ s₃ r - ⟨c₂, htypes₂⟩ h₂
  obtain ⟨_, s₄, h₄, h₂⟩ := h₂.of_bind
  obtain ⟨_, h₄⟩ := h₄.of_discard
  obtain ⟨rfl, rfl⟩ := h₂.of_pure
  have hty : s₂.pool.Has (types[i]?.getD .error) := by
    cases hq : types[i]? with
    | none => exact c₂.sound.wf.has_error
    | some q => exact htypes₂ q (List.mem_of_getElem? hq)
  obtain ⟨c₄, g₄⟩ := declareSymbol_covers c₂ h₄ hty rfl
  exact ⟨⟨c₄, fun q hq => g₄.has (htypes₂ q hq)⟩, rfl⟩

/-- A block runs in a scope of its own; opening and closing it keeps every symbol. -/
theorem withScope_covers {act : CheckM Unit} (hact : Checks m act X) :
    Checks m (withScope act) X := by
  intro t s u h hr
  unfold CheckM.withScope at h
  obtain ⟨_, s₁, h₁, h⟩ := h.of_bind
  obtain rfl := h₁.of_modify
  have c₁ : t.Covers m [] { t with scopes := t.scopes.push } :=
    (Covers.refl hr.sound hr.folds).scopes fun i => ScopeStack.symbol_push _ i
  obtain ⟨r, s₂, h₂, h⟩ := h.of_bind
  have c₂ := c₁.trans (hact h₂ (Ready.rest (A := []) hr c₁))
  obtain ⟨_, s₃, h₃, h⟩ := h.of_bind
  obtain rfl := h₃.of_modify
  obtain ⟨rfl, rfl⟩ := h.of_pure
  exact c₂.scopes fun i => ScopeStack.symbol_pop _ i

section Forms

variable (hm : m.Numbered)
include hm

/-- A `return` types its value, if it has one, and checks it against the function's return
type. -/
theorem checkReturn_folds (value : Option Expr) (span : Span)
    (h : Runs (checkReturn value span) t u s) (hr : t.Ready m ((value.map Expr.subexprs).getD [])) :
    t.Covers m ((value.map Expr.subexprs).getD []) s := by
  unfold checkReturn at h
  obtain ⟨_, s₁, h₁, h⟩ := h.of_bind
  obtain ⟨rfl, rfl⟩ := h₁.of_get
  cases value with
  | none =>
    -- a missing value is refused in a function that returns one
    dsimp only at h
    split at h
    · obtain ⟨_, s₂, h₂, h⟩ := h.of_bind
      obtain ⟨-, rfl⟩ := h₂.of_read
      exact (Covers.refl hr.sound hr.folds |>.refuse h rfl).1
    · obtain ⟨rfl, rfl⟩ := h.of_pure
      exact .refl hr.sound hr.folds
  | some v =>
    obtain ⟨found, s₂, h₂, h⟩ := h.of_bind
    obtain ⟨l₂, -, -⟩ := typeOfExpr_folds hm v h₂ hr
    split at h
    · -- a function returning `void` refuses a value
      split at h
      · exact (l₂.covers.refuse h rfl).1
      · obtain ⟨rfl, rfl⟩ := h.of_pure
        exact l₂.covers
    · obtain ⟨_, h⟩ := h.of_discard
      exact (l₂.covers.advance h (checkAssignable_folds _ found _ _ _)).1

variable {id : Nat} {span : Span} {label : Option Label} {elseS : Option Stmt}

/-- An `if` types its condition, and checks its branches while it is the target of `breakif`. -/
theorem branch_folds {cond : Expr} {thenS : Stmt} (hthen : Checks m (checkStmt thenS) thenS.subexprs)
    (helse : ∀ e ∈ elseS, Checks m (checkStmt e) e.subexprs) :
    let st : Stmt := .mk id span (.branch label cond thenS elseS)
    Checks m (checkStmt st) st.subexprs := by
  intro st t s u h hr
  unfold checkStmt at h
  obtain ⟨_, s₁, h₁, h⟩ := h.of_bind
  obtain ⟨_, h₁⟩ := h₁.of_discard
  obtain ⟨l₁, -, -⟩ := typeOfCondition_folds hm cond h₁ hr.left.left
  obtain ⟨_, s₂, h₂, h⟩ := h.of_bind
  have c₂ := l₁.covers.modify h₂ rfl rfl rfl
  obtain ⟨_, s₃, h₃, h⟩ := h.of_bind
  have c₃ := c₂.trans (hthen h₃ (hr.left.rest c₂))
  obtain ⟨_, s₄, h₄, h⟩ := h.of_bind
  have c₄ : s₃.Covers m (Stmt.subexprsOpt elseS) s₄ := by
    cases elseS with
    | none =>
      obtain ⟨rfl, rfl⟩ := h₄.of_pure
      exact .refl c₃.sound c₃.folds
    | some e => exact helse e rfl h₄ (hr.rest c₃)
  exact (c₃.trans c₄).modify h rfl rfl rfl

/-- A loop types its optional expressions, checks its body while it is the target of `break`
and `continue`, and then its `else` branch. -/
theorem loop_folds {init cond step : Option Expr} {body : Stmt}
    (hbody : Checks m (checkStmt body) body.subexprs)
    (helse : ∀ e ∈ elseS, Checks m (checkStmt e) e.subexprs) :
    let st : Stmt := .mk id span (.loop label init cond step body elseS)
    Checks m (checkStmt st) st.subexprs := by
  intro st t s u h hr
  unfold checkStmt at h
  obtain ⟨_, s₁, h₁, h⟩ := h.of_bind
  have c₁ : t.Covers m ((init.map Expr.subexprs).getD []) s₁ := by
    cases init with
    | none =>
      obtain ⟨rfl, rfl⟩ := h₁.of_pure
      exact .refl hr.sound hr.folds
    | some e =>
      obtain ⟨_, h₁⟩ := h₁.of_discard
      exact (typeOfExpr_folds hm e h₁ hr.left.left.left.left).1.covers
  obtain ⟨_, s₂, h₂, h⟩ := h.of_bind
  have c₂ : s₁.Covers m ((cond.map Expr.subexprs).getD []) s₂ := by
    have hr₂ := hr.left.left.left.rest c₁
    cases cond with
    | none =>
      obtain ⟨rfl, rfl⟩ := h₂.of_pure
      exact .refl hr₂.sound hr₂.folds
    | some c =>
      obtain ⟨_, h₂⟩ := h₂.of_discard
      exact (typeOfCondition_folds hm c h₂ hr₂).1.covers
  obtain ⟨_, s₃, h₃, h⟩ := h.of_bind
  have c₃ : s₂.Covers m ((step.map Expr.subexprs).getD []) s₃ := by
    have hr₃ := hr.left.left.rest (c₁.trans c₂)
    cases step with
    | none =>
      obtain ⟨rfl, rfl⟩ := h₃.of_pure
      exact .refl hr₃.sound hr₃.folds
    | some e =>
      obtain ⟨_, h₃⟩ := h₃.of_discard
      exact (typeOfExpr_folds hm e h₃ hr₃).1.covers
  obtain ⟨_, s₄, h₄, h⟩ := h.of_bind
  have c₄ := ((c₁.trans c₂).trans c₃).modify h₄ rfl rfl rfl
  obtain ⟨_, s₅, h₅, h⟩ := h.of_bind
  have c₅ := c₄.trans (hbody h₅ (hr.left.rest c₄))
  obtain ⟨_, s₆, h₆, h⟩ := h.of_bind
  have c₆ := c₅.modify h₆ rfl rfl rfl
  have c₇ : s₆.Covers m (Stmt.subexprsOpt elseS) s := by
    cases elseS with
    | none =>
      obtain ⟨rfl, rfl⟩ := h.of_pure
      exact .refl c₆.sound c₆.folds
    | some e => exact helse e rfl h (hr.rest c₆)
  exact c₆.trans c₇


end Forms

mutual

/-- Checking a statement covers its nodes: one case per form of statement, the nested
statements by the same theorem. -/
theorem checkStmt_folds (hm : m.Numbered) (st : Stmt) : Checks m (checkStmt st) st.subexprs := by
  obtain ⟨id, span, kind⟩ := st
  cases kind with
  | branch label cond thenS elseS =>
    cases elseS with
    | none => exact branch_folds hm (checkStmt_folds hm thenS) fun e he => (Option.not_mem_none e he).elim
    | some e =>
      exact branch_folds hm (checkStmt_folds hm thenS) fun _ he => by
        cases he
        exact checkStmt_folds hm e
  | loop label init cond step body elseS =>
    cases elseS with
    | none => exact loop_folds hm (checkStmt_folds hm body) fun e he => (Option.not_mem_none e he).elim
    | some e =>
      exact loop_folds hm (checkStmt_folds hm body) fun _ he => by
        cases he
        exact checkStmt_folds hm e
  | block stmts =>
    intro t s u h hr
    unfold checkStmt at h
    exact withScope_covers (checkStmts_folds hm stmts) h hr
  | empty =>
    intro t s u h hr
    unfold checkStmt at h
    obtain ⟨rfl, rfl⟩ := h.of_pure
    exact .refl hr.sound hr.folds
  | decl d =>
    intro t s u h hr
    unfold checkStmt at h
    exact checkLocalDecl_folds hm d h hr
  | expr e =>
    intro t s u h hr
    unfold checkStmt at h
    obtain ⟨_, h⟩ := h.of_discard
    exact (typeOfExpr_folds hm e h hr).1.covers
  | jump jump label =>
    intro t s u h hr
    unfold checkStmt at h
    exact checkJump_covers (.refl hr.sound hr.folds) h
  | ret value =>
    intro t s u h hr
    unfold checkStmt at h
    cases value <;> exact checkReturn_folds hm _ span h hr

/-- Checking statements in order covers the nodes of all of them. -/
theorem checkStmts_folds (hm : m.Numbered) (sts : List Stmt) : Checks m (checkStmts sts) (Stmt.subexprsOf sts) := by
  intro t s u h hr
  cases sts with
  | nil =>
    unfold checkStmts at h
    obtain ⟨rfl, rfl⟩ := h.of_pure
    exact .refl hr.sound hr.folds
  | cons st sts =>
    unfold checkStmts at h
    obtain ⟨_, s₁, h₁, h⟩ := h.of_bind
    have c₁ := checkStmt_folds hm st h₁ hr.left
    exact c₁.trans (checkStmts_folds hm sts h (hr.rest c₁))

end

/-- A function body covers its nodes: the parameters are bound, with no value, in the scope of
its outermost block, whose statements are checked in that scope. -/
theorem checkBody_folds (hm : m.Numbered) (d : Decl) (funcTy : TypeId) :
    Checks m (checkBody d funcTy) d.kind.subexprs := by
  intro t s u h hr
  unfold checkBody at h
  split at h
  · next params body isStatic isInline hk =>
    rw [hk] at hr ⊢
    obtain ⟨_, s₁, h₁, h⟩ := h.of_bind
    obtain ⟨rfl, rfl⟩ := h₁.of_get
    split at h
    next ret types hp =>
    -- the parameters take the parameter types of the function's type, types of the pool
    have htypes : ∀ q ∈ types, t.pool.Has q := by
      split at hp
      · next heq =>
        obtain ⟨-, rfl⟩ := Prod.mk.inj hp
        exact (hr.sound.wf.has_of_get_func heq).2
      · obtain ⟨-, rfl⟩ := Prod.mk.inj hp
        exact fun _ hq => by cases hq
    obtain ⟨_, s₂, h₂, h⟩ := h.of_bind
    obtain ⟨rfl, rfl⟩ := h₂.of_get
    obtain ⟨_, s₃, h₃, h⟩ := h.of_bind
    obtain ⟨rfl, rfl⟩ := h₃.of_get
    obtain ⟨_, s₄, h₄, h⟩ := h.of_bind
    have c₄ := (Covers.refl (X := []) hr.sound hr.folds).modify h₄ rfl rfl rfl
    obtain ⟨_, s₅, h₅, h⟩ := h.of_bind
    obtain rfl := h₅.of_modify
    have c₅ := c₄.scopes fun i => ScopeStack.symbol_push _ i
    obtain ⟨_, s₆, h₆, h⟩ := h.of_bind
    have c₆ := declareParams_covers params types c₅ h₆ (by obtain rfl := h₄.of_modify; exact htypes)
    obtain ⟨_, s₇, h₇, h⟩ := h.of_bind
    -- the statements of an outermost block are checked in the parameters' scope
    have c₇ : s₆.Covers m body.subexprs s₇ := by
      have hr₆ := Ready.rest (A := []) hr c₆
      obtain ⟨bid, bspan, bkind⟩ := body
      split at h₇
      · next stmts hb =>
        subst hb
        exact checkStmts_folds hm stmts h₇ hr₆
      · exact checkStmt_folds hm _ h₇ hr₆
    obtain ⟨_, s₈, h₈, h⟩ := h.of_bind
    obtain rfl := h₈.of_modify
    have c₈ := (c₆.trans c₇).scopes fun i => ScopeStack.symbol_pop _ i
    obtain ⟨_, s₉, h₉, h⟩ := h.of_bind
    have c₉ := c₈.modify h₉ rfl rfl rfl
    obtain ⟨_, s₁₀, h₁₀, h⟩ := h.of_bind
    obtain ⟨rfl, rfl⟩ := h₁₀.of_get
    -- a body that may end without returning a value is reported
    split at h
    · obtain ⟨_, s₁₁, h₁₁, h⟩ := h.of_bind
      obtain ⟨-, rfl⟩ := h₁₁.of_read
      exact report_covers c₉ h
    · obtain ⟨rfl, rfl⟩ := h.of_pure
      exact c₉
  · obtain ⟨rfl, rfl⟩ := h.of_pure
    exact .refl hr.sound hr.folds

end Check

end SolarFront
