import SolarFront.Proofs.Check.Typing
import SolarFront.Compilation

/-!
# A checked module settles every record

Declarations, statements and function bodies keep `CheckState.Sound`: they bind symbols whose
types are types of the pool, and otherwise call the typing functions, report, and remember what
they learned. The last pass lays out every record still pending. So a checked module ends with
every record's layout finished or failed, and `TypePool.LayoutSound` says what each outcome
means: a finished layout packs the shapes the pool gives the members, a failed one needs a
record reported as containing itself or one with a member that has no size, and a record that
holds itself in place has failed.
-/

set_option autoImplicit false
set_option linter.all false
set_option mvcgen.warning false

namespace SolarFront

namespace ScopeStack

/-- A merged symbol keeps the earlier declaration's type, or takes the new one's when the
earlier was the error type. -/
theorem merge_ty (existing new : Symbol) :
    (merge existing new).ty = existing.ty ∨ (merge existing new).ty = new.ty := by
  unfold merge
  split <;> split <;> simp_all

/-- After a declaration every index names a symbol of the type it had, or of the declared
symbol's type: the declaration is merged into one symbol or pushed as a new one. -/
theorem symbol_ty_of_declare {sc sc' : ScopeStack} {sym : Symbol} {id : Nat}
    (h : sc.declare sym = .ok (sc', id)) (i : Nat) :
    (sc'.symbol i).ty = (sc.symbol i).ty ∨ (sc'.symbol i).ty = sym.ty := by
  unfold declare at h
  split at h
  · split at h
    · cases h
    · cases h
      rcases symbol_modifySymbol sc id (merge · sym) i with hi | ⟨rfl, hi⟩
      · exact .inl (by rw [hi])
      · rw [hi]
        exact merge_ty _ _
  · cases h
    by_cases hi : i = sc.symbols.size
    · right
      simp [symbol, hi]
    · left
      simp [symbol, Array.getElem?_push, hi]

end ScopeStack

namespace CheckState

/-- Declaring a symbol whose type is a type of the pool keeps the state sound. -/
theorem Sound.declare {s : CheckState} (h : s.Sound) {sym : Symbol} {sc : ScopeStack} {id : Nat}
    (hd : s.scopes.declare sym = .ok (sc, id)) (hty : s.pool.Has sym.ty) :
    ({ s with scopes := sc } : CheckState).Sound where
  wf := h.wf
  layout := h.layout
  symbols i := by
    rcases ScopeStack.symbol_ty_of_declare hd i with hi | hi
    · exact hi ▸ h.symbols i
    · exact hi ▸ hty

end CheckState

namespace Check

open CheckM CheckState TypePool Std.Do

/-! ## Declarations -/

section Decls

variable (s₀ : CheckState)

@[spec] theorem declareSymbol_spec (sym : Symbol) :
    ⦃fun s => ⌜s₀.Grows s ∧ s.Sound ∧ s.pool.Has sym.ty⌝⦄ declareSymbol sym
    ⦃⇓ _ s => ⌜s.Sound ∧ s₀.Grows s⌝⦄ := by
  mvcgen [declareSymbol]
  case vc1.h_1 =>
    rename_i s h sc id hd _
    obtain ⟨hg, hs, hty⟩ := h
    exact ⟨hs.declare hd hty, hg.trans (Grows.frame rfl rfl rfl rfl rfl)⟩
  all_goals grind [Grows.refl, Grows.trans]

@[spec] theorem bindDecl_spec (d : Decl) (sym : Symbol) :
    ⦃fun s => ⌜s₀.Grows s ∧ s.Sound ∧ s.pool.Has sym.ty⌝⦄ bindDecl d sym
    ⦃⇓ _ s => ⌜s.Sound ∧ s₀.Grows s⌝⦄ := by
  mvcgen [bindDecl]
  all_goals grind [Grows.refl, Grows.trans, sound_iff, grows_iff]

@[spec] theorem bindGlobalType_spec (d : Decl) :
    ⦃fun s => ⌜s₀.Grows s ∧ s.Sound⌝⦄ bindGlobalType d ⦃⇓ _ s => ⌜s.Sound ∧ s₀.Grows s⌝⦄ := by
  mvcgen [bindGlobalType]
  all_goals grind [Grows.refl, Grows.trans, sound_iff, WellFormed.has_error]

@[spec] theorem checkVar_spec (d : Decl) (value : Option Expr) (isStatic : Bool) :
    ⦃fun s => ⌜s₀.Grows s ∧ s.Sound⌝⦄ checkVar d value isStatic
    ⦃⇓ _ s => ⌜s.Sound ∧ s₀.Grows s⌝⦄ := by
  mvcgen [checkVar, constantInitCheck]
  all_goals grind [Grows.refl, Grows.trans, Grows.has, sound_iff, grows_iff, WellFormed.has_error]

@[spec] theorem checkConst_spec (d : Decl) (value : Expr) (isStatic : Bool) :
    ⦃fun s => ⌜s₀.Grows s ∧ s.Sound⌝⦄ checkConst d value isStatic
    ⦃⇓ _ s => ⌜s.Sound ∧ s₀.Grows s⌝⦄ := by
  mvcgen [checkConst, constValue]
  all_goals grind [Grows.refl, Grows.trans, Grows.has, sound_iff, grows_iff, WellFormed.has_error]

@[spec] theorem checkFuncDecl_spec (d : Decl) (hasBody isStatic isInline : Bool) :
    ⦃fun s => ⌜s₀.Grows s ∧ s.Sound⌝⦄ checkFuncDecl d hasBody isStatic isInline
    ⦃⇓ _ s => ⌜s.Sound ∧ s₀.Grows s⌝⦄ := by
  mvcgen [checkFuncDecl]
  all_goals grind [Grows.refl, Grows.trans, Grows.has, sound_iff, grows_iff]

@[spec] theorem defineLocalType_spec (d : Decl) :
    ⦃fun s => ⌜s₀.Grows s ∧ s.Sound⌝⦄ defineLocalType d ⦃⇓ _ s => ⌜s.Sound ∧ s₀.Grows s⌝⦄ := by
  mvcgen [defineLocalType]
  all_goals grind [Grows.refl, Grows.trans, Grows.has, sound_iff, WellFormed.has_error]

@[spec] theorem checkDecl_spec (d : Decl) :
    ⦃fun s => ⌜s₀.Grows s ∧ s.Sound⌝⦄ checkDecl d ⦃⇓ _ s => ⌜s.Sound ∧ s₀.Grows s⌝⦄ := by
  mvcgen [checkDecl]
  all_goals grind [Grows.refl]

@[spec] theorem checkLocalDecl_spec (d : Decl) :
    ⦃fun s => ⌜s₀.Grows s ∧ s.Sound⌝⦄ checkLocalDecl d ⦃⇓ _ s => ⌜s.Sound ∧ s₀.Grows s⌝⦄ := by
  mvcgen [checkLocalDecl]
  all_goals grind [Grows.refl]

end Decls

/-! ## Statements

Jumps and returns touch only the targets of jumps and the diagnostics. `checkStmt` and
`checkStmts` recurse into each other on the statement, so their triples are proved together by
the same recursion. -/

section Jumps

variable (s₀ : CheckState)

@[spec] theorem pushTarget_spec (id : Nat) (span : Span) (kind : TargetKind)
    (label : Option Label) :
    ⦃fun s => ⌜s₀.Continues s ∧ s.Sound⌝⦄ pushTarget id span kind label
    ⦃⇓ _ s => ⌜s.Sound ∧ s₀.Continues s⌝⦄ := by
  mvcgen [pushTarget]
  all_goals grind [sound_iff, continues_iff]

@[spec] theorem popTarget_spec :
    ⦃fun s => ⌜s₀.Continues s ∧ s.Sound⌝⦄ popTarget ⦃⇓ _ s => ⌜s.Sound ∧ s₀.Continues s⌝⦄ := by
  mvcgen [popTarget]
  all_goals grind [sound_iff, continues_iff]

@[spec] theorem checkJump_spec (id : Nat) (jump : JumpKind) (label : Option Label) (span : Span) :
    ⦃fun s => ⌜s₀.Continues s ∧ s.Sound⌝⦄ checkJump id jump label span
    ⦃⇓ _ s => ⌜s.Sound ∧ s₀.Continues s⌝⦄ := by
  mvcgen [checkJump, report]
  all_goals grind [Continues.refl, Continues.trans, Sound.push, Continues.push, sound_iff,
    continues_iff]

@[spec] theorem checkReturn_spec (value : Option Expr) (span : Span) :
    ⦃fun s => ⌜s₀.Grows s ∧ s.Sound⌝⦄ checkReturn value span
    ⦃⇓ _ s => ⌜s.Sound ∧ s₀.Grows s⌝⦄ := by
  mvcgen [checkReturn]
  all_goals grind [Grows.refl, Grows.trans]

end Jumps

mutual

/-- Checking a statement keeps the checker sound: one case per form of statement, the nested
statements by the same theorem. -/
theorem checkStmt_spec (st : Stmt) (s₀ : CheckState) :
    ⦃fun s => ⌜s₀.Continues s ∧ s.Sound⌝⦄ checkStmt st
    ⦃⇓ _ s => ⌜s.Sound ∧ s₀.Continues s⌝⦄ := by
  obtain ⟨id, span, kind⟩ := st
  cases kind with
  | block stmts =>
    have hstmts := checkStmts_spec stmts
    mvcgen [checkStmt, withScope, hstmts]
    all_goals grind [Grows.refl, Continues.refl, Continues.trans, → Grows.toContinues]
  | branch label cond thenS elseS =>
    have hthen := checkStmt_spec thenS
    cases elseS with
    | none =>
      mvcgen [checkStmt, hthen]
      all_goals grind [Grows.refl, Continues.refl, Continues.trans, → Grows.toContinues]
    | some e =>
      have helse := checkStmt_spec e
      mvcgen [checkStmt, hthen, helse]
      all_goals grind [Grows.refl, Continues.refl, Continues.trans, → Grows.toContinues]
  | loop label init cond step body elseS =>
    have hbody := checkStmt_spec body
    cases elseS with
    | none =>
      mvcgen [checkStmt, hbody]
      all_goals grind [Grows.refl, Continues.refl, Continues.trans, → Grows.toContinues]
    | some e =>
      have helse := checkStmt_spec e
      mvcgen [checkStmt, hbody, helse]
      all_goals grind [Grows.refl, Continues.refl, Continues.trans, → Grows.toContinues]
  | _ =>
    mvcgen [checkStmt]
    all_goals grind [Grows.refl, Continues.refl, Continues.trans, → Grows.toContinues]

theorem checkStmts_spec (sts : List Stmt) (s₀ : CheckState) :
    ⦃fun s => ⌜s₀.Continues s ∧ s.Sound⌝⦄ checkStmts sts
    ⦃⇓ _ s => ⌜s.Sound ∧ s₀.Continues s⌝⦄ := by
  cases sts with
  | nil =>
    mvcgen [checkStmts]
    all_goals grind [Grows.refl, Continues.refl, → Grows.toContinues]
  | cons st sts =>
    have hst := checkStmt_spec st
    have hsts := checkStmts_spec sts
    mvcgen [checkStmts, hst, hsts]
    all_goals grind [Grows.refl, Continues.refl, Continues.trans, → Grows.toContinues]

end

/-! ## Bodies and the passes -/

section Passes

variable (s₀ : CheckState)

@[spec] theorem declareParams_spec (params : List Param) (types : List TypeId) :
    ⦃fun s => ⌜s₀.Grows s ∧ s.Sound ∧ ∀ q ∈ types, s.pool.Has q⌝⦄ declareParams params types
    ⦃⇓ _ s => ⌜s.Sound ∧ s₀.Grows s⌝⦄ := by
  mvcgen [declareParams] invariants
  · ⇓⟨_, _⟩ s => ⌜s.Sound ∧ s₀.Grows s ∧ ∀ q ∈ types, s.pool.Has q⌝
  all_goals grind [Grows.refl, Grows.trans, Grows.has, sound_iff, WellFormed.has_error,
    List.mem_of_getElem?]

@[spec] theorem checkBody_spec (d : Decl) (funcTy : TypeId) :
    ⦃fun s => ⌜s₀.Continues s ∧ s.Sound⌝⦄ checkBody d funcTy
    ⦃⇓ _ s => ⌜s.Sound ∧ s₀.Continues s⌝⦄ := by
  have hstmt := checkStmt_spec
  have hstmts := checkStmts_spec
  mvcgen [checkBody, hstmt, hstmts, report]
  case vc2 =>
    -- the parameters get the parameter types of the function's type, types of the pool
    rename_i s₁ h₁ _ _ _ _ s₂ h₂
    refine ⟨Grows.refl _, h₂.1, ?_⟩
    split
    · next heq => exact fun q hq => h₂.2.has ((h₁.2.wf.has_of_get_func heq).2 q hq)
    · simp
  all_goals grind [Grows.refl, Continues.refl, Continues.trans, → Grows.toContinues, Sound.push,
    Continues.push, sound_iff, continues_iff, TypePool.Extends.trans, List.IsPrefix.trans]

/-- The passes keep the checker sound, and end with every record laid out or failed. -/
@[spec] theorem passes_spec (m : Module) :
    ⦃fun s => ⌜s₀.Continues s ∧ s.Sound⌝⦄ passes m
    ⦃⇓ _ s => ⌜s.Sound ∧ s₀.Continues s ∧ ∀ rid < s.pool.records.size, s.pool.Final rid⌝⦄ := by
  mvcgen [passes] invariants
  · ⇓⟨_, _⟩ s => ⌜s.Sound ∧ s₀.Continues s⌝
  · ⇓⟨_, _⟩ s => ⌜s.Sound ∧ s₀.Continues s⌝
  · ⇓⟨_, _⟩ s => ⌜s.Sound ∧ s₀.Continues s⌝
  all_goals grind [Grows.refl, Continues.refl, Continues.trans, → Grows.toContinues]

end Passes

end Check

namespace TypePool

/-- What a settled record's layout state says: finished with the layout its members' shapes
give, or failed with a culprit among the records it needs; a record holding itself in place
cannot be finished. -/
theorem RecordSound.outcome {p : TypePool} {diags : List Diagnostic} {rid : Nat}
    (hs : p.RecordSound diags rid) (hf : p.Final rid) :
    ((∃ fields, p.memberShapes (p.record rid).members = some fields ∧
        (p.record rid).layout = .done ((p.record rid).kind.layout fields)) ∨
      ((p.record rid).layout = .failed ∧ ∃ rid', p.Needs rid rid' ∧ p.Culprit diags rid')) ∧
    (Relation.TransGen p.Holds rid rid → (p.record rid).layout = .failed) := by
  rcases hf with ⟨l, hl⟩ | hfailed
  · obtain ⟨⟨fields, hshapes, rfl⟩, hnot⟩ := hs.done l hl
    exact ⟨.inl ⟨fields, hshapes, hl⟩, fun hcycle => absurd hcycle hnot⟩
  · exact ⟨.inr ⟨hfailed, hs.failed hfailed⟩, fun _ => hfailed⟩

end TypePool

open Std.Do CheckState in
/-- Checking a module ends in a sound state where every record is laid out or failed. -/
theorem Module.sound_check (m : Module) (nodeCount : Nat) :
    (m.check nodeCount).Sound ∧
      ∀ rid < (m.check nodeCount).pool.records.size, (m.check nodeCount).pool.Final rid := by
  refine @StateM.of_wp_run_eq Unit CheckState _ _ (Check.passes m) rfl
    (fun r => r.2.Sound ∧ ∀ rid < r.2.pool.records.size, r.2.pool.Final rid) ?_
  mvcgen
  case vc1 => exact ⟨Continues.refl _, sound_initial _⟩
  case vc2 =>
    intro hsound _ hfinal
    exact ⟨hsound, hfinal⟩

/-- After a module is checked, every record's layout is finished or failed. A finished one is
the layout of its kind over its members in order, each member taking the size and alignment
the pool gives its type (an error-typed member taking none), so every member has a size; a
failed one needs a record that was reported as containing itself, or a record with a member
that has no size; and a record that holds itself in place, through members and sized arrays,
has failed. -/
theorem Module.check_layout_outcome (m : Module) (nodeCount : Nat) :
    let s := m.check nodeCount
    ∀ rid < s.pool.records.size,
      ((∃ fields, s.pool.memberShapes (s.pool.record rid).members = some fields ∧
          (s.pool.record rid).layout = .done ((s.pool.record rid).kind.layout fields)) ∨
        ((s.pool.record rid).layout = .failed ∧
          ∃ rid', s.pool.Needs rid rid' ∧ s.pool.Culprit s.diagnostics.toList rid')) ∧
      (Relation.TransGen s.pool.Holds rid rid → (s.pool.record rid).layout = .failed) := by
  intro s rid hrid
  obtain ⟨hsound, hfinal⟩ := m.sound_check nodeCount
  exact (hsound.layout rid).outcome (hfinal rid hrid)

/-- The outcome at a module whose only record has a member of type `[0]void`, the type of an
empty array initializer. -/
theorem Module.typeofEmptyArray_layout_outcome :
    let parsed := parse (lex "var x: *void := {}; struct S { m: typeof(x) };" false).tokens
    let s := parsed.module.check parsed.nodeCount
    0 < s.pool.records.size ∧
      (((∃ fields, s.pool.memberShapes (s.pool.record 0).members = some fields ∧
          (s.pool.record 0).layout = .done ((s.pool.record 0).kind.layout fields)) ∨
        ((s.pool.record 0).layout = .failed ∧
          ∃ rid', s.pool.Needs 0 rid' ∧ s.pool.Culprit s.diagnostics.toList rid')) ∧
      (Relation.TransGen s.pool.Holds 0 0 → (s.pool.record 0).layout = .failed)) :=
  ⟨by decide +kernel, Module.check_layout_outcome _ _ 0 (by decide +kernel)⟩

/-- A record can fail with no `contains itself` report anywhere: at this module the only record
fails and the check reports nothing. -/
theorem Module.check_fails_unreported :
    let parsed := parse (lex "var x: *void := {}; struct S { m: typeof(x) };" false).tokens
    let s := parsed.module.check parsed.nodeCount
    s.pool.records.size = 1 ∧ (s.pool.record 0).layout = .failed ∧ s.diagnostics = #[] := by
  decide +kernel

/-- A record can be reported as containing itself though it holds no record in place, and
whether it is depends on the order of the declarations. Resolving `B`'s pointer member defines
`A`, whose array length measures `B` while `B`'s own members are still being resolved; with the
declarations swapped, `B` is complete by then and both records are laid out. -/
theorem Module.check_reports_pointer_record_circular :
    let first := parse (lex "struct B { p: *A }; struct A { x: [sizeof(B)]int16 };" false).tokens
    let second := parse (lex "struct A { x: [sizeof(B)]int16 }; struct B { p: *A };" false).tokens
    let s := first.module.check first.nodeCount
    let s' := second.module.check second.nodeCount
    (s.pool.record 0).name = some "B" ∧
      (s.pool.record 0).members.map (fun m => s.pool.get m.ty) = [.array ⟨6⟩ none] ∧
      s.pool.get ⟨6⟩ = .record 1 ∧ (s.pool.record 1).name = some "A" ∧
      s.diagnostics.map (fun d => (d.code, d.message)) =
        #[(.e3009, (Check.containsItself (s.pool.record 0)).message)] ∧
      (s.pool.record 0).layout = .failed ∧
      s'.diagnostics.size = 0 ∧ s'.pool.records.all (·.layout?.isSome) := by
  decide +kernel

end SolarFront
