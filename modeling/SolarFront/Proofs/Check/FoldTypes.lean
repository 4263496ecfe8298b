import SolarFront.Proofs.Check.FoldSteps

/-!
# Folded values fit their types: resolving types

`Check.TypingFolds m fuel` says what each function of the typing block does, at that fuel, to the
invariant `CheckState.Folds` of a module `m`: run from a state ready for the nodes of its
argument, it leaves those nodes, and yields types of the pool. It holds at fuel zero, and each
function at `fuel + 1` keeps it from the calls it makes at `fuel`. This module proves that step
for the functions that resolve types; a type declaration met on the way is resolved once, from
the state it was held in, and its nodes are reached by that resolution only.
-/

set_option autoImplicit false
set_option linter.all false

namespace SolarFront

namespace CheckState

open CheckM Check

/-- The last step of resolving a type node records its type, which changes nothing folding
reads. -/
theorem Leaves.typeNode {m : Module} {X : List Expr} {t s₁ s : CheckState} {i : Nat} {ty r : TypeId}
    (l : t.Leaves m X s₁) (hty : s₁.pool.Has ty)
    (h : Runs (setTypeNode i ty >>= fun _ => pure ty) s₁ r s) : t.Leaves m X s ∧ s.pool.Has r := by
  obtain ⟨_, s₂, h₂, h⟩ := h.of_bind
  obtain ⟨⟨hs, hg⟩, hk⟩ := Runs.of_triple (setTypeNode_folds s₁ i ty) h₂ ⟨⟨.refl _, l.sound⟩, .refl _⟩
  obtain ⟨rfl, rfl⟩ := h.of_pure
  exact ⟨l.kept hk hs hg.toContinues, hg.has hty⟩

end CheckState

namespace Check

open CheckM CheckState TypePool

/-- What each function of the typing block does at this fuel, to the invariant of `m`: run from
a state ready for the nodes of its argument, it leaves those nodes, and yields types of the
pool. An expression check records a type its node's value fits; `inferExpr` leaves its own node
untyped, with a value that fits the type it yields; `sizeofTypeOperand` changes nothing when
the operand is not a type. -/
structure TypingFolds (m : Module) (fuel : Nat) : Prop where
  type : ∀ (node : TypeExpr) (t s : CheckState) (r : TypeId),
    Runs (resolveType fuel node) t r s → t.Ready m node.subexprs →
    t.Leaves m node.subexprs s ∧ s.pool.Has r
  params : ∀ (ps : List TypeExpr) (t s : CheckState) (r : List TypeId),
    Runs (resolveParams fuel ps) t r s → t.Ready m (TypeExpr.subexprsOf ps) →
    t.Leaves m (TypeExpr.subexprsOf ps) s ∧ ∀ q ∈ r, s.pool.Has q
  typeName : ∀ (name : String) (span : Span) (t s : CheckState) (r : TypeId),
    Runs (resolveTypeName fuel name span) t r s → t.Ready m [] →
    t.Leaves m [] s ∧ s.pool.Has r
  symbolType : ∀ (sym : Nat) (t s : CheckState) (r : TypeId),
    Runs (typeSymbolType fuel sym) t r s → t.Ready m [] → (t.scopes.symbol sym).kind = .type →
    t.Leaves m [] s ∧ s.pool.Has r
  typeDecl : ∀ (declId sym : Nat) (t s : CheckState),
    Runs (ensureTypeDecl fuel declId sym) t () s → t.Ready m [] →
    (t.scopes.symbol sym).kind = .type → t.Leaves m [] s
  record : ∀ (node : TypeExpr) (kind : RecordKind) (name : Option String)
      (members : List MemberDecl) (binding : Option Nat) (t s : CheckState) (r : TypeId),
    Runs (defineRecord fuel node kind name members binding) t r s →
    t.Ready m (MemberDecl.subexprsOf members) →
    (∀ sym ∈ binding, (t.scopes.symbol sym).kind = .type) →
    t.Leaves m (MemberDecl.subexprsOf members) s ∧ s.pool.Has r
  members : ∀ (seen : List (String × Span)) (ms : List MemberDecl) (t s : CheckState)
      (r : List Member),
    Runs (resolveMembers fuel seen ms) t r s → t.Ready m (MemberDecl.subexprsOf ms) →
    t.Leaves m (MemberDecl.subexprsOf ms) s ∧ ∀ mem ∈ r, s.pool.Has mem.ty
  expr : ∀ (e : Expr) (t s : CheckState) (r : TypeId),
    Runs (checkExpr fuel e) t r s → t.Ready m e.subexprs →
    t.Leaves m e.subexprs s ∧ s.pool.Has r ∧ s.TypedAs e.id r
  value : ∀ (e : Expr) (t s : CheckState) (r : TypeId),
    Runs (checkValue fuel e) t r s → t.Ready m e.subexprs →
    t.Leaves m e.subexprs s ∧ s.pool.Has r ∧ s.TypedAs e.id r
  condition : ∀ (e : Expr) (t s : CheckState) (r : TypeId),
    Runs (checkCondition fuel e) t r s → t.Ready m e.subexprs →
    t.Leaves m e.subexprs s ∧ s.pool.Has r ∧ s.TypedAs e.id r
  values : ∀ (es : List Expr) (t s : CheckState) (r : List TypeId),
    Runs (checkValues fuel es) t r s → t.Ready m (Expr.subexprsOf es) →
    t.Leaves m (Expr.subexprsOf es) s ∧ ∀ q ∈ r, s.pool.Has q
  sequence : ∀ (ty : TypeId) (es : List Expr) (t s : CheckState) (r : TypeId),
    Runs (checkSequence fuel ty es) t r s → t.Ready m (Expr.subexprsOf es) → t.pool.Has ty →
    t.Leaves m (Expr.subexprsOf es) s ∧ s.pool.Has r
  infer : ∀ (e : Expr) (t s : CheckState) (r : TypeId),
    Runs (inferExpr fuel e) t r s → t.Ready m e.subexprs → t.Inferred m e s r
  sizeofOperand : ∀ (e : Expr) (t s : CheckState) (r : Option TypeId),
    Runs (sizeofTypeOperand fuel e) t r s → t.Ready m e.subexprs →
    t.Leaves m e.subexprs s ∧ (r = none → s = t) ∧ ∀ ty ∈ r, s.pool.Has ty
  init : ∀ (init : Expr) (ty : TypeId) (t s : CheckState) (r : TypeId),
    Runs (checkInit fuel init ty) t r s → t.Ready m init.subexprs → t.pool.Has ty →
    t.Leaves m init.subexprs s ∧ s.pool.Has r
  arrayInit : ∀ (elements : List Expr) (ty : TypeId) (span : Span) (t s : CheckState)
      (r : TypeId),
    Runs (checkArrayInit fuel elements ty span) t r s → t.Ready m (Expr.subexprsOf elements) →
    t.pool.Has ty → t.Leaves m (Expr.subexprsOf elements) s ∧ s.pool.Has r
  inits : ∀ (es : List Expr) (ty : TypeId) (t s : CheckState),
    Runs (checkInits fuel es ty) t () s → t.Ready m (Expr.subexprsOf es) → t.pool.Has ty →
    t.Leaves m (Expr.subexprsOf es) s
  recordInit : ∀ (kind : RecordKind) (fields : List FieldInit) (ty : TypeId) (span : Span)
      (t s : CheckState) (r : TypeId),
    Runs (checkRecordInit fuel kind fields ty span) t r s →
    t.Ready m (FieldInit.subexprsOf fields) → t.pool.Has ty →
    t.Leaves m (FieldInit.subexprsOf fields) s ∧ s.pool.Has r
  fields : ∀ (rid : Nat) (ty : TypeId) (fs : List FieldInit) (t s : CheckState),
    Runs (checkFields fuel rid ty fs) t () s → t.Ready m (FieldInit.subexprsOf fs) →
    rid < t.pool.records.size → t.Leaves m (FieldInit.subexprsOf fs) s

variable {m : Module}

/-- Out of fuel, every function gives up at once and changes nothing. -/
theorem typingFolds_zero : TypingFolds m 0 where
  type _ t s r h hr := by
    obtain ⟨rfl, rfl⟩ := Runs.of_pure (by rwa [resolveType] at h)
    exact ⟨Leaves.refl hr.sound hr.folds, hr.sound.wf.has_error⟩
  params _ t s r h hr := by
    obtain ⟨rfl, rfl⟩ := Runs.of_pure (by rwa [resolveParams] at h)
    exact ⟨Leaves.refl hr.sound hr.folds, by simp⟩
  typeName _ _ t s r h hr := by
    obtain ⟨rfl, rfl⟩ := Runs.of_pure (by rwa [resolveTypeName] at h)
    exact ⟨Leaves.refl hr.sound hr.folds, hr.sound.wf.has_error⟩
  symbolType _ t s r h hr _ := by
    obtain ⟨rfl, rfl⟩ := Runs.of_pure (by rwa [typeSymbolType] at h)
    exact ⟨Leaves.refl hr.sound hr.folds, hr.sound.wf.has_error⟩
  typeDecl _ _ t s h hr _ := by
    obtain ⟨-, rfl⟩ := Runs.of_pure (by rwa [ensureTypeDecl] at h)
    exact Leaves.refl hr.sound hr.folds
  record _ _ _ _ _ t s r h hr _ := by
    obtain ⟨rfl, rfl⟩ := Runs.of_pure (by rwa [defineRecord] at h)
    exact ⟨Leaves.refl hr.sound hr.folds, hr.sound.wf.has_error⟩
  members _ _ t s r h hr := by
    obtain ⟨rfl, rfl⟩ := Runs.of_pure (by rwa [resolveMembers] at h)
    exact ⟨Leaves.refl hr.sound hr.folds, by simp⟩
  expr _ t s r h hr := by
    obtain ⟨rfl, rfl⟩ := Runs.of_pure (by rwa [checkExpr] at h)
    exact ⟨Leaves.refl hr.sound hr.folds, hr.sound.wf.has_error, .inl rfl⟩
  value _ t s r h hr := by
    obtain ⟨rfl, rfl⟩ := Runs.of_pure (by rwa [checkValue] at h)
    exact ⟨Leaves.refl hr.sound hr.folds, hr.sound.wf.has_error, .inl rfl⟩
  condition _ t s r h hr := by
    obtain ⟨rfl, rfl⟩ := Runs.of_pure (by rwa [checkCondition] at h)
    exact ⟨Leaves.refl hr.sound hr.folds, hr.sound.wf.has_error, .inl rfl⟩
  values _ t s r h hr := by
    obtain ⟨rfl, rfl⟩ := Runs.of_pure (by rwa [checkValues] at h)
    exact ⟨Leaves.refl hr.sound hr.folds, by simp⟩
  sequence _ _ t s r h hr _ := by
    obtain ⟨rfl, rfl⟩ := Runs.of_pure (by rwa [checkSequence] at h)
    exact ⟨Leaves.refl hr.sound hr.folds, hr.sound.wf.has_error⟩
  infer e t s r h hr := by
    obtain ⟨rfl, rfl⟩ := Runs.of_pure (by rwa [inferExpr] at h)
    obtain ⟨-, he, hp⟩ := hr.freshAt (Expr.mem_subexprs_self e)
    exact ⟨Leaves.refl hr.sound hr.folds, hr.sound.wf.has_error, ⟨he, hp⟩, fitsAt_error _ _⟩
  sizeofOperand _ t s r h hr := by
    obtain ⟨rfl, rfl⟩ := Runs.of_pure (by rwa [sizeofTypeOperand] at h)
    exact ⟨Leaves.refl hr.sound hr.folds, fun _ => rfl, by simp⟩
  init _ _ t s r h hr _ := by
    obtain ⟨rfl, rfl⟩ := Runs.of_pure (by rwa [checkInit] at h)
    exact ⟨Leaves.refl hr.sound hr.folds, hr.sound.wf.has_error⟩
  arrayInit _ _ _ t s r h hr _ := by
    obtain ⟨rfl, rfl⟩ := Runs.of_pure (by rwa [checkArrayInit] at h)
    exact ⟨Leaves.refl hr.sound hr.folds, hr.sound.wf.has_error⟩
  inits _ _ t s h hr _ := by
    obtain ⟨-, rfl⟩ := Runs.of_pure (by rwa [checkInits] at h)
    exact Leaves.refl hr.sound hr.folds
  recordInit _ _ _ _ t s r h hr _ := by
    obtain ⟨rfl, rfl⟩ := Runs.of_pure (by rwa [checkRecordInit] at h)
    exact ⟨Leaves.refl hr.sound hr.folds, hr.sound.wf.has_error⟩
  fields _ _ _ t s h hr _ := by
    obtain ⟨-, rfl⟩ := Runs.of_pure (by rwa [checkFields] at h)
    exact Leaves.refl hr.sound hr.folds

section Step

variable {n : Nat} (ih : TypingFolds m n)
include ih

theorem resolveType_folds (node : TypeExpr) {t s : CheckState} {r : TypeId}
    (h : Runs (resolveType (n + 1) node) t r s) (hr : t.Ready m node.subexprs) :
    t.Leaves m node.subexprs s ∧ s.pool.Has r := by
  obtain ⟨id, span, volatile, kind⟩ := node
  rw [resolveType] at h
  have hnil : ∀ x ∈ ([] : List Expr), x ∈ TypeExpr.subexprs ⟨id, span, volatile, kind⟩ :=
    fun _ hx => absurd hx List.not_mem_nil
  cases kind with
  | void =>
    obtain ⟨ty, s₁, h₁, h⟩ := h.of_bind
    obtain ⟨rfl, rfl⟩ := h₁.of_pure
    exact (Leaves.refl hr.sound hr.folds).typeNode hr.sound.wf.has_void h
  | int w =>
    obtain ⟨ty, s₁, h₁, h⟩ := h.of_bind
    obtain ⟨rfl, rfl⟩ := h₁.of_pure
    exact (Leaves.refl hr.sound hr.folds).typeNode (hr.sound.wf.has_ofWidth w) h
  | ref name =>
    obtain ⟨ty, s₁, h₁, h⟩ := h.of_bind
    obtain ⟨l, hty⟩ := ih.typeName name span t s₁ ty h₁ (hr.of_sublist (List.nil_sublist _))
    exact (l.mono hnil).typeNode hty h
  | array inner size =>
    obtain ⟨elem, s₁, h₁, h⟩ := h.of_bind
    cases size with
    | none =>
      obtain ⟨l₁, helem⟩ := ih.type inner t s₁ elem h₁ hr
      obtain ⟨ty, s₂, h₂, h⟩ := h.of_bind
      obtain ⟨hs, hg, hty, hk, -⟩ :=
        Runs.of_triple (pointer_folds s₁ elem) h₂ ⟨rfl, l₁.sound, helem⟩
      exact (l₁.kept hk hs hg.toContinues).typeNode hty h
    | some size =>
      obtain ⟨l₁, helem⟩ := ih.type inner t s₁ elem h₁ hr.left
      obtain ⟨sizeTy, s₂, h₂, h⟩ := h.of_bind
      obtain ⟨l₂, -, -⟩ := ih.value size s₁ s₂ sizeTy h₂ (hr.next l₁)
      obtain ⟨ty, s₃, h₃, h⟩ := h.of_bind
      obtain ⟨⟨hs, hg, hty⟩, hk⟩ := Runs.of_triple (sizedArrayResult_folds s₂ elem size sizeTy)
        h₃ ⟨⟨.refl _, l₂.sound, l₂.has helem⟩, .refl _⟩
      exact ((l₁.trans l₂).kept hk hs hg.toContinues).typeNode hty h
  | func ret params variadic =>
    obtain ⟨rt, s₁, h₁, h⟩ := h.of_bind
    obtain ⟨l₁, hrt⟩ := ih.type ret t s₁ rt h₁ hr.left
    obtain ⟨ps, s₂, h₂, h⟩ := h.of_bind
    obtain ⟨l₂, hps⟩ := ih.params params s₁ s₂ ps h₂ (hr.next l₁)
    obtain ⟨ty, s₃, h₃, h⟩ := h.of_bind
    obtain ⟨⟨hs, hg, hty⟩, hk⟩ := Runs.of_triple (func_folds s₂ rt ps variadic)
      h₃ ⟨⟨.refl _, l₂.sound, l₂.has hrt, hps⟩, .refl _⟩
    exact ((l₁.trans l₂).kept hk hs hg.toContinues).typeNode hty h
  | record kind members =>
    obtain ⟨ty, s₁, h₁, h⟩ := h.of_bind
    obtain ⟨l, hty⟩ := ih.record _ kind none members none t s₁ ty h₁ hr (fun _ h => by cases h)
    exact l.typeNode hty h
  | typeOf e =>
    obtain ⟨ty, s₁, h₁, h⟩ := h.of_bind
    obtain ⟨l, hty, -⟩ := ih.expr e t s₁ ty h₁ hr
    exact l.typeNode hty h

theorem resolveParams_folds (ps : List TypeExpr) {t s : CheckState} {r : List TypeId}
    (h : Runs (resolveParams (n + 1) ps) t r s) (hr : t.Ready m (TypeExpr.subexprsOf ps)) :
    t.Leaves m (TypeExpr.subexprsOf ps) s ∧ ∀ q ∈ r, s.pool.Has q := by
  cases ps with
  | nil =>
    rw [resolveParams] at h
    obtain ⟨rfl, rfl⟩ := h.of_pure
    exact ⟨Leaves.refl hr.sound hr.folds, by simp⟩
  | cons p ps =>
    rw [resolveParams] at h
    obtain ⟨pt, s₁, h₁, h⟩ := h.of_bind
    obtain ⟨l₁, hpt⟩ := ih.type p t s₁ pt h₁ hr.left
    obtain ⟨ty, s₂, h₂, h⟩ := h.of_bind
    obtain ⟨⟨hs₂, hg₂, hty⟩, hk₂⟩ := Runs.of_triple (paramType_folds s₁ p pt) h₂
      ⟨⟨.refl _, l₁.sound, hpt⟩, .refl _⟩
    have l₂ := l₁.kept hk₂ hs₂ hg₂.toContinues
    obtain ⟨rest, s₃, h₃, h⟩ := h.of_bind
    obtain ⟨l₃, hrest⟩ := ih.params ps s₂ s₃ rest h₃ (hr.next l₂)
    obtain ⟨rfl, rfl⟩ := h.of_pure
    refine ⟨l₂.trans l₃, fun q hq => ?_⟩
    rcases List.mem_cons.mp hq with rfl | hq
    · exact l₃.has hty
    · exact hrest q hq

theorem resolveTypeName_folds (name : String) (span : Span) {t s : CheckState} {r : TypeId}
    (h : Runs (resolveTypeName (n + 1) name span) t r s) (hr : t.Ready m []) :
    t.Leaves m [] s ∧ s.pool.Has r := by
  rw [resolveTypeName] at h
  obtain ⟨_, s₁, h₁, h⟩ := h.of_bind
  obtain ⟨rfl, rfl⟩ := h₁.of_get
  split at h
  · -- an unknown name is reported and typed as the error type
    obtain ⟨_, s₂, h₂, h⟩ := h.of_bind
    obtain ⟨⟨hs₂, hg₂⟩, hk₂⟩ := Runs.of_triple (report_folds t _) h₂
      ⟨⟨.refl _, hr.sound, rfl⟩, .refl _⟩
    obtain ⟨rfl, rfl⟩ := h.of_pure
    exact ⟨Leaves.of_kept hk₂ hs₂ hg₂.toContinues hr.folds, hs₂.wf.has_error⟩
  · next sym _ =>
    obtain ⟨sm, s₂, h₂, h⟩ := h.of_bind
    obtain ⟨rfl, rfl⟩ := h₂.of_read
    dsimp only at h
    split at h
    · -- a name of something else than a type is refused
      obtain ⟨_, s₃, h₃, h⟩ := h.of_bind
      obtain ⟨⟨hs₃, hg₃⟩, hk₃⟩ := Runs.of_triple (fail_folds t _ _ _) h₃
        ⟨⟨.refl _, hr.sound, by decide⟩, .refl _⟩
      obtain ⟨rfl, rfl⟩ := h.of_pure
      exact ⟨Leaves.of_kept hk₃ hs₃ hg₃.toContinues hr.folds, hs₃.wf.has_error⟩
    · next hkind =>
      exact ih.symbolType sym t s r h hr (by simpa using hkind)

theorem typeSymbolType_folds (sym : Nat) {t s : CheckState} {r : TypeId}
    (h : Runs (typeSymbolType (n + 1) sym) t r s) (hr : t.Ready m [])
    (hkind : (t.scopes.symbol sym).kind = .type) : t.Leaves m [] s ∧ s.pool.Has r := by
  -- after the declaration behind the symbol is resolved, the symbol's type is read
  have tail : ∀ s₂, t.Leaves m [] s₂ →
      Runs (do let x ← symbol sym; pure x.ty) s₂ r s → t.Leaves m [] s ∧ s.pool.Has r := by
    intro s₂ l₂ h
    obtain ⟨sm, s₃, h₃, h⟩ := h.of_bind
    obtain ⟨rfl, rfl⟩ := h₃.of_read
    obtain ⟨rfl, rfl⟩ := h.of_pure
    exact ⟨l₂, l₂.sound.symbols sym⟩
  rw [typeSymbolType] at h
  obtain ⟨sm, s₁, h₁, h⟩ := h.of_bind
  obtain ⟨rfl, rfl⟩ := h₁.of_read
  dsimp only at h
  split at h
  · obtain ⟨_, s₂, h₂, h⟩ := h.of_bind
    exact tail s₂ (ih.typeDecl _ sym t s₂ h₂ hr hkind) h
  · exact tail t (Leaves.refl hr.sound hr.folds) h

theorem ensureTypeDecl_folds (hm : m.Numbered) (declId sym : Nat) {t s : CheckState}
    (h : Runs (ensureTypeDecl (n + 1) declId sym) t () s) (hr : t.Ready m [])
    (hkind : (t.scopes.symbol sym).kind = .type) : t.Leaves m [] s := by
  rw [ensureTypeDecl] at h
  obtain ⟨_, s₁, h₁, h⟩ := h.of_bind
  obtain ⟨rfl, rfl⟩ := h₁.of_get
  split at h
  · -- not a declaration held for resolution
    obtain ⟨-, rfl⟩ := h.of_pure
    exact Leaves.refl hr.sound hr.folds
  · -- already resolved
    obtain ⟨-, rfl⟩ := h.of_pure
    exact Leaves.refl hr.sound hr.folds
  · -- met again while being resolved: reported, and the name stands for the error type
    obtain ⟨_, s₂, h₂, h⟩ := h.of_bind
    obtain ⟨⟨hs₂, hg₂⟩, hk₂⟩ := Runs.of_triple (report_folds t _) h₂
      ⟨⟨.refl _, hr.sound, rfl⟩, .refl _⟩
    have l₂ : t.Leaves m [] s₂ := Leaves.of_kept hk₂ hs₂ hg₂.toContinues hr.folds
    obtain ⟨hs, hg, hf, hset, hc, he, hd⟩ := Runs.of_triple (modifySymbol_folds m s₂ sym .error) h
      ⟨rfl, hs₂, hs₂.wf.has_error, l₂.folds, by rw [hk₂.scopes]; exact hkind⟩
    exact l₂.trans (Leaves.of_tables hs hg.toContinues hf hset hc he hd)
  · -- resolved now: its nodes were pending, and are reached only by this resolution
    next d heq =>
    obtain ⟨hd, hid⟩ := hr.folds.typeDecls declId d .unresolved heq
    have hk : t.typeDecls[d.id]? = some (d, .unresolved) := hid ▸ heq
    have hnum : Numbered d.ty.subexprs := by
      have := hm.decl hd
      rw [Decl.subexprs_eq] at this
      exact this.left
    have hpend : ∀ y ∈ d.ty.subexprs, ¬ t.FreshAt y.id :=
      fun y hy hfresh => hfresh.not_mem_unresolved hk (List.mem_map_of_mem hy)
    dsimp only at h
    split at h
    · -- a struct or union is marked resolved before its members are
      next kind members hkd =>
      have hnodes : d.ty.subexprs = MemberDecl.subexprsOf members := by
        rw [TypeExpr.subexprs_eq, hkd]
        rfl
      obtain ⟨_, s₂, h₂, h⟩ := h.of_bind
      obtain ⟨hs₂, hg₂, rfl⟩ := Runs.of_triple (setTypeDeclState_folds t d .done) h₂ ⟨rfl, hr.sound⟩
      have l₂ : t.Leaves m [] (t.withTypeDecl d .done) :=
        Leaves.withTypeDecl hs₂ hg₂.toContinues hr.folds hd (by decide)
      have r₂ : (t.withTypeDecl d .done).Ready m (MemberDecl.subexprsOf members) :=
        hnodes ▸ ⟨l₂.sound, l₂.folds, fresh_of_resolving hm hr.folds hk (by decide), hnum⟩
      obtain ⟨ty, s₃, h₃, h⟩ := h.of_bind
      obtain ⟨l₃, -⟩ := ih.record d.ty kind (some d.name) members (some sym) _ s₃ ty h₃ r₂
        (fun _ hsym => by cases hsym; exact hkind)
      obtain ⟨⟨hs, hg⟩, hk'⟩ := Runs.of_triple (setDeclType_folds s₃ declId ty) h
        ⟨⟨.refl _, l₃.sound⟩, .refl _⟩
      exact ((l₂.trans l₃).forget (hnodes ▸ hpend)).kept hk' hs hg.toContinues
    · -- any other type is resolved under way, and its name takes the type found
      obtain ⟨_, s₂, h₂, h⟩ := h.of_bind
      obtain ⟨hs₂, hg₂, rfl⟩ :=
        Runs.of_triple (setTypeDeclState_folds t d .resolving) h₂ ⟨rfl, hr.sound⟩
      have l₂ : t.Leaves m [] (t.withTypeDecl d .resolving) :=
        Leaves.withTypeDecl hs₂ hg₂.toContinues hr.folds hd (by decide)
      obtain ⟨ty, s₃, h₃, h⟩ := h.of_bind
      obtain ⟨l₃, hty⟩ := ih.type d.ty _ s₃ ty h₃
        ⟨l₂.sound, l₂.folds, fresh_of_resolving hm hr.folds hk (by decide), hnum⟩
      obtain ⟨_, s₄, h₄, h⟩ := h.of_bind
      obtain ⟨hs₄, hg₄, rfl⟩ := Runs.of_triple (setTypeDeclState_folds s₃ d .done) h₄ ⟨rfl, l₃.sound⟩
      have l₄ : t.Leaves m [] (s₃.withTypeDecl d .done) :=
        ((l₂.trans l₃).forget hpend).trans
          (Leaves.withTypeDecl hs₄ hg₄.toContinues l₃.folds hd (by decide))
      have hkind₄ : ((s₃.withTypeDecl d .done).scopes.symbol sym).kind = .type := by
        rw [l₄.settles.kinds sym]
        exact hkind
      -- the type is read back from the symbol and recorded for the declaration
      have tail : ∀ s₅, t.Leaves m [] s₅ →
          Runs (do let x ← symbol sym; let ty ← pure x.ty; setDeclType declId ty) s₅ () s →
          t.Leaves m [] s := by
        intro s₅ l₅ h
        obtain ⟨sm, s₆, h₆, h⟩ := h.of_bind
        obtain ⟨rfl, rfl⟩ := h₆.of_read
        obtain ⟨ty', s₇, h₇, h⟩ := h.of_bind
        obtain ⟨rfl, rfl⟩ := h₇.of_pure
        obtain ⟨⟨hs, hg⟩, hk'⟩ := Runs.of_triple (setDeclType_folds s₅ declId _) h
          ⟨⟨.refl _, l₅.sound⟩, .refl _⟩
        exact l₅.kept hk' hs hg.toContinues
      obtain ⟨sm, s₅, h₅, h⟩ := h.of_bind
      obtain ⟨rfl, rfl⟩ := h₅.of_read
      split at h
      · obtain ⟨_, s₆, h₆, h⟩ := h.of_bind
        obtain ⟨hs, hg, hf, hset, hc, he, hd'⟩ := Runs.of_triple (modifySymbol_folds m _ sym ty) h₆
          ⟨rfl, l₄.sound, hty, l₄.folds, hkind₄⟩
        exact tail s₆ (l₄.trans (Leaves.of_tables hs hg.toContinues hf hset hc he hd')) h
      · exact tail _ l₄ h

theorem defineRecord_folds (node : TypeExpr) (kind : RecordKind) (name : Option String)
    (members : List MemberDecl) (binding : Option Nat) {t s : CheckState} {r : TypeId}
    (h : Runs (defineRecord (n + 1) node kind name members binding) t r s)
    (hr : t.Ready m (MemberDecl.subexprsOf members))
    (hbinding : ∀ sym ∈ binding, (t.scopes.symbol sym).kind = .type) :
    t.Leaves m (MemberDecl.subexprsOf members) s ∧ s.pool.Has r := by
  rw [defineRecord] at h
  obtain ⟨⟨rid, ty⟩, s₁, h₁, h⟩ := h.of_bind
  obtain ⟨⟨hs₁, hg₁, hty, hle, hrid, hempty, hip⟩, hf₁, hset₁, hc₁, he₁, hd₁⟩ :=
    Runs.of_triple (openRecord_folds m t node kind name binding) h₁
      ⟨rfl, hr.sound, hr.folds, hbinding⟩
  have l₁ : t.Leaves m [] s₁ := Leaves.of_tables hs₁ hg₁.toContinues hf₁ hset₁ hc₁ he₁ hd₁
  obtain ⟨ms, s₂, h₂, h⟩ := h.of_bind
  obtain ⟨l₂, hms⟩ := ih.members [] members s₁ s₂ ms h₂ (Ready.next (A := []) hr l₁)
  have l₁₂ := l₁.trans l₂
  obtain ⟨_, s₃, h₃, h⟩ := h.of_bind
  obtain ⟨rfl, rfl⟩ := h.of_pure
  -- the record's members are still empty and its layout unfinished when they are given
  have hext := l₂.continues.pool
  obtain ⟨⟨hs₃, hdiag, htypes, -, -, -, hpool⟩, hk₃⟩ := Runs.of_triple (closeRecord_folds s₂ rid ms)
    h₃ ⟨⟨rfl, l₂.sound, Nat.lt_of_lt_of_le hrid hext.records_le,
      (hext.members_eq hrid).trans hempty, hext.not_laidOut_of_inProgress hrid hip, hms⟩, .refl _⟩
  refine ⟨⟨hs₃, l₁₂.continues.close hle hdiag hpool, hk₃.folds_of_types htypes l₂.folds,
    l₁₂.settles.trans hk₃.settles, fun i hi hfresh => hk₃.freshAt (l₁₂.frame i hi hfresh)⟩, ?_⟩
  show ty.idx < s₃.pool.types.size
  rw [htypes]
  exact l₂.has hty

theorem resolveMembers_folds (seen : List (String × Span)) (ms : List MemberDecl)
    {t s : CheckState} {r : List Member} (h : Runs (resolveMembers (n + 1) seen ms) t r s)
    (hr : t.Ready m (MemberDecl.subexprsOf ms)) :
    t.Leaves m (MemberDecl.subexprsOf ms) s ∧ ∀ mem ∈ r, s.pool.Has mem.ty := by
  cases ms with
  | nil =>
    rw [resolveMembers] at h
    obtain ⟨rfl, rfl⟩ := h.of_pure
    exact ⟨Leaves.refl hr.sound hr.folds, by simp⟩
  | cons md ms =>
    obtain ⟨name, ty, bits, span⟩ := md
    rw [resolveMembers] at h
    obtain ⟨mt, s₁, h₁, h⟩ := h.of_bind
    obtain ⟨l₁, hmt⟩ := ih.type ty t s₁ mt h₁ hr.left
    obtain ⟨⟨member?, seen'⟩, s₂, h₂, h⟩ := h.of_bind
    obtain ⟨⟨hs₂, hg₂, hmember⟩, hk₂⟩ := Runs.of_triple (memberResult_folds s₁ seen _ mt) h₂
      ⟨⟨.refl _, l₁.sound, hmt⟩, .refl _⟩
    have l₂ := l₁.kept hk₂ hs₂ hg₂.toContinues
    obtain ⟨rest, s₃, h₃, h⟩ := h.of_bind
    obtain ⟨l₃, hrest⟩ := ih.members seen' ms s₂ s₃ rest h₃ (hr.next l₂)
    obtain ⟨rfl, rfl⟩ := h.of_pure
    refine ⟨l₂.trans l₃, fun mem hmem => ?_⟩
    cases member? with
    | none => exact hrest mem hmem
    | some member =>
      rcases List.mem_cons.mp hmem with rfl | hmem
      · exact l₃.has (hmember _ rfl)
      · exact hrest mem hmem

end Step

end Check

end SolarFront
