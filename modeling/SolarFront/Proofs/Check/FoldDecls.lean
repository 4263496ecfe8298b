import SolarFront.Proofs.Check.FoldExprs
import SolarFront.Proofs.Check.Passes
import SolarFront.Proofs.Typing.ScopeRuns

/-!
# Folded values fit their types: declarations and statements

A declaration types its nodes through the typing block, then binds a symbol. Only a constant's
symbol has a value: the value its initializer folded to, cut to the width of its integer type,
so it fits that type; a symbol that later declarations merge into is a variable's or a
function's, and has none. `CheckState.Covers m X` is what checking a declaration or a statement
keeps: the state sound, the invariant `CheckState.Folds m`, and every unreached node outside `X`
unreached. During the module-level pass `CheckState.Binds` says, besides, that only the
declaration at hand bound a symbol, that type names stay type names, and that no body was
queued.
-/

set_option autoImplicit false
set_option linter.all false
set_option mvcgen.warning false

namespace SolarFront

namespace ScopeStack

variable {sc sc' : ScopeStack} {sym : Symbol} {id : Nat}

/-- Only symbols of variables and functions take later declarations in. -/
theorem kind_of_mergeCheck {existing new : Symbol} (h : mergeCheck existing new = .ok ()) :
    existing.kind = new.kind ∧ (existing.kind = .var ∨ existing.kind = .func) := by
  unfold mergeCheck at h
  dsimp only at h
  split at h
  · cases h
  · next hkind =>
    simp only [Bool.or_eq_true, bne_iff_ne, ne_eq, Bool.not_eq_eq_eq_not, Bool.not_true, not_or,
      Decidable.not_not, Bool.not_eq_false, beq_iff_eq] at hkind
    exact hkind

/-- Past the end of the symbols is the default symbol, a variable's. -/
theorem lt_of_kind_ne_var {i : Nat} (h : (sc.symbol i).kind ≠ .var) : i < sc.symbols.size := by
  by_contra hi
  exact h (by simp [symbol, Array.getElem?_eq_none (Nat.le_of_not_lt hi)]; rfl)

/-- A declaration keeps every symbol that is not past the end, with its kind and value. -/
theorem declare_keeps (h : sc.declare sym = .ok (sc', id)) {i : Nat}
    (hi : (sc.symbol i).kind ≠ .var) :
    (sc'.symbol i).kind = (sc.symbol i).kind ∧ (sc'.symbol i).value = (sc.symbol i).value := by
  have hk := (keeps_declare h).symbol i (lt_of_kind_ne_var hi)
  exact ⟨hk.kind, hk.value⟩

/-- A type name is never merged into: its declaration adds its own symbol. -/
theorem symbol_declare_type (h : sc.declare sym = .ok (sc', id)) (hk : sym.kind = .type) :
    sc'.symbol id = sym := by
  rcases declare_eq_ok h with ⟨-, hm, -⟩ | ⟨-, rfl, rfl⟩
  · obtain ⟨hkind, hmerge⟩ := kind_of_mergeCheck hm
    rw [hkind, hk] at hmerge
    simp at hmerge
  · exact symbol_push_symbols_size _ _ _

/-- After a declaration the symbol at its index is the declared one, or an earlier variable or
function with its value. -/
theorem symbol_declare_self (h : sc.declare sym = .ok (sc', id)) :
    sc'.symbol id = sym ∨
      ((sc.symbol id).kind ≠ .const ∧ (sc'.symbol id).value = (sc.symbol id).value) := by
  rcases declare_eq_ok h with ⟨-, hm, rfl⟩ | ⟨-, rfl, rfl⟩
  · right
    have hkind : (sc.symbol id).kind ≠ .const := by
      rcases (kind_of_mergeCheck hm).2 with h | h <;> rw [h] <;> decide
    rcases symbol_modifySymbol sc id (merge · sym) id with heq | ⟨-, heq⟩
    · rw [heq]
      exact ⟨hkind, rfl⟩
    · refine ⟨hkind, ?_⟩
      rw [heq]
      exact (keeps_merge hm).value
  · exact .inl (symbol_push_symbols_size _ _ _)

end ScopeStack

namespace TypePool

/-- A pool that keeps another agrees with it on which of its types are integer types. -/
theorem Keeps.isIntegral_eq {p q : TypePool} (h : p.Keeps q) {t : TypeId} (ht : p.Has t) :
    q.isIntegral t = p.isIntegral t := by
  simp only [isIntegral, intWidth?, h.get_eq t ht]

end TypePool

/-- A variable's nodes past its type are its initial value's, if it has one. -/
@[simp] theorem DeclKind.subexprs_var (value : Option Expr) (isStatic : Bool) :
    DeclKind.subexprs (.var value isStatic) = (value.map Expr.subexprs).getD [] := by
  cases value <;> rfl

namespace CheckState

variable {m : Module} {t s u : CheckState} {X A B : List Expr}

/-- Declaring a symbol keeps the invariant when its value, if any, is a constant's and fits its
type: a symbol merged into keeps its value, which only a constant's symbol has. -/
theorem Folds.declare (hf : t.Folds m) {sym : Symbol} {sc : ScopeStack} {id : Nat}
    (hd : t.scopes.declare sym = .ok (sc, id))
    (hsym : ∀ v, sym.value = some v → sym.kind = .const ∧ t.pool.FoldsIn sym.ty v)
    (hscopes : s.scopes = sc) (hpool : s.pool = t.pool) (hc : s.consts = t.consts)
    (he : s.exprTypes = t.exprTypes) (htd : s.typeDecls = t.typeDecls) : s.Folds m where
  exprs i v ty hv hty := by
    rw [hc] at hv
    rw [he] at hty
    rw [hpool]
    exact hf.exprs i v ty hv hty
  symbols j v hv := by
    rw [hscopes] at hv ⊢
    rw [hpool]
    by_cases hj : j = id
    · subst hj
      rcases ScopeStack.symbol_declare_self hd with heq | ⟨hkind, hval⟩
      · rw [heq] at hv ⊢
        exact hsym v hv
      · rw [hval] at hv
        exact absurd (hf.symbols j v hv).1 hkind
    · rw [ScopeStack.symbol_declare_of_ne hd hj] at hv ⊢
      exact hf.symbols j v hv
  typeDecls k d st hk := by
    rw [htd] at hk
    exact hf.typeDecls k d st hk
  pending k d hk x hx := by
    rw [htd] at hk
    rw [hc, he]
    exact hf.pending k d hk x hx

/-- The symbols that the module's type declarations bound are type names. -/
def TypeNamed (m : Module) (s : CheckState) : Prop :=
  ∀ d ∈ m.decls, d.kind = .type → ∀ sym, s.declSymbols[d.id]? = some sym →
    (s.scopes.symbol sym).kind = .type

/-- From `t` to `s` only declaration `k` bound a symbol, type names stayed type names, and no
body was queued. -/
structure Binds (k : Nat) (t s : CheckState) : Prop where
  declSymbols : ∀ j, j ≠ k → s.declSymbols[j]? = t.declSymbols[j]?
  types : ∀ i, (t.scopes.symbol i).kind = .type → (s.scopes.symbol i).kind = .type
  pending : s.pending = t.pending

section Binds

variable {k : Nat}

theorem Binds.refl (k : Nat) (s : CheckState) : s.Binds k s := ⟨fun _ _ => rfl, fun _ h => h, rfl⟩

theorem Binds.trans (h : t.Binds k s) (h' : s.Binds k u) : t.Binds k u :=
  ⟨fun j hj => (h'.declSymbols j hj).trans (h.declSymbols j hj),
    fun i hi => h'.types i (h.types i hi), h'.pending.trans h.pending⟩

theorem Settles.binds (h : t.Settles s) (k : Nat) : t.Binds k s :=
  ⟨fun j _ => by rw [h.declSymbols], fun i hi => by rw [h.kinds i]; exact hi, h.pending⟩

/-- Type names stay bound to type names while only declaration `k` binds a symbol, where `k`
is no type declaration of the module or binds a type name. -/
theorem TypeNamed.binds (h : TypeNamed m t) (hb : t.Binds k s)
    (hk : ∀ d ∈ m.decls, d.kind = .type → d.id = k → ∀ sym, s.declSymbols[k]? = some sym →
      t.declSymbols[k]? = some sym ∨ (s.scopes.symbol sym).kind = .type) : TypeNamed m s := by
  intro d hd hkind sym hsym
  by_cases hdk : d.id = k
  · subst hdk
    rcases hk d hd hkind rfl sym hsym with ht | ht
    · exact hb.types sym (h d hd hkind sym ht)
    · exact ht
  · rw [hb.declSymbols d.id hdk] at hsym
    exact hb.types sym (h d hd hkind sym hsym)

end Binds

/-- What checking a declaration or a statement keeps: the state sound, the invariant, and every
unreached node outside `X` unreached. -/
structure Covers (m : Module) (X : List Expr) (t s : CheckState) : Prop where
  sound : s.Sound
  folds : s.Folds m
  frame : ∀ i, i ∉ X.map Expr.id → t.FreshAt i → s.FreshAt i

theorem Covers.refl (hs : t.Sound) (hf : t.Folds m) : t.Covers m X t := ⟨hs, hf, fun _ _ h => h⟩

theorem Covers.trans (h : t.Covers m A s) (h' : s.Covers m B u) : t.Covers m (A ++ B) u := by
  refine ⟨h'.sound, h'.folds, fun i hi hfresh => ?_⟩
  rw [List.map_append, List.mem_append, not_or] at hi
  exact h'.frame i hi.2 (h.frame i hi.1 hfresh)

theorem Covers.mono (h : t.Covers m A s) (hAB : ∀ x ∈ A, x ∈ B) : t.Covers m B s := by
  refine ⟨h.sound, h.folds, fun i hi => h.frame i fun hA => hi ?_⟩
  obtain ⟨x, hx, rfl⟩ := List.mem_map.mp hA
  exact List.mem_map_of_mem (hAB x hx)

theorem Leaves.covers (h : t.Leaves m X s) : t.Covers m X s := ⟨h.sound, h.folds, h.frame⟩

/-- A step that changes nothing folding reads covers any nodes. -/
theorem Covers.of_kept (hk : t.Kept s) (hs : s.Sound) (hc : t.Continues s) (hf : t.Folds m) :
    t.Covers m X s :=
  (Leaves.of_kept hk hs hc hf).covers

theorem Covers.trans_nil (h : t.Covers m X s) (h' : s.Covers m [] u) : t.Covers m X u :=
  List.append_nil X ▸ h.trans h'

theorem Covers.kept (h : t.Covers m X s) (hk : s.Kept u) (hs : u.Sound) (hc : s.Continues u) :
    t.Covers m X u :=
  h.trans_nil (Covers.of_kept hk hs hc h.folds)

/-- A step that changes nothing folding reads, nor the pool or the diagnostics. -/
theorem Covers.keep (c : t.Covers m X s) (hk : s.Kept u) (hpool : u.pool = s.pool)
    (hdiag : u.diagnostics = s.diagnostics) : t.Covers m X u :=
  c.kept hk (c.sound.frame hpool hdiag fun i => by rw [hk.scopes])
    ⟨hpool ▸ TypePool.Extends.refl _, hdiag ▸ List.prefix_refl _⟩

/-- Opening or closing a scope keeps every symbol, and so what was covered. -/
theorem Covers.scopes (c : t.Covers m X s) {sc : ScopeStack}
    (hsym : ∀ i, sc.symbol i = s.scopes.symbol i) : t.Covers m X { s with scopes := sc } where
  sound := c.sound.frame rfl rfl hsym
  folds := c.folds.of_tables (fun _ _ h => h) rfl rfl rfl fun j => .inl (hsym j)
  frame := c.frame

/-- Queueing a body changes nothing that folding reads but the queue. -/
theorem Covers.queue (c : t.Covers m X s) (P : Array (Decl × TypeId)) :
    t.Covers m X { s with pending := P } where
  sound := c.sound.frame rfl rfl fun _ => rfl
  folds := c.folds.of_tables (fun _ _ h => h) rfl rfl rfl fun _ => .inl rfl
  frame := c.frame

/-- The nodes that follow are still ready once the ones before are covered. -/
theorem Ready.rest (h : t.Ready m (A ++ B)) (c : t.Covers m A s) : s.Ready m B := by
  refine ⟨c.sound, c.folds, fun b hb => ?_, h.numbered.right⟩
  exact c.frame b.id (h.numbered.apart b hb) ((fresh_append.mp h.fresh).2 b hb)

section Steps

open Std.Do CheckM Check

variable {k : Nat} {s₁ : CheckState}

/-- A step that changes nothing folding reads keeps what was covered. -/
theorem Covers.advance {α : Type} {x : CheckM α} {a : α} (c : t.Covers m X s₁)
    (h : Runs x s₁ a s)
    (hx : ⦃fun s => ⌜(s₁.Grows s ∧ s.Sound) ∧ s₁.Kept s⌝⦄ x
      ⦃⇓ _ s => ⌜(s.Sound ∧ s₁.Grows s) ∧ s₁.Kept s⌝⦄) :
    t.Covers m X s ∧ s₁.Kept s ∧ s₁.Grows s := by
  obtain ⟨⟨hs, hg⟩, hk⟩ := Runs.of_triple hx h ⟨⟨.refl _, c.sound⟩, .refl _⟩
  exact ⟨c.kept hk hs hg.toContinues, hk, hg⟩

/-- So does a refusal. -/
theorem Covers.refuse {code : Code} {span : Span} {message : String} {u : Unit}
    (c : t.Covers m X s₁) (h : Runs (fail code span message) s₁ u s)
    (hc : code.isStatementError = false) : t.Covers m X s ∧ s₁.Kept s ∧ s₁.Grows s := by
  obtain ⟨⟨hs, hg⟩, hk⟩ := Runs.of_triple (fail_folds s₁ code span message) h
    ⟨⟨.refl _, c.sound, hc⟩, .refl _⟩
  exact ⟨c.kept hk hs hg.toContinues, hk, hg⟩

/-- A state update that changes nothing folding reads, nor the pool or the diagnostics. -/
theorem Covers.modify {f : CheckState → CheckState} {u : PUnit} (c : t.Covers m X s₁)
    (h : Runs (modify f) s₁ u s) (hview : (f s₁).foldView = s₁.foldView)
    (hpool : (f s₁).pool = s₁.pool) (hdiag : (f s₁).diagnostics = s₁.diagnostics) :
    t.Covers m X s := by
  obtain rfl := h.of_modify
  exact c.keep ⟨hview⟩ hpool hdiag

/-- A step that changes nothing folding reads keeps what was covered and bound. -/
theorem Covers.step {α : Type} {x : CheckM α} {a : α} (c : t.Covers m X s₁) (b : t.Binds k s₁)
    (h : Runs x s₁ a s)
    (hx : ⦃fun s => ⌜(s₁.Grows s ∧ s.Sound) ∧ s₁.Kept s⌝⦄ x
      ⦃⇓ _ s => ⌜(s.Sound ∧ s₁.Grows s) ∧ s₁.Kept s⌝⦄) :
    t.Covers m X s ∧ t.Binds k s ∧ s₁.Grows s := by
  obtain ⟨c', hk, hg⟩ := c.advance h hx
  exact ⟨c', b.trans (hk.settles.binds k), hg⟩

/-- So does a refusal. -/
theorem Covers.fail {code : Code} {span : Span} {message : String} {u : Unit}
    (c : t.Covers m X s₁) (b : t.Binds k s₁) (h : Runs (fail code span message) s₁ u s)
    (hc : code.isStatementError = false) : t.Covers m X s ∧ t.Binds k s ∧ s₁.Grows s := by
  obtain ⟨c', hk, hg⟩ := c.refuse h hc
  exact ⟨c', b.trans (hk.settles.binds k), hg⟩

/-- And so does a step that changes nothing folding reads, nor the pool or the diagnostics. -/
theorem Covers.frameStep (c : t.Covers m X s₁) (b : t.Binds k s₁) (hk : s₁.Kept s)
    (hpool : s.pool = s₁.pool) (hdiag : s.diagnostics = s₁.diagnostics) :
    t.Covers m X s ∧ t.Binds k s :=
  ⟨c.keep hk hpool hdiag, b.trans (hk.settles.binds k)⟩

end Steps

end CheckState

namespace Check

open Std.Do CheckM CheckState TypePool

variable {m : Module}

/-- A declaration binds its symbol, or is refused with a report. -/
theorem declareSymbol_runs {sym : Symbol} {t s : CheckState} {r : Option Nat}
    (h : Runs (declareSymbol sym) t r s) :
    (∃ sc id, t.scopes.declare sym = .ok (sc, id) ∧ r = some id ∧ s = { t with scopes := sc }) ∨
      (r = none ∧ ∃ dg, s = { t with diagnostics := t.diagnostics.push dg }) := by
  rw [declareSymbol] at h
  obtain ⟨_, s₁, h₁, h⟩ := h.of_bind
  obtain ⟨rfl, rfl⟩ := h₁.of_get
  split at h
  · next sc id hd =>
    obtain ⟨_, s₂, h₂, h⟩ := h.of_bind
    obtain rfl := h₂.of_modify
    obtain ⟨rfl, rfl⟩ := h.of_pure
    exact .inl ⟨sc, id, hd, rfl, rfl⟩
  · obtain ⟨_, s₂, h₂, h⟩ := h.of_bind
    obtain rfl := h₂.of_modify
    obtain ⟨rfl, rfl⟩ := h.of_pure
    exact .inr ⟨rfl, _, rfl⟩

/-- Binding a declaration's symbol records where the declaration stands, then declares the
symbol and remembers it as the declaration's, or is refused with a report. -/
theorem bindDecl_runs (d : Decl) (sym : Symbol) {t s : CheckState} {r : Option Nat}
    (h : Runs (bindDecl d sym) t r s) :
    (∃ sc id, t.scopes.declare sym = .ok (sc, id) ∧ r = some id ∧
      s = { t with
        declSpans := t.declSpans.insert d.id d.span, scopes := sc
        declSymbols := t.declSymbols.insert d.id id }) ∨
    (r = none ∧ ∃ dg, s = { t with
        declSpans := t.declSpans.insert d.id d.span, diagnostics := t.diagnostics.push dg }) := by
  rw [bindDecl] at h
  obtain ⟨_, s₁, h₁, h⟩ := h.of_bind
  obtain rfl := h₁.of_modify
  obtain ⟨bound, s₂, h₂, h⟩ := h.of_bind
  rcases declareSymbol_runs h₂ with ⟨sc, id, hd, rfl, rfl⟩ | ⟨rfl, dg, rfl⟩
  · dsimp only at h
    obtain ⟨_, s₃, h₃, h⟩ := h.of_bind
    obtain rfl := h₃.of_modify
    obtain ⟨rfl, rfl⟩ := h.of_pure
    exact .inl ⟨sc, id, hd, rfl, rfl⟩
  · dsimp only at h
    obtain ⟨rfl, rfl⟩ := h.of_pure
    exact .inr ⟨rfl, dg, rfl⟩

/-- Binding a declaration's symbol keeps the invariant and every unreached node, changes only
that declaration's entry among the bound symbols, and binds a type name to a type name. -/
theorem bindDecl_folds (d : Decl) (sym : Symbol) {t s : CheckState} {r : Option Nat}
    (h : Runs (bindDecl d sym) t r s) (hs : t.Sound) (hf : t.Folds m) (hty : t.pool.Has sym.ty)
    (hsym : ∀ v, sym.value = some v → sym.kind = .const ∧ t.pool.FoldsIn sym.ty v) :
    t.Covers m [] s ∧ t.Binds d.id s ∧
      (sym.kind = .type → (∀ id ∈ r, (s.scopes.symbol id).kind = .type) ∧
        ∀ id, s.declSymbols[d.id]? = some id →
          t.declSymbols[d.id]? = some id ∨ (s.scopes.symbol id).kind = .type) := by
  obtain ⟨hs', -⟩ := Runs.of_triple (bindDecl_spec t d sym) h ⟨Grows.refl t, hs, hty⟩
  rcases bindDecl_runs d sym h with ⟨sc, id, hd, rfl, rfl⟩ | ⟨rfl, dg, rfl⟩
  · -- bound: the declaration's entry names the symbol
    have htype : sym.kind = .type → (sc.symbol id).kind = .type := fun hk => by
      rw [ScopeStack.symbol_declare_type hd hk]
      exact hk
    refine ⟨⟨hs', hf.declare hd hsym rfl rfl rfl rfl rfl, fun _ _ h => h⟩,
      ⟨fun j hj => ?_, fun i hi => ?_, rfl⟩, fun hk => ⟨?_, fun id' hid => .inr ?_⟩⟩
    · show (t.declSymbols.insert d.id id)[j]? = t.declSymbols[j]?
      simp [Std.TreeMap.getElem?_insert, Ne.symm hj]
    · show (sc.symbol i).kind = .type
      rw [(ScopeStack.declare_keeps hd (by rw [hi]; decide)).1]
      exact hi
    · rintro _ ⟨⟩
      exact htype hk
    · simp only [Std.TreeMap.getElem?_insert_self, Option.some.injEq] at hid
      subst hid
      exact htype hk
  · -- refused: only a report is added
    exact ⟨⟨hs', hf.of_tables (fun _ _ h => h) rfl rfl rfl fun _ => .inl rfl, fun _ _ h => h⟩,
      ⟨fun _ _ => rfl, fun _ h => h, rfl⟩, fun _ => ⟨(fun _ hid => by cases hid), fun _ h => .inl h⟩⟩

/-! ### The typing block, entered with the module's budget -/

section Entry

variable (hm : m.Numbered)
include hm

theorem typeOfNode_folds (node : TypeExpr) {t s : CheckState} {r : TypeId}
    (h : Runs (typeOfNode node) t r s) (hr : t.Ready m node.subexprs) :
    t.Leaves m node.subexprs s ∧ s.pool.Has r := by
  rw [typeOfNode] at h
  obtain ⟨_, s₁, h₁, h⟩ := h.of_bind
  obtain ⟨rfl, rfl⟩ := h₁.of_get
  exact (typingFolds hm _).type node _ _ r h hr

theorem typeOfExpr_folds (e : Expr) {t s : CheckState} {r : TypeId}
    (h : Runs (typeOfExpr e) t r s) (hr : t.Ready m e.subexprs) :
    t.Leaves m e.subexprs s ∧ s.pool.Has r ∧ s.TypedAs e.id r := by
  rw [typeOfExpr] at h
  obtain ⟨_, s₁, h₁, h⟩ := h.of_bind
  obtain ⟨rfl, rfl⟩ := h₁.of_get
  exact (typingFolds hm _).expr e _ _ r h hr

theorem typeOfValue_folds (e : Expr) {t s : CheckState} {r : TypeId}
    (h : Runs (typeOfValue e) t r s) (hr : t.Ready m e.subexprs) :
    t.Leaves m e.subexprs s ∧ s.pool.Has r ∧ s.TypedAs e.id r := by
  rw [typeOfValue] at h
  obtain ⟨_, s₁, h₁, h⟩ := h.of_bind
  obtain ⟨rfl, rfl⟩ := h₁.of_get
  exact (typingFolds hm _).value e _ _ r h hr

theorem typeOfCondition_folds (e : Expr) {t s : CheckState} {r : TypeId}
    (h : Runs (typeOfCondition e) t r s) (hr : t.Ready m e.subexprs) :
    t.Leaves m e.subexprs s ∧ s.pool.Has r ∧ s.TypedAs e.id r := by
  rw [typeOfCondition] at h
  obtain ⟨_, s₁, h₁, h⟩ := h.of_bind
  obtain ⟨rfl, rfl⟩ := h₁.of_get
  exact (typingFolds hm _).condition e _ _ r h hr

theorem typeOfInit_folds (e : Expr) (ty : TypeId) {t s : CheckState} {r : TypeId}
    (h : Runs (typeOfInit e ty) t r s) (hr : t.Ready m e.subexprs) (hty : t.pool.Has ty) :
    t.Leaves m e.subexprs s ∧ s.pool.Has r := by
  rw [typeOfInit] at h
  obtain ⟨_, s₁, h₁, h⟩ := h.of_bind
  obtain ⟨rfl, rfl⟩ := h₁.of_get
  exact (typingFolds hm _).init e ty _ _ r h hr hty

theorem declareRecord_folds (node : TypeExpr) (kind : RecordKind) (name : Option String)
    (members : List MemberDecl) (binding : Option Nat) {t s : CheckState} {r : TypeId}
    (h : Runs (declareRecord node kind name members binding) t r s)
    (hr : t.Ready m (MemberDecl.subexprsOf members))
    (hbinding : ∀ sym ∈ binding, (t.scopes.symbol sym).kind = .type) :
    t.Leaves m (MemberDecl.subexprsOf members) s ∧ s.pool.Has r := by
  rw [declareRecord] at h
  obtain ⟨_, s₁, h₁, h⟩ := h.of_bind
  obtain ⟨rfl, rfl⟩ := h₁.of_get
  exact (typingFolds hm _).record node kind name members binding _ _ r h hr hbinding

theorem resolveTypeDecl_folds (declId sym : Nat) {t s : CheckState} {u : Unit}
    (h : Runs (resolveTypeDecl declId sym) t u s) (hr : t.Ready m [])
    (hkind : (t.scopes.symbol sym).kind = .type) : t.Leaves m [] s := by
  rw [resolveTypeDecl] at h
  obtain ⟨_, s₁, h₁, h⟩ := h.of_bind
  obtain ⟨rfl, rfl⟩ := h₁.of_get
  exact (typingFolds hm _).typeDecl declId sym _ _ h hr hkind

end Entry

/-! ### Declarations -/

variable (t : CheckState) in
theorem constantInitCheck_folds (d : Decl) (v : Expr) (needsConstant : Bool) :
    ⦃fun s => ⌜(t.Grows s ∧ s.Sound) ∧ t.Kept s⌝⦄ constantInitCheck d v needsConstant
    ⦃⇓ _ s => ⌜(s.Sound ∧ t.Grows s) ∧ t.Kept s⌝⦄ := by
  refine kept_of_view ?_ fun u => ?_
  · mvcgen [constantInitCheck]
    all_goals grind [Grows.refl, Grows.trans, sound_iff, grows_iff]
  · mvcgen [constantInitCheck, fail_view, -fail_spec]

/-- A constant's value fits its type: cut to the width of an integer type, and of any width for
the error type, the only other type a constant takes. -/
theorem constValue_folds (d : Decl) (value : Expr) (found ty : TypeId) {t s : CheckState}
    {r : Option Nat} (h : Runs (constValue d value found ty) t r s) (hs : t.Sound)
    (hty : ty = .error ∨ t.pool.isIntegral ty = true) :
    (s.Sound ∧ t.Grows s) ∧ t.Kept s ∧ ∀ v, r = some v → s.pool.FoldsIn ty v := by
  rw [constValue] at h
  obtain ⟨_, s₁, h₁, h⟩ := h.of_bind
  obtain ⟨rfl, rfl⟩ := h₁.of_read
  obtain ⟨_, s₂, h₂, h⟩ := h.of_bind
  obtain ⟨rfl, rfl⟩ := h₂.of_get
  split at h
  · next v w _ hw =>
    obtain ⟨rfl, rfl⟩ := h.of_pure
    refine ⟨⟨hs, .refl _⟩, .refl _, fun v' hv => ?_⟩
    cases hv
    exact foldsIn_of_intWidth hw (Width.truncate_lt w v)
  · next v _ hw =>
    -- a type with no integer width is the error type here
    obtain ⟨rfl, rfl⟩ := h.of_pure
    refine ⟨⟨hs, .refl _⟩, .refl _, fun v' _ => ?_⟩
    rcases hty with rfl | hint
    · exact foldsIn_error _ v'
    · simp [isIntegral, hw] at hint
  · -- no value: refused unless typed as the error type
    dsimp only at h
    split at h
    · obtain ⟨_, s₃, h₃, h⟩ := h.of_bind
      obtain ⟨rfl, rfl⟩ := h.of_pure
      exact ⟨Runs.of_triple (fail_folds t _ _ _) h₃ ⟨⟨.refl _, hs, rfl⟩, .refl _⟩ |>.1,
        Runs.of_triple (fail_folds t _ _ _) h₃ ⟨⟨.refl _, hs, rfl⟩, .refl _⟩ |>.2,
        fun _ hv => by cases hv⟩
    · obtain ⟨rfl, rfl⟩ := h.of_pure
      exact ⟨⟨hs, .refl _⟩, .refl _, fun _ hv => by cases hv⟩

section Decls

variable (hm : m.Numbered)
include hm

/-- A variable's nodes are its type's, then its initial value's. -/
theorem checkVar_folds (d : Decl) (value : Option Expr) (isStatic : Bool) {t s : CheckState}
    {u : Unit} (h : Runs (checkVar d value isStatic) t u s)
    (hr : t.Ready m (d.ty.subexprs ++ (value.map Expr.subexprs).getD [])) :
    t.Covers m (d.ty.subexprs ++ (value.map Expr.subexprs).getD []) s ∧ t.Binds d.id s := by
  rw [checkVar] at h
  obtain ⟨_, s₁, h₁, h⟩ := h.of_bind
  obtain ⟨rfl, rfl⟩ := h₁.of_get
  obtain ⟨declared, s₂, h₂, h⟩ := h.of_bind
  obtain ⟨l₂, hdeclared⟩ := typeOfNode_folds hm d.ty h₂ hr.left
  obtain ⟨ty, s₃, h₃, h⟩ := h.of_bind
  -- a variable of type `void` is refused, and takes the error type
  have c₃ : t.Covers m d.ty.subexprs s₃ ∧ t.Binds d.id s₃ ∧ s₃.pool.Has ty := by
    split at h₃
    · obtain ⟨_, s', h', h₃⟩ := h₃.of_bind
      obtain ⟨c', b', -⟩ := l₂.covers.fail (l₂.settles.binds d.id) h' rfl
      obtain ⟨rfl, rfl⟩ := h₃.of_pure
      exact ⟨c', b', c'.sound.wf.has_error⟩
    · obtain ⟨rfl, rfl⟩ := h₃.of_pure
      exact ⟨l₂.covers, l₂.settles.binds d.id, hdeclared⟩
  obtain ⟨c₃, b₃, hty⟩ := c₃
  -- the initial value is typed against the variable's type
  obtain ⟨ty', s₄, h₄, h⟩ := h.of_bind
  have c₄ : t.Covers m (d.ty.subexprs ++ (value.map Expr.subexprs).getD []) s₄ ∧
      t.Binds d.id s₄ ∧ s₄.pool.Has ty' := by
    cases value with
    | some v =>
      obtain ⟨ty'', s', h', h₄⟩ := h₄.of_bind
      obtain ⟨l', hty''⟩ := typeOfInit_folds hm v ty h' (hr.rest c₃) hty
      obtain ⟨_, s'', h'', h₄⟩ := h₄.of_bind
      obtain ⟨c'', b'', g''⟩ := (c₃.trans l'.covers).step (b₃.trans (l'.settles.binds d.id)) h''
        (constantInitCheck_folds _ d v _)
      obtain ⟨rfl, rfl⟩ := h₄.of_pure
      exact ⟨c'', b'', g''.has hty''⟩
    | none =>
      dsimp only at h₄
      split at h₄
      · obtain ⟨_, s', h', h₄⟩ := h₄.of_bind
        obtain ⟨c', b', g'⟩ := c₃.fail b₃ h' rfl
        obtain ⟨rfl, rfl⟩ := h₄.of_pure
        exact ⟨by simpa using c', b', g'.has hty⟩
      · obtain ⟨rfl, rfl⟩ := h₄.of_pure
        exact ⟨by simpa using c₃, b₃, hty⟩
  obtain ⟨c₄, b₄, hty'⟩ := c₄
  obtain ⟨bound, s₅, h₅, h⟩ := h.of_bind
  obtain ⟨c₅, b₅, -⟩ := bindDecl_folds d _ h₅ c₄.sound c₄.folds hty' fun _ hv => by cases hv
  have c₅' := c₄.trans_nil c₅
  -- a static local is remembered, which folding does not read
  obtain ⟨_, s₆, h₆, h⟩ := h.of_bind
  have c₆ : t.Covers m (d.ty.subexprs ++ (value.map Expr.subexprs).getD []) s₆ ∧
      t.Binds d.id s₆ := by
    cases bound with
    | none =>
      obtain ⟨rfl, rfl⟩ := h₆.of_pure
      exact ⟨c₅', b₄.trans b₅⟩
    | some id =>
      obtain ⟨_, s', h', h₆⟩ := h₆.of_bind
      obtain ⟨rfl, rfl⟩ := h'.of_get
      split at h₆
      · obtain rfl := h₆.of_modify
        exact c₅'.frameStep (b₄.trans b₅) ⟨rfl⟩ rfl rfl
      · obtain ⟨rfl, rfl⟩ := h₆.of_pure
        exact ⟨c₅', b₄.trans b₅⟩
  obtain ⟨c₆, b₆⟩ := c₆
  obtain ⟨c, b, -⟩ := c₆.step b₆ h (setDeclType_folds _ d.id ty')
  exact ⟨c, b⟩

/-- A constant's nodes are its type's, then its value's; its symbol takes the value folded,
which fits its type. -/
theorem checkConst_folds (d : Decl) (value : Expr) (isStatic : Bool) {t s : CheckState}
    {u : Unit} (h : Runs (checkConst d value isStatic) t u s)
    (hr : t.Ready m (d.ty.subexprs ++ value.subexprs)) :
    t.Covers m (d.ty.subexprs ++ value.subexprs) s ∧ t.Binds d.id s := by
  rw [checkConst] at h
  obtain ⟨declared, s₁, h₁, h⟩ := h.of_bind
  obtain ⟨l₁, hdeclared⟩ := typeOfNode_folds hm d.ty h₁ hr.left
  obtain ⟨_, s₂, h₂, h⟩ := h.of_bind
  obtain ⟨rfl, rfl⟩ := h₂.of_get
  obtain ⟨ty, s₃, h₃, h⟩ := h.of_bind
  -- a constant of any type but an integer type is refused, and takes the error type
  have c₃ : t.Covers m d.ty.subexprs s₃ ∧ t.Binds d.id s₃ ∧ s₃.pool.Has ty ∧
      (ty = .error ∨ s₃.pool.isIntegral ty = true) := by
    split at h₃
    · obtain ⟨_, s', h', h₃⟩ := h₃.of_bind
      obtain ⟨-, rfl⟩ := h'.of_read
      obtain ⟨_, s'', h'', h₃⟩ := h₃.of_bind
      obtain ⟨c'', b'', -⟩ := l₁.covers.fail (l₁.settles.binds d.id) h'' rfl
      obtain ⟨rfl, rfl⟩ := h₃.of_pure
      exact ⟨c'', b'', c''.sound.wf.has_error, .inl rfl⟩
    · next hc =>
      obtain ⟨rfl, rfl⟩ := h₃.of_pure
      refine ⟨l₁.covers, l₁.settles.binds d.id, hdeclared, ?_⟩
      cases he : declared.isError
      · exact .inr (by simpa [he] using hc)
      · exact .inl (TypeId.isError_iff.mp he)
  obtain ⟨c₃, b₃, hty, hint⟩ := c₃
  obtain ⟨found, s₄, h₄, h⟩ := h.of_bind
  obtain ⟨l₄, -, -⟩ := typeOfValue_folds hm value h₄ (hr.rest c₃)
  obtain ⟨_, s₅, h₅, h⟩ := h.of_bind
  obtain ⟨_, h₅⟩ := h₅.of_discard
  obtain ⟨c₅, b₅, g₅⟩ := (c₃.trans l₄.covers).step (b₃.trans (l₄.settles.binds d.id)) h₅
    (checkAssignable_folds _ found ty _ _)
  -- the pool keeps the type an integer type up to the folding
  have k₅ : s₃.pool.Keeps s₅.pool := l₄.continues.pool.toKeeps.trans g₅.keeps
  obtain ⟨folded, s₆, h₆, h⟩ := h.of_bind
  obtain ⟨⟨hs₆, g₆⟩, k₆, hfolded⟩ := constValue_folds d value found ty h₆ c₅.sound
    (hint.imp_right fun hi => (k₅.isIntegral_eq hty).trans hi)
  have c₆ := c₅.kept k₆ hs₆ g₆.toContinues
  obtain ⟨_, s₇, h₇, h⟩ := h.of_bind
  obtain ⟨rfl, rfl⟩ := h₇.of_get
  obtain ⟨_, s₈, h₈, h⟩ := h.of_bind
  obtain ⟨_, h₈⟩ := h₈.of_discard
  obtain ⟨c₈, b₈, -⟩ := bindDecl_folds d _ h₈ c₆.sound c₆.folds (g₆.has (k₅.has hty))
    fun v hv => ⟨rfl, hfolded v hv⟩
  obtain ⟨c, b, -⟩ := (c₆.trans_nil c₈).step ((b₅.trans (k₆.settles.binds d.id)).trans b₈) h
    (setDeclType_folds _ d.id ty)
  exact ⟨c, b⟩

/-- A function's type nodes are checked with its declaration; its body waits in the queue. -/
theorem checkFuncDecl_folds (d : Decl) (hasBody isStatic isInline : Bool) {t s : CheckState}
    {u : Unit} (h : Runs (checkFuncDecl d hasBody isStatic isInline) t u s)
    (hr : t.Ready m d.ty.subexprs) :
    ∃ s', t.Covers m d.ty.subexprs s' ∧ t.Binds d.id s' ∧
      (s = s' ∨ ∃ ty, s = { s' with pending := s'.pending.push (d, ty) }) := by
  rw [checkFuncDecl] at h
  obtain ⟨ty, s₁, h₁, h⟩ := h.of_bind
  obtain ⟨l₁, hty⟩ := typeOfNode_folds hm d.ty h₁ hr
  -- a function with no body that is not marked `declare` is refused
  obtain ⟨_, s₂, h₂, h⟩ := h.of_bind
  have c₂ : t.Covers m d.ty.subexprs s₂ ∧ t.Binds d.id s₂ ∧ s₁.Grows s₂ := by
    split at h₂
    · exact l₁.covers.fail (l₁.settles.binds d.id) h₂ rfl
    · obtain ⟨rfl, rfl⟩ := h₂.of_pure
      exact ⟨l₁.covers, l₁.settles.binds d.id, .refl _⟩
  obtain ⟨c₂, b₂, g₂⟩ := c₂
  obtain ⟨_, s₃, h₃, h⟩ := h.of_bind
  obtain ⟨_, h₃⟩ := h₃.of_discard
  obtain ⟨c₃, b₃, -⟩ := bindDecl_folds d _ h₃ c₂.sound c₂.folds (g₂.has hty)
    fun _ hv => by cases hv
  obtain ⟨_, s₄, h₄, h⟩ := h.of_bind
  obtain ⟨c₄, b₄, -⟩ := (c₂.trans_nil c₃).step (b₂.trans b₃) h₄ (setDeclType_folds _ d.id ty)
  refine ⟨s₄, c₄, b₄, ?_⟩
  split at h
  · exact .inr ⟨ty, h.of_modify⟩
  · exact .inl h.of_pure.2.symm

/-- A type declared in a function: its type nodes are checked, a struct or union binding its
name before its members are resolved. -/
theorem defineLocalType_folds (d : Decl) {t s : CheckState} {u : Unit}
    (h : Runs (defineLocalType d) t u s) (hr : t.Ready m d.ty.subexprs) :
    t.Covers m d.ty.subexprs s := by
  rw [defineLocalType] at h
  obtain ⟨ty, s₁, h₁, h⟩ := h.of_bind
  have c₁ : t.Covers m d.ty.subexprs s₁ ∧ t.Binds d.id s₁ := by
    split at h₁
    · next kind members hk =>
      obtain ⟨sym, s', h', h₁⟩ := h₁.of_bind
      obtain ⟨c', b', htype⟩ := bindDecl_folds d _ h' hr.sound hr.folds hr.sound.wf.has_error
        fun _ hv => by cases hv
      rw [TypeExpr.subexprs_eq, hk] at hr ⊢
      obtain ⟨l₁, -⟩ := declareRecord_folds hm d.ty kind (some d.name) members sym h₁
        (Ready.rest (A := []) hr c') (htype rfl).1
      exact ⟨c'.trans l₁.covers, b'.trans (l₁.settles.binds d.id)⟩
    · obtain ⟨ty', s', h', h₁⟩ := h₁.of_bind
      obtain ⟨l', hty'⟩ := typeOfNode_folds hm d.ty h' hr
      obtain ⟨_, s'', h'', h₁⟩ := h₁.of_bind
      obtain ⟨_, h''⟩ := h''.of_discard
      obtain ⟨c'', b'', -⟩ := bindDecl_folds d _ h'' l'.sound l'.folds hty'
        fun _ hv => by cases hv
      obtain ⟨rfl, rfl⟩ := h₁.of_pure
      exact ⟨l'.covers.trans_nil c'', (l'.settles.binds d.id).trans b''⟩
  obtain ⟨c₁, b₁⟩ := c₁
  exact (c₁.step b₁ h (setDeclType_folds _ d.id ty)).1

/-- A declaration in a function body covers its nodes; a nested function is skipped. -/
theorem checkLocalDecl_folds (d : Decl) {t s : CheckState} {u : Unit}
    (h : Runs (checkLocalDecl d) t u s) (hr : t.Ready m d.subexprs) : t.Covers m d.subexprs s := by
  rw [checkLocalDecl] at h
  rw [Decl.subexprs_eq] at hr ⊢
  split at h
  · next value isStatic hk =>
    rw [hk, DeclKind.subexprs_var] at hr ⊢
    exact (checkVar_folds hm d value isStatic h hr).1
  · next value isStatic hk =>
    rw [hk] at hr ⊢
    exact (checkConst_folds hm d value isStatic h hr).1
  · obtain ⟨rfl, rfl⟩ := h.of_pure
    exact .refl hr.sound hr.folds
  · next hk =>
    simp only [hk, DeclKind.subexprs, List.append_nil] at hr ⊢
    exact defineLocalType_folds hm d h hr

/-- A module-level declaration covers its nodes, keeps type names bound to type names, and
queues at most its own body, unreached. -/
theorem checkDecl_folds (d : Decl) (hd : d ∈ m.decls) {t s : CheckState} {u : Unit}
    (h : Runs (checkDecl d) t u s) (hs : t.Sound) (hf : t.Folds m) (hnamed : TypeNamed m t)
    (hfresh : d.kind ≠ .type → Fresh d.subexprs t) :
    t.Covers m d.subexprs s ∧ TypeNamed m s ∧
      (s.pending = t.pending ∨
        ∃ ty, s.pending = t.pending.push (d, ty) ∧ Fresh d.kind.subexprs s) := by
  -- a declaration that is no type declaration shares its identifier with none
  have hother : ∀ s' : CheckState, d.kind ≠ .type → ∀ d' ∈ m.decls, d'.kind = .type →
      d'.id = d.id → ∀ sym, s'.declSymbols[d.id]? = some sym →
        t.declSymbols[d.id]? = some sym ∨ (s'.scopes.symbol sym).kind = .type :=
    fun _ hk d' hd' hk' hid => absurd (hm.eq_of_id hd' hd hid ▸ hk') hk
  have hready : d.kind ≠ .type → t.Ready m (d.ty.subexprs ++ d.kind.subexprs) :=
    fun hk => Decl.subexprs_eq d ▸ ⟨hs, hf, hfresh hk, hm.decl hd⟩
  rw [checkDecl] at h
  rw [Decl.subexprs_eq]
  split at h
  · next value isStatic hk =>
    have hr := hready (by simp [hk])
    rw [hk, DeclKind.subexprs_var] at hr ⊢
    obtain ⟨c, b⟩ := checkVar_folds hm d value isStatic h hr
    exact ⟨c, hnamed.binds b (hother _ (by simp [hk])), .inl b.pending⟩
  · next value isStatic hk =>
    have hr := hready (by simp [hk])
    rw [hk] at hr ⊢
    obtain ⟨c, b⟩ := checkConst_folds hm d value isStatic h hr
    exact ⟨c, hnamed.binds b (hother _ (by simp [hk])), .inl b.pending⟩
  · next params body isStatic isInline hk =>
    have hr := hready (by simp [hk])
    obtain ⟨s', c, b, hs'⟩ := checkFuncDecl_folds hm d body.isSome isStatic isInline h hr.left
    have c' : t.Covers m (d.ty.subexprs ++ d.kind.subexprs) s' :=
      c.mono fun x hx => List.mem_append_left _ hx
    have hnamed' : TypeNamed m s' := hnamed.binds b (hother _ (by simp [hk]))
    -- the body's nodes are apart from the type's, so they are still unreached
    have hbody : Fresh d.kind.subexprs s' := fun x hx =>
      c.frame x.id (hr.numbered.apart x hx) (hr.fresh x (List.mem_append_right _ hx))
    rcases hs' with rfl | ⟨ty, rfl⟩
    · exact ⟨c', hnamed', .inl b.pending⟩
    · exact ⟨c'.queue _, hnamed', .inr ⟨ty, by rw [b.pending], hbody⟩⟩
  · next hk =>
    obtain ⟨_, s₁, h₁, h⟩ := h.of_bind
    obtain ⟨rfl, rfl⟩ := h₁.of_get
    split at h
    · -- a type declaration is resolved, unless a use resolved it before
      next sym hsym =>
      have l := resolveTypeDecl_folds hm d.id sym h (Ready.nil hs hf)
        (hnamed d hd hk sym (by simpa using hsym))
      refine ⟨l.covers.mono (fun _ hx => by cases hx), ?_, .inl l.settles.pending⟩
      exact hnamed.binds (l.settles.binds d.id) fun _ _ _ _ sym' hsym' =>
        .inl (by rwa [l.settles.declSymbols] at hsym')
    · obtain ⟨rfl, rfl⟩ := h.of_pure
      exact ⟨.refl hs hf, hnamed, .inl rfl⟩

end Decls

end Check

end SolarFront
