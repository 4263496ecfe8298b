import SolarFront.Proofs.Check.FoldRules
import SolarFront.Proofs.Check.Suppression

/-!
# Checking reaches each node once

The typing functions are followed run by run: `CheckM.Runs x s a s'` says that `x`, run from `s`,
gives `a` and leaves `s'`. A run of a sequence is a run of each step in turn (`Runs.of_bind`),
and a triple of a step says what a run of it does (`Runs.of_triple`).

A check of the expression nodes `X` starts from a state that is `Ready`: sound, keeping the
invariant `Folds`, with the nodes of `X` numbered and unreached. It ends in a state that the start
`Leaves`: still sound and keeping the invariant, continuing the start, with what was typed
settled, and with every node outside `X` that was unreached still unreached. A check that
resolves a type declaration on the way reaches that declaration's nodes too, but these were
pending and so never unreached. Checking one part of the nodes and then the rest leaves the
whole (`Leaves.trans`), and what the first part leaves is ready for the rest (`Ready.next`).
-/

set_option autoImplicit false
set_option linter.all false

namespace SolarFront

namespace CheckM

open Std.Do

section Runs

variable {α β : Type} {x : CheckM α} {f : α → CheckM β} {s s' : CheckState} {a : α} {b : β}

/-- A run of a sequence is a run of its first step and then of the rest. -/
theorem Runs.of_bind (h : Runs (x >>= f) s b s') :
    ∃ a s₁, Runs x s a s₁ ∧ Runs (f a) s₁ b s' := by
  refine ⟨(x.run s).1, (x.run s).2, rfl, ?_⟩
  unfold Runs at *
  rw [StateT.run_bind] at h
  exact h

theorem Runs.of_pure {a' : α} (h : Runs (pure a : CheckM α) s a' s') : a = a' ∧ s = s' := by
  unfold Runs at h
  cases h
  exact ⟨rfl, rfl⟩

theorem Runs.of_get {t : CheckState} (h : Runs (get : CheckM CheckState) s t s') :
    s = t ∧ s = s' := by
  unfold Runs at h
  cases h
  exact ⟨rfl, rfl⟩

theorem Runs.of_map {g : α → β} (h : Runs (g <$> x) s b s') : ∃ a, Runs x s a s' ∧ g a = b := by
  have hrun : (g <$> x).run s = (g (x.run s).1, (x.run s).2) := rfl
  unfold Runs at *
  rw [hrun, Prod.mk.injEq] at h
  obtain ⟨rfl, rfl⟩ := h
  exact ⟨(x.run s).1, rfl, rfl⟩

theorem Runs.of_modify {f : CheckState → CheckState} {u : PUnit} (h : Runs (modify f) s u s') :
    s' = f s := by
  unfold Runs at h
  exact (Prod.mk.inj h).2.symm

theorem Runs.of_discard (h : Runs (Functor.discard x) s () s') : ∃ a, Runs x s a s' :=
  (Runs.of_map h).imp fun _ h => h.1

/-- A run of a step that only reads the state changes nothing. -/
theorem Runs.of_read {g : CheckState → α} (h : Runs (do return g (← get)) s a s') :
    g s = a ∧ s = s' := by
  unfold Runs at h
  cases h
  exact ⟨rfl, rfl⟩

/-- What a triple of a step promises of its runs. -/
theorem Runs.of_triple {P : CheckState → Prop} {Q : α → CheckState → Prop}
    (hx : ⦃fun s => ⌜P s⌝⦄ x ⦃⇓ r s => ⌜Q r s⌝⦄) (h : Runs x s a s') (hP : P s) : Q a s' :=
  StateM.of_wp_run_eq h (fun r => Q r.1 r.2) fun _ => hx s hP

/-- A run of a loop over a list whose body always goes on, by an invariant over the elements
still to go that each pass of the body keeps. -/
theorem Runs.forIn_list {γ : Type} {xs : List γ} {f : γ → PUnit → CheckM (ForInStep PUnit)}
    {u : PUnit} (I : List γ → CheckState → Prop)
    (step : ∀ x rest t s r, x :: rest <:+ xs → I (x :: rest) t → Runs (f x ⟨⟩) t r s →
      I rest s ∧ r = .yield ⟨⟩)
    (h : Runs (forIn xs ⟨⟩ f) s u s') (hI : I xs s) : I [] s' := by
  -- the induction runs over the suffixes of the list, the elements still to go
  suffices key : ∀ ys, ys <:+ xs → ∀ s, I ys s → Runs (forIn ys ⟨⟩ f) s u s' → I [] s' from
    key xs (List.suffix_refl xs) s hI h
  intro ys
  induction ys with
  | nil =>
    intro _ s hI h
    rw [List.forIn_nil] at h
    obtain ⟨-, rfl⟩ := h.of_pure
    exact hI
  | cons x rest ih =>
    intro hsuf s hI h
    rw [List.forIn_cons] at h
    obtain ⟨r, s₁, h₁, h⟩ := h.of_bind
    obtain ⟨hI₁, rfl⟩ := step x rest s s₁ r hsuf hI h₁
    exact ih ((List.suffix_cons x rest).trans hsuf) s₁ hI₁ h

end Runs

end CheckM

namespace CheckState

open TypePool

/-- A state from which the nodes `X` may be checked: sound and keeping the invariant of `m`,
with the nodes of `X` numbered and unreached. -/
structure Ready (m : Module) (X : List Expr) (s : CheckState) : Prop where
  sound : s.Sound
  folds : s.Folds m
  fresh : Fresh X s
  numbered : Numbered X

/-- From `t` to `s` the checker kept the state sound and the invariant of `m`, settled what it
typed, and reached no node that was unreached at `t` other than those of `X`. -/
structure Leaves (m : Module) (X : List Expr) (t s : CheckState) : Prop where
  sound : s.Sound
  continues : t.Continues s
  folds : s.Folds m
  settles : t.Settles s
  frame : ∀ i, i ∉ X.map Expr.id → t.FreshAt i → s.FreshAt i

/-- What typing an expression node leaves before its type is recorded: its nodes checked, the
node itself untyped, with a value that fits the type found if it has one. -/
structure Inferred (m : Module) (e : Expr) (t s : CheckState) (ty : TypeId) : Prop where
  leaves : t.Leaves m e.subexprs s
  has : s.pool.Has ty
  untyped : s.Untyped e.id
  fits : s.FitsAt e.id ty

section Reach

variable {m : Module} {X A B : List Expr} {t s u : CheckState} {i : Nat}

/-- A node that is unreached is no node of a type declaration still unresolved. -/
theorem FreshAt.not_mem_unresolved (h : t.FreshAt i) {k : Nat} {d : Decl}
    (hk : t.typeDecls[k]? = some (d, .unresolved)) : i ∉ d.ty.subexprs.map Expr.id :=
  fun hi => h.2.2 ⟨k, d, hk, hi⟩

theorem FreshAt.withTypeDecl (h : t.FreshAt i) {d : Decl} {st : TypeDeclState}
    (hst : st ≠ .unresolved) : (t.withTypeDecl d st).FreshAt i :=
  ⟨h.1, h.2.1, fun hp => h.2.2 (hp.of_withTypeDecl hst)⟩

/-- A state that did not have a record yet is continued when that record is closed. -/
theorem Continues.close {rid : Nat} (h : t.Continues s) (hle : t.pool.records.size ≤ rid)
    (hdiag : u.diagnostics = s.diagnostics)
    (hpool : ∀ p : TypePool, p.records.size ≤ rid → p.Extends s.pool → p.Extends u.pool) :
    t.Continues u :=
  ⟨hpool _ hle h.pool, hdiag ▸ h.diagnostics⟩

theorem Ready.left (h : t.Ready m (A ++ B)) : t.Ready m A :=
  ⟨h.sound, h.folds, fresh_append.mp h.fresh |>.1, h.numbered.left⟩

theorem Ready.right (h : t.Ready m (A ++ B)) : t.Ready m B :=
  ⟨h.sound, h.folds, fresh_append.mp h.fresh |>.2, h.numbered.right⟩

theorem Ready.of_sublist (h : t.Ready m B) (hAB : List.Sublist A B) : t.Ready m A :=
  ⟨h.sound, h.folds, h.fresh.mono fun _ hx => hAB.subset hx, h.numbered.of_sublist hAB⟩

/-- What checking the first part of the nodes leaves is ready for the rest. -/
theorem Ready.next (h : t.Ready m (A ++ B)) (h' : t.Leaves m A s) : s.Ready m B := by
  refine ⟨h'.sound, h'.folds, fun b hb => ?_, h.numbered.right⟩
  exact h'.frame b.id (h.numbered.apart b hb) ((fresh_append.mp h.fresh).2 b hb)

theorem Ready.freshAt (h : t.Ready m X) {x : Expr} (hx : x ∈ X) : t.FreshAt x.id := h.fresh x hx

theorem Ready.nil (hs : t.Sound) (hf : t.Folds m) : t.Ready m [] :=
  ⟨hs, hf, fresh_nil t, List.nodup_nil, fun _ h => absurd h List.not_mem_nil⟩

theorem Leaves.refl (hs : t.Sound) (hf : t.Folds m) : t.Leaves m X t :=
  ⟨hs, Continues.refl t, hf, Settles.refl t, fun _ _ h => h⟩

theorem Leaves.trans (h : t.Leaves m A s) (h' : s.Leaves m B u) : t.Leaves m (A ++ B) u := by
  refine ⟨h'.sound, h.continues.trans h'.continues, h'.folds, h.settles.trans h'.settles, ?_⟩
  intro i hi hfresh
  rw [List.map_append, List.mem_append, not_or] at hi
  exact h'.frame i hi.2 (h.frame i hi.1 hfresh)

theorem Leaves.mono (h : t.Leaves m A s) (hAB : ∀ x ∈ A, x ∈ B) : t.Leaves m B s := by
  refine ⟨h.sound, h.continues, h.folds, h.settles, fun i hi => h.frame i fun hA => hi ?_⟩
  obtain ⟨x, hx, rfl⟩ := List.mem_map.mp hA
  exact List.mem_map_of_mem (hAB x hx)

theorem Leaves.has (h : t.Leaves m X s) {ty : TypeId} (hty : t.pool.Has ty) : s.pool.Has ty :=
  h.continues.pool.has hty

/-- A step that changes nothing folding reads leaves any nodes. -/
theorem Leaves.of_kept (hk : t.Kept s) (hs : s.Sound) (hc : t.Continues s) (hf : t.Folds m) :
    t.Leaves m X s :=
  ⟨hs, hc, hf.of_tables (fun _ _ hfit => hfit.keeps hc.pool.toKeeps) hk.consts hk.exprTypes
    hk.typeDecls fun _ => .inl (by rw [hk.scopes]), hk.settles, fun _ _ => hk.freshAt⟩

/-- A step that changes, of what folding reads, the symbols only, and keeps the invariant and
the kinds of the symbols, leaves any nodes. -/
theorem Leaves.of_tables (hs : s.Sound) (hc : t.Continues s) (hf : s.Folds m)
    (hset : t.Settles s) (hconsts : s.consts = t.consts) (htypes : s.exprTypes = t.exprTypes)
    (hdecls : s.typeDecls = t.typeDecls) : t.Leaves m X s := by
  refine ⟨hs, hc, hf, hset, fun j _ hj => ?_⟩
  simp only [FreshAt, Pending, hconsts, htypes, hdecls]
  exact hj

/-- Holding a declaration of the module as no longer unresolved leaves any nodes. -/
theorem Leaves.withTypeDecl {d : Decl} {st : TypeDeclState} (hs : (t.withTypeDecl d st).Sound)
    (hc : t.Continues (t.withTypeDecl d st)) (hf : t.Folds m) (hd : d ∈ m.decls)
    (hst : st ≠ .unresolved) : t.Leaves m X (t.withTypeDecl d st) :=
  ⟨hs, hc, hf.withTypeDecl hd hst, ⟨fun _ => rfl, fun _ _ h => h, rfl, rfl⟩,
    fun _ _ h => h.withTypeDecl hst⟩

/-- Nodes that were not unreached at the start need not be counted among those reached. -/
theorem Leaves.forget {Y : List Expr} (h : t.Leaves m (X ++ Y) s)
    (hY : ∀ y ∈ Y, ¬ t.FreshAt y.id) : t.Leaves m X s := by
  refine ⟨h.sound, h.continues, h.folds, h.settles, fun j hj hfresh => h.frame j ?_ hfresh⟩
  rw [List.map_append, List.mem_append, not_or]
  refine ⟨hj, fun hmem => ?_⟩
  obtain ⟨y, hy, rfl⟩ := List.mem_map.mp hmem
  exact hY y hy hfresh

theorem Leaves.kept (h : t.Leaves m X s) (hk : s.Kept u) (hs : u.Sound) (hg : s.Continues u) :
    t.Leaves m X u :=
  (h.trans (Leaves.of_kept hk hs hg h.folds : s.Leaves m [] u)).mono fun x hx => by simpa using hx

/-- Folding one node of `X` leaves `X`. -/
theorem Leaves.setsConst (h : t.Leaves m X s) (hc : s.SetsConst i u) (hs : u.Sound)
    (hg : s.Continues u) (hf : u.Folds m) (hi : i ∈ X.map Expr.id) : t.Leaves m X u := by
  refine ⟨hs, h.continues.trans hg, hf, h.settles.trans hc.settles, fun j hj hfresh => ?_⟩
  have hji : j ≠ i := fun hji => hj (hji ▸ hi)
  obtain ⟨hc', he, hp⟩ := h.frame j hj hfresh
  exact ⟨(hc.consts j hji).trans hc', hc.exprTypes ▸ he, fun hp' => hp (hc.pending_iff.mp hp')⟩

/-- Typing one node of `X` leaves `X`. -/
theorem Leaves.setsType (h : t.Leaves m X s) (ht : s.SetsType i u) (hs : u.Sound)
    (hg : s.Continues u) (hf : u.Folds m) (hset : s.Settles u) (hi : i ∈ X.map Expr.id) :
    t.Leaves m X u := by
  refine ⟨hs, h.continues.trans hg, hf, h.settles.trans hset, fun j hj hfresh => ?_⟩
  have hji : j ≠ i := fun hji => hj (hji ▸ hi)
  obtain ⟨hc, he, hp⟩ := h.frame j hj hfresh
  refine ⟨ht.consts ▸ hc, (ht.exprTypes j hji).trans he, fun hp' => hp ?_⟩
  simpa only [Pending, ht.typeDecls] using hp'

/-! ### The last step of typing a node -/

variable {e : Expr} {s₁ : CheckState} {ty : TypeId}

/-- The node itself is unreached once its operands are checked. -/
theorem Ready.freshAt_self (hr : t.Ready m e.subexprs) (l : t.Leaves m e.kind.subexprs s) :
    s.FreshAt e.id := by
  rw [Expr.subexprs_eq] at hr
  exact (hr.next l).freshAt (List.mem_singleton_self e)

/-- A node whose rule folds nothing has no value, and is left untyped. -/
theorem Inferred.of_kept (hr : t.Ready m e.subexprs) (l : t.Leaves m e.kind.subexprs s₁)
    (hk : s₁.Kept s) (hs : s.Sound) (hg : s₁.Grows s) (hty : s.pool.Has ty) :
    t.Inferred m e s ty := by
  have hfresh := hk.freshAt (hr.freshAt_self l)
  refine ⟨?_, hty, ⟨hfresh.2.1, hfresh.2.2⟩, fitsAt_of_none hfresh.1 ty⟩
  rw [Expr.subexprs_eq]
  exact (l.kept hk hs hg.toContinues).mono fun x hx => List.mem_append_left _ hx

/-- A node whose rule folds it gets its value, and is left untyped. -/
theorem Inferred.of_setsConst (hr : t.Ready m e.subexprs) (l : t.Leaves m e.kind.subexprs s₁)
    (hc : s₁.SetsConst e.id s) (hs : s.Sound) (hg : s₁.Grows s) (hf : s.Folds m)
    (hty : s.pool.Has ty) (hfit : s.FitsAt e.id ty) : t.Inferred m e s ty := by
  have hfresh := hr.freshAt_self l
  refine ⟨?_, hty, hc.untyped ⟨hfresh.2.1, hfresh.2.2⟩, hfit⟩
  have hl : t.Leaves m e.subexprs s₁ := by
    rw [Expr.subexprs_eq]
    exact l.mono fun x hx => List.mem_append_left _ hx
  exact hl.setsConst hc hs hg.toContinues hf (List.mem_map_of_mem (Expr.mem_subexprs_self e))

end Reach

end CheckState

end SolarFront
