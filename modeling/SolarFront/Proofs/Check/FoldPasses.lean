import SolarFront.Proofs.Check.FoldStmts

/-!
# Folded values fit their types: a checked module

Checking a module runs three passes, each with its invariant. Binding the type names
(`Check.NamesBound`) types nothing and folds nothing, and holds each type declaration
unresolved. Checking the declarations in order (`Check.DeclsReady`) covers each declaration's
nodes, leaves those still to come unreached, and queues the bodies of functions, each unreached,
at most once. Checking the queued bodies (`Check.BodiesReady`) covers each body in turn, and
laying out the records changes nothing folding reads.

Main statement: `Module.check_folded_values_fit`. After a module is checked, every node with a
folded value and a recorded type has a value below `2^w`, for `w` the width of an integer type
and 32 bits for a pointer; and every symbol with a value is a constant whose value fits its
integer type.
-/

set_option autoImplicit false
set_option linter.all false
set_option mvcgen.warning false

namespace SolarFront

section Nodes

variable {d : Decl} {x : Expr}

theorem Decl.mem_subexprs_of_ty (hx : x ∈ d.ty.subexprs) : x ∈ d.subexprs := by
  rw [Decl.subexprs_eq]
  exact List.mem_append_left _ hx

theorem Decl.mem_subexprs_of_kind (hx : x ∈ d.kind.subexprs) : x ∈ d.subexprs := by
  rw [Decl.subexprs_eq]
  exact List.mem_append_right _ hx

end Nodes

namespace CheckState

variable {m : Module} {t s : CheckState} {d : Decl}

/-- Nodes of another declaration of the module stay unreached while a declaration's are
covered. -/
theorem Covers.fresh_apart (hm : m.Numbered) (c : t.Covers m d.subexprs s) (hd : d ∈ m.decls)
    {d' : Decl} (hd' : d' ∈ m.decls) (hne : d' ≠ d) {X : List Expr}
    (hX : ∀ x ∈ X, x ∈ d'.subexprs) (hf : Fresh X t) : Fresh X s :=
  fun x hx => c.frame x.id (hm.apart hd' hd hne x (hX x hx)) (hf x hx)

/-- Holding a type declaration of the module unresolved keeps the invariant while none of its
nodes has a value or a type. -/
theorem Folds.hold (h : s.Folds m) (hd : d ∈ m.decls)
    (hx : ∀ x ∈ d.ty.subexprs, s.consts[x.id]? = none ∧ s.exprTypes[x.id]? = none) :
    (s.withTypeDecl d .unresolved).Folds m where
  exprs := h.exprs
  symbols := h.symbols
  typeDecls k d' st hk := by
    rw [withTypeDecl_typeDecl] at hk
    split at hk
    · cases hk
      exact ⟨hd, ‹_›⟩
    · exact h.typeDecls k d' st hk
  pending k d' hk := by
    rw [withTypeDecl_typeDecl] at hk
    split at hk
    · cases hk
      exact hx
    · exact h.pending k d' hk

end CheckState

namespace Check

open Std.Do CheckM CheckState TypePool

variable {m : Module} {t s : CheckState} {u : Unit} {d : Decl}

/-! ### Binding the type names -/

/-- What binding the module's type names keeps: the state sound and keeping the invariant,
nothing folded or typed, the type declarations held those of the module, type names bound to
type names, and no body queued. -/
structure NamesBound (m : Module) (s : CheckState) : Prop where
  sound : s.Sound
  folds : s.Folds m
  consts : ∀ i : Nat, s.consts[i]? = none
  exprTypes : ∀ i : Nat, s.exprTypes[i]? = none
  typeDecls : ∀ (k : Nat) (d : Decl) (st : TypeDeclState), s.typeDecls[k]? = some (d, st) →
    d.kind = .type
  named : TypeNamed m s
  pending : s.pending = #[]

/-- The state a check starts from binds nothing yet. -/
theorem namesBound_initial (m : Module) (budget : Nat) : NamesBound m { budget } where
  sound := sound_initial budget
  folds :=
    { exprs := fun _ _ _ hv => by simp at hv
      symbols := fun _ _ hv => by
        simp [ScopeStack.symbol] at hv
        cases hv
      typeDecls := fun _ _ _ hk => by simp at hk
      pending := fun _ _ hk => by simp at hk }
  consts _ := by simp
  exprTypes _ := by simp
  typeDecls _ _ _ hk := by simp at hk
  named _ _ _ _ hsym := by simp at hsym
  pending := rfl

/-- Binding a module-level type name holds its declaration unresolved. -/
theorem bindGlobalType_bound (hd : d ∈ m.decls) (h : Runs (bindGlobalType d) t u s)
    (hb : NamesBound m t) : NamesBound m s := by
  unfold bindGlobalType at h
  split at h
  · next hk =>
    obtain ⟨r, s₁, h₁, h⟩ := h.of_bind
    obtain ⟨c₁, b₁, htype⟩ := bindDecl_folds d _ h₁ hb.sound hb.folds hb.sound.wf.has_error
      fun _ hv => by cases hv
    -- binding a symbol touches no table folding reads but the scopes
    have e₁ : s₁.consts = t.consts ∧ s₁.exprTypes = t.exprTypes ∧ s₁.typeDecls = t.typeDecls ∧
        s₁.pending = t.pending := by
      rcases bindDecl_runs d _ h₁ with ⟨_, _, _, _, rfl⟩ | ⟨_, _, rfl⟩ <;> exact ⟨rfl, rfl, rfl, rfl⟩
    obtain ⟨ec, ee, etd, ep⟩ := e₁
    have b₁' : NamesBound m s₁ :=
      { sound := c₁.sound
        folds := c₁.folds
        consts := fun i => ec ▸ hb.consts i
        exprTypes := fun i => ee ▸ hb.exprTypes i
        typeDecls := fun k d' st hk' => hb.typeDecls k d' st (etd ▸ hk')
        named := hb.named.binds b₁ fun _ _ _ _ => (htype rfl).2
        pending := ep.trans hb.pending }
    split at h
    · -- bound: the declaration is held unresolved
      have e : s = s₁.withTypeDecl d .unresolved := h.of_modify
      subst e
      refine ⟨b₁'.sound.frame rfl rfl fun _ => rfl,
        b₁'.folds.hold hd fun x _ => ⟨b₁'.consts x.id, b₁'.exprTypes x.id⟩, b₁'.consts,
        b₁'.exprTypes, fun k d' st hk' => ?_, b₁'.named, b₁'.pending⟩
      rw [withTypeDecl_typeDecl] at hk'
      split at hk'
      · cases hk'
        exact hk
      · exact b₁'.typeDecls k d' st hk'
    · obtain ⟨rfl, rfl⟩ := h.of_pure
      exact b₁'
  · obtain ⟨rfl, rfl⟩ := h.of_pure
    exact hb

/-! ### Checking the declarations -/

/-- What checking the module's declarations keeps, with `rest` those still to check: the state
sound and keeping the invariant, type names bound to type names, the declarations to come
unreached, and the queued bodies those of distinct declarations already checked, unreached. -/
structure DeclsReady (m : Module) (rest : List Decl) (s : CheckState) : Prop where
  sound : s.Sound
  folds : s.Folds m
  named : TypeNamed m s
  fresh : ∀ d ∈ rest, d.kind ≠ .type → Fresh d.subexprs s
  queued : ∀ e ∈ s.pending.toList, e.1 ∈ m.decls ∧ e.1 ∉ rest ∧ Fresh e.1.kind.subexprs s
  nodup : (s.pending.toList.map Prod.fst).Nodup

/-- Once the type names are bound, every declaration but a type declaration is unreached: the
nodes held unresolved are those of type declarations, which share none with the others. -/
theorem NamesBound.declsReady (hm : m.Numbered) (hb : NamesBound m s) :
    DeclsReady m m.decls s where
  sound := hb.sound
  folds := hb.folds
  named := hb.named
  fresh d hd hk x hx := by
    refine ⟨hb.consts x.id, hb.exprTypes x.id, ?_⟩
    -- the nodes held unresolved are a type declaration's, apart from this one's
    rintro ⟨k, d', hk', hi⟩
    have hd' := (hb.folds.typeDecls k d' _ hk').1
    have hne : d ≠ d' := fun e => hk (e ▸ hb.typeDecls k d' _ hk')
    refine hm.apart hd hd' hne x hx ?_
    obtain ⟨y, hy, hyx⟩ := List.mem_map.mp hi
    exact List.mem_map.mpr ⟨y, Decl.mem_subexprs_of_ty hy, hyx⟩
  queued e he := by simp [hb.pending] at he
  nodup := by simp [hb.pending]

/-- Checking the next declaration keeps what the pass keeps: its own nodes are covered, those of
the declarations to come and of the queued bodies are another declaration's, and its body, if
queued, is queued once. -/
theorem checkDecl_ready (hm : m.Numbered) {rest : List Decl} (hsuf : d :: rest <:+ m.decls)
    (h : Runs (checkDecl d) t u s) (hI : DeclsReady m (d :: rest) t) : DeclsReady m rest s := by
  have hd : d ∈ m.decls := hsuf.subset List.mem_cons_self
  have hdrest : d ∉ rest :=
    (List.nodup_cons.mp ((List.Nodup.of_map Decl.id hm.decls).sublist hsuf.sublist)).1
  obtain ⟨c, named, hqueue⟩ :=
    checkDecl_folds hm d hd h hI.sound hI.folds hI.named (hI.fresh d List.mem_cons_self)
  -- a body queued before is another declaration's, already checked
  have old : ∀ e ∈ t.pending.toList,
      e.1 ∈ m.decls ∧ e.1 ∉ rest ∧ e.1 ≠ d ∧ Fresh e.1.kind.subexprs s := by
    intro e he
    obtain ⟨hd', hnot, hfresh⟩ := hI.queued e he
    have hne : e.1 ≠ d := fun h' => hnot (h' ▸ List.mem_cons_self)
    exact ⟨hd', fun h' => hnot (List.mem_cons_of_mem _ h'), hne,
      c.fresh_apart hm hd hd' hne (fun _ => Decl.mem_subexprs_of_kind) hfresh⟩
  refine ⟨c.sound, c.folds, named, fun d' hd' hk => ?_, ?_, ?_⟩
  · have hne : d' ≠ d := fun h' => hdrest (h' ▸ hd')
    exact c.fresh_apart hm hd (hsuf.subset (List.mem_cons_of_mem _ hd')) hne (fun _ hx => hx)
      (hI.fresh d' (List.mem_cons_of_mem _ hd') hk)
  · rcases hqueue with hp | ⟨ty, hp, hfresh⟩
    · rw [hp]
      intro e he
      obtain ⟨h₁, h₂, -, h₃⟩ := old e he
      exact ⟨h₁, h₂, h₃⟩
    · rw [hp, Array.toList_push]
      intro e he
      rcases List.mem_append.mp he with he | he
      · obtain ⟨h₁, h₂, -, h₃⟩ := old e he
        exact ⟨h₁, h₂, h₃⟩
      · rw [List.mem_singleton] at he
        subst he
        exact ⟨hd, hdrest, hfresh⟩
  · rcases hqueue with hp | ⟨ty, hp, -⟩
    · rw [hp]
      exact hI.nodup
    · rw [hp, Array.toList_push, List.map_append, List.nodup_append]
      refine ⟨hI.nodup, List.nodup_singleton _, ?_⟩
      intro a ha b hb
      obtain ⟨e, he, rfl⟩ := List.mem_map.mp ha
      rw [List.map_singleton, List.mem_singleton] at hb
      exact hb ▸ (old e he).2.2.1

/-! ### Checking the bodies -/

/-- What checking the queued bodies keeps, with `rest` those still to check: the state sound and
keeping the invariant, and the bodies to come those of distinct declarations of the module,
unreached. -/
structure BodiesReady (m : Module) (rest : List (Decl × TypeId)) (s : CheckState) : Prop where
  sound : s.Sound
  folds : s.Folds m
  fresh : ∀ e ∈ rest, e.1 ∈ m.decls ∧ Fresh e.1.kind.subexprs s
  nodup : (rest.map Prod.fst).Nodup

theorem DeclsReady.bodiesReady {s : CheckState} (h : DeclsReady m [] s) :
    BodiesReady m s.pending.toList s :=
  ⟨h.sound, h.folds, fun e he => ⟨(h.queued e he).1, (h.queued e he).2.2⟩, h.nodup⟩

/-- Checking the next body covers its nodes, which no body to come shares. -/
theorem checkBody_ready (hm : m.Numbered) {e : Decl × TypeId} {rest : List (Decl × TypeId)}
    (h : Runs (checkBody e.1 e.2) t u s) (hI : BodiesReady m (e :: rest) t) :
    BodiesReady m rest s := by
  obtain ⟨hd, hfresh⟩ := hI.fresh e List.mem_cons_self
  have hnum : Numbered e.1.kind.subexprs := (Decl.subexprs_eq e.1 ▸ hm.decl hd).right
  have c := checkBody_folds hm e.1 e.2 h ⟨hI.sound, hI.folds, hfresh, hnum⟩
  obtain ⟨hnot, hnodup⟩ := List.nodup_cons.mp hI.nodup
  refine ⟨c.sound, c.folds, fun e' he' => ?_, hnodup⟩
  obtain ⟨hd', hfresh'⟩ := hI.fresh e' (List.mem_cons_of_mem _ he')
  have hne : e'.1 ≠ e.1 := fun h' => hnot (h' ▸ List.mem_map_of_mem he')
  exact ⟨hd', (c.mono fun _ => Decl.mem_subexprs_of_kind).fresh_apart hm hd hd' hne
    (fun _ => Decl.mem_subexprs_of_kind) hfresh'⟩

end Check

open Check CheckM CheckState TypePool Std.Do

/-- Checking a module keeps the state sound and the invariant: each pass keeps its own,
declaration by declaration and body by body, and laying out the records changes nothing that
folding reads. -/
theorem Module.folds_check {m : Module} (hm : m.Numbered) (nodeCount : Nat) :
    (m.check nodeCount).Sound ∧ (m.check nodeCount).Folds m := by
  have h : Runs (passes m) { budget := budgetFor nodeCount } () (m.check nodeCount) := rfl
  unfold passes at h
  obtain ⟨_, s₁, h₁, h⟩ := h.of_bind
  have p₁ : NamesBound m s₁ := by
    refine Runs.forIn_list (fun _ s => NamesBound m s) ?_ h₁ (namesBound_initial m _)
    intro d rest t s r hsuf hb h
    obtain ⟨_, s', h', h⟩ := h.of_bind
    obtain ⟨rfl, rfl⟩ := h.of_pure
    exact ⟨bindGlobalType_bound (hsuf.subset List.mem_cons_self) h' hb, rfl⟩
  obtain ⟨_, s₂, h₂, h⟩ := h.of_bind
  have p₂ : DeclsReady m [] s₂ := by
    refine Runs.forIn_list (DeclsReady m) ?_ h₂ (p₁.declsReady hm)
    intro d rest t s r hsuf hI h
    obtain ⟨_, s', h', h⟩ := h.of_bind
    obtain ⟨rfl, rfl⟩ := h.of_pure
    exact ⟨checkDecl_ready hm hsuf h' hI, rfl⟩
  obtain ⟨_, s₃, h₃, h⟩ := h.of_bind
  obtain ⟨rfl, rfl⟩ := h₃.of_get
  obtain ⟨_, s₄, h₄, h⟩ := h.of_bind
  rw [← Array.forIn_toList] at h₄
  have p₄ : BodiesReady m [] s₄ := by
    refine Runs.forIn_list (BodiesReady m) ?_ h₄ p₂.bodiesReady
    rintro ⟨d, ty⟩ rest t s r - hI h
    obtain ⟨_, s', h', h⟩ := h.of_bind
    obtain ⟨rfl, rfl⟩ := h.of_pure
    exact ⟨checkBody_ready hm h' hI, rfl⟩
  obtain ⟨⟨hs, hg, -⟩, hk⟩ := Runs.of_triple (kept_of_view (layoutAll_spec s₄) (layoutAll_view ·))
    h ⟨⟨.refl _, p₄.sound⟩, .refl _⟩
  exact ⟨hs, hk.folds hg p₄.folds⟩

end SolarFront
