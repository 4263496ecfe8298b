import SolarFront.Proofs.Check.LayoutEngine

/-!
# Structural equality is the greatest structural bisimulation

Two types are structurally equal when a relation holds them that is a structural bisimulation:
every pair it relates is one type, or two arrays of one length with related elements, two
functions of one variadic flag with related return types and parameters related pairwise, or
two records of one kind whose members agree in name and bit width and have related types, in
order. Records may refer to themselves through pointers, so the relation is the greatest one,
and `TypePool.Bisim` is it.

`TypePool.structurallyEqual` decides it. A comparison that succeeds has found a bisimulation:
the record pairs it assumed are generated back by their members, and a `false` anywhere ends the
whole comparison, so an assumption from a failed branch never turns a later one true
(`bisim_of_structurallyEqual`). Conversely, bisimilar types compare equal once the fuel covers
the comparison: each pair of types is assumed at most once, between two assumptions the
comparison walks down to earlier types of a well-formed pool, and a list costs one step per
element. `TypePool.equivFuel` is that bound (`structurallyEqual_of_bisim`).
-/

set_option autoImplicit false
set_option linter.all false
set_option mvcgen.warning false

namespace SolarFront

namespace TypePool

variable (p : TypePool)

/-! ## Structural bisimulations -/

/-- One step of structural equality, with `R` relating the component types. -/
def StructStep (R : TypeId → TypeId → Prop) (a b : TypeId) : Prop :=
  match p.get a, p.get b with
  | .array ea la, .array eb lb => la = lb ∧ R ea eb
  | .func ra pa va, .func rb pb vb => va = vb ∧ R ra rb ∧ List.Forall₂ R pa pb
  | .record ia, .record ib =>
    (p.record ia).kind = (p.record ib).kind ∧
      List.Forall₂ (fun ma mb => ma.name = mb.name ∧ ma.bits = mb.bits ∧ R ma.ty mb.ty)
        (p.record ia).members (p.record ib).members
  | _, _ => False

/-- A structural bisimulation: each pair it relates is one type or takes a structural step to
related components. -/
def IsBisim (R : TypeId → TypeId → Prop) : Prop :=
  ∀ a b, R a b → a = b ∨ p.StructStep R a b

/-- Bisimilar types: related by some structural bisimulation. -/
def Bisim (a b : TypeId) : Prop := ∃ R, p.IsBisim R ∧ R a b

variable {p}

theorem StructStep.mono {R S : TypeId → TypeId → Prop} (hRS : ∀ a b, R a b → S a b)
    {a b : TypeId} (h : p.StructStep R a b) : p.StructStep S a b := by
  unfold StructStep at h ⊢
  split at h
  · exact ⟨h.1, hRS _ _ h.2⟩
  · exact ⟨h.1, hRS _ _ h.2.1, h.2.2.imp hRS⟩
  · exact ⟨h.1, h.2.imp fun _ _ hm => ⟨hm.1, hm.2.1, hRS _ _ hm.2.2⟩⟩
  · exact h

/-- Bisimilarity is itself a bisimulation, so it is the greatest one. -/
theorem isBisim_bisim : p.IsBisim p.Bisim := by
  rintro a b ⟨R, hR, hab⟩
  exact (hR a b hab).imp_right (StructStep.mono fun x y hxy => ⟨R, hR, hxy⟩)

theorem Bisim.refl (a : TypeId) : p.Bisim a a :=
  ⟨Eq, fun _ _ h => .inl h, rfl⟩

/-- Relations that compose componentwise compose on lists. -/
theorem forall₂_comp {α β γ : Type} {R : α → β → Prop} {S : β → γ → Prop} {T : α → γ → Prop}
    (h : ∀ a b c, R a b → S b c → T a c) :
    ∀ {l₁ l₂ l₃}, List.Forall₂ R l₁ l₂ → List.Forall₂ S l₂ l₃ → List.Forall₂ T l₁ l₃
  | [], [], [], .nil, .nil => .nil
  | _ :: _, _ :: _, _ :: _, .cons h₁ t₁, .cons h₂ t₂ => .cons (h _ _ _ h₁ h₂) (forall₂_comp h t₁ t₂)

/-- A structural step read backwards is a step of the converse relation. -/
theorem StructStep.flip {R : TypeId → TypeId → Prop} {a b : TypeId} (h : p.StructStep R b a) :
    p.StructStep (flip R) a b := by
  unfold StructStep at h ⊢
  cases ha : p.get a <;> cases hb : p.get b <;> simp only [ha, hb] at h ⊢
  · exact ⟨h.1.symm, h.2⟩
  · exact ⟨h.1.symm, h.2.1, h.2.2.flip⟩
  · exact ⟨h.1.symm, .flip (h.2.imp fun _ _ hm => ⟨hm.1.symm, hm.2.1.symm, hm.2.2⟩)⟩

/-- Structural steps compose, componentwise. -/
theorem StructStep.comp {R S T : TypeId → TypeId → Prop} (hRST : ∀ x y z, R x y → S y z → T x z)
    {a b c : TypeId} (hab : p.StructStep R a b) (hbc : p.StructStep S b c) :
    p.StructStep T a c := by
  unfold StructStep at hab hbc ⊢
  cases ha : p.get a <;> cases hb : p.get b <;> simp only [ha, hb] at hab <;>
    cases hc : p.get c <;> simp only [hb, hc] at hbc <;> dsimp only
  · exact ⟨hab.1.trans hbc.1, hRST _ _ _ hab.2 hbc.2⟩
  · exact ⟨hab.1.trans hbc.1, hRST _ _ _ hab.2.1 hbc.2.1, forall₂_comp hRST hab.2.2 hbc.2.2⟩
  · refine ⟨hab.1.trans hbc.1, forall₂_comp (fun _ _ _ hm hm' => ?_) hab.2 hbc.2⟩
    exact ⟨hm.1.trans hm'.1, hm.2.1.trans hm'.2.1, hRST _ _ _ hm.2.2 hm'.2.2⟩

theorem Bisim.symm {a b : TypeId} (h : p.Bisim a b) : p.Bisim b a := by
  obtain ⟨R, hR, hab⟩ := h
  -- the converse of a bisimulation is one
  refine ⟨flip R, fun x y hxy => ?_, hab⟩
  rcases hR y x hxy with rfl | hstep
  · exact .inl rfl
  · exact .inr hstep.flip

theorem Bisim.trans {a b c : TypeId} (hab : p.Bisim a b) (hbc : p.Bisim b c) : p.Bisim a c := by
  -- bisimilarity composed with itself is a bisimulation; one type on either side is a step of
  -- the other side's
  refine ⟨fun x z => ∃ y, p.Bisim x y ∧ p.Bisim y z, fun x z ⟨y, hxy, hyz⟩ => ?_, b, hab, hbc⟩
  rcases isBisim_bisim x y hxy with rfl | hstep₁ <;> rcases isBisim_bisim _ z hyz with rfl | hstep₂
  · exact .inl rfl
  · exact .inr (hstep₂.mono fun u v huv => ⟨u, .refl u, huv⟩)
  · exact .inr (hstep₁.mono fun u v huv => ⟨v, huv, .refl v⟩)
  · exact .inr (hstep₁.comp (fun u v w huv hvw => ⟨v, huv, hvw⟩) hstep₂)

/-! ## A comparison that succeeds has found a bisimulation -/

variable (p)

/-- The relation that assumed pairs generate: one type, an assumed pair, or arrays and functions
whose components it relates. -/
inductive Generated (A : Assumed) : TypeId → TypeId → Prop
  | refl (a : TypeId) : Generated A a a
  | assumed {a b : TypeId} : (a, b) ∈ A → Generated A a b
  | array {a b ea eb : TypeId} {len : Option Nat} : p.get a = .array ea len →
      p.get b = .array eb len → Generated A ea eb → Generated A a b
  | func {a b ra rb : TypeId} {pa pb : List TypeId} {variadic : Bool} :
      p.get a = .func ra pa variadic → p.get b = .func rb pb variadic → Generated A ra rb →
      pa.length = pb.length → (∀ q ∈ pa.zip pb, Generated A q.1 q.2) → Generated A a b

/-- The pairs assumed since `A` are records whose members agree, with types that the final
assumptions `A'` generate. -/
def Justified (A A' : Assumed) : Prop :=
  ∀ q ∈ A', q ∉ A → p.StructStep (p.Generated A') q.1 q.2

variable {p}

theorem Generated.mono {A A' : Assumed} (hA : A ⊆ A') {a b : TypeId}
    (h : p.Generated A a b) : p.Generated A' a b := by
  induction h with
  | refl a => exact .refl a
  | assumed hq => exact .assumed (hA hq)
  | array ha hb _ ih => exact .array ha hb ih
  | func ha hb _ hlen _ ihr ihps => exact .func ha hb ihr hlen ihps

theorem Justified.rfl {A : Assumed} : p.Justified A A :=
  fun _ hq hn => absurd hq hn

theorem Justified.trans {A A₁ A₂ : Assumed} (h₁ : A₁ ⊆ A₂) (j₁ : p.Justified A A₁)
    (j₂ : p.Justified A₁ A₂) : p.Justified A A₂ := by
  intro q hq hn
  by_cases hq₁ : q ∈ A₁
  · exact (j₁ q hq₁ hn).mono fun _ _ => Generated.mono h₁
  · exact j₂ q hq hq₁

/-- Assumptions all justified generate a bisimulation. -/
theorem isBisim_generated {A : Assumed} (hA : p.Justified [] A) : p.IsBisim (p.Generated A) := by
  intro a b h
  cases h with
  | refl => exact .inl rfl
  | assumed hq => exact .inr (hA _ hq List.not_mem_nil)
  | array ha hb he =>
    right
    unfold StructStep
    rw [ha, hb]
    exact ⟨rfl, he⟩
  | func ha hb hr hlen hps =>
    right
    unfold StructStep
    rw [ha, hb]
    exact ⟨rfl, hr, List.forall₂_iff_zip.mpr ⟨hlen, fun hq => hps _ hq⟩⟩

mutual

/-- A comparison that succeeds only adds assumptions, justifies the ones it adds, and relates
the two types by what it ends up assuming. -/
theorem equivAt_sound : ∀ (fuel : Nat) (a b : TypeId) (A A' : Assumed),
    p.equivAt fuel a b A = (true, A') → A ⊆ A' ∧ p.Generated A' a b ∧ p.Justified A A'
  | 0, _, _, _, _, h => by simp [equivAt] at h
  | fuel + 1, a, b, A, A', h => by
    rw [equivAt] at h
    split at h
    · next hab =>
      cases h
      exact ⟨List.Subset.refl _, hab ▸ .refl a, Justified.rfl⟩
    · split at h
      · -- arrays of one length: the elements
        next _ _ ea la eb lb ha hb =>
        split at h
        · next hlen =>
          obtain ⟨hsub, hgen, hjust⟩ := equivAt_sound fuel ea eb A A' h
          exact ⟨hsub, .array ha (hlen ▸ hb) hgen, hjust⟩
        · cases h
      · -- functions of one signature shape: the return types, then the parameters pairwise
        next _ _ ra pa va rb pb vb ha hb =>
        split at h
        · next hsig =>
          simp only [Bool.and_eq_true, decide_eq_true_eq] at hsig
          split at h
          next same A₁ hret =>
          split at h
          · next hsame =>
            subst hsame
            obtain ⟨hsub₁, hgen₁, hjust₁⟩ := equivAt_sound fuel ra rb A A₁ hret
            obtain ⟨hsub₂, hgen₂, hjust₂⟩ := equivAll_sound fuel (pa.zip pb) A₁ A' h
            exact ⟨List.Subset.trans hsub₁ hsub₂,
              .func ha (hsig.1 ▸ hb) (hgen₁.mono hsub₂) hsig.2 hgen₂, hjust₁.trans hsub₂ hjust₂⟩
          · cases h
        · cases h
      · -- records: an assumed pair, or the members under the new assumption
        next _ _ ia ib ha hb =>
        split at h
        · next hmem =>
          cases h
          exact ⟨List.Subset.refl _, .assumed hmem, Justified.rfl⟩
        · next hnot =>
          split at h
          · next hshape =>
            simp only [Bool.and_eq_true, decide_eq_true_eq] at hshape
            obtain ⟨hsub, hgen, hjust⟩ := equivMembers_sound fuel _ ((a, b) :: A) A' h
            have hab : (a, b) ∈ A' := hsub List.mem_cons_self
            refine ⟨fun q hq => hsub (List.mem_cons_of_mem _ hq), .assumed hab, ?_⟩
            -- the new pair is justified by its members, the others by the members' comparison
            intro q hq hqA
            by_cases hq' : q = (a, b)
            · subst hq'
              unfold StructStep
              rw [ha, hb]
              exact ⟨hshape.1, List.forall₂_iff_zip.mpr ⟨hshape.2, fun hm => hgen _ hm⟩⟩
            · exact hjust q hq (by simp [hq', hqA])
          · cases h
      · cases h

theorem equivAll_sound : ∀ (fuel : Nat) (l : List (TypeId × TypeId)) (A A' : Assumed),
    p.equivAll fuel l A = (true, A') →
      A ⊆ A' ∧ (∀ q ∈ l, p.Generated A' q.1 q.2) ∧ p.Justified A A'
  | 0, _, _, _, h => by simp [equivAll] at h
  | _ + 1, [], A, A', h => by
    cases h
    exact ⟨List.Subset.refl _, by simp, Justified.rfl⟩
  | fuel + 1, (a, b) :: rest, A, A', h => by
    rw [equivAll] at h
    split at h
    next same A₁ hfirst =>
    split at h
    · next hsame =>
      subst hsame
      obtain ⟨hsub₁, hgen₁, hjust₁⟩ := equivAt_sound fuel a b A A₁ hfirst
      obtain ⟨hsub₂, hgen₂, hjust₂⟩ := equivAll_sound fuel rest A₁ A' h
      refine ⟨List.Subset.trans hsub₁ hsub₂, fun q hq => ?_, hjust₁.trans hsub₂ hjust₂⟩
      rcases List.mem_cons.mp hq with rfl | hq
      · exact hgen₁.mono hsub₂
      · exact hgen₂ q hq
    · cases h

theorem equivMembers_sound : ∀ (fuel : Nat) (l : List (Member × Member)) (A A' : Assumed),
    p.equivMembers fuel l A = (true, A') →
      A ⊆ A' ∧ (∀ q ∈ l, q.1.name = q.2.name ∧ q.1.bits = q.2.bits ∧ p.Generated A' q.1.ty q.2.ty) ∧
        p.Justified A A'
  | 0, _, _, _, h => by simp [equivMembers] at h
  | _ + 1, [], A, A', h => by
    cases h
    exact ⟨List.Subset.refl _, by simp, Justified.rfl⟩
  | fuel + 1, (ma, mb) :: rest, A, A', h => by
    rw [equivMembers] at h
    split at h
    · next hagree =>
      simp only [Bool.and_eq_true, decide_eq_true_eq] at hagree
      split at h
      next same A₁ hfirst =>
      split at h
      · next hsame =>
        subst hsame
        obtain ⟨hsub₁, hgen₁, hjust₁⟩ := equivAt_sound fuel ma.ty mb.ty A A₁ hfirst
        obtain ⟨hsub₂, hgen₂, hjust₂⟩ := equivMembers_sound fuel rest A₁ A' h
        refine ⟨List.Subset.trans hsub₁ hsub₂, fun q hq => ?_, hjust₁.trans hsub₂ hjust₂⟩
        rcases List.mem_cons.mp hq with rfl | hq
        · exact ⟨hagree.1, hagree.2, hgen₁.mono hsub₂⟩
        · exact hgen₂ q hq
      · cases h
    · cases h

end

/-- A comparison that succeeds relates bisimilar types. -/
theorem bisim_of_structurallyEqual {a b : TypeId} (h : p.structurallyEqual a b = true) :
    p.Bisim a b := by
  have hrun : p.equivAt p.equivFuel a b [] = (true, (p.equivAt p.equivFuel a b []).2) :=
    Prod.ext h rfl
  obtain ⟨-, hgen, hjust⟩ := equivAt_sound _ _ _ _ _ hrun
  exact ⟨_, isBisim_generated hjust, hgen⟩

/-! ## With enough fuel, bisimilar types compare equal -/

mutual

/-- A comparison only adds assumptions, whatever its outcome. -/
theorem equivAt_subset : ∀ (fuel : Nat) (a b : TypeId) (A : Assumed),
    A ⊆ (p.equivAt fuel a b A).2
  | 0, _, _, _ => List.Subset.refl _
  | fuel + 1, a, b, A => by
    rw [equivAt]
    split
    · exact List.Subset.refl _
    · split
      · split
        · exact equivAt_subset fuel _ _ A
        · exact List.Subset.refl _
      · next _ _ ra _ _ rb _ _ _ _ =>
        split
        · split
          next same A₁ hret =>
          have h₁ : A ⊆ A₁ := by simpa [hret] using equivAt_subset fuel ra rb A
          split
          · exact List.Subset.trans h₁ (equivAll_subset fuel _ A₁)
          · exact h₁
        · exact List.Subset.refl _
      · split
        · exact List.Subset.refl _
        · split
          · exact fun q hq => equivMembers_subset fuel _ _ (List.mem_cons_of_mem _ hq)
          · exact List.subset_cons_self _ _
      · exact List.Subset.refl _

theorem equivAll_subset : ∀ (fuel : Nat) (l : List (TypeId × TypeId)) (A : Assumed),
    A ⊆ (p.equivAll fuel l A).2
  | 0, _, _ => List.Subset.refl _
  | _ + 1, [], _ => List.Subset.refl _
  | fuel + 1, (a, b) :: rest, A => by
    rw [equivAll]
    split
    next same A₁ hfirst =>
    have h₁ : A ⊆ A₁ := by simpa [hfirst] using equivAt_subset fuel a b A
    split
    · exact List.Subset.trans h₁ (equivAll_subset fuel rest A₁)
    · exact h₁

theorem equivMembers_subset : ∀ (fuel : Nat) (l : List (Member × Member)) (A : Assumed),
    A ⊆ (p.equivMembers fuel l A).2
  | 0, _, _ => List.Subset.refl _
  | _ + 1, [], _ => List.Subset.refl _
  | fuel + 1, (ma, mb) :: rest, A => by
    rw [equivMembers]
    split
    · split
      next same A₁ hfirst =>
      have h₁ : A ⊆ A₁ := by simpa [hfirst] using equivAt_subset fuel ma.ty mb.ty A
      split
      · exact List.Subset.trans h₁ (equivMembers_subset fuel rest A₁)
      · exact h₁
    · exact List.Subset.refl _

end

variable (p)

/-- The pairs of the pool's types that are not assumed yet. -/
def unassumed (A : Assumed) : Nat :=
  ((Finset.range p.types.size ×ˢ Finset.range p.types.size).filter
    fun q => !A.contains (TypeId.mk q.1, TypeId.mk q.2)).card

/-- The fuel that comparing `a` with another type may take while `u` pairs of types are not
assumed: between two assumptions, one list walk for each type before `a`. -/
def comparisonFuel (u : Nat) (a : TypeId) : Nat :=
  (u * (p.types.size + 1) + min a.idx p.types.size + 1) * (p.listTotal + 2)

variable {p}

theorem unassumed_le (A : Assumed) : p.unassumed A ≤ p.types.size * p.types.size := by
  unfold unassumed
  calc _ ≤ (Finset.range p.types.size ×ˢ Finset.range p.types.size).card :=
        Finset.card_filter_le _ _
    _ = p.types.size * p.types.size := by simp

theorem not_contains_iff {A : Assumed} {q : TypeId × TypeId} :
    (!A.contains q) = true ↔ q ∉ A := by
  simp

theorem unassumed_anti {A A' : Assumed} (h : A ⊆ A') : p.unassumed A' ≤ p.unassumed A := by
  unfold unassumed
  refine Finset.card_le_card fun q hq => ?_
  simp only [Finset.mem_filter, not_contains_iff] at hq ⊢
  exact ⟨hq.1, fun hA => hq.2 (h hA)⟩

/-- Assuming a new pair of the pool's types leaves one pair fewer. -/
theorem unassumed_cons {a b : TypeId} {A : Assumed} (ha : p.Has a) (hb : p.Has b)
    (hn : (a, b) ∉ A) : p.unassumed ((a, b) :: A) + 1 = p.unassumed A := by
  obtain ⟨a⟩ := a
  obtain ⟨b⟩ := b
  unfold unassumed
  have herase : (Finset.range p.types.size ×ˢ Finset.range p.types.size).filter
        (fun q => !((⟨a⟩, ⟨b⟩) :: A).contains (TypeId.mk q.1, TypeId.mk q.2)) =
      ((Finset.range p.types.size ×ˢ Finset.range p.types.size).filter
        (fun q => !A.contains (TypeId.mk q.1, TypeId.mk q.2))).erase (a, b) := by
    ext ⟨x, y⟩
    simp only [Finset.mem_filter, Finset.mem_erase, not_contains_iff, List.mem_cons, not_or,
      Prod.mk.injEq, TypeId.mk.injEq, ne_eq]
    tauto
  rw [herase, Finset.card_erase_add_one]
  simp only [Finset.mem_filter, Finset.mem_product, Finset.mem_range, not_contains_iff]
  exact ⟨⟨ha, hb⟩, hn⟩

theorem comparisonFuel_mono {u u' : Nat} (h : u ≤ u') (a : TypeId) :
    p.comparisonFuel u a ≤ p.comparisonFuel u' a := by
  unfold comparisonFuel
  gcongr

theorem two_le_comparisonFuel (u : Nat) (a : TypeId) : 2 ≤ p.comparisonFuel u a :=
  calc 2 ≤ p.listTotal + 2 := by omega
    _ ≤ p.comparisonFuel u a := Nat.le_mul_of_pos_left _ (by omega)

/-- The fuel for a type of the pool, split at its last list walk. -/
theorem comparisonFuel_of_has {a : TypeId} (ha : p.Has a) (u : Nat) :
    p.comparisonFuel u a =
      (u * (p.types.size + 1) + a.idx) * (p.listTotal + 2) + (p.listTotal + 2) := by
  unfold comparisonFuel
  rw [Nat.min_eq_left (Nat.le_of_lt ha)]
  ring

/-- An earlier type needs no more fuel than is left after a walk from a later one. -/
theorem comparisonFuel_le_of_lt {e a : TypeId} (h : e.idx < a.idx) (u : Nat) :
    p.comparisonFuel u e ≤ (u * (p.types.size + 1) + a.idx) * (p.listTotal + 2) := by
  apply Nat.mul_le_mul_right
  have := Nat.min_le_left e.idx p.types.size
  omega

/-- A type of the pool compared after one more assumption needs less than two walks fewer
than any type compared before it. -/
theorem comparisonFuel_le_of_has {t : TypeId} (ht : p.Has t) (u : Nat) :
    p.comparisonFuel u t ≤ (u * (p.types.size + 1) + p.types.size) * (p.listTotal + 2) := by
  apply Nat.mul_le_mul_right
  have := Nat.min_le_left t.idx p.types.size
  unfold Has at ht
  omega

theorem comparisonFuel_succ (u : Nat) (a : TypeId) :
    (u * (p.types.size + 1) + p.types.size) * (p.listTotal + 2) + 2 * (p.listTotal + 2) ≤
      p.comparisonFuel (u + 1) a := by
  have h : u * (p.types.size + 1) + p.types.size + 2 ≤
      (u + 1) * (p.types.size + 1) + min a.idx p.types.size + 1 := by
    rw [Nat.succ_mul]
    omega
  calc _ = (u * (p.types.size + 1) + p.types.size + 2) * (p.listTotal + 2) := by ring
    _ ≤ p.comparisonFuel (u + 1) a := Nat.mul_le_mul_right _ h

/-- The fuel of a comparison covers every comparison from no assumption. -/
theorem comparisonFuel_le_equivFuel (a : TypeId) :
    p.comparisonFuel (p.unassumed []) a ≤ p.equivFuel := by
  have hu := unassumed_le (p := p) []
  unfold comparisonFuel equivFuel
  have hmin := Nat.min_le_right a.idx p.types.size
  calc _ ≤ (p.types.size * p.types.size * (p.types.size + 1) + p.types.size + 1) *
        (p.listTotal + 2) := by gcongr
    _ = _ := by ring

/-- An element's share of a sum taken by folding over an array is at most the sum. -/
theorem le_foldl_add {α : Type} (f : α → Nat) {a : Array α} {x : α} (hx : x ∈ a) :
    f x ≤ a.foldl (fun n d => n + f d) 0 := by
  rw [← Array.foldl_toList]
  have hx : x ∈ a.toList := Array.mem_toList_iff.mpr hx
  -- the running total only grows, and takes `f x` in when it passes `x`
  have hgrow : ∀ (l : List α) (init : Nat), init ≤ l.foldl (fun n d => n + f d) init := by
    intro l
    induction l with
    | nil => exact fun _ => le_rfl
    | cons y l ih => exact fun init => (Nat.le_add_right init (f y)).trans (ih _)
  generalize a.toList = l at hx
  suffices ∀ init, init + f x ≤ l.foldl (fun n d => n + f d) init from
    (Nat.zero_add (f x)).symm.le.trans (this 0)
  induction l with
  | nil => cases hx
  | cons y l ih =>
    intro init
    rcases List.mem_cons.mp hx with rfl | hx
    · exact hgrow l _
    · exact (Nat.add_le_add_right (Nat.le_add_right init (f y)) _).trans (ih hx _)

/-- A function's parameter list is no longer than all lists of the pool together. -/
theorem params_length_le {a r : TypeId} {ps : List TypeId} {v : Bool}
    (h : p.get a = .func r ps v) : ps.length ≤ p.listTotal := by
  unfold get at h
  cases hd : p.types[a.idx]? with
  | none => simp [hd] at h
  | some d =>
    simp only [hd, Option.getD_some] at h
    subst h
    exact le_add_right (le_foldl_add TypeData.arity (Array.mem_of_getElem? hd))

/-- A record's member list is no longer than all lists of the pool together. -/
theorem members_length_le (rid : Nat) : (p.record rid).members.length ≤ p.listTotal := by
  unfold record
  cases hr : p.records[rid]? with
  | none => exact Nat.zero_le _
  | some r =>
    exact le_add_left (le_foldl_add (fun r : RecordDef => r.members.length)
      (Array.mem_of_getElem? hr))

mutual

/-- Bisimilar types compare equal given the fuel their comparison may take. By recursion on the
fuel: one case per shape the two types share. -/
theorem equivAt_complete (hwf : p.WellFormed) : ∀ (fuel : Nat) (a b : TypeId) (A : Assumed),
    p.Bisim a b → p.comparisonFuel (p.unassumed A) a ≤ fuel → (p.equivAt fuel a b A).1 = true
  | 0, a, _, A, _, hfuel => by
    have := two_le_comparisonFuel (p := p) (p.unassumed A) a
    omega
  | fuel + 1, a, b, A, hab, hfuel => by
    rw [equivAt]
    by_cases hne : a = b
    · rw [if_pos hne]
    rw [if_neg hne]
    have hstep := (isBisim_bisim a b hab).resolve_left hne
    unfold StructStep at hstep
    rcases ha : p.get a with _ | _ | _ | ⟨ea, la⟩ | ⟨ra, pa, va⟩ | ia <;>
      rcases hb : p.get b with _ | _ | _ | ⟨eb, lb⟩ | ⟨rb, pb, vb⟩ | ib <;>
      simp only [ha, hb] at hstep ⊢
    · -- arrays of one length: the elements, an earlier type
      obtain ⟨hlen, hel⟩ := hstep
      have hlt : ea.idx < a.idx := hwf.parts_lt a ea (by simp [ha, TypeData.parts])
      rw [if_pos hlen]
      refine equivAt_complete hwf fuel ea eb A hel ?_
      have h₁ := comparisonFuel_le_of_lt (p := p) hlt (p.unassumed A)
      have h₂ := comparisonFuel_of_has (has_of_get_ne_error (p := p) (t := a) (by simp [ha]))
        (p.unassumed A)
      omega
    · -- functions of one shape: the return types, then the parameters pairwise, all earlier
      obtain ⟨hv, hret, hps⟩ := hstep
      have hlt : ∀ q ∈ ra :: pa, q.idx < a.idx := fun q hq =>
        hwf.parts_lt a q (by simpa [ha, TypeData.parts] using hq)
      have hroom := comparisonFuel_of_has (has_of_get_ne_error (p := p) (t := a) (by simp [ha]))
        (p.unassumed A)
      have hr := equivAt_complete hwf fuel ra rb A hret (by
        have := comparisonFuel_le_of_lt (p := p) (hlt ra List.mem_cons_self) (p.unassumed A)
        omega)
      rw [if_pos (by simp [hv, hps.length_eq]), if_pos hr]
      refine equivAll_complete hwf fuel (pa.zip pb) _
        ((p.unassumed A * (p.types.size + 1) + a.idx) * (p.listTotal + 2)) (fun q hq => ?_) ?_
      · have hq₁ : q.1 ∈ pa := (List.of_mem_zip hq).1
        refine ⟨(List.forall₂_iff_zip.mp hps).2 hq, ?_⟩
        calc p.comparisonFuel (p.unassumed (p.equivAt fuel ra rb A).2) q.1
            ≤ p.comparisonFuel (p.unassumed A) q.1 :=
              comparisonFuel_mono (unassumed_anti (equivAt_subset fuel ra rb A)) _
          _ ≤ _ := comparisonFuel_le_of_lt (hlt q.1 (List.mem_cons_of_mem _ hq₁)) _
      · have := params_length_le ha
        rw [List.length_zip]
        omega
    · -- records of one kind: an assumed pair, or the members under one more assumption
      obtain ⟨hkind, hmembers⟩ := hstep
      by_cases hmem : (a, b) ∈ A
      · rw [if_pos hmem]
      rw [if_neg hmem, if_pos (by simp [hkind, hmembers.length_eq])]
      have hcount := unassumed_cons (has_of_get_ne_error (p := p) (t := a) (by simp [ha]))
        (has_of_get_ne_error (p := p) (t := b) (by simp [hb])) hmem
      refine equivMembers_complete hwf fuel _ _
        ((p.unassumed ((a, b) :: A) * (p.types.size + 1) + p.types.size) * (p.listTotal + 2))
        (fun q hq => ?_) ?_
      · have hq₁ : q.1 ∈ (p.record ia).members := (List.of_mem_zip hq).1
        obtain ⟨hname, hbits, hty⟩ := (List.forall₂_iff_zip.mp hmembers).2 hq
        exact ⟨hname, hbits, hty, comparisonFuel_le_of_has (hwf.has_of_mem_members hq₁) _⟩
      · have hlen := members_length_le (p := p) ia
        have hsucc := comparisonFuel_succ (p := p) (p.unassumed ((a, b) :: A)) a
        rw [hcount] at hsucc
        rw [List.length_zip]
        omega

theorem equivAll_complete (hwf : p.WellFormed) : ∀ (fuel : Nat) (l : List (TypeId × TypeId))
    (A : Assumed) (M : Nat), (∀ q ∈ l, p.Bisim q.1 q.2 ∧ p.comparisonFuel (p.unassumed A) q.1 ≤ M) →
    M + l.length + 1 ≤ fuel → (p.equivAll fuel l A).1 = true
  | 0, _, _, _, _, hfuel => absurd hfuel (by omega)
  | _ + 1, [], _, _, _, _ => rfl
  | fuel + 1, (a, b) :: rest, A, M, hl, hfuel => by
    obtain ⟨hab, hbound⟩ : p.Bisim a b ∧ p.comparisonFuel (p.unassumed A) a ≤ M :=
      hl (a, b) List.mem_cons_self
    simp only [List.length_cons] at hfuel
    have hfirst := equivAt_complete hwf fuel a b A hab (by omega)
    rw [equivAll]
    simp only [hfirst, if_true]
    refine equivAll_complete hwf fuel rest _ M (fun q hq => ?_) (by omega)
    obtain ⟨hq, hqbound⟩ := hl q (List.mem_cons_of_mem _ hq)
    exact ⟨hq, (comparisonFuel_mono (unassumed_anti (equivAt_subset fuel a b A)) _).trans hqbound⟩

theorem equivMembers_complete (hwf : p.WellFormed) : ∀ (fuel : Nat) (l : List (Member × Member))
    (A : Assumed) (M : Nat),
    (∀ q ∈ l, q.1.name = q.2.name ∧ q.1.bits = q.2.bits ∧ p.Bisim q.1.ty q.2.ty ∧
      p.comparisonFuel (p.unassumed A) q.1.ty ≤ M) →
    M + l.length + 1 ≤ fuel → (p.equivMembers fuel l A).1 = true
  | 0, _, _, _, _, hfuel => absurd hfuel (by omega)
  | _ + 1, [], _, _, _, _ => rfl
  | fuel + 1, (ma, mb) :: rest, A, M, hl, hfuel => by
    obtain ⟨hname, hbits, hab, hbound⟩ : ma.name = mb.name ∧ ma.bits = mb.bits ∧
        p.Bisim ma.ty mb.ty ∧ p.comparisonFuel (p.unassumed A) ma.ty ≤ M :=
      hl (ma, mb) List.mem_cons_self
    simp only [List.length_cons] at hfuel
    have hfirst := equivAt_complete hwf fuel ma.ty mb.ty A hab (by omega)
    rw [equivMembers, if_pos (by simp [hname, hbits])]
    simp only [hfirst, if_true]
    refine equivMembers_complete hwf fuel rest _ M (fun q hq => ?_) (by omega)
    obtain ⟨hqname, hqbits, hq, hqbound⟩ := hl q (List.mem_cons_of_mem _ hq)
    exact ⟨hqname, hqbits, hq,
      (comparisonFuel_mono (unassumed_anti (equivAt_subset fuel ma.ty mb.ty A)) _).trans hqbound⟩

end

/-- Bisimilar types of a well-formed pool compare equal: the fuel covers the comparison. -/
theorem structurallyEqual_of_bisim (hwf : p.WellFormed) {a b : TypeId} (h : p.Bisim a b) :
    p.structurallyEqual a b = true :=
  equivAt_complete hwf _ a b [] h (comparisonFuel_le_equivFuel a)

theorem structurallyEqual_iff (hwf : p.WellFormed) {a b : TypeId} :
    p.structurallyEqual a b = true ↔ p.Bisim a b :=
  ⟨bisim_of_structurallyEqual, structurallyEqual_of_bisim hwf⟩

/-- A type that names a record is neither `void` nor the error type. -/
theorem WellFormed.not_void_of_recordOf? (hwf : p.WellFormed) {t : TypeId}
    (h : (p.recordOf? t).isSome) : t.isVoid = false ∧ t.isError = false := by
  obtain ⟨rid, hrid⟩ : ∃ rid, p.get t = .record rid := by
    unfold recordOf? at h
    split at h <;> simp_all
  obtain ⟨idx⟩ := t
  simp only [TypeId.isVoid, TypeId.isError, beq_eq_false_iff_ne]
  constructor <;> rintro rfl <;> rw [hwf.base _ (by decide)] at hrid <;> cases hrid

/-- A cast between two record types that is not signed is legal exactly when they are equal in
structure. -/
theorem castIsLegal_records {source target : TypeId} (hs : (p.recordOf? source).isSome)
    (ht : (p.recordOf? target).isSome) :
    p.castIsLegal source target false = p.structurallyEqual source target := by
  have hscalar : ∀ t, (p.recordOf? t).isSome → p.isScalar t = false := by
    intro t h
    unfold recordOf? at h
    unfold isScalar
    split at h <;> simp_all
  simp [castIsLegal, hscalar source hs, hscalar target ht, hs, ht]

end TypePool

namespace Check

open CheckM Std.Do

/-- A cast between types that are neither `void` nor the error type yields whether the pool it
starts from makes it legal. -/
theorem checkCast_legal (source target : TypeId) (signed : Bool) (span : Span)
    (hsource : source.isVoid = false ∧ source.isError = false)
    (htarget : target.isVoid = false ∧ target.isError = false) (s₀ : CheckState) :
    ⦃fun s => ⌜s = s₀⌝⦄ checkCast source target signed span
    ⦃⇓ r _ => ⌜r = s₀.pool.castIsLegal source target signed⌝⦄ := by
  unfold checkCast CheckM.fail CheckM.report
  mvcgen
  all_goals simp_all +zetaDelta

end Check

namespace CheckState

open TypePool Std.Do

end CheckState

end SolarFront
