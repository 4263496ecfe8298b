import SolarFront.Proofs.Syntax.Progress

/-!
# Budgets for the grammar's fuel

Every grammar function takes fuel and fails when it runs out. The fuel is never what ends a
parse: from a state with `k` tokens left, a function of rank `c` run with fuel `16 * k + c` or
more gives the same run as with any larger fuel.

The ranks order the grammar functions so that a call made without reading a token goes to a
function of lower rank, while a call made after reading a token may go anywhere (ranks are at
most ten, and a token is worth sixteen). `Budget n ℓ s` says that `s` has room for level `ℓ`
within fuel `n`; `Sim P n ℓ ℓ' x y` says that from every state with room for `ℓ` where `P`
holds, `x` and `y` run alike, and a successful run of `y` leaves room for `ℓ'`. Reading a token
raises the level by sixteen, which is how a call after a read is paid for.

`Settled n` collects, for every grammar function, that any fuel from `n` on agrees with `n` from
states with room for its rank; the functions that always read a token when they succeed also
raise the level by sixteen.
-/

set_option autoImplicit false
set_option linter.all false

namespace SolarFront.Parser

open ParseState

/-- Room for a parse at level `ℓ` within fuel `n`: on a token, with sixteen for each token left
plus `ℓ` within `n`. -/
structure Budget (n ℓ : Nat) (s : ParseState) : Prop where
  inside : s.Inside
  room : 16 * (s.tokens.size - s.pos) + ℓ ≤ n

namespace Budget

variable {n ℓ ℓ' : Nat} {s s' : ParseState}

theorem mono (hb : Budget n ℓ s) (h : ℓ' ≤ ℓ) : Budget n ℓ' s :=
  ⟨hb.inside, by have := hb.room; omega⟩

theorem kept (hb : Budget n ℓ s) (hk : s.Kept s') : Budget n ℓ s' := by
  refine ⟨hk.inside, ?_⟩
  have := hb.room
  have := hk.pos
  rw [hk.tokens]
  omega

/-- Moving past a token raises the level by sixteen. -/
theorem moved (hb : Budget n ℓ s) (hk : s.Kept s') (hlt : s.pos < s'.pos) :
    Budget n (ℓ + 16) s' := by
  refine ⟨hk.inside, ?_⟩
  have := hb.room
  have := hk.inside.pos_lt
  rw [hk.tokens] at this ⊢
  omega

theorem next (hb : Budget n ℓ s) (hk : (peekAt s 0).kind ≠ .eof) : Budget n (ℓ + 16) s.next :=
  hb.moved (Kept.next hb.inside) (by rw [pos_next hk]; omega)

theorem succ_iff : Budget (n + 1) (ℓ + 1) s ↔ Budget n ℓ s :=
  ⟨fun hb => ⟨hb.inside, by have := hb.room; omega⟩,
    fun hb => ⟨hb.inside, by have := hb.room; omega⟩⟩

/-- No fuel leaves no room: a state on a token has a token left. -/
theorem not_zero : ¬ Budget 0 ℓ s := fun hb => by
  have := hb.room
  have := hb.inside.pos_lt
  omega

end Budget

section Sim

variable {α β γ : Type} {P : ParseState → Prop} {n ℓ ℓ' ℓ₁ ℓ₂ : Nat}

/-- From every state with room for `ℓ` where `P` holds, `x` and `y` run alike and keep the state,
and a successful run of `y` leaves room for `ℓ'`. -/
def Sim (P : ParseState → Prop) (n ℓ ℓ' : Nat) (x y : Parser α) : Prop :=
  ∀ s, Budget n ℓ s → P s → Agree x y s ∧ ∀ a s', y.run.run s = (.ok a, s') → Budget n ℓ' s'

theorem Sim.restrict {x y : Parser α} (h : Sim ⊤ n ℓ ℓ' x y) : Sim P n ℓ ℓ' x y :=
  fun s hb _ => h s hb trivial

theorem Sim.weaken {x y : Parser α} {ℓ₀ ℓ₀' : Nat} (h : Sim P n ℓ₀ ℓ₀' x y) (hpre : ℓ₀ ≤ ℓ)
    (hpost : ℓ' ≤ ℓ₀') : Sim P n ℓ ℓ' x y := fun s hb hP => by
  obtain ⟨hagree, hpost'⟩ := h s (hb.mono hpre) hP
  exact ⟨hagree, fun a s' hrun => (hpost' a s' hrun).mono hpost⟩

theorem Sim.succ {x y : Parser α} (h : Sim P n ℓ ℓ' x y) : Sim P (n + 1) (ℓ + 1) (ℓ' + 1) x y :=
  fun s hb hP => by
    obtain ⟨hagree, hpost⟩ := h s (Budget.succ_iff.1 hb) hP
    exact ⟨hagree, fun a s' hrun => Budget.succ_iff.2 (hpost a s' hrun)⟩

theorem Sim.of_zero {x y : Parser α} : Sim P 0 ℓ ℓ' x y :=
  fun _ hb _ => absurd hb Budget.not_zero

/-- A step that keeps the state agrees with itself and keeps the level. -/
theorem Sim.of_keeps {x : Parser α} (h : Keeps x) : Sim P n ℓ ℓ x x :=
  fun s hb _ => ⟨Agree.of_kept (h s hb.inside), fun _ _ hrun => hb.kept (h s hb.inside _ _ hrun)⟩

theorem Sim.pure (a : α) : Sim P n ℓ ℓ (Pure.pure a : Parser α) (Pure.pure a) :=
  Sim.of_keeps (Keeps.pure a)

/-- A step that always fails leaves any room it is asked for. -/
theorem Sim.throw (e : ParseError) : Sim P n ℓ ℓ' (throw e : Parser α) (throw e) :=
  fun s hb _ => ⟨Agree.throw hb.inside e, fun _ _ h => by cases h⟩

/-- A run that stays at the level a read raised it to leaves the room it had before the read. -/
theorem Sim.drop {x y : Parser α} (h : Sim P n (ℓ + 16) (ℓ + 16) x y) : Sim P n (ℓ + 16) ℓ x y :=
  h.weaken le_rfl (Nat.le_add_right ℓ 16)

theorem Sim.bind {x y : Parser α} {k k' : α → Parser β} (hx : Sim P n ℓ ℓ₁ x y)
    (hk : ∀ a, Sim ⊤ n ℓ₁ ℓ₂ (k a) (k' a)) : Sim P n ℓ ℓ₂ (x >>= k) (y >>= k') := by
  intro s hb hP
  obtain ⟨hagree, hpost⟩ := hx s hb hP
  refine ⟨hagree.bind fun a s' hrun _ => (hk a s' (hpost a s' hrun) trivial).1,
    fun b s'' hrun => ?_⟩
  rw [run_bind] at hrun
  rcases hy : y.run.run s with ⟨r, s₁⟩
  rw [hy] at hrun
  cases r with
  | error e => cases hrun
  | ok a => exact (hk a s₁ (hpost a s₁ hy) trivial).2 b s'' hrun

/-- Nothing after a failure runs. -/
theorem Sim.throw_bind (e : ParseError) {k k' : α → Parser β} :
    Sim P n ℓ ℓ' (MonadExcept.throw e >>= k) (MonadExcept.throw e >>= k') := fun s hb _ => by
  have hrun : ∀ k : α → Parser β, (MonadExcept.throw e >>= k : Parser β).run.run s = (.error e, s) :=
    fun k => by rw [run_bind]; rfl
  refine ⟨⟨by rw [hrun, hrun], fun r s' h => ?_⟩, fun a s' h => ?_⟩
  · rw [hrun] at h
    cases h
    exact Kept.refl hb.inside
  · rw [hrun] at h
    cases h

theorem Sim.map {x y : Parser α} (f : α → β) (h : Sim P n ℓ ℓ' x y) :
    Sim P n ℓ ℓ' (f <$> x) (f <$> y) := by
  simp only [map_eq_pure_bind]
  exact h.bind fun a => Sim.pure (f a)

theorem Sim.ite {c : Prop} [Decidable c] {x y x' y' : Parser α} (h₁ : c → Sim P n ℓ ℓ' x y)
    (h₂ : ¬c → Sim P n ℓ ℓ' x' y') : Sim P n ℓ ℓ' (if c then x else x') (if c then y else y') := by
  by_cases hc : c
  · simp only [hc, if_true]; exact h₁ hc
  · simp only [hc, if_false]; exact h₂ hc

theorem Sim.nested {x y : Parser α} (h : Sim ⊤ n ℓ ℓ' x y) : Sim P n ℓ ℓ' (nested x) (nested y) := by
  intro s hb _
  have hb₁ : Budget n ℓ { s with depth := s.depth + 1 } := ⟨⟨hb.inside.1, hb.inside.2⟩, hb.room⟩
  refine ⟨Agree.nested hb.inside fun _ => (h _ hb₁ trivial).1, fun a s' hrun => ?_⟩
  rw [run_nested] at hrun
  split at hrun
  · cases hrun
  · rcases hy : y.run.run { s with depth := s.depth + 1 } with ⟨r, s₁⟩
    rw [hy] at hrun
    cases hrun
    have hpost := (h _ hb₁ trivial).2 a s₁ hy
    exact ⟨⟨hpost.inside.1, hpost.inside.2⟩, hpost.room⟩

/-- A step that only reads the state hands its value to the rest, which may rely on it. -/
theorem Sim.read_bind {p : Parser γ} {f : ParseState → γ} {k k' : γ → Parser β}
    (hp : ∀ s, p.run.run s = (.ok (f s), s))
    (hk : ∀ a, Sim (fun s => P s ∧ f s = a) n ℓ ℓ' (k a) (k' a)) :
    Sim P n ℓ ℓ' (p >>= k) (p >>= k') := by
  intro s hb hP
  obtain ⟨hagree, hpost⟩ := hk (f s) s hb ⟨hP, rfl⟩
  refine ⟨⟨by rw [run_bind, run_bind, hp]; exact hagree.1, fun r s' hrun => ?_⟩,
    fun a s' hrun => ?_⟩
  · rw [run_bind, hp] at hrun
    exact hagree.2 r s' hrun
  · rw [run_bind, hp] at hrun
    exact hpost a s' hrun

theorem Sim.currentKind_bind {k k' : TokenKind → Parser β}
    (hk : ∀ a, Sim (fun s => P s ∧ (peekAt s 0).kind = a) n ℓ ℓ' (k a) (k' a)) :
    Sim P n ℓ ℓ' (currentKind >>= k) (currentKind >>= k') :=
  Sim.read_bind (fun _ => run_currentKind) hk

theorem Sim.current_bind {k k' : Token → Parser β}
    (hk : ∀ t, Sim (fun s => P s ∧ peekAt s 0 = t) n ℓ ℓ' (k t) (k' t)) :
    Sim P n ℓ ℓ' (current >>= k) (current >>= k') :=
  Sim.read_bind (fun _ => run_current) hk

theorem Sim.check_bind (t : TokenKind) {k k' : Bool → Parser β}
    (hk : ∀ b, Sim (fun s => P s ∧ ((peekAt s 0).kind == t) = b) n ℓ ℓ' (k b) (k' b)) :
    Sim P n ℓ ℓ' (check t >>= k) (check t >>= k') :=
  Sim.read_bind (fun _ => run_check t) hk

/-- A step that keeps the state, when the rest does not rely on what it returned. -/
theorem Sim.keeps_bind {p : Parser γ} {k k' : γ → Parser β} (hp : Keeps p)
    (hk : ∀ a, Sim ⊤ n ℓ ℓ' (k a) (k' a)) : Sim P n ℓ ℓ' (p >>= k) (p >>= k') :=
  (Sim.of_keeps hp).bind hk

/-- Reading a token that is not the end of file raises the level. -/
theorem Sim.advance (h : ∀ s, P s → (peekAt s 0).kind ≠ .eof) :
    Sim P n ℓ (ℓ + 16) advance advance := fun s hb hP =>
  ⟨Agree.of_kept (Keeps.advance s hb.inside), fun a s' hrun => by
    rw [run_advance] at hrun
    cases hrun
    exact hb.next (h s hP)⟩

theorem Sim.advance_of_kind {Q : ParseState → Prop} {t : TokenKind} (ht : t ≠ .eof) :
    Sim (fun s => Q s ∧ (peekAt s 0).kind = t) n ℓ (ℓ + 16) Parser.advance Parser.advance :=
  Sim.advance fun _ h => h.2 ▸ ht

theorem Sim.advance_of_token {Q : ParseState → Prop} {t : Token} (ht : t.kind ≠ .eof) :
    Sim (fun s => Q s ∧ peekAt s 0 = t) n ℓ (ℓ + 16) Parser.advance Parser.advance :=
  Sim.advance fun _ h => h.2 ▸ ht

/-- `expect` succeeds only past a token of its kind. -/
theorem Sim.expect {t : TokenKind} (ht : t ≠ .eof) : Sim P n ℓ (ℓ + 16) (expect t) (expect t) :=
  fun s hb _ => ⟨Agree.of_kept (Keeps.expect t s hb.inside), fun a s' hrun => by
    obtain ⟨hk, rfl⟩ := expect_moves hrun
    exact hb.next (hk ▸ ht)⟩

theorem Sim.expectIdent : Sim P n ℓ (ℓ + 16) expectIdent expectIdent :=
  fun s hb _ => ⟨Agree.of_kept (Keeps.expectIdent s hb.inside), fun a s' hrun => by
    obtain ⟨hk, rfl⟩ := expectIdent_moves hrun
    exact hb.next (by rw [hk]; decide)⟩

theorem Sim.expectInt : Sim P n ℓ (ℓ + 16) expectInt expectInt :=
  fun s hb _ => ⟨Agree.of_kept (Keeps.expectInt s hb.inside), fun a s' hrun => by
    obtain ⟨hk, rfl⟩ := expectInt_moves hrun
    exact hb.next (by rw [hk]; decide)⟩

/-- After `eat`, the rest runs past the token with the level raised when it was there. -/
theorem Sim.eat_bind {t : TokenKind} (ht : t ≠ .eof) {k k' : Bool → Parser β}
    (htrue : Sim ⊤ n (ℓ + 16) ℓ' (k true) (k' true)) (hfalse : Sim ⊤ n ℓ ℓ' (k false) (k' false)) :
    Sim P n ℓ ℓ' (eat t >>= k) (eat t >>= k') := by
  intro s hb _
  by_cases hk : (peekAt s 0).kind = t
  · have hrun : (eat t).run.run s = (.ok true, s.next) := by rw [run_eat, if_pos hk]
    obtain ⟨hagree, hpost⟩ := htrue s.next (hb.next (hk ▸ ht)) trivial
    refine ⟨⟨by rw [run_bind, run_bind, hrun]; exact hagree.1, fun r s' h => ?_⟩,
      fun a s' h => ?_⟩
    · rw [run_bind, hrun] at h
      exact (Kept.next hb.inside).trans (hagree.2 r s' h)
    · rw [run_bind, hrun] at h
      exact hpost a s' h
  · have hrun : (eat t).run.run s = (.ok false, s) := by rw [run_eat, if_neg hk]
    obtain ⟨hagree, hpost⟩ := hfalse s hb trivial
    refine ⟨⟨by rw [run_bind, run_bind, hrun]; exact hagree.1, fun r s' h => ?_⟩,
      fun a s' h => ?_⟩
    · rw [run_bind, hrun] at h
      exact hagree.2 r s' h
    · rw [run_bind, hrun] at h
      exact hpost a s' h

/-- `if ← eat t then A else B`. -/
theorem Sim.eat_ite {t : TokenKind} (ht : t ≠ .eof) {A A' B B' : Parser β}
    (hA : Sim ⊤ n (ℓ + 16) ℓ' A A') (hB : Sim ⊤ n ℓ ℓ' B B') :
    Sim P n ℓ ℓ' (eat t >>= fun b => if b = true then A else B)
      (eat t >>= fun b => if b = true then A' else B') :=
  Sim.eat_bind ht (by simpa using hA) (by simpa using hB)

/-- `if !(← eat t) then B else A`. -/
theorem Sim.eat_not_ite {t : TokenKind} (ht : t ≠ .eof) {A A' B B' : Parser β}
    (hA : Sim ⊤ n (ℓ + 16) ℓ' A A') (hB : Sim ⊤ n ℓ ℓ' B B') :
    Sim P n ℓ ℓ' (eat t >>= fun b => if (!b) = true then B else A)
      (eat t >>= fun b => if (!b) = true then B' else A') :=
  Sim.eat_bind ht (by simpa using hA) (by simpa using hB)

/-- A block item run from a token that neither closes the block nor ends the file moves when it
succeeds: a statement reads a token, and skipping after an error moves at least one. -/
theorem Sim.blockItem {x y : Parser Stmt}
    (h : ∀ s, P s → (peekAt s 0).kind ≠ .eof ∧ (peekAt s 0).kind ≠ .rBrace)
    (hx : Sim ⊤ n ℓ (ℓ + 16) x y) : Sim P n ℓ (ℓ + 16) (blockItem x) (blockItem y) := by
  intro s hb hP
  obtain ⟨⟨heq, hkept⟩, hpost⟩ := hx s hb trivial
  rcases hy : y.run.run s with ⟨r, s₁⟩
  have hk₁ := hkept r s₁ hy
  cases r with
  | ok a =>
    refine ⟨⟨by rw [run_blockItem, run_blockItem, heq, hy], fun r s' hrun => ?_⟩,
      fun b s' hrun => ?_⟩ <;>
    · rw [run_blockItem, hy] at hrun
      cases hrun
      first | exact hk₁ | exact hpost a s₁ hy
  | error e =>
    -- the state skipping leads to, and why it is past the start
    have hskip : s.Kept { s₁ with errors := s₁.errors.push e,
                                  pos := synchronizeFrom s₁.tokens s₁.tokens.size 0 s₁.pos } :=
      hk₁.trans (Keeps.recover e s₁ hk₁.inside _ _ (run_recover e))
    have hmoved : s.pos < synchronizeFrom s₁.tokens s₁.tokens.size 0 s₁.pos := by
      by_cases hsame : s₁.pos = s.pos
      · have hcur : peekAt s₁ 0 = peekAt s 0 := by simp only [peekAt, hk₁.tokens, hsame]
        obtain ⟨heof, hbrace⟩ := h s hP
        rw [← hcur] at heof hbrace
        rw [← hsame]
        exact lt_pos_recover hk₁.inside heof hbrace e (run_recover e)
      · exact Nat.lt_of_lt_of_le (Nat.lt_of_le_of_ne hk₁.pos (Ne.symm hsame))
          (le_synchronizeFrom _ _ _)
    refine ⟨⟨by rw [run_blockItem, run_blockItem, heq, hy], fun r s' hrun => ?_⟩,
      fun b s' hrun => ?_⟩
    · rw [run_blockItem, hy] at hrun
      dsimp only at hrun
      by_cases hf : e.isFatal = true
      · rw [if_pos hf] at hrun
        cases hrun
        exact hk₁
      · rw [if_neg hf] at hrun
        cases hrun
        exact hskip
    · rw [run_blockItem, hy] at hrun
      dsimp only at hrun
      by_cases hf : e.isFatal = true
      · rw [if_pos hf] at hrun
        cases hrun
      · rw [if_neg hf] at hrun
        cases hrun
        exact hb.moved hskip hmoved

/-- One level of fuel more on both sides: a step proved at `n` for every fuel from `n` on and
every level from one below the rank gives the same at `n + 1`. -/
theorem Sim.lift {n c : Nat} (x : Nat → Parser α) (hc : 1 ≤ c)
    (step : ∀ m ℓ, n ≤ m → c ≤ ℓ + 1 → Sim ⊤ n ℓ ℓ (x (m + 1)) (x (n + 1))) :
    ∀ m ℓ, n + 1 ≤ m → c ≤ ℓ → Sim ⊤ (n + 1) ℓ ℓ (x m) (x (n + 1)) := by
  intro m ℓ hm hcℓ
  obtain ⟨m, rfl⟩ : ∃ k, m = k + 1 := ⟨m - 1, by omega⟩
  obtain ⟨ℓ, rfl⟩ : ∃ k, ℓ = k + 1 := ⟨ℓ - 1, by omega⟩
  exact (step m ℓ (by omega) hcℓ).succ

theorem Sim.lift_moving {n c : Nat} (x : Nat → Parser α) (hc : 1 ≤ c)
    (step : ∀ m ℓ, n ≤ m → c ≤ ℓ + 1 → Sim ⊤ n ℓ (ℓ + 16) (x (m + 1)) (x (n + 1))) :
    ∀ m ℓ, n + 1 ≤ m → c ≤ ℓ → Sim ⊤ (n + 1) ℓ (ℓ + 16) (x m) (x (n + 1)) := by
  intro m ℓ hm hcℓ
  obtain ⟨m, rfl⟩ : ∃ k, m = k + 1 := ⟨m - 1, by omega⟩
  obtain ⟨ℓ, rfl⟩ : ∃ k, ℓ = k + 1 := ⟨ℓ - 1, by omega⟩
  have := (step m ℓ (by omega) hcℓ).succ
  rwa [Nat.add_right_comm] at this

end Sim

/-- Every grammar function agrees from fuel `n` on with fuel `n`, from states with room for its
rank (the number in each field). Those that read a token whenever they succeed (a statement, a
block, a declaration) raise the level by sixteen. -/
structure Settled (n : Nat) : Prop where
  expr : ∀ m ℓ, n ≤ m → 7 ≤ ℓ → Sim ⊤ n ℓ ℓ (parseExpr m) (parseExpr n)
  commaTail : ∀ m ℓ, n ≤ m → 1 ≤ ℓ → Sim ⊤ n ℓ ℓ (parseCommaTail m) (parseCommaTail n)
  assign : ∀ m ℓ, n ≤ m → 6 ≤ ℓ → Sim ⊤ n ℓ ℓ (parseAssign m) (parseAssign n)
  ternary : ∀ m ℓ, n ≤ m → 5 ≤ ℓ → Sim ⊤ n ℓ ℓ (parseTernary m) (parseTernary n)
  binary : ∀ minPrec m ℓ, n ≤ m → 4 ≤ ℓ →
    Sim ⊤ n ℓ ℓ (parseBinary m minPrec) (parseBinary n minPrec)
  binaryTail : ∀ minPrec left m ℓ, n ≤ m → 1 ≤ ℓ →
    Sim ⊤ n ℓ ℓ (parseBinaryTail m minPrec left) (parseBinaryTail n minPrec left)
  unary : ∀ m ℓ, n ≤ m → 3 ≤ ℓ → Sim ⊤ n ℓ ℓ (parsePrefix m) (parsePrefix n)
  sizeof : ∀ m ℓ, n ≤ m → 1 ≤ ℓ → Sim ⊤ n ℓ ℓ (parseSizeof m) (parseSizeof n)
  operand : ∀ m ℓ, n ≤ m → 2 ≤ ℓ → Sim ⊤ n ℓ ℓ (parsePostfix m) (parsePostfix n)
  operandTail : ∀ e m ℓ, n ≤ m → 1 ≤ ℓ → Sim ⊤ n ℓ ℓ (parsePostfixTail m e) (parsePostfixTail n e)
  callArgs : ∀ m ℓ, n ≤ m → 8 ≤ ℓ → Sim ⊤ n ℓ ℓ (parseCallArgs m) (parseCallArgs n)
  argList : ∀ m ℓ, n ≤ m → 7 ≤ ℓ → Sim ⊤ n ℓ ℓ (parseArgList m) (parseArgList n)
  primary : ∀ m ℓ, n ≤ m → 1 ≤ ℓ → Sim ⊤ n ℓ ℓ (parsePrimary m) (parsePrimary n)
  stringTail : ∀ enc first acc m ℓ, n ≤ m → 1 ≤ ℓ →
    Sim ⊤ n ℓ ℓ (parseStringTail m enc first acc) (parseStringTail n enc first acc)
  type : ∀ m ℓ, n ≤ m → 2 ≤ ℓ → Sim ⊤ n ℓ ℓ (parseType m) (parseType n)
  typeInner : ∀ m ℓ, n ≤ m → 1 ≤ ℓ → Sim ⊤ n ℓ ℓ (parseTypeInner m) (parseTypeInner n)
  funType : ∀ m ℓ, n ≤ m → 1 ≤ ℓ → Sim ⊤ n ℓ ℓ (parseFunType m) (parseFunType n)
  typeParams : ∀ m ℓ, n ≤ m → 3 ≤ ℓ → Sim ⊤ n ℓ ℓ (parseTypeParams m) (parseTypeParams n)
  returnType : ∀ m ℓ, n ≤ m → 1 ≤ ℓ → Sim ⊤ n ℓ ℓ (parseReturnType m) (parseReturnType n)
  recordBody : ∀ m ℓ, n ≤ m → 1 ≤ ℓ → Sim ⊤ n ℓ ℓ (parseRecordBody m) (parseRecordBody n)
  members : ∀ m ℓ, n ≤ m → 1 ≤ ℓ → Sim ⊤ n ℓ ℓ (parseMembers m) (parseMembers n)
  block : ∀ m ℓ, n ≤ m → 1 ≤ ℓ → Sim ⊤ n ℓ (ℓ + 16) (parseBlock m) (parseBlock n)
  blockItems : ∀ open_ m ℓ, n ≤ m → 10 ≤ ℓ →
    Sim ⊤ n ℓ ℓ (parseBlockItems m open_) (parseBlockItems n open_)
  stmt : ∀ m ℓ, n ≤ m → 9 ≤ ℓ → Sim ⊤ n ℓ (ℓ + 16) (parseStmt m) (parseStmt n)
  stmtInner : ∀ m ℓ, n ≤ m → 8 ≤ ℓ → Sim ⊤ n ℓ (ℓ + 16) (parseStmtInner m) (parseStmtInner n)
  keywordStmt : ∀ label start m ℓ, n ≤ m → 1 ≤ ℓ →
    Sim ⊤ n ℓ (ℓ + 16) (parseKeywordStmt m label start) (parseKeywordStmt n label start)
  condition : ∀ m ℓ, n ≤ m → 1 ≤ ℓ → Sim ⊤ n ℓ ℓ (parseCondition m) (parseCondition n)
  elseBranch : ∀ m ℓ, n ≤ m → 1 ≤ ℓ → Sim ⊤ n ℓ ℓ (parseElse m) (parseElse n)
  optionalExpr : ∀ terminator m ℓ, n ≤ m → 8 ≤ ℓ →
    Sim ⊤ n ℓ ℓ (parseOptionalExpr m terminator) (parseOptionalExpr n terminator)
  init : ∀ m ℓ, n ≤ m → 8 ≤ ℓ → Sim ⊤ n ℓ ℓ (parseInit m) (parseInit n)
  initInner : ∀ m ℓ, n ≤ m → 7 ≤ ℓ → Sim ⊤ n ℓ ℓ (parseInitInner m) (parseInitInner n)
  elements : ∀ m ℓ, n ≤ m → 9 ≤ ℓ → Sim ⊤ n ℓ ℓ (parseElements m) (parseElements n)
  fieldInits : ∀ m ℓ, n ≤ m → 1 ≤ ℓ → Sim ⊤ n ℓ ℓ (parseFieldInits m) (parseFieldInits n)
  fieldList : ∀ seen m ℓ, n ≤ m → 1 ≤ ℓ →
    Sim ⊤ n ℓ ℓ (parseFieldList m seen) (parseFieldList n seen)
  decl : ∀ m ℓ, n ≤ m → 3 ≤ ℓ → Sim ⊤ n ℓ (ℓ + 16) (parseDecl m) (parseDecl n)
  localDecl : ∀ m ℓ, n ≤ m → 3 ≤ ℓ → Sim ⊤ n ℓ (ℓ + 16) (parseLocalDecl m) (parseLocalDecl n)
  declBody : ∀ head m ℓ, n ≤ m → 2 ≤ ℓ →
    Sim ⊤ n ℓ (ℓ + 16) (parseDeclBody m head) (parseDeclBody n head)
  function : ∀ head m ℓ, n ≤ m → 1 ≤ ℓ → Sim ⊤ n ℓ (ℓ + 16) (parseFun m head) (parseFun n head)
  params : ∀ m ℓ, n ≤ m → 1 ≤ ℓ → Sim ⊤ n ℓ ℓ (parseParams m) (parseParams n)

/-- With no fuel there is no room at all. -/
theorem settled_zero : Settled 0 :=
  ⟨fun _ _ _ _ => Sim.of_zero, fun _ _ _ _ => Sim.of_zero, fun _ _ _ _ => Sim.of_zero,
    fun _ _ _ _ => Sim.of_zero, fun _ _ _ _ _ => Sim.of_zero, fun _ _ _ _ _ _ => Sim.of_zero,
    fun _ _ _ _ => Sim.of_zero, fun _ _ _ _ => Sim.of_zero, fun _ _ _ _ => Sim.of_zero,
    fun _ _ _ _ _ => Sim.of_zero, fun _ _ _ _ => Sim.of_zero, fun _ _ _ _ => Sim.of_zero,
    fun _ _ _ _ => Sim.of_zero, fun _ _ _ _ _ _ _ => Sim.of_zero, fun _ _ _ _ => Sim.of_zero,
    fun _ _ _ _ => Sim.of_zero, fun _ _ _ _ => Sim.of_zero, fun _ _ _ _ => Sim.of_zero,
    fun _ _ _ _ => Sim.of_zero, fun _ _ _ _ => Sim.of_zero, fun _ _ _ _ => Sim.of_zero,
    fun _ _ _ _ => Sim.of_zero, fun _ _ _ _ _ => Sim.of_zero, fun _ _ _ _ => Sim.of_zero,
    fun _ _ _ _ => Sim.of_zero, fun _ _ _ _ _ _ => Sim.of_zero, fun _ _ _ _ => Sim.of_zero,
    fun _ _ _ _ => Sim.of_zero, fun _ _ _ _ _ => Sim.of_zero, fun _ _ _ _ => Sim.of_zero,
    fun _ _ _ _ => Sim.of_zero, fun _ _ _ _ => Sim.of_zero, fun _ _ _ _ => Sim.of_zero,
    fun _ _ _ _ _ => Sim.of_zero, fun _ _ _ _ => Sim.of_zero, fun _ _ _ _ => Sim.of_zero,
    fun _ _ _ _ _ => Sim.of_zero, fun _ _ _ _ _ => Sim.of_zero, fun _ _ _ _ => Sim.of_zero⟩

end SolarFront.Parser
