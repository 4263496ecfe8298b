import SolarFront.Proofs.Syntax.FuelStmt
import SolarFront.Syntax.Parse.Module

/-!
# The parse ends

A parse of a token list that ends with the end of file ends on its own, never by running out
of fuel. Each round of the declaration loop either stops the parse or moves the cursor; each
item of a block that does not close it moves the cursor or unwinds the block; skipping after an
error moves unless it stands on the end of file or on a `}`; and a construct nested deeper than
the limit is refused with E1006. With `settled`, the fuel given to a declaration covers it,
and the loop's own fuel, one round per token, covers the loop.
-/

set_option autoImplicit false
set_option linter.all false

namespace SolarFront.Parser

open ParseState

variable {s : ParseState}

/-- Just the room a function of rank `c` needs from `s`. -/
theorem Budget.tight (hs : s.Inside) (c : Nat) : Budget (16 * (s.tokens.size - s.pos) + c) c s :=
  ⟨hs, le_rfl⟩

/-- A run that ends with sixteen more room than the least fuel gave it has read a token. -/
theorem Budget.lt_pos_of_tight {c : Nat} {s' : ParseState} (hk : s.Kept s')
    (hb : Budget (16 * (s.tokens.size - s.pos) + c) (c + 16) s') : s.pos < s'.pos := by
  have hroom := hb.room
  have := hk.inside.pos_lt
  rw [hk.tokens] at hroom this
  omega

theorem le_declFuel (hs : s.Inside) : 16 * (s.tokens.size - s.pos) + 3 ≤ declFuel s := by
  have := hs.pos_lt
  unfold declFuel
  omega

/-- A declaration parsed with the fuel it is given: any more fuel gives the same run, the cursor
stays on a token, and a parsed declaration has moved it. -/
theorem parseDecl_settled (hs : s.Inside) :
    (∀ m, declFuel s ≤ m → (parseDecl m).run.run s = (parseDecl (declFuel s)).run.run s) ∧
    (∀ r s', (parseDecl (declFuel s)).run.run s = (r, s') → s.Kept s') ∧
    (∀ d s', (parseDecl (declFuel s)).run.run s = (.ok d, s') → s.pos < s'.pos) := by
  have hgiven : Budget (declFuel s) 3 s := ⟨hs, le_declFuel hs⟩
  -- the given fuel against the least fuel that covers the declaration
  obtain ⟨⟨hleast, _⟩, hpost⟩ := (settled _).decl (declFuel s) 3 (le_declFuel hs) le_rfl s
    (Budget.tight hs 3) trivial
  refine ⟨fun m hm => ((settled _).decl m 3 hm le_rfl s hgiven trivial).1.1,
    fun r s' hrun => ((settled _).decl _ 3 le_rfl le_rfl s hgiven trivial).1.2 r s' hrun,
    fun d s' hrun => ?_⟩
  rw [hleast] at hrun
  have hk : s.Kept s' := ((settled _).decl _ 3 le_rfl le_rfl s (Budget.tight hs 3) trivial).1.2 _ _ hrun
  exact Budget.lt_pos_of_tight hk (hpost d s' hrun)

/-- One round of the declaration loop: a parsed declaration, or after an error that does not end
the parse, skipping to the next boundary and one token more if skipping did not move. -/
theorem run_declAttempt : declAttempt.run.run s =
    match (parseDecl (declFuel s)).run.run s with
    | (.ok d, s₁) => (.ok (.parsed d), s₁)
    | (.error e, s₁) =>
      if e.isFatal then (.ok .stopped, { s₁ with errors := s₁.errors.push e })
      else
        let s₂ : ParseState := { s₁ with errors := s₁.errors.push e,
                                         pos := synchronizeFrom s₁.tokens s₁.tokens.size 0 s₁.pos }
        (.ok .skipped, if s₂.pos = s.pos then s₂.next else s₂) := by
  unfold declAttempt
  rw [run_bind, run_get]
  dsimp only
  rw [run_bind, run_get]
  dsimp only
  rw [run_tryCatch, map_eq_pure_bind, run_bind]
  rcases (parseDecl (declFuel s)).run.run s with ⟨r, s₁⟩
  cases r with
  | ok d => rfl
  | error e =>
    dsimp only
    by_cases hf : e.isFatal = true
    · simp only [hf, if_true]
      rfl
    · simp only [hf, if_false, Bool.false_eq_true]
      rw [run_bind, run_recover]
      dsimp only
      rw [run_bind, run_get]
      dsimp only
      by_cases hp : synchronizeFrom s₁.tokens s₁.tokens.size 0 s₁.pos = s.pos
      · simp only [hp, beq_self_eq_true, if_true]
        rw [run_bind, run_advance]
        rfl
      · have hne : (synchronizeFrom s₁.tokens s₁.tokens.size 0 s₁.pos == s.pos) = false := by
          simpa using hp
        simp only [hne, hp, if_false, Bool.false_eq_true]
        rfl

/-- The token under the cursor depends only on the tokens and the position. -/
theorem peekAt_congr {s' : ParseState} (htokens : s'.tokens = s.tokens) (hpos : s'.pos = s.pos) :
    peekAt s' 0 = peekAt s 0 := by
  simp only [peekAt, htokens, hpos]

/-- A round of the declaration loop from a token other than the end of file always returns, keeps
the cursor on a token, and either stops the parse or moves the cursor. -/
theorem declAttempt_progress (hs : s.Inside) (heof : (peekAt s 0).kind ≠ .eof)
    {r : Except ParseError Attempt} {s' : ParseState} (hrun : declAttempt.run.run s = (r, s')) :
    ∃ a, r = .ok a ∧ s.Kept s' ∧ (a = .stopped ∨ s.pos < s'.pos) := by
  obtain ⟨-, hkept, hmoves⟩ := parseDecl_settled hs
  rw [run_declAttempt] at hrun
  rcases hd : (parseDecl (declFuel s)).run.run s with ⟨r₁, s₁⟩
  rw [hd] at hrun
  have hk₁ := hkept _ _ hd
  cases r₁ with
  | ok d =>
    cases hrun
    exact ⟨_, rfl, hk₁, .inr (hmoves d _ hd)⟩
  | error e =>
    dsimp only at hrun
    by_cases hf : e.isFatal = true
    · rw [if_pos hf] at hrun
      cases hrun
      exact ⟨_, rfl, hk₁.trans (Kept.of_eq hk₁.inside rfl rfl rfl), .inl rfl⟩
    · rw [if_neg hf] at hrun
      cases hrun
      have hskip := hk₁.trans (Keeps.recover e s₁ hk₁.inside _ _ (run_recover e))
      refine ⟨_, rfl, ?_, .inr ?_⟩
      · split
        · exact hskip.trans (Kept.next hskip.inside)
        · exact hskip
      · split
        · next hsame =>
          -- skipping did not move, so the cursor is still on the token the round started on
          rw [pos_next (peekAt_congr hskip.tokens hsame ▸ heof)]
          exact Nat.lt_succ_of_le (Nat.le_of_eq hsame.symm)
        · next hmoved => exact Nat.lt_of_le_of_ne hskip.pos (Ne.symm hmoved)

/-- The declaration loop with one round for each token left runs as with any more rounds. -/
theorem parseDecls_agree : ∀ n m (acc : List Decl) (s : ParseState), s.Inside →
    s.tokens.size - s.pos ≤ n → n ≤ m → Agree (parseDecls m acc) (parseDecls n acc) s
  | 0, _, _, s, hs, hn, _ => absurd hn (by have := hs.pos_lt; omega)
  | n + 1, m, acc, s, hs, hn, hm => by
    obtain ⟨m, rfl⟩ : ∃ k, m = k + 1 := ⟨m - 1, by omega⟩
    simp only [parseDecls]
    refine Agree.bind (Agree.of_kept (Keeps.atEnd s hs)) fun b s₁ hb _ => ?_
    rw [run_atEnd] at hb
    cases hb
    refine Agree.ite (fun _ => Agree.pure hs _) fun hend => ?_
    have heof : (peekAt s 0).kind ≠ .eof := by simpa using hend
    refine Agree.bind (Agree.of_kept fun r s' h => (declAttempt_progress hs heof h).choose_spec.2.1)
      fun a s₂ ha hk₂ => ?_
    obtain ⟨a', ha', -, hround⟩ := declAttempt_progress hs heof ha
    cases ha'
    -- a parsed or skipped declaration moved the cursor, which pays for the next round
    have hsize := congrArg Array.size hk₂.tokens
    cases a with
    | parsed d =>
      have hlt := hround.resolve_left (by simp)
      exact parseDecls_agree n m _ s₂ hk₂.inside (by omega) (by omega)
    | skipped =>
      have hlt := hround.resolve_left (by simp)
      exact parseDecls_agree n m _ s₂ hk₂.inside (by omega) (by omega)
    | stopped => exact Agree.pure hk₂.inside _

/-- An item of a block, from a token that neither closes the block nor ends the file, with fuel
that covers it: the cursor stays on a token, and either the block unwinds or the cursor moves. -/
theorem blockItem_progress (hs : s.Inside) {n : Nat} (hn : 16 * (s.tokens.size - s.pos) + 9 ≤ n)
    (heof : (peekAt s 0).kind ≠ .eof) (hbrace : (peekAt s 0).kind ≠ .rBrace)
    {r : Except ParseError (Option Stmt)} {s' : ParseState}
    (hrun : (blockItem (parseStmt n)).run.run s = (r, s')) :
    s.Kept s' ∧ ((∃ e, r = .error e) ∨ s.pos < s'.pos) := by
  obtain ⟨⟨heq, hkept⟩, hpost⟩ := Sim.blockItem (fun _ hp => hp)
    ((settled _).stmt n 9 hn le_rfl) s (Budget.tight hs 9) ⟨heof, hbrace⟩
  rw [heq] at hrun
  refine ⟨hkept r s' hrun, ?_⟩
  cases r with
  | error e => exact .inl ⟨e, rfl⟩
  | ok a => exact .inr (Budget.lt_pos_of_tight (hkept _ _ hrun) (hpost a s' hrun))

/-- Skipping from a token stops on a token, and moves unless it starts on the end of file or on
a `}`, where it stays. -/
theorem synchronize_progress {tokens : Array Token} (h : EndsWithEof tokens) {pos : Nat}
    (hpos : pos < tokens.size) :
    synchronizeFrom tokens tokens.size 0 pos < tokens.size ∧
      (pos < synchronizeFrom tokens tokens.size 0 pos ∨
        synchronizeFrom tokens tokens.size 0 pos = pos ∧
          ((tokens[pos]?.map (·.kind)).getD .eof = .eof ∨
            (tokens[pos]?.map (·.kind)).getD .eof = .rBrace)) := by
  refine ⟨synchronizeFrom_lt h _ _ _ hpos, ?_⟩
  obtain ⟨fuel, hfuel⟩ : ∃ fuel, tokens.size = fuel + 1 := ⟨tokens.size - 1, by omega⟩
  rw [hfuel]
  by_cases heof : (tokens[pos]?.map (·.kind)).getD .eof = .eof
  · refine .inr ⟨?_, .inl heof⟩
    unfold synchronizeFrom
    dsimp only
    rw [heof]
  by_cases hbrace : (tokens[pos]?.map (·.kind)).getD .eof = .rBrace
  · refine .inr ⟨?_, .inr hbrace⟩
    unfold synchronizeFrom
    dsimp only
    rw [hbrace]
    rfl
  exact .inl (lt_synchronizeFrom fuel pos heof hbrace)

/-- A parse of `tokens` ends on its own. The declaration loop's rounds and every declaration's
fuel are more than the parse uses; the cursor stays on a token; each round of the declaration
loop and each item of a block moves the cursor or ends its loop; skipping moves unless it
starts on the end of file or a `}`; and nesting past the limit is refused with E1006. -/
structure Terminates (tokens : TokenList) : Prop where
  /-- The declaration loop, one round per token and one more, runs as with any more rounds. -/
  decls_fuel : ∀ m, tokens.tokens.size + 1 ≤ m →
    (parseDecls m []).run.run { tokens := tokens.tokens, comments := tokens.comments } =
      (parseDecls (tokens.tokens.size + 1) []).run.run
        { tokens := tokens.tokens, comments := tokens.comments }
  /-- The parse ends with the cursor on a token and no construct left open. -/
  decls_inside : ∀ r s', (parseDecls (tokens.tokens.size + 1) []).run.run
      { tokens := tokens.tokens, comments := tokens.comments } = (r, s') →
    s'.Inside ∧ s'.tokens = tokens.tokens ∧ s'.depth = 0
  /-- A declaration from any token runs with the fuel it is given as with any more fuel. -/
  decl_fuel : ∀ s : ParseState, s.tokens = tokens.tokens → s.pos < tokens.tokens.size →
    ∀ m, declFuel s ≤ m → (parseDecl m).run.run s = (parseDecl (declFuel s)).run.run s
  /-- A declaration keeps the cursor on a token, never behind where it started. -/
  decl_kept : ∀ s : ParseState, s.tokens = tokens.tokens → s.pos < tokens.tokens.size →
    ∀ r s', (parseDecl (declFuel s)).run.run s = (r, s') → s.Kept s'
  /-- A round of the declaration loop either stops the parse or moves the cursor. -/
  decl_round : ∀ s : ParseState, s.tokens = tokens.tokens → s.pos < tokens.tokens.size →
    (peekAt s 0).kind ≠ .eof → ∀ r s', declAttempt.run.run s = (r, s') →
      ∃ a, r = .ok a ∧ s.Kept s' ∧ (a = .stopped ∨ s.pos < s'.pos)
  /-- An item of a block, where the block goes on, either unwinds it or moves the cursor. -/
  block_round : ∀ (s : ParseState) (n : Nat), s.tokens = tokens.tokens →
    s.pos < tokens.tokens.size → 16 * (s.tokens.size - s.pos) + 9 ≤ n →
    (peekAt s 0).kind ≠ .eof → (peekAt s 0).kind ≠ .rBrace →
    ∀ r s', (blockItem (parseStmt n)).run.run s = (r, s') →
      s.Kept s' ∧ ((∃ e, r = .error e) ∨ s.pos < s'.pos)
  /-- Skipping stops on a token, and moves unless it starts on the end of file or a `}`. -/
  synchronize : ∀ pos, pos < tokens.tokens.size →
    synchronizeFrom tokens.tokens tokens.tokens.size 0 pos < tokens.tokens.size ∧
      (pos < synchronizeFrom tokens.tokens tokens.tokens.size 0 pos ∨
        synchronizeFrom tokens.tokens tokens.tokens.size 0 pos = pos ∧
          ((tokens.tokens[pos]?.map (·.kind)).getD .eof = .eof ∨
            (tokens.tokens[pos]?.map (·.kind)).getD .eof = .rBrace))
  /-- At the nesting limit a construct is refused with E1006 before it is entered. -/
  nesting : ∀ (α : Type) (x : Parser α) (s : ParseState), nestingLimit ≤ s.depth →
    (nested x).run.run s = (.error (ParseError.nestingTooDeep (peekAt s 0).span nestingLimit), s)

end SolarFront.Parser
