import SolarFront.Proofs.Syntax.Run

/-!
# The parser's cursor and its progress

A parser state is `Inside` when its tokens end with the end of file and the cursor stands on
one of them. Every step of the parser keeps that (`ParseState.Kept`): the cursor moves forward
over the same tokens, never past the end of file, and the nesting depth comes back to where it
was. Recovery skips to the next boundary and moves at least one token unless it stands on the
end of file or on a `}`.

`Parser.Agree x y s` says that `x` and `y` run alike from `s`, and that the run keeps the
state. The grammar's fuel is compared through it: two fuels agree when every call below them
agrees, and `Agree` passes through binds, handlers, conditions and nesting. The primitive
steps agree with themselves.
-/

set_option autoImplicit false
set_option linter.all false

namespace SolarFront

/-- Tokens whose last one is the end of file, as the lexer leaves them. -/
def EndsWithEof (tokens : Array Token) : Prop :=
  tokens[tokens.size - 1]?.map (·.kind) = some .eof

open SolarFront.Parser

section EndsWithEof

variable {tokens : Array Token}

/-- A token other than the end of file is not the last one. -/
theorem EndsWithEof.succ_lt (h : EndsWithEof tokens) {p : Nat} {k : TokenKind}
    (hk : tokens[p]?.map (·.kind) = some k) (hne : k ≠ .eof) : p + 1 < tokens.size := by
  have hp : p < tokens.size := by
    by_contra hp
    rw [Array.getElem?_eq_none (by omega)] at hk
    cases hk
  by_contra hlast
  obtain rfl : p = tokens.size - 1 := by omega
  unfold EndsWithEof at h
  rw [hk] at h
  exact hne (Option.some.inj h)

theorem EndsWithEof.succ_lt_of_getD (h : EndsWithEof tokens) {p : Nat} {k : TokenKind}
    (hk : (tokens[p]?.map (·.kind)).getD .eof = k) (hne : k ≠ .eof) : p + 1 < tokens.size := by
  refine h.succ_lt (k := k) ?_ hne
  cases hp : tokens[p]? with
  | none => rw [hp] at hk; exact absurd hk.symm hne
  | some t => rw [hp] at hk; exact congrArg some hk

theorem EndsWithEof.size_pos (h : EndsWithEof tokens) : 0 < tokens.size := by
  by_contra hz
  unfold EndsWithEof at h
  rw [Array.getElem?_eq_none (by omega)] at h
  cases h

end EndsWithEof

namespace ParseState

/-- A parser state whose tokens end with the end of file, with the cursor on one of them. -/
structure Inside (s : ParseState) : Prop where
  last_eof : EndsWithEof s.tokens
  pos_lt : s.pos < s.tokens.size

/-- The state past the current token, unless that is the end of file. -/
def next (s : ParseState) : ParseState :=
  if (peekAt s 0).kind = .eof then s else { s with pos := s.pos + 1 }

/-- `s'` comes later in the same parse as `s`: the same tokens, the cursor no earlier and on a
token, and the nesting depth as it was. -/
structure Kept (s s' : ParseState) : Prop where
  inside : s'.Inside
  tokens : s'.tokens = s.tokens
  pos : s.pos ≤ s'.pos
  depth : s'.depth = s.depth

variable {s s' s₁ s₂ : ParseState}

theorem Kept.refl (h : s.Inside) : s.Kept s := ⟨h, rfl, Nat.le_refl _, rfl⟩

theorem Kept.trans (h₁ : s.Kept s₁) (h₂ : s₁.Kept s₂) : s.Kept s₂ :=
  ⟨h₂.inside, h₂.tokens.trans h₁.tokens, Nat.le_trans h₁.pos h₂.pos, h₂.depth.trans h₁.depth⟩

/-- A state that differs only in what the cursor does not read: errors, node numbers. -/
theorem Kept.of_eq (h : s.Inside) (htokens : s'.tokens = s.tokens) (hpos : s'.pos = s.pos)
    (hdepth : s'.depth = s.depth) : s.Kept s' :=
  ⟨⟨htokens ▸ h.last_eof, htokens ▸ hpos ▸ h.pos_lt⟩, htokens, hpos ▸ Nat.le_refl _, hdepth⟩

/-- The token under a cursor inside the tokens is the one at its position. -/
theorem Inside.getElem?_pos (h : s.Inside) : s.tokens[s.pos]? = some (peekAt s 0) := by
  have hmin : min s.pos (s.tokens.size - 1) = s.pos := by
    have := h.pos_lt; omega
  simp [peekAt, hmin, h.pos_lt]

/-- The cursor stands on the last token exactly when that token is the end of file. -/
theorem Inside.lt_pred_of_ne_eof (h : s.Inside) (hk : (peekAt s 0).kind ≠ .eof) :
    s.pos + 1 < s.tokens.size := by
  have hlast := h.last_eof
  have hcur := h.getElem?_pos
  have hne : s.pos ≠ s.tokens.size - 1 := by
    intro heq
    unfold EndsWithEof at hlast
    rw [← heq, hcur] at hlast
    exact hk (Option.some.inj hlast)
  have := h.pos_lt
  omega

theorem next_of_eof (hk : (peekAt s 0).kind = .eof) : s.next = s := by
  simp [next, hk]

theorem next_of_ne_eof (hk : (peekAt s 0).kind ≠ .eof) : s.next = { s with pos := s.pos + 1 } := by
  simp [next, hk]

/-- Moving past the current token keeps the cursor on a token. -/
theorem Kept.next (h : s.Inside) : s.Kept s.next := by
  by_cases hk : (peekAt s 0).kind = .eof
  · rw [next_of_eof hk]
    exact Kept.refl h
  · rw [next_of_ne_eof hk]
    exact ⟨⟨h.last_eof, h.lt_pred_of_ne_eof hk⟩, rfl, Nat.le_succ _, rfl⟩

theorem pos_next (hk : (peekAt s 0).kind ≠ .eof) : s.next.pos = s.pos + 1 := by
  rw [next_of_ne_eof hk]

end ParseState

namespace Parser

open ParseState

section Agree

variable {α β : Type} {s s' : ParseState}

theorem run_bind (x : Parser α) (f : α → Parser β) (s : ParseState) :
    (x >>= f).run.run s = match x.run.run s with
      | (.ok a, s') => (f a).run.run s'
      | (.error e, s') => (.error e, s') := by
  simp only [ExceptT.run_bind, StateT.run_bind]
  rcases x.run.run s with ⟨r, s'⟩
  cases r <;> rfl

/-- `x` and `y` run alike from `s`, and the run keeps the cursor on a token. -/
def Agree (x y : Parser α) (s : ParseState) : Prop :=
  x.run.run s = y.run.run s ∧ ∀ r s', y.run.run s = (r, s') → s.Kept s'

/-- Runs alike that move the cursor when they succeed. -/
def AgreeMoving (x y : Parser α) (s : ParseState) : Prop :=
  Agree x y s ∧ ∀ a s', y.run.run s = (.ok a, s') → s.pos < s'.pos

theorem AgreeMoving.agree {x y : Parser α} (h : AgreeMoving x y s) : Agree x y s := h.1

/-- A run that keeps the state agrees with itself. -/
theorem Agree.of_kept {x : Parser α} (h : ∀ r s', x.run.run s = (r, s') → s.Kept s') :
    Agree x x s :=
  ⟨rfl, h⟩

theorem Agree.of_run {x : Parser α} {r : Except ParseError α} (hrun : x.run.run s = (r, s'))
    (hkept : s.Kept s') : Agree x x s :=
  Agree.of_kept fun r' s'' h => by
    rw [hrun] at h
    cases h
    exact hkept

theorem Agree.pure (hs : s.Inside) (a : α) : Agree (pure a : Parser α) (pure a) s :=
  Agree.of_run rfl (Kept.refl hs)

theorem Agree.throw (hs : s.Inside) (e : ParseError) : Agree (throw e : Parser α) (throw e) s :=
  Agree.of_run rfl (Kept.refl hs)

theorem AgreeMoving.throw (hs : s.Inside) (e : ParseError) :
    AgreeMoving (throw e : Parser α) (throw e) s :=
  ⟨Agree.throw hs e, fun _ _ h => by cases h⟩

theorem Agree.bind {x y : Parser α} {k k' : α → Parser β} (h : Agree x y s)
    (hk : ∀ a s', y.run.run s = (.ok a, s') → s.Kept s' → Agree (k a) (k' a) s') :
    Agree (x >>= k) (y >>= k') s := by
  obtain ⟨heq, hkept⟩ := h
  rcases hy : y.run.run s with ⟨r, s₁⟩
  have h₁ := hkept r s₁ hy
  cases r with
  | error e =>
    refine ⟨by rw [run_bind, run_bind, heq, hy], fun r s' hrun => ?_⟩
    rw [run_bind, hy] at hrun
    cases hrun
    exact h₁
  | ok a =>
    obtain ⟨heq', hkept'⟩ := hk a s₁ hy h₁
    refine ⟨by rw [run_bind, run_bind, heq, hy]; exact heq', fun r s' hrun => ?_⟩
    rw [run_bind, hy] at hrun
    exact h₁.trans (hkept' r s' hrun)

/-- A first step that moves makes the whole move. -/
theorem AgreeMoving.bind {x y : Parser α} {k k' : α → Parser β} (h : AgreeMoving x y s)
    (hk : ∀ a s', y.run.run s = (.ok a, s') → s.Kept s' → Agree (k a) (k' a) s') :
    AgreeMoving (x >>= k) (y >>= k') s := by
  refine ⟨h.agree.bind hk, fun b s'' hrun => ?_⟩
  rw [run_bind] at hrun
  rcases hy : y.run.run s with ⟨r, s₁⟩
  rw [hy] at hrun
  cases r with
  | error e => cases hrun
  | ok a =>
    have h₁ := h.1.2 _ _ hy
    exact Nat.lt_of_lt_of_le (h.2 a s₁ hy) ((hk a s₁ hy h₁).2 _ _ hrun).pos

/-- A later step that moves makes the whole move. -/
theorem Agree.bind_moving {x y : Parser α} {k k' : α → Parser β} (h : Agree x y s)
    (hk : ∀ a s', y.run.run s = (.ok a, s') → s.Kept s' → AgreeMoving (k a) (k' a) s') :
    AgreeMoving (x >>= k) (y >>= k') s := by
  refine ⟨h.bind fun a s' hy hkept => (hk a s' hy hkept).agree, fun b s'' hrun => ?_⟩
  rw [run_bind] at hrun
  rcases hy : y.run.run s with ⟨r, s₁⟩
  rw [hy] at hrun
  cases r with
  | error e => cases hrun
  | ok a =>
    have h₁ := h.2 _ _ hy
    exact Nat.lt_of_le_of_lt h₁.pos ((hk a s₁ hy h₁).2 _ _ hrun)

theorem Agree.map {x y : Parser α} (f : α → β) (h : Agree x y s) :
    Agree (f <$> x) (f <$> y) s := by
  simp only [map_eq_pure_bind]
  exact h.bind fun a _ _ hkept => Agree.pure hkept.inside (f a)

theorem Agree.ite {c : Prop} [Decidable c] {x y x' y' : Parser α} (h₁ : c → Agree x y s)
    (h₂ : ¬c → Agree x' y' s) : Agree (if c then x else x') (if c then y else y') s := by
  by_cases hc : c
  · simp only [hc, if_true]; exact h₁ hc
  · simp only [hc, if_false]; exact h₂ hc

theorem AgreeMoving.ite {c : Prop} [Decidable c] {x y x' y' : Parser α}
    (h₁ : c → AgreeMoving x y s) (h₂ : ¬c → AgreeMoving x' y' s) :
    AgreeMoving (if c then x else x') (if c then y else y') s := by
  by_cases hc : c
  · simp only [hc, if_true]; exact h₁ hc
  · simp only [hc, if_false]; exact h₂ hc

theorem Agree.tryCatch {x y : Parser α} {h h' : ParseError → Parser α} (hxy : Agree x y s)
    (hh : ∀ e s', y.run.run s = (.error e, s') → s.Kept s' → Agree (h e) (h' e) s') :
    Agree (tryCatch x h) (tryCatch y h') s := by
  obtain ⟨heq, hkept⟩ := hxy
  rcases hy : y.run.run s with ⟨r, s₁⟩
  have h₁ := hkept r s₁ hy
  cases r with
  | ok a =>
    refine ⟨by rw [run_tryCatch, run_tryCatch, heq, hy], fun r s' hrun => ?_⟩
    rw [run_tryCatch, hy] at hrun
    cases hrun
    exact h₁
  | error e =>
    obtain ⟨heq', hkept'⟩ := hh e s₁ hy h₁
    refine ⟨by rw [run_tryCatch, run_tryCatch, heq, hy]; exact heq', fun r s' hrun => ?_⟩
    rw [run_tryCatch, hy] at hrun
    exact h₁.trans (hkept' r s' hrun)

end Agree

section Steps

variable {α β : Type} {s s' : ParseState}

theorem run_get : (get : Parser ParseState).run.run s = (.ok s, s) := rfl

theorem run_current : current.run.run s = (.ok (peekAt s 0), s) := rfl

theorem run_currentKind : currentKind.run.run s = (.ok (peekAt s 0).kind, s) := rfl

theorem run_currentSpan : currentSpan.run.run s = (.ok (peekAt s 0).span, s) := rfl

theorem run_peekKind (i : Nat) : (peekKind i).run.run s = (.ok (peekAt s i).kind, s) := rfl

theorem run_check (k : TokenKind) : (check k).run.run s = (.ok ((peekAt s 0).kind == k), s) := rfl

theorem run_atEnd : atEnd.run.run s = (.ok ((peekAt s 0).kind == .eof), s) := rfl

theorem run_advance : advance.run.run s = (.ok (peekAt s 0), s.next) :=
  returns_advance.2 ⟨rfl, by by_cases hk : (peekAt s 0).kind = .eof <;> simp [next, hk]⟩

theorem run_eat (k : TokenKind) :
    (eat k).run.run s = if (peekAt s 0).kind = k then (.ok true, s.next) else (.ok false, s) := by
  unfold eat
  rw [run_bind, run_check]
  by_cases hk : (peekAt s 0).kind = k
  · simp only [hk, beq_self_eq_true, if_true]
    rw [run_bind, run_advance]
    rfl
  · have hne : ((peekAt s 0).kind == k) = false := by simpa using hk
    simp only [hne, hk, if_false]
    rfl

/-- `expect` succeeds exactly on a token of its kind, and then moves past it. -/
theorem expect_moves {k : TokenKind} {t : Token} (h : (expect k).run.run s = (.ok t, s')) :
    (peekAt s 0).kind = k ∧ s' = s.next := by
  unfold expect at h
  rw [run_bind, run_current] at h
  by_cases hk : (peekAt s 0).kind = k
  · simp only [hk, beq_self_eq_true, if_true, run_advance] at h
    cases h
    exact ⟨hk, rfl⟩
  · have hne : ((peekAt s 0).kind == k) = false := by simpa using hk
    simp only [hne] at h
    cases h

/-- `expectIdent` succeeds exactly on a name, and then moves past it. -/
theorem expectIdent_moves {a : String × Span} (h : expectIdent.run.run s = (.ok a, s')) :
    (peekAt s 0).kind = .ident ∧ s' = s.next := by
  unfold expectIdent at h
  rw [run_bind, run_current] at h
  dsimp only at h
  split at h
  · next hk _ =>
    rw [run_bind, run_advance] at h
    cases h
    exact ⟨hk, rfl⟩
  · cases h

/-- `expectInt` succeeds exactly on an integer literal, and then moves past it. -/
theorem expectInt_moves {a : Nat × Span} (h : expectInt.run.run s = (.ok a, s')) :
    (peekAt s 0).kind = .int ∧ s' = s.next := by
  unfold expectInt at h
  rw [run_bind, run_current] at h
  dsimp only at h
  split at h
  · next hk _ =>
    rw [run_bind, run_advance] at h
    cases h
    exact ⟨hk, rfl⟩
  · cases h

end Steps

section Keeps

variable {α β : Type} {s s' : ParseState}

/-- Every run of `x` from a state on a token keeps the state. -/
def Keeps (x : Parser α) : Prop := ∀ s, s.Inside → ∀ r s', x.run.run s = (r, s') → s.Kept s'

/-- A step that leaves the state as it is. -/
theorem Keeps.of_stays {x : Parser α} (h : ∀ s, ∃ r, x.run.run s = (r, s)) : Keeps x := by
  intro s hs r s' hrun
  obtain ⟨r', hr⟩ := h s
  rw [hr] at hrun
  cases hrun
  exact Kept.refl hs

/-- A step that changes only what the cursor does not read. -/
theorem Keeps.of_update {x : Parser α} (f : ParseState → ParseState)
    (h : ∀ s, ∃ r, x.run.run s = (r, f s)) (htokens : ∀ s, (f s).tokens = s.tokens)
    (hpos : ∀ s, (f s).pos = s.pos) (hdepth : ∀ s, (f s).depth = s.depth) : Keeps x := by
  intro s hs r s' hrun
  obtain ⟨r', hr⟩ := h s
  rw [hr] at hrun
  cases hrun
  exact Kept.of_eq hs (htokens s) (hpos s) (hdepth s)

theorem Keeps.pure (a : α) : Keeps (pure a : Parser α) := Keeps.of_stays fun _ => ⟨_, rfl⟩

theorem Keeps.throw (e : ParseError) : Keeps (throw e : Parser α) :=
  Keeps.of_stays fun _ => ⟨_, rfl⟩

theorem Keeps.get : Keeps (get : Parser ParseState) := Keeps.of_stays fun _ => ⟨_, rfl⟩

theorem Keeps.bind {x : Parser α} {k : α → Parser β} (hx : Keeps x) (hk : ∀ a, Keeps (k a)) :
    Keeps (x >>= k) := by
  intro s hs r s' hrun
  rw [run_bind] at hrun
  rcases hx' : x.run.run s with ⟨r₁, s₁⟩
  have h₁ := hx s hs r₁ s₁ hx'
  rw [hx'] at hrun
  cases r₁ with
  | error e =>
    cases hrun
    exact h₁
  | ok a => exact h₁.trans (hk a s₁ h₁.inside r s' hrun)

theorem Keeps.map {x : Parser α} (f : α → β) (hx : Keeps x) : Keeps (f <$> x) := by
  rw [map_eq_pure_bind]
  exact hx.bind fun a => Keeps.pure (f a)

theorem Keeps.ite {c : Prop} [Decidable c] {x y : Parser α} (hx : Keeps x) (hy : Keeps y) :
    Keeps (if c then x else y) := by
  by_cases hc : c
  · simpa only [hc, if_true] using hx
  · simpa only [hc, if_false] using hy

theorem Keeps.tryCatch {x : Parser α} {h : ParseError → Parser α} (hx : Keeps x)
    (hh : ∀ e, Keeps (h e)) : Keeps (tryCatch x h) := by
  intro s hs r s' hrun
  rw [run_tryCatch] at hrun
  rcases hx' : x.run.run s with ⟨r₁, s₁⟩
  have h₁ := hx s hs r₁ s₁ hx'
  rw [hx'] at hrun
  cases r₁ with
  | ok a =>
    cases hrun
    exact h₁
  | error e => exact h₁.trans (hh e s₁ h₁.inside r s' hrun)

theorem Keeps.current : Keeps current := Keeps.of_stays fun _ => ⟨_, run_current⟩

theorem Keeps.currentKind : Keeps currentKind := Keeps.of_stays fun _ => ⟨_, run_currentKind⟩

theorem Keeps.currentSpan : Keeps currentSpan := Keeps.of_stays fun _ => ⟨_, run_currentSpan⟩

theorem Keeps.peekKind (i : Nat) : Keeps (peekKind i) :=
  Keeps.of_stays fun _ => ⟨_, run_peekKind i⟩

theorem Keeps.check (k : TokenKind) : Keeps (check k) := Keeps.of_stays fun _ => ⟨_, run_check k⟩

theorem Keeps.atEnd : Keeps atEnd := Keeps.of_stays fun _ => ⟨_, run_atEnd⟩

theorem Keeps.previousSpan : Keeps previousSpan :=
  Keeps.of_stays fun s => by
    unfold Parser.previousSpan
    rw [run_bind, run_get]
    rcases s with ⟨_, _, _ | p, _, _, _⟩ <;> exact ⟨_, rfl⟩

theorem Keeps.spanFrom (start : Span) : Keeps (spanFrom start) :=
  Keeps.previousSpan.bind fun _ => Keeps.pure _

theorem Keeps.advance : Keeps advance := by
  intro s hs r s' hrun
  rw [run_advance] at hrun
  cases hrun
  exact Kept.next hs

theorem Keeps.freshId : Keeps freshId :=
  Keeps.of_update (fun s => { s with nextId := s.nextId + 1 }) (fun _ => ⟨_, rfl⟩)
    (fun _ => rfl) (fun _ => rfl) (fun _ => rfl)

theorem Keeps.report (e : ParseError) : Keeps (report e) :=
  Keeps.of_update (fun s => { s with errors := s.errors.push e }) (fun _ => ⟨_, rfl⟩)
    (fun _ => rfl) (fun _ => rfl) (fun _ => rfl)

theorem Keeps.eat (k : TokenKind) : Keeps (eat k) :=
  (Keeps.check k).bind fun _ => Keeps.ite (Keeps.advance.bind fun _ => Keeps.pure _) (Keeps.pure _)

theorem Keeps.expect (k : TokenKind) : Keeps (expect k) :=
  Keeps.current.bind fun _ => Keeps.ite Keeps.advance (Keeps.throw _)

theorem Keeps.expectIdent : Keeps expectIdent :=
  Keeps.current.bind fun t => by
    split
    · exact Keeps.advance.bind fun _ => Keeps.pure _
    · exact Keeps.throw _

theorem Keeps.expectInt : Keeps expectInt :=
  Keeps.current.bind fun t => by
    split
    · exact Keeps.advance.bind fun _ => Keeps.pure _
    · exact Keeps.throw _

theorem Keeps.mkExpr (kind : ExprKind) (start : Span) : Keeps (mkExpr kind start) :=
  (Keeps.spanFrom start).bind fun _ => Keeps.freshId.bind fun _ => Keeps.pure _

theorem Keeps.mkStmt (kind : StmtKind) (start : Span) : Keeps (mkStmt kind start) :=
  (Keeps.spanFrom start).bind fun _ => Keeps.freshId.bind fun _ => Keeps.pure _

theorem Keeps.exhausted : Keeps (exhausted : Parser α) :=
  Keeps.currentSpan.bind fun _ => Keeps.throw _

theorem Keeps.forIn {γ : Type} (l : List γ) (b : β) {f : γ → β → Parser (ForInStep β)}
    (hf : ∀ a b, Keeps (f a b)) : Keeps (forIn l b f) := by
  induction l generalizing b with
  | nil => exact Keeps.pure b
  | cons a l ih =>
    rw [List.forIn_cons]
    exact (hf a b).bind fun r => by
      cases r with
      | done b' => exact Keeps.pure b'
      | yield b' => exact ih b'

theorem Keeps.rejectModifiers (m : Modifiers) (what : String) (allowed : List TokenKind) :
    Keeps (rejectModifiers m what allowed) := by
  unfold Parser.rejectModifiers
  refine (Keeps.forIn _ _ fun a _ => ?_).bind fun _ => Keeps.pure _
  obtain ⟨k, span?⟩ := a
  cases span? with
  | none => exact Keeps.pure _
  | some span => exact Keeps.ite ((Keeps.report _).bind fun _ => Keeps.pure _) (Keeps.pure _)

theorem Keeps.leadingComment : Keeps leadingComment :=
  Keeps.get.bind fun _ => Keeps.previousSpan.bind fun _ => Keeps.currentSpan.bind fun _ =>
    Keeps.ite (Keeps.pure _) (Keeps.pure _)

theorem Keeps.parseModifiers (fuel : Nat) (m : Modifiers) : Keeps (parseModifiers fuel m) := by
  induction fuel generalizing m with
  | zero => exact Keeps.pure m
  | succ fuel ih =>
    simp only [Parser.parseModifiers]
    refine Keeps.current.bind fun t => ?_
    split
    · exact Keeps.pure m
    · exact Keeps.ite ((Keeps.report _).bind fun _ => Keeps.advance.bind fun _ => ih _)
        (Keeps.advance.bind fun _ => ih _)

theorem Keeps.parseDeclHead : Keeps parseDeclHead :=
  Keeps.currentSpan.bind fun _ => Keeps.leadingComment.bind fun _ => Keeps.get.bind fun _ =>
    (Keeps.parseModifiers _ _).bind fun _ => Keeps.pure _

theorem Keeps.finishDecl (head : DeclHead) (name : String) (nameSpan : Span) (ty : TypeExpr)
    (kind : DeclKind) : Keeps (finishDecl head name nameSpan ty kind) :=
  (Keeps.spanFrom _).bind fun _ => Keeps.freshId.bind fun _ => Keeps.pure _

theorem Keeps.parseJumpLabel : Keeps parseJumpLabel := by
  unfold Parser.parseJumpLabel
  have hjump : ∀ l : Option Label, Keeps (Parser.expect .semicolon >>= fun _ => Pure.pure l) :=
    fun l => (Keeps.expect _).bind fun _ => Keeps.pure l
  refine (Keeps.check _).bind fun _ => Keeps.ite (Keeps.expectIdent.bind fun _ => ?_) ?_
  · exact (Keeps.pure _).bind hjump
  · exact (Keeps.pure _).bind hjump

theorem Keeps.parseVariadicMarker : Keeps parseVariadicMarker :=
  (Keeps.expect _).bind fun _ => (Keeps.check _).bind fun _ =>
    Keeps.ite ((Keeps.throw _).bind fun _ => Keeps.pure _) (Keeps.pure _)

theorem Keeps.expectCloseBrace (open_ : Span) : Keeps (expectCloseBrace open_) := by
  have hclose : Keeps (Parser.expect .rBrace >>= fun _ => Pure.pure ()) :=
    (Keeps.expect _).bind fun _ => Keeps.pure _
  exact Keeps.atEnd.bind fun _ =>
    Keeps.ite (Keeps.currentSpan.bind fun _ => (Keeps.throw _).bind fun _ => hclose) hclose

theorem Keeps.eatRun (k : TokenKind) (fuel : Nat) : Keeps (eatRun k fuel) := by
  induction fuel with
  | zero => exact Keeps.pure false
  | succ fuel ih =>
    simp only [Parser.eatRun]
    exact (Keeps.eat k).bind fun _ =>
      Keeps.ite (ih.bind fun _ => Keeps.pure _) (Keeps.pure _)

end Keeps

section Nesting

variable {α : Type} {s : ParseState}

/-- A construct is entered one level deeper, or refused with E1006 at the limit. -/
theorem run_nested (x : Parser α) (s : ParseState) :
    (nested x).run.run s =
      if nestingLimit ≤ s.depth then
        (.error (ParseError.nestingTooDeep (peekAt s 0).span nestingLimit), s)
      else
        match x.run.run { s with depth := s.depth + 1 } with
        | (r, s') => (r, { s' with depth := s'.depth - 1 }) := by
  unfold nested
  rw [run_bind, run_get]
  by_cases hd : nestingLimit ≤ s.depth
  · simp only [ge_iff_le, hd, if_true]
    rfl
  · simp only [ge_iff_le, hd, if_false]
    rw [run_bind]
    have hset : (set { s with depth := s.depth + 1 } : Parser PUnit).run.run s =
        (.ok ⟨⟩, { s with depth := s.depth + 1 }) := rfl
    rw [hset]
    dsimp only
    rw [run_bind, run_tryCatch]
    rcases x.run.run { s with depth := s.depth + 1 } with ⟨r, s₁⟩
    cases r <;> rfl

theorem Agree.nested {x y : Parser α} (hs : s.Inside)
    (h : s.depth < nestingLimit → Agree x y { s with depth := s.depth + 1 }) :
    Agree (nested x) (nested y) s := by
  by_cases hd : nestingLimit ≤ s.depth
  · refine ⟨by rw [run_nested, run_nested, if_pos hd, if_pos hd], fun r s' hrun => ?_⟩
    rw [run_nested, if_pos hd] at hrun
    cases hrun
    exact Kept.refl hs
  · obtain ⟨heq, hkept⟩ := h (by omega)
    refine ⟨by rw [run_nested, run_nested, if_neg hd, if_neg hd, heq], fun r s' hrun => ?_⟩
    rw [run_nested, if_neg hd] at hrun
    rcases hy : y.run.run { s with depth := s.depth + 1 } with ⟨r₁, s₁⟩
    rw [hy] at hrun
    cases hrun
    have hk := hkept _ _ hy
    exact ⟨⟨hk.inside.last_eof, hk.inside.pos_lt⟩, hk.tokens, hk.pos, by simp [hk.depth]⟩

end Nesting

section Synchronize

variable {tokens : Array Token}

/-- Skipping never moves back. -/
theorem le_synchronizeFrom (fuel depth pos : Nat) : pos ≤ synchronizeFrom tokens fuel depth pos := by
  induction fuel generalizing depth pos with
  | zero => exact Nat.le_refl _
  | succ fuel ih =>
    unfold synchronizeFrom
    dsimp only
    split <;> (repeat' split) <;> first | omega | exact (Nat.le_succ pos).trans (ih _ _)

/-- Skipping stops on a token: at the latest on the end of file. -/
theorem synchronizeFrom_lt (h : EndsWithEof tokens) (fuel depth pos : Nat)
    (hpos : pos < tokens.size) : synchronizeFrom tokens fuel depth pos < tokens.size := by
  induction fuel generalizing depth pos with
  | zero => exact hpos
  | succ fuel ih =>
    by_cases heof : (tokens[pos]?.map (·.kind)).getD .eof = .eof
    · unfold synchronizeFrom
      dsimp only
      rw [heof]
      exact hpos
    · have hnext := h.succ_lt_of_getD rfl heof
      unfold synchronizeFrom
      dsimp only
      split <;> (repeat' split) <;>
        first | omega | exact ih _ _ hnext | exact h.succ_lt (by assumption) (by simp)

/-- From a token that is neither the end of file nor a `}`, skipping moves at least one token. -/
theorem lt_synchronizeFrom (fuel pos : Nat) (hk : (tokens[pos]?.map (·.kind)).getD .eof ≠ .eof)
    (hr : (tokens[pos]?.map (·.kind)).getD .eof ≠ .rBrace) :
    pos < synchronizeFrom tokens (fuel + 1) 0 pos := by
  unfold synchronizeFrom
  dsimp only
  split
  · contradiction
  · simp
  · contradiction
  all_goals exact Nat.lt_of_lt_of_le (Nat.lt_succ_self pos) (le_synchronizeFrom _ _ _)

end Synchronize

section Recovery

variable {s : ParseState}

theorem run_recover (e : ParseError) : (recover e).run.run s =
    (.ok (), { s with errors := s.errors.push e,
                      pos := synchronizeFrom s.tokens s.tokens.size 0 s.pos }) := rfl

/-- Recovery stays on a token. -/
theorem Keeps.recover (e : ParseError) : Keeps (recover e) := by
  intro s hs r s' hrun
  rw [run_recover] at hrun
  cases hrun
  exact ⟨⟨hs.last_eof, synchronizeFrom_lt hs.last_eof _ _ _ hs.pos_lt⟩, rfl,
    le_synchronizeFrom _ _ _, rfl⟩

/-- Recovery moves at least one token unless it stands on the end of file or on a `}`. -/
theorem lt_pos_recover (hs : s.Inside) (hk : (peekAt s 0).kind ≠ .eof)
    (hr : (peekAt s 0).kind ≠ .rBrace) (e : ParseError) {s' : ParseState}
    (hrun : (recover e).run.run s = (.ok (), s')) : s.pos < s'.pos := by
  rw [run_recover] at hrun
  cases hrun
  have hsize : s.tokens.size = (s.tokens.size - 1) + 1 := by have := hs.pos_lt; omega
  have hcur : (s.tokens[s.pos]?.map (·.kind)).getD .eof = (peekAt s 0).kind := by
    rw [hs.getElem?_pos]; rfl
  show s.pos < synchronizeFrom s.tokens s.tokens.size 0 s.pos
  rw [hsize]
  exact lt_synchronizeFrom _ _ (hcur ▸ hk) (hcur ▸ hr)

/-- A block item is a statement, or nothing once an error that does not end the parse has been
recorded and skipped. -/
theorem run_blockItem (x : Parser Stmt) : (blockItem x).run.run s =
    match x.run.run s with
    | (.ok a, s₁) => (.ok (some a), s₁)
    | (.error e, s₁) =>
      if e.isFatal then (.error e, s₁)
      else (.ok none, { s₁ with errors := s₁.errors.push e,
                                pos := synchronizeFrom s₁.tokens s₁.tokens.size 0 s₁.pos }) := by
  unfold blockItem
  rw [run_tryCatch, map_eq_pure_bind, run_bind]
  rcases x.run.run s with ⟨r, s₁⟩
  cases r with
  | ok a => rfl
  | error e =>
    by_cases hf : e.isFatal = true
    · simp only [hf, if_true]
      rfl
    · simp only [hf, if_false, Bool.false_eq_true]
      rfl

end Recovery

end Parser

end SolarFront
