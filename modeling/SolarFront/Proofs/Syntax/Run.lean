import Mathlib
import SolarFront.Syntax.Parse.Grammar

/-!
# Runs of the parser

A parse is a run of the parser monad from one state to the next. `Parser.Returns x s a s'` says
that `x`, run from `s`, succeeds with `a` and leaves `s'`; the lemmas here take a run of each
primitive step apart. A state is `Valid` when it stands inside lexed tokens, and `ParseState.read`
gives the tokens read between two states of one parse. `Parser.Parsed derives s s' a` packs
what the grammar proofs carry from run to run: the later state is valid and follows the earlier
one, and, when nothing was reported on the way, `derives` relates the tokens read to `a`.
-/

set_option autoImplicit false
set_option linter.all false

namespace SolarFront

/-- A token array as the lexer leaves it: the last token is the end of file, and every string
token carries its units. -/
structure LexedTokens (tokens : Array Token) : Prop where
  last_eof : tokens[tokens.size - 1]?.map (·.kind) = some .eof
  str_value : ∀ t ∈ tokens, t.kind = .str → ∃ units enc, t.value = .str units enc

namespace ParseState

open SolarFront.Parser

/-- A parser state that stands inside lexed tokens. -/
structure Valid (s : ParseState) : Prop where
  tokens : LexedTokens s.tokens
  pos_lt : s.pos < s.tokens.size

/-- `s'` comes later in the same parse as `s`: the same tokens, a position no earlier, and
errors only added. -/
structure Follows (s s' : ParseState) : Prop where
  tokens : s'.tokens = s.tokens
  pos : s.pos ≤ s'.pos
  errors : s.errors.size ≤ s'.errors.size

/-- The tokens read between two states of a parse. -/
def read (s s' : ParseState) : List Token := (s.tokens.toList.drop s.pos).take (s'.pos - s.pos)

theorem Follows.refl (s : ParseState) : s.Follows s := ⟨rfl, Nat.le_refl _, Nat.le_refl _⟩

theorem Follows.trans {s₁ s₂ s₃ : ParseState} (h₁ : s₁.Follows s₂) (h₂ : s₂.Follows s₃) :
    s₁.Follows s₃ :=
  ⟨h₂.tokens.trans h₁.tokens, Nat.le_trans h₁.pos h₂.pos, Nat.le_trans h₁.errors h₂.errors⟩

@[simp] theorem read_self (s : ParseState) : s.read s = [] := by simp [read]

/-- What is read from `s₁` to `s₃` is what is read up to `s₂` and then on from there. -/
theorem read_trans {s₁ s₂ s₃ : ParseState} (h₁ : s₁.Follows s₂) (h₂ : s₂.Follows s₃) :
    s₁.read s₃ = s₁.read s₂ ++ s₂.read s₃ := by
  have hpos : s₃.pos - s₁.pos = (s₂.pos - s₁.pos) + (s₃.pos - s₂.pos) := by
    have := h₁.pos; have := h₂.pos; omega
  have hdrop : (s₁.tokens.toList.drop s₁.pos).drop (s₂.pos - s₁.pos) =
      s₂.tokens.toList.drop s₂.pos := by
    rw [List.drop_drop, h₁.tokens, Nat.add_sub_cancel' h₁.pos]
  unfold read
  rw [hpos, List.take_add, hdrop]

theorem Valid.of_follows {s s' : ParseState} (hv : s.Valid) (hf : s.Follows s')
    (hlt : s'.pos < s'.tokens.size) : s'.Valid :=
  ⟨hf.tokens ▸ hv.tokens, hlt⟩


/-- The token under the cursor of a state inside its tokens is the one at its position. -/
theorem getElem?_pos {s : ParseState} (hv : s.Valid) : s.tokens[s.pos]? = some (peekAt s 0) := by
  have hmin : min s.pos (s.tokens.size - 1) = s.pos := by
    have := hv.pos_lt; omega
  simp [peekAt, hmin, hv.pos_lt]

/-- Moving past the token under the cursor reads that token. -/
theorem read_advance {s : ParseState} (hv : s.Valid) :
    s.read { s with pos := s.pos + 1 } = [peekAt s 0] := by
  have h := getElem?_pos hv
  rw [Array.getElem?_toList.symm] at h
  simp only [ParseState.read, Nat.add_sub_cancel_left, List.take_one]
  rw [List.head?_drop, h]
  rfl

/-- A token under the cursor that is not the end of file is not the last token. -/
theorem Valid.advance {s : ParseState} (hv : s.Valid) (hk : (peekAt s 0).kind ≠ .eof) :
    ({ s with pos := s.pos + 1 } : ParseState).Valid := by
  refine ⟨hv.tokens, ?_⟩
  show s.pos + 1 < s.tokens.size
  have hlast := hv.tokens.last_eof
  have hcur := getElem?_pos hv
  have hne : s.pos ≠ s.tokens.size - 1 := by
    intro heq
    rw [← heq, hcur] at hlast
    exact hk (Option.some.inj hlast)
  have := hv.pos_lt
  omega

end ParseState

namespace Parser

/-- `x`, run from `s`, succeeds with `a` and leaves `s'`. -/
def Returns {α : Type} (x : Parser α) (s : ParseState) (a : α) (s' : ParseState) : Prop :=
  x.run.run s = (.ok a, s')

section Returns

variable {α β : Type} {s s' s'' : ParseState} {a : α} {b : β}

theorem returns_bind {x : Parser α} {f : α → Parser β} :
    Returns (x >>= f) s b s'' ↔ ∃ a s', Returns x s a s' ∧ Returns (f a) s' b s'' := by
  unfold Returns
  simp only [ExceptT.run_bind, StateT.run_bind]
  rcases hx : x.run.run s with ⟨r, s₁⟩
  cases r with
  | error e =>
    show ((Except.error e, s₁) : Except ParseError β × ParseState) = _ ↔ _
    constructor
    · intro h; cases h
    · rintro ⟨a, s', h, -⟩; cases h
  | ok a =>
    show (StateT.run (ExceptT.run (f a)) s₁) = _ ↔ _
    constructor
    · intro h; exact ⟨a, s₁, rfl, h⟩
    · rintro ⟨a', s', h, h'⟩
      cases h
      exact h'

theorem returns_pure {a' : α} : Returns (pure a : Parser α) s a' s' ↔ a' = a ∧ s' = s := by
  simp only [Returns, ExceptT.run_pure, StateT.run_pure]
  constructor
  · intro h; cases h; exact ⟨rfl, rfl⟩
  · rintro ⟨rfl, rfl⟩; rfl

theorem returns_map {f : α → β} {x : Parser α} :
    Returns (f <$> x) s b s' ↔ ∃ a, Returns x s a s' ∧ b = f a := by
  rw [map_eq_pure_bind, returns_bind]
  simp only [returns_pure]
  constructor
  · rintro ⟨a, s₁, h, rfl, rfl⟩; exact ⟨a, h, rfl⟩
  · rintro ⟨a, h, rfl⟩; exact ⟨a, s', h, rfl, rfl⟩

theorem returns_get {t : ParseState} : Returns (get : Parser ParseState) s t s' ↔ t = s ∧ s = s' := by
  simp only [Returns]
  constructor
  · intro h; cases h; exact ⟨rfl, rfl⟩
  · rintro ⟨rfl, rfl⟩; rfl

theorem returns_set {t : ParseState} {u : PUnit} : Returns (set t : Parser PUnit) s u s' ↔ s' = t := by
  simp only [Returns]
  constructor
  · intro h; cases h; rfl
  · rintro rfl; rfl

theorem returns_modify {f : ParseState → ParseState} {u : PUnit} :
    Returns (modify f : Parser PUnit) s u s' ↔ s' = f s := by
  simp only [Returns]
  constructor
  · intro h; cases h; rfl
  · rintro rfl; rfl

theorem returns_modifyGet {f : ParseState → α × ParseState} :
    Returns (modifyGet f : Parser α) s a s' ↔ (a, s') = f s := by
  simp only [Returns]
  constructor
  · intro h; cases h; rfl
  · intro h; show ((Except.ok (f s).1, (f s).2) : Except ParseError α × ParseState) = _
    rw [← h]

theorem not_returns_throw {e : ParseError} : ¬ Returns (throw e : Parser α) s a s' := by
  intro h; cases h

theorem run_tryCatch (x : Parser α) (handle : ParseError → Parser α) :
    (tryCatch x handle).run.run s = match x.run.run s with
      | (.ok a, s₁) => (.ok a, s₁)
      | (.error e, s₁) => (handle e).run.run s₁ := by
  simp only [tryCatch, tryCatchThe, MonadExceptOf.tryCatch, ExceptT.tryCatch, ExceptT.run_mk,
    StateT.run_bind]
  rcases hx : x.run.run s with ⟨r, s₁⟩
  have hx' : StateT.run x s = (r, s₁) := hx
  rw [hx']
  cases r <;> rfl

theorem returns_tryCatch {x : Parser α} {handle : ParseError → Parser α} :
    Returns (tryCatch x handle) s a s' ↔
      Returns x s a s' ∨ ∃ e s₁, x.run.run s = (.error e, s₁) ∧ Returns (handle e) s₁ a s' := by
  unfold Returns
  rw [run_tryCatch]
  rcases hx : x.run.run s with ⟨r, s₁⟩
  cases r with
  | error e =>
    constructor
    · intro h; exact .inr ⟨e, s₁, rfl, h⟩
    · rintro (h | ⟨e', s', h, h'⟩)
      · cases h
      · cases h; exact h'
  | ok a' =>
    constructor
    · intro h; exact .inl h
    · rintro (h | ⟨e', s', h, -⟩)
      · exact h
      · cases h

end Returns

section Primitives

variable {α : Type} {s s' : ParseState} {a : α}

@[simp] theorem returns_current {t : Token} : Returns current s t s' ↔ t = peekAt s 0 ∧ s = s' := by
  simp [current, returns_map, returns_get]; grind

@[simp] theorem returns_currentKind {k : TokenKind} :
    Returns currentKind s k s' ↔ k = (peekAt s 0).kind ∧ s = s' := by
  simp [currentKind, returns_map, returns_get]; grind

@[simp] theorem returns_currentSpan {sp : Span} :
    Returns currentSpan s sp s' ↔ sp = (peekAt s 0).span ∧ s = s' := by
  simp [currentSpan, returns_map, returns_get]; grind

@[simp] theorem returns_peekKind {n : Nat} {k : TokenKind} :
    Returns (peekKind n) s k s' ↔ k = (peekAt s n).kind ∧ s = s' := by
  simp [peekKind, returns_map, returns_get]; grind

@[simp] theorem returns_check {k : TokenKind} {b : Bool} :
    Returns (check k) s b s' ↔ b = ((peekAt s 0).kind == k) ∧ s = s' := by
  simp [check, returns_map]; grind

@[simp] theorem returns_atEnd {b : Bool} :
    Returns atEnd s b s' ↔ b = ((peekAt s 0).kind == .eof) ∧ s = s' := by
  simp [atEnd, returns_map]; grind

theorem returns_advance {t : Token} :
    Returns advance s t s' ↔ t = peekAt s 0 ∧
      s' = if (peekAt s 0).kind != .eof then { s with pos := s.pos + 1 } else s := by
  simp only [advance, returns_bind, returns_current]
  by_cases hk : (peekAt s 0).kind = .eof
  · simp [hk, returns_pure]
  · simp [hk, returns_map, returns_modify]
    grind

theorem returns_previousSpan {sp : Span} (h : Returns previousSpan s sp s') : s = s' := by
  simp only [previousSpan, returns_bind, returns_get] at h
  obtain ⟨t, s₁, ⟨rfl, rfl⟩, h⟩ := h
  split at h <;> exact (returns_pure.1 h).2.symm

theorem returns_spanFrom {start sp : Span} (h : Returns (spanFrom start) s sp s') : s = s' := by
  simp only [spanFrom, returns_bind, returns_pure] at h
  obtain ⟨p, s₁, h₁, rfl, rfl⟩ := h
  exact returns_previousSpan h₁

theorem returns_freshId {n : Nat} :
    Returns freshId s n s' ↔ n = s.nextId ∧ s' = { s with nextId := s.nextId + 1 } := by
  simp only [freshId, returns_modifyGet]
  grind

theorem returns_report {e : ParseError} {u : Unit} :
    Returns (report e) s u s' ↔ s' = { s with errors := s.errors.push e } := by
  simp [report, returns_modify]

theorem not_returns_exhausted {a : α} : ¬ Returns (exhausted : Parser α) s a s' := by
  simp [exhausted, returns_bind, not_returns_throw]

theorem returns_mkExpr {kind : ExprKind} {start : Span} {e : Expr}
    (h : Returns (mkExpr kind start) s e s') :
    e.kind = kind ∧ s' = { s with nextId := s.nextId + 1 } := by
  simp only [mkExpr, returns_bind, returns_pure, returns_freshId] at h
  obtain ⟨sp, s₁, h₁, n, s₂, ⟨rfl, rfl⟩, rfl, rfl⟩ := h
  cases returns_spanFrom h₁
  exact ⟨rfl, rfl⟩

/-- A construct run one level deeper returns what it returns from the deeper state. -/
theorem returns_nested {x : Parser α} (h : Returns (nested x) s a s') :
    ∃ s₁, Returns x { s with depth := s.depth + 1 } a s₁ ∧ s' = { s₁ with depth := s₁.depth - 1 } := by
  simp only [nested, returns_bind, returns_get] at h
  obtain ⟨t, s₁, ⟨rfl, rfl⟩, h⟩ := h
  split at h
  · simp [not_returns_throw] at h
  · simp only [returns_bind, returns_set, returns_tryCatch, returns_modify, returns_pure] at h
    obtain ⟨u, s₂, rfl, r, s₃, hx, u', s₄, rfl, rfl, rfl⟩ := h
    rcases hx with hx | ⟨e, s₅, -, hthrow⟩
    · exact ⟨s₃, hx, rfl⟩
    · simp [not_returns_throw] at hthrow

end Primitives

/-- A successful run from `s` to `s'` that returned `a`: `s'` stays inside the tokens and
follows `s`, and when the run reported nothing, `derives` relates the tokens it read to `a`. -/
structure Parsed {α : Type} (derives : List Token → α → Prop) (s s' : ParseState) (a : α) :
    Prop where
  valid : s'.Valid
  follows : s.Follows s'
  derives : s'.errors.size = s.errors.size → derives (s.read s') a

namespace Parsed

variable {α β γ : Type} {P : List Token → α → Prop} {Q : List Token → β → Prop}
  {R : List Token → γ → Prop} {s s₁ s₂ : ParseState} {a : α} {b : β} {c : γ}

theorem mono (h : Parsed P s s₁ a) (hPR : ∀ t, P t a → R t c) : Parsed R s s₁ c :=
  ⟨h.valid, h.follows, fun hq => hPR _ (h.derives hq)⟩

/-- Two runs one after the other read the tokens of the first, then those of the second. -/
theorem seq (h₁ : Parsed P s s₁ a) (h₂ : Parsed Q s₁ s₂ b)
    (hR : ∀ t₁ t₂, P t₁ a → Q t₂ b → R (t₁ ++ t₂) c) : Parsed R s s₂ c := by
  refine ⟨h₂.valid, h₁.follows.trans h₂.follows, fun hq => ?_⟩
  have e₁ := h₁.follows.errors
  have e₂ := h₂.follows.errors
  rw [ParseState.read_trans h₁.follows h₂.follows]
  exact hR _ _ (h₁.derives (by omega)) (h₂.derives (by omega))

/-- A run that read nothing. -/
theorem stay (hv : s.Valid) (hP : P [] a) : Parsed P s s a :=
  ⟨hv, ParseState.Follows.refl s, fun _ => by simpa using hP⟩

/-- Changing what the parser does not read from: node numbering and depth. -/
theorem congr {s' : ParseState} (h : Parsed P s s₁ a) (htokens : s'.tokens = s₁.tokens)
    (hpos : s'.pos = s₁.pos) (herrors : s'.errors = s₁.errors) : Parsed P s s' a := by
  obtain ⟨hv, hf, hd⟩ := h
  have hread : s.read s' = s.read s₁ := by simp [ParseState.read, hpos]
  refine ⟨⟨htokens ▸ hv.tokens, htokens ▸ hpos ▸ hv.pos_lt⟩,
    ⟨htokens.trans hf.tokens, hpos ▸ hf.pos, herrors ▸ hf.errors⟩, fun hq => ?_⟩
  rw [hread]
  exact hd (herrors ▸ hq)

end Parsed

section Tokens

variable {s s' : ParseState}

/-- Moving past a token that is not the end of file reads it. -/
theorem parsed_advance (hv : s.Valid) (hk : (peekAt s 0).kind ≠ .eof) :
    Parsed (fun t x => t = [x]) s { s with pos := s.pos + 1 } (peekAt s 0) :=
  ⟨hv.advance hk, ⟨rfl, Nat.le_succ _, Nat.le_refl _⟩, fun _ => ParseState.read_advance hv⟩

theorem returns_advance_parsed {t : Token} (h : Returns advance s t s') (hv : s.Valid)
    (hk : (peekAt s 0).kind ≠ .eof) : t = peekAt s 0 ∧ Parsed (fun t x => t = [x]) s s' t := by
  rw [returns_advance] at h
  obtain ⟨rfl, rfl⟩ := h
  rw [if_pos (by simpa using hk)]
  exact ⟨rfl, parsed_advance hv hk⟩

/-- `expect k` for a kind other than the end of file reads one token of that kind. -/
theorem returns_expect {k : TokenKind} {t : Token} (h : Returns (expect k) s t s') (hv : s.Valid)
    (hk : k ≠ .eof) : t = peekAt s 0 ∧ t.kind = k ∧ Parsed (fun t x => t = [x]) s s' t := by
  simp only [expect, returns_bind, returns_current] at h
  obtain ⟨t', s₁, ⟨rfl, rfl⟩, h⟩ := h
  split at h
  · next heq =>
    have hkind : (peekAt s 0).kind = k := by simpa using heq
    obtain ⟨rfl, hp⟩ := returns_advance_parsed h hv (hkind ▸ hk)
    exact ⟨rfl, hkind, hp⟩
  · exact absurd h not_returns_throw

/-- `eat k` for a kind other than the end of file reads one token of that kind, or nothing. -/
theorem returns_eat {k : TokenKind} {b : Bool} (h : Returns (eat k) s b s') (hv : s.Valid)
    (hk : k ≠ .eof) :
    (b = true ∧ (peekAt s 0).kind = k ∧ Parsed (fun t x => t = [x]) s s' (peekAt s 0)) ∨
      (b = false ∧ (peekAt s 0).kind ≠ k ∧ s' = s) := by
  simp only [eat, returns_bind, returns_check] at h
  obtain ⟨c, s₁, ⟨rfl, rfl⟩, h⟩ := h
  split at h
  · next heq =>
    have hkind : (peekAt s 0).kind = k := by simpa using heq
    simp only [returns_bind, returns_pure] at h
    obtain ⟨t, s₂, ht, rfl, rfl⟩ := h
    obtain ⟨rfl, hp⟩ := returns_advance_parsed ht hv (hkind ▸ hk)
    exact .inl ⟨rfl, hkind, hp⟩
  · next heq =>
    obtain ⟨rfl, rfl⟩ := returns_pure.1 h
    exact .inr ⟨rfl, by simpa using heq, rfl⟩

/-- A name token read by `expectIdent`. -/
theorem returns_expectIdent {n : String} {sp : Span} (h : Returns expectIdent s (n, sp) s')
    (hv : s.Valid) : (peekAt s 0).kind = .ident ∧ (peekAt s 0).value = .name n ∧
      sp = (peekAt s 0).span ∧ Parsed (fun t x => t = [x]) s s' (peekAt s 0) := by
  simp only [expectIdent, returns_bind, returns_current] at h
  obtain ⟨t, s₁, ⟨rfl, rfl⟩, h⟩ := h
  split at h
  · next hkind hval =>
    simp only [returns_bind, returns_pure] at h
    obtain ⟨t, s₂, ht, ⟨rfl, rfl⟩, rfl⟩ := h
    obtain ⟨rfl, hp⟩ := returns_advance_parsed ht hv (by simp [hkind])
    exact ⟨hkind, hval, rfl, hp⟩
  · exact absurd h not_returns_throw

/-- An integer literal read by `expectInt`. -/
theorem returns_expectInt {v : Nat} {sp : Span} (h : Returns expectInt s (v, sp) s')
    (hv : s.Valid) : (peekAt s 0).kind = .int ∧ (∃ w, (peekAt s 0).value = .int v w) ∧
      Parsed (fun t x => t = [x]) s s' (peekAt s 0) := by
  simp only [expectInt, returns_bind, returns_current] at h
  obtain ⟨t, s₁, ⟨rfl, rfl⟩, h⟩ := h
  split at h
  · next w hkind hval =>
    simp only [returns_bind, returns_pure] at h
    obtain ⟨t, s₂, ht, ⟨rfl, rfl⟩, rfl⟩ := h
    obtain ⟨rfl, hp⟩ := returns_advance_parsed ht hv (by simp [hkind])
    exact ⟨hkind, ⟨w, hval⟩, hp⟩
  · exact absurd h not_returns_throw

end Tokens

end Parser

end SolarFront
