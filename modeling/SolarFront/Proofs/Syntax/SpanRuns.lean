import SolarFront.Proofs.Syntax.Progress
import SolarFront.Proofs.Syntax.SpanTree

/-!
# Where the parser's nodes lie

A run of the parser reads the tokens from one position to another, and every node it builds
spans from a remembered start to the end of the last token read. This module relates the two.

`InOrder` states how the lexer lays tokens out. Under it the start of the token at a position
(`spanAt`) and the end of the last token read before it (`lastRead`) grow with the position, and
a token read lies between them.

`Parser.Wp x s Q` is the weakest-precondition reading of a parser action: every run of `x` from
`s` keeps the state, and a successful one ends where `Q` holds. Its rules follow binds,
conditions, handlers, nesting and the parser's own steps, so that a proof about a grammar function
follows the function's text.

`Laid tokens p t q` says that the tree `t` is nested and lies in the text read from position `p`
to position `q`; `Occupies` adds that it is not empty, and `LaidAll` lays a list of trees there
one after the other. `Occupies.node` and `Occupies.after` build the placement of a node from its
children's: a node that starts at a token, and one that starts with its first child.
-/

set_option autoImplicit false
set_option linter.all false

namespace SolarFront

/-- The span of the token at a position, or the dummy span past the end. -/
def spanAt (tokens : Array Token) (p : Nat) : Span := (tokens[p]?.map (·.span)).getD Span.dummy

/-- The span of the last token read before a position, or the dummy span at the start. -/
def lastRead (tokens : Array Token) : Nat → Span
  | 0 => Span.dummy
  | p + 1 => spanAt tokens p

@[simp] theorem lastRead_succ (tokens : Array Token) (p : Nat) :
    lastRead tokens (p + 1) = spanAt tokens p := rfl

theorem Span.merge_of_le {a b : Span} (h₁ : a.start ≤ b.start) (h₂ : a.stop ≤ b.stop) :
    a.merge b = ⟨a.start, b.stop⟩ := by
  simp [Span.merge, Nat.min_eq_left h₁, Nat.max_eq_right h₂]

/-- Tokens as the lexer lays them out: every span is a range, every token before the last is
nonempty, and no token ends after a later one starts. -/
structure InOrder (tokens : Array Token) : Prop where
  range : ∀ p, (spanAt tokens p).start ≤ (spanAt tokens p).stop
  nonempty : ∀ p, p + 1 < tokens.size → (spanAt tokens p).start < (spanAt tokens p).stop
  sorted : ∀ p q, p < q → q < tokens.size → (spanAt tokens p).stop ≤ (spanAt tokens q).start

namespace InOrder

variable {tokens : Array Token} (h : InOrder tokens) {p q : Nat}
include h

/-- What was read before a token ends where or before the token starts. -/
theorem readEnd_le_start (hp : p < tokens.size) :
    (lastRead tokens p).stop ≤ (spanAt tokens p).start := by
  cases p with
  | zero => exact Nat.zero_le _
  | succ p => exact h.sorted p (p + 1) (Nat.lt_succ_self p) hp

theorem start_mono (hpq : p ≤ q) (hq : q < tokens.size) :
    (spanAt tokens p).start ≤ (spanAt tokens q).start := by
  rcases Nat.eq_or_lt_of_le hpq with rfl | hlt
  · exact Nat.le_refl _
  · have := h.range p
    have := h.sorted p q hlt hq
    omega

theorem readEnd_mono (hpq : p ≤ q) (hq : q ≤ tokens.size) :
    (lastRead tokens p).stop ≤ (lastRead tokens q).stop := by
  cases p with
  | zero => exact Nat.zero_le _
  | succ p =>
    obtain ⟨q, rfl⟩ : ∃ k, q = k + 1 := ⟨q - 1, by omega⟩
    rcases Nat.eq_or_lt_of_le (show p ≤ q by omega) with rfl | hlt
    · exact Nat.le_refl _
    · have := h.sorted p q hlt (by omega)
      have := h.range q
      simp only [lastRead_succ]
      omega

/-- A token that is read lies before the end of what was read. -/
theorem stop_le_readEnd (hpq : p < q) (hq : q ≤ tokens.size) :
    (spanAt tokens p).stop ≤ (lastRead tokens q).stop :=
  h.readEnd_mono (p := p + 1) hpq hq

theorem start_lt_readEnd (hpq : p < q) (hq : q < tokens.size) :
    (spanAt tokens p).start < (lastRead tokens q).stop := by
  obtain ⟨q, rfl⟩ : ∃ k, q = k + 1 := ⟨q - 1, by omega⟩
  have := h.start_mono (show p ≤ q by omega) (by omega)
  have := h.nonempty q hq
  simp only [lastRead_succ]
  omega

theorem start_le_lastRead (hpq : p < q) (hq : q < tokens.size) :
    (spanAt tokens p).start ≤ (lastRead tokens q).start := by
  obtain ⟨q, rfl⟩ : ∃ k, q = k + 1 := ⟨q - 1, by omega⟩
  exact h.start_mono (by omega) (by omega)

/-- A position whose token starts before what another has read comes first. -/
theorem lt_of_start_lt_readEnd (hp : p < tokens.size)
    (hlt : (spanAt tokens p).start < (lastRead tokens q).stop) : p < q := by
  by_contra hqp
  have := h.readEnd_mono (Nat.le_of_not_lt hqp) hp.le
  have := h.readEnd_le_start hp
  omega

end InOrder

/-! ## Trees placed in the text read -/

open SpanTree

/-- A tree read from position `p` to position `q`: nested, starting no earlier than the token at
`p`, ending no later than the last token read before `q`, and nonempty or starting after the
token at `p`. -/
structure Laid (tokens : Array Token) (p : Nat) (t : SpanTree) (q : Nat) : Prop where
  nested : t.Nested
  start : (spanAt tokens p).start ≤ t.span.start
  stop : t.span.stop ≤ (lastRead tokens q).stop
  wide : t.span.start < t.span.stop ∨ (spanAt tokens p).start < t.span.start

/-- A nonempty tree read from `p` to `q`. -/
def Occupies (tokens : Array Token) (p : Nat) (t : SpanTree) (q : Nat) : Prop :=
  Laid tokens p t q ∧ t.span.start < t.span.stop

/-- Trees read from `p` to `q`, one after the other. -/
structure LaidAll (tokens : Array Token) (p : Nat) (ts : List SpanTree) (q : Nat) : Prop where
  each : ∀ t ∈ ts, Laid tokens p t q
  apart : (ts.map span).Pairwise Before

section Placement

variable {tokens : Array Token} {p p' q q' q₀ r : Nat} {t : SpanTree} {ts us : List SpanTree}

theorem LaidAll.nil : LaidAll tokens p [] q := ⟨by simp, by simp⟩

theorem LaidAll.single (h : Laid tokens p t q) : LaidAll tokens p [t] q :=
  ⟨by simpa using h, by simp⟩

theorem LaidAll.option {o : Option SpanTree} (h : ∀ t ∈ o, Laid tokens p t q) :
    LaidAll tokens p o.toList q := by
  cases o with
  | none => exact LaidAll.nil
  | some t => exact LaidAll.single (h t rfl)

variable (ho : InOrder tokens)
include ho

/-- Read from a later position up to an earlier one, a tree lies in what is read from wider. -/
theorem Laid.widen (h : Laid tokens p t q) (hp : p' ≤ p) (hq : q ≤ q') (hp₁ : p < tokens.size)
    (hq' : q' ≤ tokens.size) : Laid tokens p' t q' := by
  have := ho.start_mono hp hp₁
  have := ho.readEnd_mono hq hq'
  refine ⟨h.nested, by have := h.start; omega, by have := h.stop; omega, ?_⟩
  rcases h.wide with hw | hw
  · exact .inl hw
  · exact .inr (by omega)

theorem LaidAll.widen (h : LaidAll tokens p ts q) (hp : p' ≤ p) (hq : q ≤ q')
    (hp₁ : p < tokens.size) (hq' : q' ≤ tokens.size) : LaidAll tokens p' ts q' :=
  ⟨fun t ht => (h.each t ht).widen ho hp hq hp₁ hq', h.apart⟩

/-- Trees read one run after another are laid one after the other. -/
theorem LaidAll.append (h₁ : LaidAll tokens p ts q) (h₂ : LaidAll tokens p' us r)
    (hp : p ≤ p') (hq : q ≤ p') (hqr : q ≤ r) (hp' : p' < tokens.size) (hr : r < tokens.size) :
    LaidAll tokens p (ts ++ us) r := by
  have hgap : (lastRead tokens q).stop ≤ (spanAt tokens p').start :=
    (ho.readEnd_mono hq hp'.le).trans (ho.readEnd_le_start hp')
  refine ⟨fun t ht => ?_, ?_⟩
  · rcases List.mem_append.1 ht with ht | ht
    · exact (h₁.each t ht).widen ho (Nat.le_refl p) hqr (by omega) hr.le
    · exact (h₂.each t ht).widen ho hp (Nat.le_refl r) hp' hr.le
  · rw [List.map_append, List.pairwise_append]
    refine ⟨h₁.apart, h₂.apart, ?_⟩
    simp only [List.mem_map]
    rintro _ ⟨a, ha, rfl⟩ _ ⟨b, hb, rfl⟩
    -- `a` ends before the second run starts, and `b` is nonempty or starts after that
    have ha₁ := (h₁.each a ha).stop
    have hb₁ := (h₂.each b hb).start
    have hb₂ := (h₂.each b hb).wide
    have hb₃ := (h₂.each b hb).nested.encloses.range
    refine ⟨by omega, by omega⟩

/-- The empty return type of a function type, read before `r`, after the token at `p`. -/
theorem Laid.void (hpr : p < r) (hr : r < tokens.size) :
    Laid tokens p (.node .type (Span.point (lastRead tokens r).stop) []) r := by
  have := ho.start_lt_readEnd hpr hr
  refine ⟨nested_node.2 ⟨⟨le_rfl, by simp, by simp, by simp, by simp⟩, by simp⟩, ?_, le_rfl,
    .inr ?_⟩ <;> simp only [span_node, Span.point] <;> omega

/-- A node that starts with the token at `p` and ends with the last token read before `r`, whose
children were read from `p'` to `q`, with a token of the node before them or after them. -/
theorem Occupies.node {F : Family} (hp : p ≤ p') (hp' : p' ≤ r) (hq : q ≤ r) (hpr : p < r)
    (hr : r < tokens.size) (hout : p < p' ∨ q < r) (hcs : LaidAll tokens p' ts q) :
    Occupies tokens p (.node F ((spanAt tokens p).merge (lastRead tokens r)) ts) r := by
  have hlt := ho.start_lt_readEnd hpr hr
  rw [Span.merge_of_le (ho.start_le_lastRead hpr hr) (ho.stop_le_readEnd hpr hr.le)]
  have hstart := ho.start_mono hp (by omega)
  have hend := ho.readEnd_mono hq hr.le
  -- a token of the node before the children puts them after its start; one after, before its end
  have hbefore : p < p' → (spanAt tokens p).start < (spanAt tokens p').start := fun h =>
    Nat.lt_of_lt_of_le (ho.start_lt_readEnd h (by omega)) (ho.readEnd_le_start (by omega))
  have hafter : q < r → (lastRead tokens q).stop < (lastRead tokens r).stop := fun h =>
    Nat.lt_of_le_of_lt (ho.readEnd_le_start (by omega)) (ho.start_lt_readEnd h hr)
  refine ⟨⟨nested_node.2 ⟨⟨by simp only [span_node]; omega, fun c hc => ?_, hcs.apart,
    fun c hc => ?_, fun c hc hempty => ?_⟩, fun c hc => (hcs.each c hc).nested⟩,
    le_rfl, le_rfl, .inl hlt⟩, hlt⟩
  · have := (hcs.each c hc).start
    have := (hcs.each c hc).stop
    simp only [span_node]
    omega
  · have := (hcs.each c hc).start
    have := (hcs.each c hc).stop
    simp only [span_node, family_node]
    rcases hout with h | h
    · exact .inl (Nat.lt_of_lt_of_le (hbefore h) ‹_›)
    · exact .inr (.inl (Nat.lt_of_le_of_lt ‹_› (hafter h)))
  · have := (hcs.each c hc).start
    have := (hcs.each c hc).wide
    simp only [span_node]
    omega

/-- A node that starts where its first child `c₀`, read from `p` to `q₀`, starts, and ends with
the last token read before `r`; its other children were read from `p'` to `q`, after a token that
follows `c₀`. -/
theorem Occupies.after {F : Family} {c₀ : SpanTree} {sp : Span} (h₀ : Occupies tokens p c₀ q₀)
    (hsp : sp.start = c₀.span.start) (hsp' : sp.stop ≤ c₀.span.stop) (hq₀ : q₀ < p')
    (hq₀r : q₀ < r) (hq : q ≤ r) (hp' : p' < tokens.size) (hr : r < tokens.size)
    (hcs : LaidAll tokens p' ts q) :
    Occupies tokens p (.node F (sp.merge (lastRead tokens r)) (c₀ :: ts)) r := by
  obtain ⟨⟨hn₀, hs₀, he₀, -⟩, hw₀⟩ := h₀
  -- the token at `q₀` follows `c₀`, and comes before the other children and the node's end
  have hread := ho.readEnd_le_start (show q₀ < tokens.size by omega)
  have hsep := ho.start_lt_readEnd hq₀ hp'
  have hp'start := ho.readEnd_le_start hp'
  have hfirst := ho.start_lt_readEnd hq₀r hr
  have hlast := ho.start_le_lastRead hq₀r hr
  have hend := ho.readEnd_mono hq hr.le
  rw [Span.merge_of_le (by omega) (by omega)]
  have hrest : ∀ c ∈ ts, c₀.span.stop < c.span.start ∧ c.span.stop ≤ (lastRead tokens r).stop :=
    fun c hc => by
      have := (hcs.each c hc).start
      have := (hcs.each c hc).stop
      omega
  refine ⟨⟨nested_node.2 ⟨⟨by simp only [span_node]; omega, ?_, ?_, ?_, ?_⟩, ?_⟩,
    by simp only [span_node]; omega, le_rfl, .inl (by simp only [span_node]; omega)⟩,
    by simp only [span_node]; omega⟩
  · simp only [children_node, List.mem_cons, span_node, forall_eq_or_imp]
    refine ⟨⟨by omega, by omega⟩, fun c hc => ?_⟩
    have := hrest c hc
    omega
  · simp only [children_node, List.map_cons, List.pairwise_cons, List.mem_map]
    refine ⟨?_, hcs.apart⟩
    rintro _ ⟨c, hc, rfl⟩
    have := hrest c hc
    have := (hcs.each c hc).nested.encloses.range
    exact ⟨by omega, by omega⟩
  · simp only [children_node, List.mem_cons, span_node, forall_eq_or_imp]
    refine ⟨.inr (.inl (by omega)), fun c hc => .inl ?_⟩
    have := hrest c hc
    omega
  · simp only [children_node, List.mem_cons, span_node, forall_eq_or_imp]
    refine ⟨fun h => absurd hw₀ (by omega), fun c hc _ => ?_⟩
    have := hrest c hc
    omega
  · simp only [List.mem_cons, forall_eq_or_imp]
    exact ⟨hn₀, fun c hc => (hcs.each c hc).nested⟩

/-- A declaration statement: the node of its declaration, read from the statement's first token,
with the statement's span. -/
theorem Occupies.declStmt {d : SpanTree} (hd : Occupies tokens p d q) (hdecl : d.family = .decl)
    (hq : q ≤ r) (hp : p < tokens.size) (hr : r < tokens.size) :
    Occupies tokens p (.node .stmt ((spanAt tokens p).merge (lastRead tokens r)) [d]) r := by
  obtain ⟨⟨hn, hs, he, -⟩, hw⟩ := hd
  have hend := ho.readEnd_mono hq hr.le
  have hlt : (spanAt tokens p).start < (lastRead tokens r).stop := by omega
  have hpr := ho.lt_of_start_lt_readEnd hp hlt
  rw [Span.merge_of_le (ho.start_le_lastRead hpr hr) (ho.stop_le_readEnd hpr hr.le)]
  refine ⟨⟨nested_node.2 ⟨⟨by simp only [span_node]; omega, ?_, by simp, ?_, ?_⟩, ?_⟩,
    le_rfl, le_rfl, .inl hlt⟩, hlt⟩
  · simp only [children_node, List.mem_singleton, span_node, forall_eq]
    omega
  · simp only [children_node, List.mem_singleton, forall_eq]
    exact .inr (.inr ⟨rfl, hdecl⟩)
  · simp only [children_node, List.mem_singleton, span_node, forall_eq]
    omega
  · simpa using hn

end Placement

namespace ParseState

variable {s : ParseState}

/-- The token under a cursor inside the tokens is the one at its position. -/
theorem Inside.peek_span (hs : s.Inside) : (Parser.peekAt s 0).span = spanAt s.tokens s.pos := by
  rw [spanAt, hs.getElem?_pos]
  rfl

theorem next_tokens : s.next.tokens = s.tokens := by
  unfold next
  split <;> rfl

end ParseState

namespace Parser

open ParseState

section Wp

variable {α β : Type} {x : Parser α} {s : ParseState} {Q Q' : α → ParseState → Prop}

/-- Every run of `x` from `s` keeps the state, and a successful one ends where `Q` holds. -/
def Wp (x : Parser α) (s : ParseState) (Q : α → ParseState → Prop) : Prop :=
  ∀ r s', x.run.run s = (r, s') → s.Kept s' ∧ ∀ a, r = .ok a → Q a s'

theorem Wp.mono (h : Wp x s Q) (hQ : ∀ a s', s.Kept s' → Q a s' → Q' a s') : Wp x s Q' :=
  fun r s' hrun => by
    obtain ⟨hk, hQa⟩ := h r s' hrun
    exact ⟨hk, fun a ha => hQ a s' hk (hQa a ha)⟩

theorem Wp.bind {k : α → Parser β} {Q : β → ParseState → Prop}
    (h : Wp x s fun a s₁ => Wp (k a) s₁ Q) : Wp (x >>= k) s Q := by
  intro r s' hrun
  rw [run_bind] at hrun
  rcases hx : x.run.run s with ⟨r₁, s₁⟩
  rw [hx] at hrun
  obtain ⟨hk₁, hQ₁⟩ := h r₁ s₁ hx
  cases r₁ with
  | error e =>
    cases hrun
    exact ⟨hk₁, fun a ha => by cases ha⟩
  | ok a =>
    obtain ⟨hk₂, hQ₂⟩ := hQ₁ a rfl r s' hrun
    exact ⟨hk₁.trans hk₂, hQ₂⟩

/-- A step that only reads the state. -/
theorem Wp.of_run {a : α} (hrun : x.run.run s = (.ok a, s)) (hs : s.Inside) (h : Q a s) :
    Wp x s Q := fun r s' h' => by
  rw [hrun] at h'
  cases h'
  exact ⟨Kept.refl hs, fun b hb => by cases hb; exact h⟩

theorem Wp.pure (hs : s.Inside) {a : α} (h : Q a s) : Wp (Pure.pure a : Parser α) s Q :=
  Wp.of_run rfl hs h

theorem Wp.throw (hs : s.Inside) (e : ParseError) : Wp (MonadExcept.throw e : Parser α) s Q :=
  fun r s' h' => by
    cases h'
    exact ⟨Kept.refl hs, fun a ha => by cases ha⟩

theorem Wp.ite {c : Prop} [Decidable c] {y : Parser α} (h₁ : c → Wp x s Q) (h₂ : ¬c → Wp y s Q) :
    Wp (if c then x else y) s Q := by
  by_cases hc : c
  · rw [if_pos hc]
    exact h₁ hc
  · rw [if_neg hc]
    exact h₂ hc

theorem Wp.map {f : α → β} {Q : β → ParseState → Prop} (h : Wp x s fun a s' => Q (f a) s') :
    Wp (f <$> x) s Q := by
  rw [map_eq_pure_bind]
  exact Wp.bind (h.mono fun _ _ hk hQ => Wp.pure hk.inside hQ)

/-- A step whose result the rest does not rely on. -/
theorem Wp.of_keeps (hx : Keeps x) (hs : s.Inside) (hQ : ∀ a s', s.Kept s' → Q a s') :
    Wp x s Q := fun r s' hrun =>
  ⟨hx s hs r s' hrun, fun a _ => hQ a s' (hx s hs r s' hrun)⟩

theorem Wp.keeps_bind {k : α → Parser β} {Q : β → ParseState → Prop} (hx : Keeps x)
    (hs : s.Inside) (hk : ∀ a s₁, s.Kept s₁ → Wp (k a) s₁ Q) : Wp (x >>= k) s Q :=
  Wp.bind (Wp.of_keeps hx hs hk)

/-- A handler runs from where the action failed. -/
theorem Wp.tryCatch {handle : ParseError → Parser α} (h : Wp x s Q)
    (hh : ∀ e s₁, s.Kept s₁ → Wp (handle e) s₁ Q) : Wp (tryCatch x handle) s Q := by
  intro r s' hrun
  rw [run_tryCatch] at hrun
  rcases hx : x.run.run s with ⟨r₁, s₁⟩
  rw [hx] at hrun
  obtain ⟨hk₁, hQ₁⟩ := h r₁ s₁ hx
  cases r₁ with
  | ok a =>
    cases hrun
    exact ⟨hk₁, hQ₁⟩
  | error e =>
    obtain ⟨hk₂, hQ₂⟩ := hh e s₁ hk₁ r s' hrun
    exact ⟨hk₁.trans hk₂, hQ₂⟩

/-- A construct run one level deeper, which comes back to the level it was at. -/
theorem Wp.nested (hs : s.Inside)
    (h : Wp x { s with depth := s.depth + 1 } fun a s₁ => Q a { s₁ with depth := s₁.depth - 1 }) :
    Wp (nested x) s Q := by
  intro r s' hrun
  rw [run_nested] at hrun
  by_cases hd : nestingLimit ≤ s.depth
  · rw [if_pos hd] at hrun
    cases hrun
    exact ⟨Kept.refl hs, fun a ha => by cases ha⟩
  · rw [if_neg hd] at hrun
    rcases hx : x.run.run { s with depth := s.depth + 1 } with ⟨r₁, s₁⟩
    rw [hx] at hrun
    obtain ⟨hk, hQ⟩ := h r₁ s₁ hx
    cases hrun
    exact ⟨⟨⟨hk.inside.1, hk.inside.2⟩, hk.tokens, hk.pos, by simp [hk.depth]⟩, hQ⟩

theorem Wp.exhausted (hs : s.Inside) : Wp (exhausted : Parser α) s Q := fun r s' hrun =>
  ⟨Keeps.exhausted s hs r s' hrun, fun a ha => by
    subst ha
    exact absurd hrun not_returns_exhausted⟩

end Wp

/-! ## The parser's steps -/

section Steps

variable {β : Type} {s : ParseState} {Q : β → ParseState → Prop}

theorem Wp.get_bind {k : ParseState → Parser β} (hs : s.Inside) (h : Wp (k s) s Q) :
    Wp (get >>= k) s Q :=
  Wp.bind (Wp.of_run run_get hs h)

theorem Wp.current_bind {k : Token → Parser β} (hs : s.Inside) (h : Wp (k (peekAt s 0)) s Q) :
    Wp (current >>= k) s Q :=
  Wp.bind (Wp.of_run run_current hs h)

theorem Wp.currentKind_bind {k : TokenKind → Parser β} (hs : s.Inside)
    (h : Wp (k (peekAt s 0).kind) s Q) : Wp (currentKind >>= k) s Q :=
  Wp.bind (Wp.of_run run_currentKind hs h)

theorem Wp.currentSpan_bind {k : Span → Parser β} (hs : s.Inside)
    (h : Wp (k (spanAt s.tokens s.pos)) s Q) : Wp (currentSpan >>= k) s Q :=
  Wp.bind (Wp.of_run (by rw [run_currentSpan, hs.peek_span]) hs h)

theorem Wp.peekKind_bind {k : TokenKind → Parser β} (i : Nat) (hs : s.Inside)
    (h : Wp (k (peekAt s i).kind) s Q) : Wp (peekKind i >>= k) s Q :=
  Wp.bind (Wp.of_run (run_peekKind i) hs h)

theorem Wp.check_bind {t : TokenKind} {k : Bool → Parser β} (hs : s.Inside)
    (h : Wp (k ((peekAt s 0).kind == t)) s Q) : Wp (check t >>= k) s Q :=
  Wp.bind (Wp.of_run (run_check t) hs h)

theorem Wp.atEnd_bind {k : Bool → Parser β} (hs : s.Inside)
    (h : Wp (k ((peekAt s 0).kind == .eof)) s Q) : Wp (atEnd >>= k) s Q :=
  Wp.bind (Wp.of_run run_atEnd hs h)

/-- Reading the current token moves past it. -/
theorem Wp.advance_bind {k : Token → Parser β} (hs : s.Inside)
    (h : Wp (k (peekAt s 0)) s.next Q) : Wp (advance >>= k) s Q := by
  refine Wp.bind fun r s' hrun => ?_
  rw [run_advance] at hrun
  cases hrun
  exact ⟨Kept.next hs, fun a ha => by cases ha; exact h⟩

/-- `if ← eat t then A else B`: `A` past a token of the kind, `B` where it is not. -/
theorem Wp.eat_ite {t : TokenKind} {A B : Parser β} (hs : s.Inside)
    (hA : (peekAt s 0).kind = t → Wp A s.next Q) (hB : (peekAt s 0).kind ≠ t → Wp B s Q) :
    Wp (eat t >>= fun b => if b = true then A else B) s Q := by
  refine Wp.bind fun r s' hrun => ?_
  rw [run_eat] at hrun
  by_cases hk : (peekAt s 0).kind = t
  · rw [if_pos hk] at hrun
    cases hrun
    exact ⟨Kept.next hs, fun a ha => by cases ha; simpa using hA hk⟩
  · rw [if_neg hk] at hrun
    cases hrun
    exact ⟨Kept.refl hs, fun a ha => by cases ha; simpa using hB hk⟩

/-- `expect t` goes on only past a token of its kind. -/
theorem Wp.expect_bind {t : TokenKind} {k : Token → Parser β} (hs : s.Inside)
    (h : (peekAt s 0).kind = t → Wp (k (peekAt s 0)) s.next Q) : Wp (expect t >>= k) s Q := by
  refine Wp.bind fun r s' hrun => ?_
  refine ⟨Keeps.expect t s hs r s' hrun, fun a ha => ?_⟩
  subst ha
  obtain ⟨hk, rfl⟩ := expect_moves hrun
  have ha : a = peekAt s 0 := by
    unfold expect at hrun
    rw [run_bind, run_current] at hrun
    simp only [hk, beq_self_eq_true, if_true, run_advance] at hrun
    cases hrun
    rfl
  exact ha ▸ h hk

/-- `expectIdent` goes on only past a name. -/
theorem Wp.expectIdent_bind {k : String × Span → Parser β} (hs : s.Inside)
    (h : ∀ n, (peekAt s 0).kind = .ident → Wp (k (n, (peekAt s 0).span)) s.next Q) :
    Wp (expectIdent >>= k) s Q := by
  refine Wp.bind fun r s' hrun => ⟨Keeps.expectIdent s hs r s' hrun, fun a ha => ?_⟩
  subst ha
  obtain ⟨hk, rfl⟩ := expectIdent_moves hrun
  unfold expectIdent at hrun
  rw [run_bind, run_current] at hrun
  dsimp only at hrun
  split at hrun
  · next n _ _ =>
    rw [run_bind, run_advance] at hrun
    cases hrun
    exact h n hk
  · cases hrun

theorem Wp.spanFrom_bind {start : Span} {k : Span → Parser β} (hs : s.Inside)
    (h : Wp (k (start.merge (lastRead s.tokens s.pos))) s Q) : Wp (spanFrom start >>= k) s Q := by
  have hrun : (spanFrom start).run.run s = (.ok (start.merge (lastRead s.tokens s.pos)), s) := by
    rcases s with ⟨tokens, comments, _ | p, depth, nextId, errors⟩ <;> rfl
  exact Wp.bind (Wp.of_run hrun hs h)

theorem Wp.freshId_bind {k : Nat → Parser β} (hs : s.Inside)
    (h : Wp (k s.nextId) { s with nextId := s.nextId + 1 } Q) : Wp (freshId >>= k) s Q := by
  refine Wp.bind fun r s' hrun => ?_
  cases hrun
  exact ⟨Kept.of_eq hs rfl rfl rfl, fun a ha => by cases ha; exact h⟩

/-- An expression node spans from its start to the end of the last token read. -/
theorem Wp.mkExpr {kind : ExprKind} {start : Span} {Q : Expr → ParseState → Prop}
    (hs : s.Inside)
    (h : ∀ (e : Expr) s', s.Kept s' → s'.pos = s.pos →
      e.spanTree = .node .expr (start.merge (lastRead s.tokens s.pos)) kind.spanTrees → Q e s') :
    Wp (mkExpr kind start) s Q :=
  Wp.spanFrom_bind hs (Wp.freshId_bind hs
    (Wp.pure (by exact ⟨hs.1, hs.2⟩) (h _ _ (Kept.of_eq hs rfl rfl rfl) rfl rfl)))

/-- A statement node spans from its start to the end of the last token read. -/
theorem Wp.mkStmt {kind : StmtKind} {start : Span} {Q : Stmt → ParseState → Prop}
    (hs : s.Inside)
    (h : ∀ (st : Stmt) s', s.Kept s' → s'.pos = s.pos →
      st.spanTree = .node .stmt (start.merge (lastRead s.tokens s.pos)) kind.spanTrees → Q st s') :
    Wp (mkStmt kind start) s Q :=
  Wp.spanFrom_bind hs (Wp.freshId_bind hs
    (Wp.pure (by exact ⟨hs.1, hs.2⟩) (h _ _ (Kept.of_eq hs rfl rfl rfl) rfl rfl)))

/-- `if !(← eat t) then B else A`. -/
theorem Wp.eat_not_ite {t : TokenKind} {A B : Parser β} (hs : s.Inside)
    (hA : (peekAt s 0).kind = t → Wp A s.next Q) (hB : (peekAt s 0).kind ≠ t → Wp B s Q) :
    Wp (eat t >>= fun b => if (!b) = true then B else A) s Q := by
  refine Wp.bind fun r s' hrun => ?_
  rw [run_eat] at hrun
  by_cases hk : (peekAt s 0).kind = t
  · rw [if_pos hk] at hrun
    cases hrun
    exact ⟨Kept.next hs, fun a ha => by cases ha; simpa using hA hk⟩
  · rw [if_neg hk] at hrun
    cases hrun
    exact ⟨Kept.refl hs, fun a ha => by cases ha; simpa using hB hk⟩

theorem Wp.previousSpan_bind {k : Span → Parser β} (hs : s.Inside)
    (h : Wp (k (lastRead s.tokens s.pos)) s Q) : Wp (previousSpan >>= k) s Q := by
  have hrun : previousSpan.run.run s = (.ok (lastRead s.tokens s.pos), s) := by
    rcases s with ⟨tokens, comments, _ | p, depth, nextId, errors⟩ <;> rfl
  exact Wp.bind (Wp.of_run hrun hs h)

/-- A block item: a statement, or nothing once an error has been recorded and skipped. -/
theorem Wp.blockItem {x : Parser Stmt} {Q : Option Stmt → ParseState → Prop}
    (hx : Wp x s fun a s' => Q (some a) s') (hnone : ∀ s', s.Kept s' → Q none s') :
    Wp (Parser.blockItem x) s Q := by
  intro r s' hrun
  rw [run_blockItem] at hrun
  rcases hr : x.run.run s with ⟨r₁, s₁⟩
  rw [hr] at hrun
  obtain ⟨hk₁, hQ₁⟩ := hx r₁ s₁ hr
  cases r₁ with
  | ok a =>
    cases hrun
    exact ⟨hk₁, fun b hb => by cases hb; exact hQ₁ a rfl⟩
  | error e =>
    dsimp only at hrun
    split at hrun
    · cases hrun
      exact ⟨hk₁, fun b hb => by cases hb⟩
    · cases hrun
      have hk₂ := hk₁.trans (Keeps.recover e s₁ hk₁.inside _ _ (run_recover e))
      exact ⟨hk₂, fun b hb => by cases hb; exact hnone _ hk₂⟩

/-- The head of a declaration starts at the current token. -/
theorem Wp.parseDeclHead {Q : DeclHead → ParseState → Prop} (hs : s.Inside)
    (h : ∀ head s', s.Kept s' → head.start = spanAt s.tokens s.pos → Q head s') :
    Wp Parser.parseDeclHead s Q := by
  unfold Parser.parseDeclHead
  refine Wp.currentSpan_bind hs (Wp.keeps_bind Keeps.leadingComment hs fun description s₁ hk₁ => ?_)
  refine Wp.get_bind hk₁.inside (Wp.keeps_bind (Keeps.parseModifiers _ _) hk₁.inside
    fun modifiers s₂ hk₂ => Wp.pure hk₂.inside ?_)
  exact h _ s₂ (hk₁.trans hk₂) rfl

/-- A declaration node spans from its head to the end of the last token read. -/
theorem Wp.finishDecl {head : DeclHead} {name : String} {nameSpan : Span} {ty : TypeExpr}
    {kind : DeclKind} {Q : Decl → ParseState → Prop} (hs : s.Inside)
    (h : ∀ (d : Decl) s', s.Kept s' → s'.pos = s.pos → d.spanTree =
      .node .decl (head.start.merge (lastRead s.tokens s.pos)) (ty.spanTree :: kind.spanTrees) →
        Q d s') :
    Wp (Parser.finishDecl head name nameSpan ty kind) s Q := by
  unfold Parser.finishDecl
  exact Wp.spanFrom_bind hs (Wp.freshId_bind hs
    (Wp.pure (by exact ⟨hs.1, hs.2⟩) (h _ _ (Kept.of_eq hs rfl rfl rfl) rfl rfl)))

end Steps

end Parser

end SolarFront
