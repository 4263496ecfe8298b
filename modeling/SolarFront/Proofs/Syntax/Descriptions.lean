import SolarFront.Proofs.Syntax.SpanRuns
import SolarFront.Syntax.Token.Lex

/-!
# Descriptions of declarations

A declaration is described by the comments written right before it. The comments of a token
list come in source order, each one ending before the next begins (`CommentsLaid`). The
comments between two offsets are found by two searches, for the first comment that starts at
or after the first offset and past the last one that ends at or before the second; because
both tests change only once along comments so laid, the two searches delimit exactly the
comments lying wholly between the offsets (`commentsBetween_eq_filter`).

A declaration's description is then the texts of the comments lying wholly between the token
before it and its first token, joined by newlines, and nothing when there are none.
-/

set_option autoImplicit false
set_option linter.all false

namespace SolarFront

/-- Comments as the lexer lays them out: each span a range, each comment ending before any
later one begins. -/
structure CommentsLaid (cs : List Comment) : Prop where
  range : ∀ c ∈ cs, c.span.start ≤ c.span.stop
  apart : cs.Pairwise fun a b => a.span.stop ≤ b.span.start

instance (cs : List Comment) : Decidable (CommentsLaid cs) :=
  decidable_of_iff ((∀ c ∈ cs, c.span.start ≤ c.span.stop) ∧
      cs.Pairwise fun a b => a.span.stop ≤ b.span.start)
    ⟨fun h => ⟨h.1, h.2⟩, fun h => ⟨h.range, h.apart⟩⟩

/-- The description of a declaration written after the comments `cs`: their texts joined by
newlines, or nothing. -/
def describe (cs : List Comment) : Option String :=
  if cs = [] then none else some ("\n".intercalate (cs.map (·.text)))

/-- The comments lying wholly between the token before the cursor and the token under it. -/
def ParseState.commentsBefore (s : ParseState) : List Comment :=
  s.comments.filter fun c =>
    (lastRead s.tokens s.pos).stop ≤ c.span.start ∧ c.span.stop ≤ (Parser.peekAt s 0).span.start

section Window

variable {α : Type} (q r : α → Bool)

/-- Two searches over a list, each for the end of a run of elements passing its test, delimit
the elements that fail the first test and pass the second, provided that along the list each
test, once failed, stays failed. -/
theorem takeWhile_window_eq_filter {l : List α} (hq : l.Pairwise fun a b => q b → q a)
    (hr : l.Pairwise fun a b => r b → r a) :
    (l.drop (l.takeWhile q).length).take ((l.takeWhile r).length - (l.takeWhile q).length) =
      l.filter fun a => !q a && r a := by
  induction l with
  | nil => rfl
  | cons c rest ih =>
    rw [List.pairwise_cons] at hq hr
    have ih := ih hq.2 hr.2
    -- After an element failing a test, no later element passes it.
    have hrest : ∀ (p : α → Bool), (∀ b ∈ rest, p b → p c) → p c = false →
        rest.filter (fun a => !q a && p a) = [] ∧ (rest.takeWhile p).length = 0 := by
      intro p hp hc
      have hnone : ∀ b ∈ rest, p b = false := fun b hb => by
        cases h : p b
        · rfl
        · exact absurd (hp b hb h) (by simp [hc])
      refine ⟨List.filter_eq_nil_iff.2 fun b hb => by simp [hnone b hb], ?_⟩
      cases rest with
      | nil => rfl
      | cons b rest' => simp [hnone b (by simp)]
    cases hqc : q c <;> cases hrc : r c
    · -- `c` is past the first run and outside the second: nothing is left.
      simp [hqc, hrc, (hrest r hr.1 hrc).1]
    · -- `c` is past the first run: the first search stops at once.
      have hq0 := (hrest q hq.1 hqc).2
      simp only [List.takeWhile_cons, hqc, hrc, List.length_nil, Nat.sub_zero, List.drop_zero,
        List.length_cons, List.take_succ_cons, List.filter_cons,
        Bool.not_false, Bool.true_and, if_true, Bool.false_eq_true, if_false]
      rw [← ih, hq0, List.drop_zero, Nat.sub_zero]
    · -- `c` is in the first run but not the second: the window is empty.
      simp [hqc, hrc, (hrest r hr.1 hrc).1]
    · -- `c` is in both runs: drop it and search the rest.
      simp only [List.takeWhile_cons, hqc, hrc, if_true, List.length_cons, List.drop_succ_cons,
        Nat.add_sub_add_right, List.filter_cons, Bool.not_true, Bool.false_and,
        Bool.false_eq_true, if_false]
      exact ih

end Window

namespace TokenList

/-- The comments between two offsets are exactly those lying wholly between them, in source
order. -/
theorem commentsBetween_eq_filter {cs : List Comment} (h : CommentsLaid cs) (tokens : Array Token)
    (start stop : Nat) :
    (TokenList.mk tokens cs).commentsBetween start stop =
      cs.filter fun c => start ≤ c.span.start ∧ c.span.stop ≤ stop := by
  -- Starts and ends both grow along the comments, so each search stops at a threshold.
  have hq : cs.Pairwise fun a b => decide (b.span.start < start) → decide (a.span.start < start) :=
    List.Pairwise.imp_of_mem (fun {a b} ha _ hab hb => by
      have := h.range a ha
      simp only [decide_eq_true_eq] at hb ⊢
      omega) h.apart
  have hr : cs.Pairwise fun a b => decide (b.span.stop ≤ stop) → decide (a.span.stop ≤ stop) :=
    List.Pairwise.imp_of_mem (fun {a b} _ hb hab hstop => by
      have := h.range b hb
      simp only [decide_eq_true_eq] at hstop ⊢
      omega) h.apart
  -- An empty window needs no test of its own.
  simp only [commentsBetween]
  rw [ite_eq_left_iff.2 fun hle => by
    rw [Nat.sub_eq_zero_of_le (Nat.le_of_not_lt hle), List.take_zero],
    takeWhile_window_eq_filter _ _ hq hr]
  congr 1
  funext c
  by_cases hc : start ≤ c.span.start
  · simp [hc, Nat.not_lt.2 hc]
  · simp [hc, Nat.lt_of_not_le hc]

end TokenList

namespace Parser

section Descriptions

variable {α β : Type} {s s' : ParseState}

/-- Every successful run of `x` returns a value with `P`. -/
def Ensures (x : Parser α) (P : α → Prop) : Prop := ∀ s a s', Returns x s a s' → P a

theorem Ensures.bind {x : Parser α} {k : α → Parser β} {P : β → Prop}
    (hk : ∀ a, Ensures (k a) P) : Ensures (x >>= k) P := fun s b s'' h => by
  obtain ⟨a, s', -, hk'⟩ := returns_bind.1 h
  exact hk a s' b s'' hk'

theorem Ensures.throw {P : α → Prop} (e : ParseError) : Ensures (MonadExcept.throw e : Parser α) P :=
  fun _ _ _ h => absurd h not_returns_throw

theorem Ensures.exhausted {P : α → Prop} : Ensures (exhausted : Parser α) P :=
  fun _ _ _ h => absurd h not_returns_exhausted

/-- A declaration node carries the description of its head. -/
theorem Ensures.finishDecl (head : DeclHead) (name : String) (nameSpan : Span) (ty : TypeExpr)
    (kind : DeclKind) :
    Ensures (finishDecl head name nameSpan ty kind) (·.description = head.description) := by
  unfold Parser.finishDecl
  refine Ensures.bind fun _ => Ensures.bind fun _ => ?_
  intro s d s' h
  obtain ⟨rfl, -⟩ := returns_pure.1 h
  rfl

/-- A function declaration carries the description of its head. -/
theorem Ensures.parseFun (n : Nat) (head : DeclHead) :
    Ensures (parseFun n head) (·.description = head.description) := by
  cases n with
  | zero => exact Ensures.exhausted
  | succ n =>
    unfold Parser.parseFun
    -- Every step before the node is passed over; only the node's own construction counts.
    repeat' first
      | with_reducible exact Ensures.finishDecl _ _ _ _ _
      | with_reducible refine Ensures.bind fun _ => ?_
      | split

/-- Every declaration the body of a declaration builds carries the description of its head. -/
theorem Ensures.parseDeclBody (n : Nat) (head : DeclHead) :
    Ensures (parseDeclBody n head) (·.description = head.description) := by
  cases n with
  | zero => exact Ensures.exhausted
  | succ n =>
    unfold Parser.parseDeclBody
    repeat' first
      | with_reducible exact Ensures.parseFun _ _
      | with_reducible exact Ensures.finishDecl _ _ _ _ _
      | with_reducible exact Ensures.throw _
      | with_reducible refine Ensures.bind fun _ => ?_
      | split

theorem run_previousSpan : previousSpan.run.run s = (.ok (lastRead s.tokens s.pos), s) := by
  rcases s with ⟨tokens, comments, _ | p, depth, nextId, errors⟩ <;> rfl

/-- The leading comment of the cursor is the description of the comments before it. -/
theorem run_leadingComment (h : CommentsLaid s.comments) :
    leadingComment.run.run s = (.ok (describe s.commentsBefore), s) := by
  unfold leadingComment
  rw [run_bind, run_get]
  dsimp only
  rw [run_bind, run_previousSpan]
  dsimp only
  rw [run_bind, run_currentSpan]
  dsimp only
  rw [TokenList.commentsBetween_eq_filter h]
  unfold describe ParseState.commentsBefore
  cases s.comments.filter fun c =>
    (lastRead s.tokens s.pos).stop ≤ c.span.start ∧ c.span.stop ≤ (peekAt s 0).span.start <;> rfl

/-- A declaration read after its head carries the head's description, which is the description
of the comments before the cursor where the head was read. -/
theorem headed_description {k : DeclHead → Parser Decl} {d : Decl} (h : CommentsLaid s.comments)
    (hk : ∀ head, Ensures (k head) (·.description = head.description))
    (hret : Returns (parseDeclHead >>= k) s d s') : d.description = describe s.commentsBefore := by
  obtain ⟨head, s₁, hhead, hbody⟩ := returns_bind.1 hret
  rw [hk head _ _ _ hbody]
  unfold parseDeclHead at hhead
  obtain ⟨start, s₂, hstart, hhead⟩ := returns_bind.1 hhead
  rw [Returns, run_currentSpan] at hstart
  cases hstart
  obtain ⟨description, s₃, hdesc, hhead⟩ := returns_bind.1 hhead
  rw [Returns, run_leadingComment h] at hdesc
  cases hdesc
  obtain ⟨t, s₄, -, hhead⟩ := returns_bind.1 hhead
  obtain ⟨m, s₅, -, hhead⟩ := returns_bind.1 hhead
  obtain ⟨rfl, -⟩ := returns_pure.1 hhead
  rfl

/-- A declaration, at module level or in a block, is described by the comments before its first
token. -/
theorem declaration_description {fuel : Nat} {d : Decl} (h : CommentsLaid s.comments)
    (hd : Returns (parseDecl fuel) s d s' ∨ Returns (parseLocalDecl fuel) s d s') :
    d.description = describe s.commentsBefore := by
  cases fuel with
  | zero =>
    rcases hd with hd | hd <;> exact absurd hd not_returns_exhausted
  | succ n =>
    rcases hd with hd | hd
    · unfold parseDecl at hd
      exact headed_description h (fun head => Ensures.parseDeclBody n head) hd
    · unfold parseLocalDecl at hd
      refine headed_description h (fun head => ?_) hd
      -- A nested function is refused; anything else is the body of a declaration.
      repeat' first
        | with_reducible exact Ensures.parseDeclBody _ _
        | with_reducible exact Ensures.throw _
        | with_reducible refine Ensures.bind fun _ => ?_
        | split

/-- The comments between two offsets are found by two searches that delimit exactly the comments
lying wholly between the offsets, in source order. So a declaration, at module level or in a
block, is described by the comments lying wholly between the token before it and its first
token, their texts joined by newlines, and by nothing when there are none. -/
theorem declaration_descriptions :
    (∀ (tokens : Array Token) (cs : List Comment), CommentsLaid cs → ∀ start stop,
      (TokenList.mk tokens cs).commentsBetween start stop =
        cs.filter fun c => start ≤ c.span.start ∧ c.span.stop ≤ stop) ∧
    (∀ (fuel : Nat) (s s' : ParseState) (d : Decl), CommentsLaid s.comments →
      ((parseDecl fuel).run.run s = (.ok d, s') ∨ (parseLocalDecl fuel).run.run s = (.ok d, s')) →
      d.description = describe (s.comments.filter fun c =>
        (lastRead s.tokens s.pos).stop ≤ c.span.start ∧ c.span.stop ≤ (peekAt s 0).span.start)) :=
  ⟨fun tokens _ h start stop => TokenList.commentsBetween_eq_filter h tokens start stop,
    fun _ _ _ _ h hd => declaration_description h hd⟩

/-- A line comment and a block comment before a variable describe it together. -/
theorem declaration_descriptions_two_comments :
    CommentsLaid (lex "// a\n/* b */ var x: int16;").tokens.comments ∧
      ∃ d s', (parseDecl 64).run.run
          { tokens := (lex "// a\n/* b */ var x: int16;").tokens.tokens,
            comments := (lex "// a\n/* b */ var x: int16;").tokens.comments } = (.ok d, s') ∧
        d.description = some "a\nb" := by
  have hlaid : CommentsLaid (lex "// a\n/* b */ var x: int16;").tokens.comments := by
    decide +kernel
  refine ⟨hlaid, ?_⟩
  have hok : ((parseDecl 64).run.run
      { tokens := (lex "// a\n/* b */ var x: int16;").tokens.tokens,
        comments := (lex "// a\n/* b */ var x: int16;").tokens.comments }).1.toBool = true := by
    decide +kernel
  rcases hrun : (parseDecl 64).run.run
      { tokens := (lex "// a\n/* b */ var x: int16;").tokens.tokens,
        comments := (lex "// a\n/* b */ var x: int16;").tokens.comments } with ⟨r, s'⟩
  rw [hrun] at hok
  cases r with
  | error e => cases hok
  | ok d =>
    refine ⟨d, s', rfl, ?_⟩
    rw [declaration_descriptions.2 64 _ s' d hlaid (.inl hrun)]
    decide +kernel

end Descriptions

end Parser

end SolarFront
