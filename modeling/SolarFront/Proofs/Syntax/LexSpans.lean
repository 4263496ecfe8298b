import Mathlib
import SolarFront.Syntax.Token.Lex

/-!
# Where the tokens of a text lie

Reading a text cuts it into lexemes, each the longest match at its point, one after the other
from the first byte to the last (`lexemes`). A lexeme becomes a token, a comment, an invalid
character or, for blanks, nothing. So the spans of the tokens, the comments and the invalid
characters are nonempty, disjoint and in order; with the blanks between them they cover the bytes
of the text exactly; one end-of-file token closes the list at the end of the text; and every
other error lies inside the token or comment it is about (`lex_spans`).

`Lex.run` is read as a fold over `lexemes` (`run_tokens`, `run_comments`, `run_errors`); what
one lexeme adds is read off `Lex.cook`, and the escapes inside a literal stay inside its body
(`cookFrom_within`).
-/

set_option autoImplicit false
set_option linter.all false

namespace SolarFront

namespace Lex

/-! ## Byte lengths -/

theorem foldl_utf8Size (cs : List Char) (k : Nat) :
    cs.foldl (fun n c => n + c.utf8Size) k = k + byteLength cs := by
  induction cs generalizing k with
  | nil => simp [byteLength]
  | cons c cs ih =>
    simp only [List.foldl_cons, byteLength]
    rw [ih (k + c.utf8Size), ih (0 + c.utf8Size)]
    omega

@[simp] theorem byteLength_nil : byteLength [] = 0 := rfl

@[simp] theorem byteLength_cons (c : Char) (cs : List Char) :
    byteLength (c :: cs) = c.utf8Size + byteLength cs := by
  conv_lhs => simp only [byteLength, List.foldl_cons]
  rw [foldl_utf8Size, Nat.zero_add]

@[simp] theorem byteLength_append (cs ds : List Char) :
    byteLength (cs ++ ds) = byteLength cs + byteLength ds := by
  induction cs with
  | nil => simp
  | cons c cs ih => simp [ih]; omega

/-- Every character takes at least one byte. -/
theorem length_le_byteLength (cs : List Char) : cs.length ≤ byteLength cs := by
  induction cs with
  | nil => simp
  | cons c cs ih => simp only [List.length_cons, byteLength_cons]; have := c.utf8Size_pos; omega

/-- Taking `n` characters takes at least `n` bytes. -/
theorem add_byteLength_drop {cs : List Char} {n : Nat} (h : n ≤ cs.length) :
    n + byteLength (cs.drop n) ≤ byteLength cs := by
  have hsplit := congrArg byteLength (List.take_append_drop n cs)
  have htake := length_le_byteLength (cs.take n)
  rw [byteLength_append] at hsplit
  rw [List.length_take_of_le h] at htake
  omega

theorem byteLength_pos {cs : List Char} (h : cs ≠ []) : 0 < byteLength cs :=
  Nat.lt_of_lt_of_le (List.length_pos_of_ne_nil h) (length_le_byteLength cs)

/-- Every byte of a text lies in one of its characters. -/
theorem exists_char_at {cs : List Char} {i : Nat} (h : i < byteLength cs) :
    ∃ pre c post, cs = pre ++ c :: post ∧ byteLength pre ≤ i ∧
      i < byteLength pre + c.utf8Size := by
  induction cs generalizing i with
  | nil => simp at h
  | cons c cs ih =>
    rw [byteLength_cons] at h
    by_cases hi : i < c.utf8Size
    · exact ⟨[], c, cs, rfl, by simp, by simpa using hi⟩
    · obtain ⟨pre, d, post, rfl, h₁, h₂⟩ := ih (i := i - c.utf8Size) (by omega)
      exact ⟨c :: pre, d, post, rfl, by simp; omega, by simp; omega⟩

/-- The byte length of a text's characters is the size of its encoding. -/
theorem byteLength_toList (s : String) : byteLength s.toList = s.utf8ByteSize := by
  rw [← String.size_toByteArray, ← String.utf8Encode_toList]
  induction s.toList with
  | nil => simp
  | cons c cs ih =>
    rw [List.utf8Encode_cons, ByteArray.size_append, List.utf8Encode_singleton,
      List.size_toByteArray, String.length_utf8EncodeChar, ← ih, byteLength_cons]

/-! ## The lexemes of a text -/

/-- A piece of the text as the lexer cuts it: its kind, its characters and its bytes. -/
structure Lexeme where
  kind : LexemeKind
  text : List Char
  span : Span

/-- What reading a lexeme adds: a token, a comment and errors. -/
def Lexeme.cooked (allowReserved : Bool) (l : Lexeme) :
    Option Token × Option Comment × List LexError :=
  cook allowReserved l.kind l.text l.span

/-- The lexemes of the text `cs`, which starts at byte `pos`, cut as `run` cuts them. -/
def lexemes (cs : List Char) (pos : Nat) : List Lexeme :=
  match cs with
  | [] => []
  | c :: rest =>
    let (kind, n) := Scan.lexeme (c :: rest)
    let n := max n 1
    let text := (c :: rest).take n
    let stop := pos + byteLength text
    ⟨kind, text, ⟨pos, stop⟩⟩ :: lexemes ((c :: rest).drop n) stop
termination_by cs.length
decreasing_by simp only [List.length_drop, List.length_cons]; omega

theorem lexemes_cons {c : Char} {rest : List Char} {kind : LexemeKind} {n : Nat}
    (h : Scan.lexeme (c :: rest) = (kind, n)) (pos : Nat) :
    lexemes (c :: rest) pos =
      ⟨kind, (c :: rest).take (max n 1), ⟨pos, pos + byteLength ((c :: rest).take (max n 1))⟩⟩ ::
        lexemes ((c :: rest).drop (max n 1)) (pos + byteLength ((c :: rest).take (max n 1))) := by
  rw [lexemes, h]

/-- `run` adds to what it was given what each lexeme of the rest adds, in order, and then the
end-of-file token at the end of the text. -/
theorem run_eq (ar : Bool) (cs : List Char) (pos : Nat) (toks : Array Token)
    (coms : Array Comment) (errs : Array LexError) :
    (run ar cs pos toks coms errs).1.toList = toks.toList ++
        (lexemes cs pos).filterMap (fun l => (l.cooked ar).1) ++
        [⟨.eof, .point (pos + byteLength cs), .none⟩] ∧
    (run ar cs pos toks coms errs).2.1.toList = coms.toList ++
        (lexemes cs pos).filterMap (fun l => (l.cooked ar).2.1) ∧
    (run ar cs pos toks coms errs).2.2.toList = errs.toList ++
        (lexemes cs pos).flatMap (fun l => (l.cooked ar).2.2) := by
  fun_induction run ar cs pos toks coms errs with
  | case1 pos toks coms errs => simp [lexemes]
  | case2 pos toks coms errs c rest kind n₀ hlex n text stop tok com es hcook toks' coms' ih =>
    obtain ⟨h₁, h₂, h₃⟩ := ih
    have hℓ : Lexeme.cooked ar ⟨kind, text, ⟨pos, stop⟩⟩ = (tok, com, es) := hcook
    have hlen : pos + byteLength (c :: rest) = stop + byteLength ((c :: rest).drop n) := by
      have hsplit := congrArg byteLength (List.take_append_drop n (c :: rest))
      rw [byteLength_append] at hsplit
      simp only [stop, text]
      omega
    rw [lexemes_cons hlex]
    refine ⟨?_, ?_, ?_⟩
    · rw [h₁, List.filterMap_cons, hℓ, hlen]
      cases tok <;> simp [toks', n, text, stop]
    · rw [h₂, List.filterMap_cons, hℓ]
      cases com <;> simp [coms', n, text, stop]
    · rw [h₃, List.flatMap_cons, hℓ]
      simp [n, text, stop]

/-! ## Lexemes follow one another -/

/-- Each lexeme is a nonempty piece of the text, and its span is where that piece lies. -/
theorem mem_lexemes {cs : List Char} {pos : Nat} {l : Lexeme} (h : l ∈ lexemes cs pos) :
    l.text ≠ [] ∧ ∃ pre post, cs = pre ++ l.text ++ post ∧
      l.span = ⟨pos + byteLength pre, pos + byteLength pre + byteLength l.text⟩ := by
  fun_induction lexemes cs pos with
  | case1 pos => simp at h
  | case2 pos c rest kind n₀ hlex n text stop ih =>
    rcases List.mem_cons.mp h with rfl | h
    · refine ⟨by simp [text, n, List.take_eq_nil_iff], [], (c :: rest).drop n, ?_, by simp [stop]⟩
      simp [text]
    · obtain ⟨hne, pre, post, hcs, hspan⟩ := ih h
      refine ⟨hne, text ++ pre, post, ?_, ?_⟩
      · rw [List.append_assoc, List.append_assoc, ← List.append_assoc pre, ← hcs]
        exact (List.take_append_drop n (c :: rest)).symm
      · rw [hspan]
        simp only [stop, byteLength_append, Span.mk.injEq]
        omega

/-- Lexemes come in order: each ends where or before the next starts. -/
theorem lexemes_sorted (cs : List Char) (pos : Nat) :
    (lexemes cs pos).Pairwise (fun a b => a.span.stop ≤ b.span.start) := by
  fun_induction lexemes cs pos with
  | case1 pos => simp
  | case2 pos c rest kind n₀ hlex n text stop ih =>
    refine List.Pairwise.cons (fun b hb => ?_) ih
    obtain ⟨-, pre, -, -, hspan⟩ := mem_lexemes hb
    rw [hspan]
    simp [stop, text, n]

/-- Every byte of the text lies in some lexeme. -/
theorem lexemes_cover (cs : List Char) (pos : Nat) :
    ∀ i, pos ≤ i → i < pos + byteLength cs →
      ∃ l ∈ lexemes cs pos, l.span.start ≤ i ∧ i < l.span.stop := by
  fun_induction lexemes cs pos with
  | case1 pos => intro i h₁ h₂; simp at h₂; omega
  | case2 pos c rest kind n₀ hlex n text stop ih =>
    intro i h₁ h₂
    by_cases hi : i < stop
    · exact ⟨_, List.mem_cons_self, h₁, hi⟩
    · have hsplit := congrArg byteLength (List.take_append_drop n (c :: rest))
      rw [byteLength_append] at hsplit
      obtain ⟨l, hl, hl'⟩ := ih i (by omega) (by simp only [stop, text] at hi ⊢; omega)
      exact ⟨l, List.mem_cons_of_mem _ hl, hl'⟩

end Lex

/-! ## Escapes stay inside the literal -/

namespace Escape

theorem hexRun_le (m : Nat) (cs : List Char) : (hexRun m cs).2 ≤ cs.length := by
  induction cs generalizing m with
  | nil => simp [hexRun]
  | cons c cs ih =>
    unfold hexRun
    split
    · rename_i m _
      simp only [List.length_cons]
      have := ih m
      omega
    · simp

theorem octalRun_le (m : Nat) (cs : List Char) : (octalRun m cs).2 ≤ cs.length := by
  induction cs generalizing m with
  | nil => simp [octalRun]
  | cons c cs ih =>
    unfold octalRun
    split
    · rename_i m
      split
      · simp only [List.length_cons]
        have := ih m
        omega
      · simp
    · simp

/-- A unit's errors are about the span it is given, and none is an invalid character. -/
theorem numericUnit_error {ctx : LiteralContext} {v : Nat} {span : Span} {e : LexError}
    (h : e ∈ (numericUnit ctx v span).2) : e.span = span ∧ e.problem.code ≠ .e0005 := by
  unfold numericUnit at h
  split_ifs at h <;> simp_all [LexProblem.code]

theorem charUnit_error {ctx : LiteralContext} {c : Char} {span : Span} {e : LexError}
    (h : e ∈ (charUnit ctx c span).2) : e.span = span ∧ e.problem.code ≠ .e0005 := by
  simp only [charUnit] at h
  split at h <;> split_ifs at h <;> simp_all [LexProblem.code]

theorem codePointUnits_error {ctx : LiteralContext} {cp : Nat} {span : Span} {e : LexError}
    (h : e ∈ (codePointUnits ctx cp span).2) : e.span = span ∧ e.problem.code ≠ .e0005 := by
  unfold codePointUnits at h
  split_ifs at h
  · simp_all [LexProblem.code]
  · simp_all [LexProblem.code]
  · split at h <;> simp at h

/-- An escape takes no more characters than there are, and its errors run from the backslash
to the last character it takes; none of them is an invalid character. -/
theorem escapeUnits_spec (ctx : LiteralContext) (esc : Char) (more : List Char)
    (start stop : Nat) :
    (escapeUnits ctx esc more start stop).2.2 ≤ more.length ∧
      ∀ e ∈ (escapeUnits ctx esc more start stop).2.1, e.span.start = start ∧
        e.span.stop ≤ stop + (escapeUnits ctx esc more start stop).2.2 ∧
        e.problem.code ≠ .e0005 := by
  have bx := hexRun_le 4 more
  have bU := hexRun_le 6 more
  have bo := octalRun_le 5 more
  unfold escapeUnits
  rcases hx : hexRun 4 more with ⟨vx, nx⟩
  rcases hU : hexRun 6 more with ⟨vU, nU⟩
  rcases ho : octalRun 5 more with ⟨vo, no⟩
  rw [hx] at bx
  rw [hU] at bU
  rw [ho] at bo
  dsimp only
  split_ifs
  all_goals (repeat' split)
  all_goals
    dsimp only
    refine ⟨by omega, fun e he => ?_⟩
  -- an octal escape, then `\x` without and with digits
  · obtain ⟨hs, hc⟩ := numericUnit_error he; simp [hs, hc]
  · simp [List.mem_singleton.mp he, LexProblem.code]
  · obtain ⟨hs, hc⟩ := numericUnit_error he; simp [hs, hc]
  -- `\u`: too few digits, in a narrow literal, or a unit
  · simp [List.mem_singleton.mp he, LexProblem.code]
  · simp [List.mem_singleton.mp he, LexProblem.code]
  · obtain ⟨hs, hc⟩ := numericUnit_error he; simp [hs, hc]
  -- `\U`: too few digits, in a character literal, or a code point
  · simp [List.mem_singleton.mp he, LexProblem.code]
  · simp [List.mem_singleton.mp he, LexProblem.code]
  · obtain ⟨hs, hc⟩ := codePointUnits_error he; simp [hs, hc]
  -- a one-letter escape has no error; any other letter is warned about and stands for itself
  · simp at he
  · rcases List.mem_cons.mp he with rfl | he
    · simp [LexProblem.code]
    · obtain ⟨hs, hc⟩ := charUnit_error he; simp [hs, hc]

/-- The errors of a literal body lie inside it, and none is an invalid character. -/
theorem cookFrom_within (ctx : LiteralContext) (pos : Nat) (body : List Char) :
    ∀ e ∈ (cookFrom ctx pos body).2, pos ≤ e.span.start ∧
      e.span.stop ≤ pos + Lex.byteLength body ∧ e.problem.code ≠ .e0005 := by
  fun_induction cookFrom ctx pos body with
  | case1 => simp
  | case2 pos c rest _ u es hu us es' hrec ih =>
    intro e he
    rcases List.mem_append.mp he with he | he
    · obtain ⟨hspan, hcode⟩ := charUnit_error (show e ∈ (charUnit ctx c _).2 by rw [hu]; exact he)
      simp [hspan, hcode]
    · obtain ⟨h₁, h₂, hcode⟩ := ih e (by rw [hrec]; exact he)
      simp only [Lex.byteLength_cons]
      exact ⟨by omega, by omega, hcode⟩
  | case3 => simp
  | case4 pos b hb esc more stop us es n hesc us' es' hrec ih =>
    -- the escape's errors end by its last character, and the rest of the body follows it
    obtain ⟨hn, hes⟩ := escapeUnits_spec ctx esc more pos stop
    rw [hesc] at hn hes
    dsimp only at hn hes
    have hrest := Lex.add_byteLength_drop hn
    have hb : b = '\\' := not_not.mp hb
    have hslash : ('\\' : Char).utf8Size = 1 := rfl
    intro e he
    simp only [Lex.byteLength_cons, hb]
    rcases List.mem_append.mp he with he | he
    · obtain ⟨h₁, h₂, hcode⟩ := hes e he
      refine ⟨by omega, ?_, hcode⟩
      simp only [stop] at h₂
      omega
    · obtain ⟨h₁, h₂, hcode⟩ := ih e (by rw [hrec]; exact he)
      refine ⟨by omega, ?_, hcode⟩
      simp only [stop] at h₁ h₂
      omega

end Escape

/-! ## What the scanner can cut -/

/-- A fold whose every step keeps its value or makes one with `P` ends at its start or with
`P`. -/
theorem foldl_of_step {α β : Type} {P : α → Prop} {f : α → β → α} {l : List β} {init r : α}
    (h : l.foldl f init = r) (hf : ∀ a, ∀ x ∈ l, f a x = a ∨ P (f a x)) : r = init ∨ P r := by
  induction l generalizing init with
  | nil => exact .inl h.symm
  | cons x xs ih =>
    rcases ih h (fun a y hy => hf a y (List.mem_cons_of_mem x hy)) with h' | h'
    · rcases hf init x List.mem_cons_self with h'' | h''
      · exact .inl (h'.trans h'')
      · exact .inr (h' ▸ h'')
    · exact .inr h'

namespace Scan

/-- The longest fixed spelling is one of the table's. -/
theorem longestFixed_mem {cs : List Char} {k : TokenKind} {n : Nat}
    (h : longestFixed cs = some (k, n)) :
    ∃ text, (text, k) ∈ TokenKind.keywords ++ TokenKind.punctuation := by
  unfold longestFixed at h
  -- each step keeps the best so far or takes the spelling it looks at
  have key := foldl_of_step (P := fun b => ∃ text k n, b = some (k, n) ∧
    (text, k) ∈ TokenKind.keywords ++ TokenKind.punctuation) h ?step
  · rcases key with h' | ⟨text, k', n', hb, hmem⟩
    · cases h'
    · cases hb
      exact ⟨text, hmem⟩
  case step =>
    rintro best ⟨text, kind⟩ hmem
    dsimp only
    split_ifs
    · split
      · split_ifs
        · exact .inr ⟨text, kind, _, rfl, hmem⟩
        · exact .inl rfl
      · exact .inr ⟨text, kind, _, rfl, hmem⟩
    · exact .inl rfl

/-- Of the candidates, the scanner keeps the first of the greatest length: whatever it keeps is
one of them. -/
theorem longest_mem {cands : List (Option (LexemeKind × Nat))} {km : LexemeKind × Nat}
    (h : cands.foldl (fun best cand =>
        match best, cand with
        | some (_, n), some (k, m) => if m > n then some (k, m) else best
        | none, some km => some km
        | _, none => best) none = some km) : some km ∈ cands := by
  have key := foldl_of_step (P := fun b => ∃ km, b = some km ∧ some km ∈ cands) h ?step
  · rcases key with h' | ⟨km', hb, hmem⟩
    · cases h'
    · rw [hb]
      exact hmem
  case step =>
    rintro best (_ | ⟨k, m⟩) hmem
    · exact .inl (by cases best <;> rfl)
    · rcases best with _ | ⟨_, n⟩
      · exact .inr ⟨_, rfl, hmem⟩
      · dsimp only
        split_ifs
        · exact .inr ⟨_, rfl, hmem⟩
        · exact .inl rfl

/-- No spelling of the table is the end of the text. -/
theorem fixed_ne_eof : ∀ p ∈ TokenKind.keywords ++ TokenKind.punctuation, p.2 ≠ .eof := by
  decide

/-- What the scanner's cut says about its text: a blank run is all of the leading blanks, an
invalid lexeme is one character, and a fixed spelling is the longest one of the table. -/
theorem lexeme_spec {cs : List Char} {kind : LexemeKind} {n : Nat}
    (h : lexeme cs = (kind, n)) :
    (kind = .blank → 0 < n ∧ n = runLength isBlank cs) ∧ (kind = .invalid → n = 1) ∧
      (∀ k, kind = .fixed k → longestFixed cs = some (k, n)) := by
  match cs with
  | [] => simp only [lexeme, Prod.mk.injEq] at h; obtain ⟨rfl, rfl⟩ := h; simp
  | c :: rest =>
    simp only [lexeme] at h
    split at h
    · -- a run of blanks, the first of them at the front
      cases h
      refine ⟨fun _ => ⟨?_, rfl⟩, by simp, by simp⟩
      simp [runLength, List.takeWhile_cons_of_pos ‹_›]
    split at h
    · cases h; simp
    split at h
    · cases h; simp
    -- the first longest candidate, or one invalid character
    generalize hbest : List.foldl _ none _ = best at h
    rcases best with _ | km
    · cases h; simp
    have hmem := longest_mem hbest
    cases h
    simp at hmem
    rcases hmem with ⟨k, hk, rfl⟩ | ⟨-, rfl, -⟩ | ⟨-, rfl, -⟩ | (⟨-, rfl⟩ | ⟨-, rfl⟩) | ⟨-, rfl⟩ |
      ⟨-, rfl⟩
    · simp [hk]
    all_goals simp

/-- What the text of one cut is: a run of blanks, one invalid character, or a fixed spelling
that is not the end of the text. -/
theorem lexeme_text {c : Char} {rest : List Char} {kind : LexemeKind} {n : Nat}
    (h : lexeme (c :: rest) = (kind, n)) :
    (kind = .blank → ∀ d ∈ (c :: rest).take (max n 1), isBlank d) ∧
      (kind = .invalid → ((c :: rest).take (max n 1)).length = 1) ∧
      (∀ k, kind = .fixed k → k ≠ .eof) := by
  obtain ⟨hblank, hinvalid, hfixed⟩ := lexeme_spec h
  refine ⟨fun hk d hd => ?_, fun hk => by simp [hinvalid hk], fun k hk => ?_⟩
  · obtain ⟨hpos, hrun⟩ := hblank hk
    have htake : (c :: rest).take (max n 1) = (c :: rest).takeWhile isBlank := by
      rw [Nat.max_eq_left hpos, hrun, runLength]
      exact (List.prefix_iff_eq_take.mp (List.takeWhile_prefix isBlank)).symm
    rw [htake] at hd
    exact List.all_eq_true.mp List.all_takeWhile d hd
  · obtain ⟨text, hmem⟩ := longestFixed_mem (hfixed k hk)
    exact fixed_ne_eof _ hmem

end Scan

namespace IntLiteral

theorem readDigits_error {base bits acc : Nat} {cs : List Char} {p : LexProblem}
    (h : readDigits base bits acc cs = .error p) : p.code = .e0001 := by
  induction cs generalizing acc with
  | nil => simp [readDigits] at h
  | cons c cs ih =>
    unfold readDigits at h
    split at h
    · cases h; rfl
    · dsimp only at h
      split_ifs at h
      · cases h; rfl
      · exact ih h

/-- A number that cannot be read is reported as a malformed integer literal. -/
theorem cook_error {text : List Char} {p : LexProblem} (h : cook text = .error p) :
    p.code = .e0001 := by
  unfold cook at h
  split at h
  split at h
  split_ifs at h
  · cases h; rfl
  · split at h
    · cases h; exact readDigits_error ‹_›
    · split_ifs at h
      cases h; rfl

end IntLiteral

namespace Lex

theorem byteLength_take_le (cs : List Char) (n : Nat) : byteLength (cs.take n) ≤ byteLength cs := by
  have hsplit := congrArg byteLength (List.take_append_drop n cs)
  rw [byteLength_append] at hsplit
  omega

/-- After a prefix of ASCII letters, the body of a quoted literal lies inside its text. -/
theorem body_within (pre rest : List Char) (start : Nat) (t : Bool)
    (hpre : byteLength pre = pre.length) :
    (if t then (rest.drop 1).take ((rest.drop 1).length - 1) else rest.drop 1) = [] ∨
      start ≤ start + ((pre ++ rest).length - rest.length) + 1 ∧
      start + ((pre ++ rest).length - rest.length) + 1 +
          byteLength (if t then (rest.drop 1).take ((rest.drop 1).length - 1) else rest.drop 1) ≤
        start + byteLength (pre ++ rest) := by
  rcases rest with _ | ⟨q, r⟩
  · simp
  · right
    have hq := q.utf8Size_pos
    have hbody : byteLength (if t then r.take (r.length - 1) else r) ≤ byteLength r := by
      split_ifs
      · exact byteLength_take_le r _
      · exact le_refl _
    simp only [List.drop_succ_cons, List.drop_zero, List.length_append, List.length_cons,
      byteLength_append, byteLength_cons]
    omega

/-- A literal's body lies inside its text, after the prefix and the opening quote. -/
theorem literalBody_within (text : List Char) (start : Nat) (t : Bool) :
    (literalBody text start t).2.1 = [] ∨
      start ≤ (literalBody text start t).2.2 ∧
      (literalBody text start t).2.2 + byteLength (literalBody text start t).2.1 ≤
        start + byteLength text := by
  unfold literalBody
  split
  rename_i enc rest heq
  split at heq <;> cases heq
  · exact body_within ['w'] rest start t rfl
  · exact body_within ['W'] rest start t rfl
  · exact body_within [] text start t rfl

/-- The errors of a literal's escapes lie inside the literal. -/
theorem literal_errors_within (ctx : LiteralContext) (text : List Char) (start : Nat) (t : Bool) :
    ∀ e ∈ (Escape.cookFrom ctx (literalBody text start t).2.2 (literalBody text start t).2.1).2,
      start ≤ e.span.start ∧ e.span.stop ≤ start + byteLength text ∧ e.problem.code ≠ .e0005 := by
  intro e he
  rcases literalBody_within text start t with hnil | ⟨h₁, h₂⟩
  · rw [hnil] at he
    simp [Escape.cookFrom] at he
  · obtain ⟨h₃, h₄, hcode⟩ := Escape.cookFrom_within _ _ _ e he
    exact ⟨by omega, by omega, hcode⟩

/-! ## What one lexeme adds -/

/-- What one lexeme adds, said once: nothing for blanks; a comment with its span, whose error
is about the whole comment; one error for an invalid character; or a token with its span, of
the end of the text only for a fixed spelling of it, whose errors lie inside it. -/
theorem cook_cases (ar : Bool) (kind : LexemeKind) (text : List Char) (span : Span)
    (hspan : span.stop = span.start + byteLength text) :
    ((kind = .blank ∨ kind = .invalid ∧ text = []) ∧ cook ar kind text span = (none, none, [])) ∨
    (∃ c es, c.span = span ∧ (∀ e ∈ es, e.span = span ∧ e.problem.code ≠ .e0005) ∧
      cook ar kind text span = (none, some c, es)) ∨
    (∃ c rest, kind = .invalid ∧ text = c :: rest ∧
      cook ar kind text span = (none, none, [⟨.invalidCharacter c, span⟩])) ∨
    (∃ t es, t.span = span ∧ (t.kind = .eof → kind = .fixed .eof) ∧
      (∀ e ∈ es, span.start ≤ e.span.start ∧ e.span.stop ≤ span.stop ∧ e.problem.code ≠ .e0005) ∧
      cook ar kind text span = (some t, none, es)) := by
  cases kind with
  | blank => exact .inl ⟨.inl rfl, rfl⟩
  | lineComment => exact .inr (.inl ⟨_, [], rfl, by simp, rfl⟩)
  | blockComment closed =>
    refine .inr (.inl ⟨_, _, rfl, ?_, rfl⟩)
    split_ifs <;> simp [LexProblem.code]
  | name =>
    refine .inr (.inr (.inr ⟨_, _, rfl, by simp, ?_, rfl⟩))
    split_ifs <;> simp [LexProblem.code]
  | number =>
    refine .inr (.inr (.inr ?_))
    simp only [cook]
    split
    · exact ⟨_, [], rfl, by simp, by simp, rfl⟩
    · rename_i p hp
      exact ⟨_, _, rfl, by simp, by simp [IntLiteral.cook_error hp], rfl⟩
  | str terminated =>
    refine .inr (.inr (.inr ⟨_, _, rfl, by simp, fun e he => ?_, rfl⟩))
    rcases List.mem_append.mp he with he | he
    · split_ifs at he <;> simp_all [LexProblem.code]
    · obtain ⟨h₁, h₂, hcode⟩ := literal_errors_within _ text span.start terminated e he
      exact ⟨h₁, hspan ▸ h₂, hcode⟩
  | char terminated =>
    refine .inr (.inr (.inr ⟨_, _, rfl, by simp, fun e he => ?_, rfl⟩))
    rcases List.mem_append.mp he with he | he
    · obtain ⟨h₁, h₂, hcode⟩ := literal_errors_within _ text span.start terminated e he
      exact ⟨h₁, hspan ▸ h₂, hcode⟩
    · split_ifs at he <;> simp_all [LexProblem.code]
  | fixed k => exact .inr (.inr (.inr ⟨_, [], rfl, fun h => h ▸ rfl, by simp, rfl⟩))
  | invalid =>
    cases text with
    | nil => exact .inl ⟨.inr ⟨rfl, rfl⟩, rfl⟩
    | cons c rest => exact .inr (.inr (.inl ⟨c, rest, rfl, rfl, rfl⟩))

/-- Each lexeme is a cut of the scanner: blanks are all blank, an invalid lexeme is one
character, and no fixed spelling is the end of the text. -/
theorem lexemes_kinds {cs : List Char} {pos : Nat} {l : Lexeme} (h : l ∈ lexemes cs pos) :
    (l.kind = .blank → ∀ c ∈ l.text, Scan.isBlank c) ∧ (l.kind = .invalid → l.text.length = 1) ∧
      (∀ k, l.kind = .fixed k → k ≠ .eof) := by
  fun_induction lexemes cs pos with
  | case1 pos => simp at h
  | case2 pos c rest kind n₀ hlex n text stop ih =>
    rcases List.mem_cons.mp h with rfl | h
    · exact Scan.lexeme_text hlex
    · exact ih h

/-- What a lexeme of a text adds: blanks nothing; a comment of its span; one invalid
character; or a token of its span that is not the end of the text. Every other error lies
inside the lexeme. -/
theorem cooked_cases {cs : List Char} {pos : Nat} {l : Lexeme} (h : l ∈ lexemes cs pos)
    (ar : Bool) :
    (l.kind = .blank ∧ (∀ c ∈ l.text, Scan.isBlank c) ∧ l.cooked ar = (none, none, [])) ∨
    (∃ c es, c.span = l.span ∧ (∀ e ∈ es, e.span = l.span ∧ e.problem.code ≠ .e0005) ∧
      l.cooked ar = (none, some c, es)) ∨
    (∃ c, l.text = [c] ∧ l.cooked ar = (none, none, [⟨.invalidCharacter c, l.span⟩])) ∨
    (∃ t es, t.span = l.span ∧ t.kind ≠ .eof ∧
      (∀ e ∈ es, l.span.start ≤ e.span.start ∧ e.span.stop ≤ l.span.stop ∧
        e.problem.code ≠ .e0005) ∧
      l.cooked ar = (some t, none, es)) := by
  obtain ⟨hne, pre, post, -, hspan⟩ := mem_lexemes h
  obtain ⟨hblank, hinvalid, hfixed⟩ := lexemes_kinds h
  have hstop : l.span.stop = l.span.start + byteLength l.text := by rw [hspan]
  rcases cook_cases ar l.kind l.text l.span hstop with
    ⟨hk | ⟨-, hnil⟩, hc⟩ | hcom | ⟨c, rest, hk, htext, hc⟩ | ⟨t, es, hts, hteof, hes, hc⟩
  · exact .inl ⟨hk, hblank hk, hc⟩
  · exact absurd hnil hne
  · exact .inr (.inl hcom)
  · -- an invalid lexeme is one character
    have hlen := hinvalid hk
    rw [htext, List.length_cons, Nat.add_eq_right, List.length_eq_zero_iff] at hlen
    exact .inr (.inr (.inl ⟨c, by rw [htext, hlen], hc⟩))
  · exact .inr (.inr (.inr ⟨t, es, hts, fun heof => hfixed .eof (hteof heof) rfl, hes, hc⟩))

/-! ## The pieces a lexeme accounts for -/

section Pieces

variable {cs : List Char} {pos : Nat} {l : Lexeme} (ar : Bool)

theorem cooked_of_blank (hk : l.kind = .blank) : l.cooked ar = (none, none, []) := by
  simp [Lexeme.cooked, hk, cook]

theorem cooked_token (h : l ∈ lexemes cs pos) {t : Token} (ht : (l.cooked ar).1 = some t) :
    t.span = l.span ∧ t.kind ≠ .eof ∧ (l.cooked ar).2.1 = none ∧
      ∀ e ∈ (l.cooked ar).2.2, e.problem.code ≠ .e0005 := by
  rcases cooked_cases h ar with ⟨-, -, hl⟩ | ⟨_, _, -, -, hl⟩ | ⟨_, -, hl⟩ |
    ⟨t', es, hts, hk, hes, hl⟩
  · simp [hl] at ht
  · simp [hl] at ht
  · simp [hl] at ht
  · rw [hl] at ht ⊢
    cases ht
    exact ⟨hts, hk, rfl, fun e he => (hes e he).2.2⟩

theorem cooked_comment (h : l ∈ lexemes cs pos) {c : Comment} (hc : (l.cooked ar).2.1 = some c) :
    c.span = l.span ∧ (l.cooked ar).1 = none ∧
      ∀ e ∈ (l.cooked ar).2.2, e.problem.code ≠ .e0005 := by
  rcases cooked_cases h ar with ⟨-, -, hl⟩ | ⟨c', es, hcs, hes, hl⟩ | ⟨_, -, hl⟩ |
    ⟨_, _, -, -, -, hl⟩
  · simp [hl] at hc
  · rw [hl] at hc ⊢
    cases hc
    exact ⟨hcs, rfl, fun e he => (hes e he).2⟩
  · simp [hl] at hc
  · simp [hl] at hc

theorem cooked_invalid (h : l ∈ lexemes cs pos) {e : LexError} (he : e ∈ (l.cooked ar).2.2)
    (hcode : e.problem.code = .e0005) :
    ∃ c, l.text = [c] ∧ e = ⟨.invalidCharacter c, l.span⟩ ∧ l.cooked ar = (none, none, [e]) := by
  rcases cooked_cases h ar with ⟨-, -, hl⟩ | ⟨_, _, -, hes, hl⟩ | ⟨c, htext, hl⟩ |
    ⟨_, _, -, -, hes, hl⟩
  · simp [hl] at he
  · rw [hl] at he
    exact absurd hcode (hes e he).2
  · rw [hl] at he ⊢
    obtain rfl := List.mem_singleton.mp he
    exact ⟨c, htext, rfl, rfl⟩
  · rw [hl] at he
    exact absurd hcode (hes e he).2.2

theorem cooked_error (h : l ∈ lexemes cs pos) {e : LexError} (he : e ∈ (l.cooked ar).2.2)
    (hcode : e.problem.code ≠ .e0005) :
    l.span.start ≤ e.span.start ∧ e.span.stop ≤ l.span.stop ∧
      ((∃ t, (l.cooked ar).1 = some t) ∨ ∃ c, (l.cooked ar).2.1 = some c) := by
  rcases cooked_cases h ar with ⟨-, -, hl⟩ | ⟨c, es, -, hes, hl⟩ | ⟨c, -, hl⟩ |
    ⟨t, es, -, -, hes, hl⟩
  · simp [hl] at he
  · rw [hl] at he ⊢
    rw [(hes e he).1]
    exact ⟨le_refl _, le_refl _, .inr ⟨c, rfl⟩⟩
  · rw [hl] at he
    obtain rfl := List.mem_singleton.mp he
    exact absurd rfl hcode
  · rw [hl] at he ⊢
    obtain ⟨h₁, h₂, -⟩ := hes e he
    exact ⟨h₁, h₂, .inl ⟨t, rfl⟩⟩

theorem cooked_piece (h : l ∈ lexemes cs pos) (hk : l.kind ≠ .blank) :
    (∃ t, (l.cooked ar).1 = some t) ∨ (∃ c, (l.cooked ar).2.1 = some c) ∨
      ∃ e ∈ (l.cooked ar).2.2, e.problem.code = .e0005 := by
  rcases cooked_cases h ar with ⟨hb, -, -⟩ | ⟨c, _, -, -, hl⟩ | ⟨c, -, hl⟩ |
    ⟨t, _, -, -, -, hl⟩
  · exact absurd hb hk
  · exact .inr (.inl ⟨c, by rw [hl]⟩)
  · exact .inr (.inr ⟨_, by rw [hl]; exact List.mem_singleton_self _, rfl⟩)
  · exact .inl ⟨t, by rw [hl]⟩

theorem lexeme_span_within (h : l ∈ lexemes cs pos) :
    pos ≤ l.span.start ∧ l.span.start < l.span.stop ∧ l.span.stop ≤ pos + byteLength cs := by
  obtain ⟨hne, pre, post, hcs, hspan⟩ := mem_lexemes h
  have hpos := byteLength_pos hne
  have hlen := congrArg byteLength hcs
  simp only [byteLength_append] at hlen
  rw [hspan]
  exact ⟨by simp, by simp; omega, by simp; omega⟩

/-- Two lexemes of a text do not overlap. -/
theorem lexemes_disjoint {a b : Lexeme} (ha : a ∈ lexemes cs pos) (hb : b ∈ lexemes cs pos)
    (hab : a ≠ b) : a.span.stop ≤ b.span.start ∨ b.span.stop ≤ a.span.start := by
  let R (x y : Lexeme) : Prop := x.span.stop ≤ y.span.start ∨ y.span.stop ≤ x.span.start
  have : Std.Symm R := ⟨fun _ _ h => h.symm⟩
  have hR : (lexemes cs pos).Pairwise R := (lexemes_sorted cs pos).imp Or.inl
  exact hR.forall ha hb hab

end Pieces

end Lex

/-! ## The spans of a read text -/

namespace Lexed

/-- The invalid characters a reading reports. -/
def invalidChars (r : Lexed) : List LexError := r.errors.filter (·.problem.code = .e0005)

/-- What a reading accounts for, by span: the tokens before the end of the text, the comments
and the invalid characters. -/
def pieces (r : Lexed) : List Span :=
  r.tokens.tokens.toList.dropLast.map (·.span) ++ r.tokens.comments.map (·.span) ++
    r.invalidChars.map (·.span)

end Lexed

namespace Lex

section Read

variable (source : String) (ar : Bool)

/-- Reading a text is reading its lexemes from byte 0, then the end-of-file token. -/
theorem lex_eq :
    (lex source ar).tokens.tokens.toList =
        (lexemes source.toList 0).filterMap (fun l => (l.cooked ar).1) ++
          [⟨.eof, .point source.utf8ByteSize, .none⟩] ∧
      (lex source ar).tokens.comments =
        (lexemes source.toList 0).filterMap (fun l => (l.cooked ar).2.1) ∧
      (lex source ar).errors =
        (lexemes source.toList 0).flatMap (fun l => (l.cooked ar).2.2) := by
  obtain ⟨h₁, h₂, h₃⟩ := run_eq ar source.toList 0 #[] #[] #[]
  rw [Nat.zero_add, byteLength_toList] at h₁
  simp only [List.nil_append] at h₁ h₂ h₃
  exact ⟨h₁, h₂, h₃⟩

theorem lex_tokens_dropLast :
    (lex source ar).tokens.tokens.toList.dropLast =
      (lexemes source.toList 0).filterMap (fun l => (l.cooked ar).1) := by
  rw [(lex_eq source ar).1, List.dropLast_concat]

theorem lex_invalidChars :
    (lex source ar).invalidChars = (lexemes source.toList 0).flatMap
      (fun l => ((l.cooked ar).2.2).filter (·.problem.code = .e0005)) := by
  rw [Lexed.invalidChars, (lex_eq source ar).2.2, List.filter_flatMap]

theorem lex_last_eof :
    (lex source ar).tokens.tokens.toList.getLast? =
      some ⟨.eof, .point source.utf8ByteSize, .none⟩ := by
  rw [(lex_eq source ar).1, List.getLast?_concat]

theorem lex_tokens_ne_eof : ∀ t ∈ (lex source ar).tokens.tokens.toList.dropLast, t.kind ≠ .eof := by
  intro t ht
  rw [lex_tokens_dropLast] at ht
  obtain ⟨l, hl, ht⟩ := List.mem_filterMap.mp ht
  exact (cooked_token ar hl ht).2.1

theorem lex_tokens_sorted :
    (lex source ar).tokens.tokens.toList.dropLast.Pairwise
      (fun a b => a.span.stop ≤ b.span.start) := by
  rw [lex_tokens_dropLast, List.pairwise_filterMap]
  refine (lexemes_sorted _ _).imp_of_mem fun ha hb hab t ht t' ht' => ?_
  rw [(cooked_token ar ha ht).1, (cooked_token ar hb ht').1]
  exact hab

theorem lex_comments_sorted :
    (lex source ar).tokens.comments.Pairwise (fun a b => a.span.stop ≤ b.span.start) := by
  rw [(lex_eq source ar).2.1, List.pairwise_filterMap]
  refine (lexemes_sorted _ _).imp_of_mem fun ha hb hab c hc c' hc' => ?_
  rw [(cooked_comment ar ha hc).1, (cooked_comment ar hb hc').1]
  exact hab

theorem lex_invalidChars_sorted :
    (lex source ar).invalidChars.Pairwise (fun a b => a.span.stop ≤ b.span.start) := by
  rw [lex_invalidChars, List.pairwise_flatMap]
  refine ⟨fun l hl => ?_, (lexemes_sorted _ _).imp_of_mem fun ha hb hab x hx y hy => ?_⟩
  · -- a lexeme reports at most one invalid character
    by_cases hinv : ∃ e ∈ (l.cooked ar).2.2, e.problem.code = .e0005
    · obtain ⟨e, he, hcode⟩ := hinv
      obtain ⟨-, -, -, hc⟩ := cooked_invalid ar hl he hcode
      rw [hc]
      exact (List.pairwise_singleton _ e).filter _
    · rw [List.filter_eq_nil_iff.mpr fun e he hcode => hinv ⟨e, he, by simpa using hcode⟩]
      exact List.Pairwise.nil
  · obtain ⟨hx, hcx⟩ := List.mem_filter.mp hx
    obtain ⟨hy, hcy⟩ := List.mem_filter.mp hy
    obtain ⟨_, -, rfl, -⟩ := cooked_invalid ar ha hx (by simpa using hcx)
    obtain ⟨_, -, rfl, -⟩ := cooked_invalid ar hb hy (by simpa using hcy)
    exact hab

/-- The pieces of a read text are the spans of its lexemes other than blanks. -/
theorem mem_pieces {sp : Span} :
    sp ∈ (lex source ar).pieces ↔
      ∃ l ∈ lexemes source.toList 0, l.kind ≠ .blank ∧ l.span = sp := by
  rw [Lexed.pieces, lex_tokens_dropLast, lex_invalidChars, (lex_eq source ar).2.1]
  simp only [List.mem_append, List.mem_map, List.mem_filterMap, List.mem_flatMap, List.mem_filter]
  constructor
  · rintro ((⟨t, ⟨l, hl, ht⟩, rfl⟩ | ⟨c, ⟨l, hl, hc⟩, rfl⟩) | ⟨e, ⟨l, hl, he, hcode⟩, rfl⟩)
    · refine ⟨l, hl, fun hk => ?_, (cooked_token ar hl ht).1.symm⟩
      simp [cooked_of_blank ar hk] at ht
    · refine ⟨l, hl, fun hk => ?_, (cooked_comment ar hl hc).1.symm⟩
      simp [cooked_of_blank ar hk] at hc
    · obtain ⟨_, -, rfl, -⟩ := cooked_invalid ar hl he (by simpa using hcode)
      refine ⟨l, hl, fun hk => ?_, rfl⟩
      simp [cooked_of_blank ar hk] at he
  · rintro ⟨l, hl, hk, rfl⟩
    rcases cooked_piece ar hl hk with ⟨t, ht⟩ | ⟨c, hc⟩ | ⟨e, he, hcode⟩
    · exact .inl (.inl ⟨t, ⟨l, hl, ht⟩, (cooked_token ar hl ht).1⟩)
    · exact .inl (.inr ⟨c, ⟨l, hl, hc⟩, (cooked_comment ar hl hc).1⟩)
    · obtain ⟨_, -, rfl, -⟩ := cooked_invalid ar hl he hcode
      exact .inr ⟨_, ⟨l, hl, he, by simp [hcode]⟩, rfl⟩

theorem lex_pieces_within :
    ∀ sp ∈ (lex source ar).pieces, sp.start < sp.stop ∧ sp.stop ≤ source.utf8ByteSize := by
  intro sp hsp
  obtain ⟨l, hl, -, rfl⟩ := (mem_pieces source ar).mp hsp
  obtain ⟨-, h₁, h₂⟩ := lexeme_span_within hl
  rw [Nat.zero_add, byteLength_toList] at h₂
  exact ⟨h₁, h₂⟩

theorem mem_tokens_span {sp : Span}
    (h : sp ∈ (lex source ar).tokens.tokens.toList.dropLast.map (·.span)) :
    ∃ l ∈ lexemes source.toList 0, l.span = sp ∧ ∃ t, (l.cooked ar).1 = some t := by
  rw [lex_tokens_dropLast] at h
  obtain ⟨t, ht, rfl⟩ := List.mem_map.mp h
  obtain ⟨l, hl, ht⟩ := List.mem_filterMap.mp ht
  exact ⟨l, hl, (cooked_token ar hl ht).1.symm, t, ht⟩

theorem mem_comments_span {sp : Span} (h : sp ∈ (lex source ar).tokens.comments.map (·.span)) :
    ∃ l ∈ lexemes source.toList 0, l.span = sp ∧ ∃ c, (l.cooked ar).2.1 = some c := by
  rw [(lex_eq source ar).2.1] at h
  obtain ⟨c, hc, rfl⟩ := List.mem_map.mp h
  obtain ⟨l, hl, hc⟩ := List.mem_filterMap.mp hc
  exact ⟨l, hl, (cooked_comment ar hl hc).1.symm, c, hc⟩

theorem mem_invalidChars_span {sp : Span} (h : sp ∈ (lex source ar).invalidChars.map (·.span)) :
    ∃ l ∈ lexemes source.toList 0, l.span = sp ∧ ∃ e, l.cooked ar = (none, none, [e]) := by
  rw [lex_invalidChars] at h
  obtain ⟨e, he, rfl⟩ := List.mem_map.mp h
  obtain ⟨l, hl, he⟩ := List.mem_flatMap.mp he
  obtain ⟨he, hcode⟩ := List.mem_filter.mp he
  obtain ⟨_, -, rfl, hc⟩ := cooked_invalid ar hl he (by simpa using hcode)
  exact ⟨l, hl, rfl, _, hc⟩

/-- No two pieces of a read text overlap: within each list by their order, and across the lists
because a lexeme gives one piece at most. -/
theorem lex_pieces_disjoint :
    (lex source ar).pieces.Pairwise (fun a b => a.stop ≤ b.start ∨ b.stop ≤ a.start) := by
  have hsorted {α : Type} (xs : List α) (f : α → Span)
      (h : xs.Pairwise (fun a b => (f a).stop ≤ (f b).start)) :
      (xs.map f).Pairwise (fun a b => a.stop ≤ b.start ∨ b.stop ≤ a.start) :=
    List.pairwise_map.mpr (h.imp Or.inl)
  rw [Lexed.pieces, List.pairwise_append, List.pairwise_append]
  refine ⟨⟨hsorted _ _ (lex_tokens_sorted source ar), hsorted _ _ (lex_comments_sorted source ar),
    fun a ha b hb => ?_⟩, hsorted _ _ (lex_invalidChars_sorted source ar), fun a ha b hb => ?_⟩
  · -- a token and a comment
    obtain ⟨la, hla, rfl, t, ht⟩ := mem_tokens_span source ar ha
    obtain ⟨lb, hlb, rfl, c, hc⟩ := mem_comments_span source ar hb
    refine lexemes_disjoint hla hlb fun heq => ?_
    subst heq
    simp [(cooked_token ar hla ht).2.2.1] at hc
  · -- a token or a comment, and an invalid character
    obtain ⟨lb, hlb, rfl, e, he⟩ := mem_invalidChars_span source ar hb
    rcases List.mem_append.mp ha with ha | ha
    · obtain ⟨la, hla, rfl, t, ht⟩ := mem_tokens_span source ar ha
      refine lexemes_disjoint hla hlb fun heq => ?_
      subst heq
      simp [he] at ht
    · obtain ⟨la, hla, rfl, c, hc⟩ := mem_comments_span source ar ha
      refine lexemes_disjoint hla hlb fun heq => ?_
      subst heq
      simp [he] at hc

/-- Every byte of a read text lies in a piece or in a blank character. -/
theorem lex_cover :
    ∀ i < source.utf8ByteSize, (∃ sp ∈ (lex source ar).pieces, sp.start ≤ i ∧ i < sp.stop) ∨
      ∃ pre c post, source.toList = pre ++ c :: post ∧ byteLength pre ≤ i ∧
        i < byteLength pre + c.utf8Size ∧ Scan.isBlank c := by
  intro i hi
  rw [← byteLength_toList] at hi
  obtain ⟨l, hl, h₁, h₂⟩ := lexemes_cover source.toList 0 i (Nat.zero_le i) (by omega)
  by_cases hk : l.kind = .blank
  · -- the byte lies in one of the lexeme's characters, all of them blank
    right
    obtain ⟨-, pre, post, hsrc, hspan⟩ := mem_lexemes hl
    rw [hspan] at h₁ h₂
    simp only [Nat.zero_add] at h₁ h₂
    have hat : i - byteLength pre < byteLength l.text := by omega
    obtain ⟨a, c, b, htext, ha₁, ha₂⟩ := exists_char_at hat
    refine ⟨pre ++ a, c, b ++ post, ?_, ?_, ?_, (lexemes_kinds hl).1 hk c (by simp [htext])⟩
    · rw [hsrc, htext]
      simp
    · simp only [byteLength_append]
      omega
    · simp only [byteLength_append]
      omega
  · exact .inl ⟨l.span, (mem_pieces source ar).mpr ⟨l, hl, hk, rfl⟩, h₁, h₂⟩

/-- Each invalid character is reported once, over its own bytes. -/
theorem lex_invalidChars_spec :
    ∀ e ∈ (lex source ar).invalidChars, ∃ pre c post, source.toList = pre ++ c :: post ∧
      e = ⟨.invalidCharacter c, ⟨byteLength pre, byteLength pre + c.utf8Size⟩⟩ := by
  intro e he
  rw [lex_invalidChars] at he
  obtain ⟨l, hl, he⟩ := List.mem_flatMap.mp he
  obtain ⟨he, hcode⟩ := List.mem_filter.mp he
  obtain ⟨c, htext, rfl, -⟩ := cooked_invalid ar hl he (by simpa using hcode)
  obtain ⟨-, pre, post, hsrc, hspan⟩ := mem_lexemes hl
  rw [htext] at hsrc hspan
  refine ⟨pre, c, post, by simpa using hsrc, ?_⟩
  rw [hspan]
  simp

/-- Every other error lies inside a token or a comment. -/
theorem lex_errors_inside :
    ∀ e ∈ (lex source ar).errors, e.problem.code ≠ .e0005 →
      ∃ sp ∈ (lex source ar).tokens.tokens.toList.dropLast.map (·.span) ++
          (lex source ar).tokens.comments.map (·.span),
        sp.start ≤ e.span.start ∧ e.span.stop ≤ sp.stop := by
  intro e he hcode
  rw [(lex_eq source ar).2.2] at he
  obtain ⟨l, hl, he⟩ := List.mem_flatMap.mp he
  obtain ⟨h₁, h₂, ⟨t, ht⟩ | ⟨c, hc⟩⟩ := cooked_error ar hl he hcode
  · refine ⟨l.span, List.mem_append_left _ ?_, h₁, h₂⟩
    rw [lex_tokens_dropLast]
    exact List.mem_map.mpr ⟨t, List.mem_filterMap.mpr ⟨l, hl, ht⟩, (cooked_token ar hl ht).1⟩
  · refine ⟨l.span, List.mem_append_right _ ?_, h₁, h₂⟩
    rw [(lex_eq source ar).2.1]
    exact List.mem_map.mpr ⟨c, List.mem_filterMap.mpr ⟨l, hl, hc⟩, (cooked_comment ar hl hc).1⟩

end Read

end Lex

/-- Where the tokens of a text lie. The token list ends with the one end-of-file token, at the
end of the text. The other tokens, the comments and the invalid characters are nonempty pieces
of the text, each list in order and no two pieces overlapping; every byte outside them belongs to
a blank character; an invalid character is reported over its own bytes; and every other error
lies inside a token or a comment. -/
theorem lex_spans (source : String) (ar : Bool) :
    (lex source ar).tokens.tokens.toList.getLast? =
      some ⟨.eof, .point source.utf8ByteSize, .none⟩ ∧
    (∀ t ∈ (lex source ar).tokens.tokens.toList.dropLast, t.kind ≠ .eof) ∧
    (∀ sp ∈ (lex source ar).pieces, sp.start < sp.stop ∧ sp.stop ≤ source.utf8ByteSize) ∧
    (lex source ar).tokens.tokens.toList.dropLast.Pairwise
      (fun a b => a.span.stop ≤ b.span.start) ∧
    (lex source ar).tokens.comments.Pairwise (fun a b => a.span.stop ≤ b.span.start) ∧
    (lex source ar).invalidChars.Pairwise (fun a b => a.span.stop ≤ b.span.start) ∧
    (lex source ar).pieces.Pairwise (fun a b => a.stop ≤ b.start ∨ b.stop ≤ a.start) ∧
    (∀ i < source.utf8ByteSize,
      (∃ sp ∈ (lex source ar).pieces, sp.start ≤ i ∧ i < sp.stop) ∨
      ∃ pre c post, source.toList = pre ++ c :: post ∧ Lex.byteLength pre ≤ i ∧
        i < Lex.byteLength pre + c.utf8Size ∧ Scan.isBlank c) ∧
    (∀ e ∈ (lex source ar).invalidChars, ∃ pre c post, source.toList = pre ++ c :: post ∧
      e = ⟨.invalidCharacter c, ⟨Lex.byteLength pre, Lex.byteLength pre + c.utf8Size⟩⟩) ∧
    (∀ e ∈ (lex source ar).errors, e.problem.code ≠ .e0005 →
      ∃ sp ∈ (lex source ar).tokens.tokens.toList.dropLast.map (·.span) ++
          (lex source ar).tokens.comments.map (·.span),
        sp.start ≤ e.span.start ∧ e.span.stop ≤ sp.stop) :=
  ⟨Lex.lex_last_eof source ar, Lex.lex_tokens_ne_eof source ar, Lex.lex_pieces_within source ar,
    Lex.lex_tokens_sorted source ar, Lex.lex_comments_sorted source ar,
    Lex.lex_invalidChars_sorted source ar, Lex.lex_pieces_disjoint source ar,
    Lex.lex_cover source ar, Lex.lex_invalidChars_spec source ar, Lex.lex_errors_inside source ar⟩

end SolarFront
