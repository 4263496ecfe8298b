import SolarFront.Proofs.Check.Growth
import SolarFront.Proofs.Syntax.LexSpans
import SolarFront.Proofs.Syntax.IntLiterals

/-!
# Reading the text of a type

The text of a type (`TypePool.format`) is written to be read back by the lexer. This module
reads it: the text of a `Spelled` type cuts into lexemes of its own, which cook into the tokens
`TypePool.tokensOf` lists, with no comment and no error (`TypePool.reads_format`).

The scanner takes the longest match at each point, so whether a piece of text is cut as one
lexeme depends on what follows it. A piece whose first character starts no blank, comment or
quoted literal is cut the same whatever follows, unless what follows continues a name or a
longer fixed spelling (`Scan.lexeme_append`). The pieces of a type's text are its keywords, its
punctuation, the digits of array lengths and single blanks; each is followed in the text only
by characters that cannot continue it.
-/

set_option autoImplicit false
set_option linter.all false

namespace SolarFront

namespace Scan

/-- A first character that opens no blank run, comment or quoted literal. -/
def plainStart (a : Char) : Bool :=
  !isBlank a && a != '/' && a != '"' && a != '\'' && a != 'w' && a != 'W'

/-- The characters that continue `atom` into a longer fixed spelling of the table. -/
def nextChars (atom : List Char) : List Char :=
  (TokenKind.keywords ++ TokenKind.punctuation).filterMap fun p =>
    if atom.isPrefixOf p.1.toList then p.1.toList[atom.length]? else none

theorem runLength_append (p : Char → Bool) {l₁ l₂ : List Char}
    (h : (∃ x ∈ l₁, p x = false) ∨ ∀ c ∈ l₂.head?, p c = false) :
    runLength p (l₁ ++ l₂) = runLength p l₁ := by
  induction l₁ with
  | nil =>
    rcases h with ⟨x, hx, -⟩ | h
    · simp at hx
    · cases l₂ with
      | nil => rfl
      | cons c l₂ => simp [runLength, h c rfl]
  | cons x xs ih =>
    by_cases hx : p x = true
    · have h' : (∃ y ∈ xs, p y = false) ∨ ∀ c ∈ l₂.head?, p c = false := by
        rcases h with ⟨y, hy, hpy⟩ | h
        · rcases List.mem_cons.1 hy with rfl | hy
          · simp [hx] at hpy
          · exact .inl ⟨y, hy, hpy⟩
        · exact .inr h
      simpa [runLength, List.takeWhile_cons, hx] using ih h'
    · simp [runLength, hx]

theorem isNameChar_of_isDigit {c : Char} (h : c.isDigit = true) : isNameChar c = true := by
  simp [isNameChar, Char.isAlphanum, h]

theorem quoted_eq_none {q a : Char} (r : List Char) (hq : a ≠ q) (hw : a ≠ 'w' ∧ a ≠ 'W') :
    quoted q (a :: r) = none := by
  unfold quoted
  cases r with
  | nil => simp [hq]
  | cons b r => simp [hw.1, hw.2, hq]

/-- A spelling of the table is a prefix of `atom ++ rest` exactly when it is one of `atom`,
when nothing in front of `rest` continues `atom` into a longer spelling. -/
theorem isPrefixOf_append {atom rest text : List Char}
    (hnext : ∀ c ∈ rest.head?, c ∉ (if atom.isPrefixOf text then text[atom.length]? else none)) :
    text.isPrefixOf (atom ++ rest) = text.isPrefixOf atom := by
  rw [Bool.eq_iff_iff, List.isPrefixOf_iff_prefix, List.isPrefixOf_iff_prefix]
  refine ⟨fun h => ?_, fun h => h.trans (List.prefix_append atom rest)⟩
  rcases List.prefix_or_prefix_of_prefix h (List.prefix_append atom rest) with h' | h'
  · exact h'
  -- `atom` is a prefix of `text`: a longer `text` would be continued by the head of `rest`
  obtain ⟨more, rfl⟩ := h'
  cases more with
  | nil => simp
  | cons m more =>
    obtain ⟨tail, htail⟩ := h
    rw [List.append_assoc, List.cons_append] at htail
    have hrest : rest.head? = some m := by
      have := congrArg (List.drop atom.length) htail
      simp only [List.drop_left] at this
      rw [← this]
      rfl
    have hm := hnext m (by simp [hrest])
    simp [List.isPrefixOf_iff_prefix] at hm

theorem longestFixed_append {atom rest : List Char}
    (hnext : ∀ c ∈ rest.head?, c ∉ nextChars atom) :
    longestFixed (atom ++ rest) = longestFixed atom := by
  unfold longestFixed
  refine List.foldl_ext _ _ _ fun best p hp => ?_
  have hpre : p.1.toList.isPrefixOf (atom ++ rest) = p.1.toList.isPrefixOf atom := by
    refine isPrefixOf_append fun c hc hmem => hnext c hc ?_
    exact List.mem_filterMap.2 ⟨p, hp, hmem⟩
  simp only [hpre]

/-- The cut at the front of `atom ++ rest` is the cut of `atom` alone, when `atom` starts no
blank, comment or literal, `rest` does not continue it into a longer fixed spelling, and a name
or number run over `atom` stops before `rest` does. -/
theorem lexeme_append {atom rest : List Char} (ha : ∀ a ∈ atom.head?, plainStart a = true)
    (hne : atom ≠ [])
    (hnext : ∀ c ∈ rest.head?, c ∉ nextChars atom)
    (hrun : (∃ x ∈ atom, isNameChar x = false) ∨ ∀ c ∈ rest.head?, isNameChar c = false) :
    lexeme (atom ++ rest) = lexeme atom := by
  obtain ⟨a, as, rfl⟩ := List.exists_cons_of_ne_nil hne
  have hplain := ha a rfl
  simp only [plainStart, Bool.and_eq_true, Bool.not_eq_true', bne_iff_ne, ne_eq] at hplain
  obtain ⟨⟨⟨⟨⟨hblank, hslash⟩, hdq⟩, hsq⟩, hw⟩, hW⟩ := hplain
  have hfixed := longestFixed_append hnext
  have hname := runLength_append isNameChar hrun
  -- a number run starts after its first digit, which is a name character
  have hnumber : a.isDigit = true →
      runLength isNameChar (as ++ rest) = runLength isNameChar as := by
    intro hdigit
    rcases hrun with ⟨x, hx, hxn⟩ | hrest
    · refine runLength_append isNameChar (.inl ⟨x, ?_, hxn⟩)
      rcases List.mem_cons.1 hx with rfl | hx
      · simp [isNameChar_of_isDigit hdigit] at hxn
      · exact hx
    · exact runLength_append isNameChar (.inr hrest)
  rw [List.cons_append] at hfixed hname ⊢
  simp only [lexeme, hblank, hslash, decide_false, Bool.false_and, Bool.false_eq_true, if_false,
    hfixed, hname, quoted_eq_none _ hdq ⟨hw, hW⟩, quoted_eq_none _ hsq ⟨hw, hW⟩]
  by_cases hdigit : a.isDigit = true
  · simp only [hdigit, if_true, hnumber hdigit]
  · simp only [hdigit, Bool.false_eq_true, if_false]

/-- Every fixed spelling starts with a character that is not a digit. -/
theorem fixed_head_not_digit :
    (TokenKind.keywords ++ TokenKind.punctuation).all
      (fun p => p.1.toList.head?.any fun c => !c.isDigit) = true := by
  decide

theorem longestFixed_digit {d : Char} (hd : d.isDigit = true) (r : List Char) :
    longestFixed (d :: r) = none := by
  unfold longestFixed
  have hall := List.all_eq_true.1 fixed_head_not_digit
  -- no spelling of the table is a prefix, so every step keeps `none`
  rw [List.foldl_ext _ (fun best _ => best) _ fun best p hp => ?_]
  · simp
  have hp := hall p hp
  cases htext : p.1.toList with
  | nil => simp [htext] at hp
  | cons e es =>
    have hne : e ≠ d := by
      rintro rfl
      simp [htext, hd] at hp
    simp [htext, hne]

/-- A digit opens no blank, comment, literal or name. -/
theorem digit_plain {d : Char} (hd : d.isDigit = true) :
    isBlank d = false ∧ isNameStart d = false ∧ d ≠ '/' ∧ d ≠ '"' ∧ d ≠ '\'' ∧ d ≠ 'w' ∧
      d ≠ 'W' := by
  have hv : 48 ≤ d.val.toNat ∧ d.val.toNat ≤ 57 := by
    simp [Char.isDigit, UInt32.le_iff_toNat_le] at hd
    exact ⟨hd.1, hd.2⟩
  have hcode : d.toNat = d.val.toNat := rfl
  simp [isBlank, isNameStart, Char.isAlpha, Char.isUpper, Char.isLower, Char.ext_iff,
    UInt32.le_iff_toNat_le, ← UInt32.toNat_inj]
  omega

/-- A run of digits in front of a character that continues no name is cut as one number. -/
theorem lexeme_digits {ds rest : List Char} (hne : ds ≠ []) (hds : ∀ d ∈ ds, d.isDigit = true)
    (hrest : ∀ c ∈ rest.head?, isNameChar c = false) :
    lexeme (ds ++ rest) = (.number, ds.length) := by
  obtain ⟨d, ds, rfl⟩ := List.exists_cons_of_ne_nil hne
  have hd := hds d List.mem_cons_self
  have hdigits : ∀ x ∈ ds, isNameChar x = true := fun x hx =>
    isNameChar_of_isDigit (hds x (List.mem_cons_of_mem d hx))
  have hrun : runLength isNameChar (ds ++ rest) = ds.length := by
    rw [runLength, List.takeWhile_append_of_pos hdigits]
    cases rest with
    | nil => simp
    | cons c rest => simp [hrest c rfl]
  obtain ⟨hblank, hstart, hslash, hdq, hsq, hw, hW⟩ := digit_plain hd
  simp only [List.cons_append, lexeme, hblank, hslash, decide_false, Bool.false_and,
    Bool.false_eq_true, if_false, longestFixed_digit hd, hstart, hd, if_true, hrun,
    quoted_eq_none _ hdq ⟨hw, hW⟩, quoted_eq_none _ hsq ⟨hw, hW⟩, Option.map_none]
  simp [Nat.add_comm]

end Scan

/-- A token without its place in the text: its kind and its value. -/
def Token.form (t : Token) : TokenKind × TokenValue := (t.kind, t.value)

namespace Lex

/-- `cs`, followed by nothing or by a text whose first character satisfies `follow`, is cut into
lexemes of its own, which cook into tokens of the forms `ks`, with no comment and no error. -/
def Reads (cs : List Char) (follow : Char → Prop) (ks : List (TokenKind × TokenValue)) : Prop :=
  ∀ rest pos, (∀ c ∈ rest.head?, follow c) → ∃ L : List Lexeme,
    lexemes (cs ++ rest) pos = L ++ lexemes rest (pos + byteLength cs) ∧
    ∀ ar, (L.filterMap fun l => (l.cooked ar).1).map Token.form = ks ∧
      (L.filterMap fun l => (l.cooked ar).2.1) = [] ∧ (L.flatMap fun l => (l.cooked ar).2.2) = []

variable {cs ds : List Char} {follow follow' : Char → Prop} {ks ks' : List (TokenKind × TokenValue)}

/-- Two pieces read one after the other, when the second is one the first may be followed by. -/
theorem Reads.append (h₁ : Reads cs follow ks) (h₂ : Reads ds follow' ks') (hne : ds ≠ [])
    (hds : ∀ c ∈ ds.head?, follow c) : Reads (cs ++ ds) follow' (ks ++ ks') := by
  intro rest pos hrest
  obtain ⟨L₂, hL₂, hcook₂⟩ := h₂ rest (pos + byteLength cs) hrest
  have hhead : ∀ c ∈ (ds ++ rest).head?, follow c := by
    obtain ⟨d, ds', rfl⟩ := List.exists_cons_of_ne_nil hne
    exact hds
  obtain ⟨L₁, hL₁, hcook₁⟩ := h₁ (ds ++ rest) pos hhead
  refine ⟨L₁ ++ L₂, ?_, fun ar => ?_⟩
  · rw [List.append_assoc, hL₁, hL₂, byteLength_append, Nat.add_assoc, List.append_assoc]
  · obtain ⟨htok₁, hcom₁, herr₁⟩ := hcook₁ ar
    obtain ⟨htok₂, hcom₂, herr₂⟩ := hcook₂ ar
    simp only [List.filterMap_append, List.map_append, List.flatMap_append, htok₁, htok₂, hcom₁,
      hcom₂, herr₁, herr₂, List.append_nil, and_self]

theorem Reads.mono (h : Reads cs follow ks) (hsub : ∀ c, follow' c → follow c) :
    Reads cs follow' ks :=
  fun rest pos hrest => h rest pos fun c hc => hsub c (hrest c hc)

/-- One lexeme of `cs`, whatever follows. -/
theorem reads_one {kind : LexemeKind}
    (hlex : ∀ rest, (∀ c ∈ rest.head?, follow c) → Scan.lexeme (cs ++ rest) = (kind, cs.length))
    (hne : cs ≠ [])
    (hcook : ∀ ar span, (cook ar kind cs span).2 = (none, []) ∧
      (cook ar kind cs span).1.toList.map Token.form = ks) : Reads cs follow ks := by
  intro rest pos hrest
  obtain ⟨c, cs', rfl⟩ := List.exists_cons_of_ne_nil hne
  have hlen : max (c :: cs').length 1 = (c :: cs').length := by simp
  refine ⟨[⟨kind, c :: cs', ⟨pos, pos + byteLength (c :: cs')⟩⟩], ?_, fun ar => ?_⟩
  · have hcut : Scan.lexeme (c :: (cs' ++ rest)) = (kind, (c :: cs').length) := hlex rest hrest
    rw [List.cons_append, lexemes_cons hcut, hlen, ← List.cons_append, List.take_left,
      List.drop_left]
    rfl
  · obtain ⟨hrest₂, hform⟩ := hcook ar ⟨pos, pos + byteLength (c :: cs')⟩
    rcases hc : cook ar kind (c :: cs') ⟨pos, pos + byteLength (c :: cs')⟩ with ⟨tok, com, errs⟩
    rw [hc] at hrest₂ hform
    cases hrest₂
    simp only [List.filterMap_cons, List.filterMap_nil, List.flatMap_cons, List.flatMap_nil,
      Lexeme.cooked, hc, List.append_nil]
    cases tok <;> simp_all

/-- A fixed spelling, followed only by characters that continue neither it nor a name run over
it. -/
theorem reads_fixed {k : TokenKind} (hlex : Scan.lexeme cs = (.fixed k, cs.length))
    (hplain : ∀ a ∈ cs.head?, Scan.plainStart a = true)
    (hnext : ∀ c, follow c → c ∉ Scan.nextChars cs)
    (hrun : (∃ x ∈ cs, Scan.isNameChar x = false) ∨ ∀ c, follow c → Scan.isNameChar c = false) :
    Reads cs follow [(k, .none)] := by
  have hne : cs ≠ [] := by
    rintro rfl
    simp [Scan.lexeme] at hlex
  refine @reads_one cs follow _ (.fixed k) (fun rest hrest => ?_) hne fun ar span => ⟨rfl, rfl⟩
  rw [← hlex]
  refine Scan.lexeme_append hplain hne (fun c hc => hnext c (hrest c hc)) ?_
  exact hrun.imp id fun h c hc => h c (hrest c hc)

/-- A single blank, followed by no blank. -/
theorem reads_blank (hfollow : ∀ c, follow c → Scan.isBlank c = false) :
    Reads [' '] follow [] := by
  refine @reads_one [' '] follow _ .blank (fun rest hrest => ?_) (by simp) fun ar span => ⟨rfl, rfl⟩
  have hblank : Scan.isBlank ' ' = true := by decide
  have hrun : Scan.runLength Scan.isBlank (' ' :: rest) = 1 := by
    cases rest with
    | nil => rfl
    | cons c rest => simp [Scan.runLength, hblank, hfollow c (hrest c rfl)]
  simp only [List.cons_append, List.nil_append, Scan.lexeme, hblank, if_true, hrun]
  rfl

/-- The digits of an array length below 65536, followed by `]`. -/
theorem reads_digits {n : Nat} (hn : n < 65536) :
    Reads (Nat.toDigits 10 n) (· = ']') [(.int, .int n .w16)] := by
  have hcook : IntLiteral.cook (Nat.toDigits 10 n) = .ok (n, .w16) := by
    have := @IntLiteral.cook_toDigits n .w16 (by simp [LitWidth.bits]; omega) ([], 10) (by simp)
      [] (by simp [IntLiteral.widthSuffixes])
    simpa using this
  refine @reads_one _ (· = ']') _ .number (fun rest hrest => ?_) Nat.toDigits_ne_nil
    fun ar span => ?_
  · refine Scan.lexeme_digits Nat.toDigits_ne_nil
      (fun d hd => Nat.isDigit_of_mem_toDigits (by decide) (by decide) hd) fun c hc => ?_
    rw [hrest c hc]
    rfl
  · simp [cook, hcook, Token.form]

/-! ## The pieces of the text of a type -/

/-- The characters the text of a type may start with. -/
def TypeStart (c : Char) : Prop := c = 'v' ∨ c = 'i' ∨ c = '*' ∨ c = '[' ∨ c = 'f'

/-- The characters that follow the text of a parameter type: a comma or the closing
parenthesis. -/
def AfterType (c : Char) : Prop := c = ',' ∨ c = ')'

theorem not_nameChar_of_afterType {c : Char} (h : AfterType c) : Scan.isNameChar c = false := by
  rcases h with rfl | rfl <;> decide

/-- A mark that no longer spelling extends and that ends every name run is read alone, whatever
follows. -/
theorem reads_mark {k : TokenKind} {c : Char}
    (hlex : Scan.lexeme (c :: cs) = (.fixed k, (c :: cs).length))
    (hplain : Scan.plainStart c = true) (hnext : Scan.nextChars (c :: cs) = [])
    (hrun : Scan.isNameChar c = false) : Reads (c :: cs) follow [(k, .none)] :=
  reads_fixed hlex (fun _ ha => by cases ha; exact hplain) (fun _ _ => by simp [hnext])
    (.inl ⟨c, List.mem_cons_self, hrun⟩)

theorem reads_lParen : Reads ['('] follow [(.lParen, .none)] :=
  reads_mark (by decide) (by decide) (by decide) (by decide)

theorem reads_rParen : Reads [')'] follow [(.rParen, .none)] :=
  reads_mark (by decide) (by decide) (by decide) (by decide)

theorem reads_lBracket : Reads ['['] follow [(.lBracket, .none)] :=
  reads_mark (by decide) (by decide) (by decide) (by decide)

theorem reads_rBracket : Reads [']'] follow [(.rBracket, .none)] :=
  reads_mark (by decide) (by decide) (by decide) (by decide)

theorem reads_comma : Reads [','] follow [(.comma, .none)] :=
  reads_mark (by decide) (by decide) (by decide) (by decide)

theorem reads_arrow : Reads ['-', '>'] follow [(.arrow, .none)] :=
  reads_mark (by decide) (by decide) (by decide) (by decide)

theorem reads_ellipsis : Reads ['.', '.', '.'] follow [(.ellipsis, .none)] :=
  reads_mark (by decide) (by decide) (by decide) (by decide)

/-- A star, before a type; `*=` would be one token. -/
theorem reads_star : Reads ['*'] TypeStart [(.star, .none)] := by
  refine reads_fixed (by decide) (fun _ ha => by cases ha; decide) (fun c hc => ?_)
    (.inl ⟨'*', List.mem_cons_self, by decide⟩)
  rw [show Scan.nextChars ['*'] = ['='] by decide]
  rcases hc with rfl | rfl | rfl | rfl | rfl <;> decide

theorem reads_fun : Reads ['f', 'u', 'n'] (· = '(') [(.kwFun, .none)] := by
  have hnext : Scan.nextChars ['f', 'u', 'n'] = [] := by decide
  exact reads_fixed (by decide) (fun _ ha => by cases ha; decide) (fun _ _ => by simp [hnext])
    (.inr fun c hc => by rw [hc]; decide)

/-- A keyword that ends the text of a type. -/
theorem reads_endWord {k : TokenKind} {c : Char}
    (hlex : Scan.lexeme (c :: cs) = (.fixed k, (c :: cs).length))
    (hplain : Scan.plainStart c = true) (hnext : Scan.nextChars (c :: cs) = []) :
    Reads (c :: cs) AfterType [(k, .none)] :=
  reads_fixed hlex (fun _ ha => by cases ha; exact hplain) (fun _ _ => by simp [hnext])
    (.inr fun _ hc => not_nameChar_of_afterType hc)

theorem reads_void : Reads ['v', 'o', 'i', 'd'] AfterType [(.kwVoid, .none)] :=
  reads_endWord (by decide) (by decide) (by decide)

theorem reads_int16 : Reads ['i', 'n', 't', '1', '6'] AfterType [(.kwInt16, .none)] :=
  reads_endWord (by decide) (by decide) (by decide)

theorem reads_int32 : Reads ['i', 'n', 't', '3', '2'] AfterType [(.kwInt32, .none)] :=
  reads_endWord (by decide) (by decide) (by decide)

/-- A text that starts the text of a parameter: a type or the variadic marker. -/
def ParamStart (c : Char) : Prop := TypeStart c ∨ c = '.'

theorem reads_separator : Reads [',', ' '] ParamStart [(.comma, .none)] :=
  (reads_comma : Reads [','] (· = ' ') _).append (reads_blank fun c hc => by rcases hc with (rfl | rfl | rfl | rfl | rfl) | rfl
    <;> decide) (by simp) (by simp)

/-- Parameter texts joined by `", "`, each reading as its tokens and starting a parameter, read
as their tokens joined by commas. -/
theorem reads_params {items : List (List Char × List (TokenKind × TokenValue))}
    (hitems : ∀ x ∈ items, Reads x.1 AfterType x.2 ∧ ∃ c cs, x.1 = c :: cs ∧ ParamStart c)
    (hne : items ≠ []) :
    Reads ([',', ' '].intercalate (items.map Prod.fst)) AfterType
        ([(.comma, .none)].intercalate (items.map Prod.snd)) ∧
      ∃ c cs, [',', ' '].intercalate (items.map Prod.fst) = c :: cs ∧ ParamStart c := by
  induction items with
  | nil => exact absurd rfl hne
  | cons x xs ih =>
    obtain ⟨hx, c, cs, hxc, hc⟩ := hitems x List.mem_cons_self
    cases xs with
    | nil => exact ⟨by simpa using hx, c, cs, by simpa using hxc, hc⟩
    | cons y ys =>
      obtain ⟨hrest, d, ds, hd, hdstart⟩ :=
        ih (fun z hz => hitems z (List.mem_cons_of_mem x hz)) (List.cons_ne_nil y ys)
      simp only [List.map_cons] at hrest hd ⊢
      rw [List.intercalate_cons_cons, List.intercalate_cons_cons]
      -- the first parameter, then the separator, then the others
      have hfirst := (hx.append reads_separator (by simp) (by simp [AfterType])).append hrest
        (by simp [hd]) (by simp [hd, hdstart])
      exact ⟨hfirst, c, cs ++ [',', ' '] ++ d :: ds, by simp [hxc, hd], hc⟩

/-- A parenthesized parameter list. -/
theorem reads_paramList {items : List (List Char × List (TokenKind × TokenValue))}
    (hitems : ∀ x ∈ items, Reads x.1 AfterType x.2 ∧ ∃ c cs, x.1 = c :: cs ∧ ParamStart c) :
    Reads (['('] ++ [',', ' '].intercalate (items.map Prod.fst) ++ [')']) (· = ' ')
      ([(.lParen, .none)] ++ [(.comma, .none)].intercalate (items.map Prod.snd) ++
        [(.rParen, .none)]) := by
  by_cases hne : items = []
  · subst hne
    simpa using (reads_lParen : Reads ['('] (· = ')') _).append reads_rParen (by simp) (by simp)
  · obtain ⟨hlist, c, cs, hcs, hc⟩ := reads_params hitems hne
    exact ((reads_lParen : Reads ['('] ParamStart _).append hlist (by simp [hcs])
      (by simp [hcs, hc])).append reads_rParen
      (by simp) (by simp [AfterType])

end Lex


namespace TypePool

/-- A type whose text reads back as itself, with at most `d` levels of types nested in it:
`void`, 16- and 32-bit integers, pointers, arrays of a length below 65536 whose element is not
`void`, and function types, each made of such types. -/
inductive Spelled (p : TypePool) : Nat → TypeId → Prop
  | void {d : Nat} {t : TypeId} (h : p.get t = .void) : Spelled p (d + 1) t
  | int {d : Nat} {t : TypeId} {w : Width} (h : p.get t = .int w) (hw : w ≠ .w8) :
      Spelled p (d + 1) t
  | pointer {d : Nat} {t e : TypeId} (h : p.get t = .array e none) (he : Spelled p d e) :
      Spelled p (d + 1) t
  | array {d : Nat} {t e : TypeId} {len : Nat} (h : p.get t = .array e (some len))
      (hlen : len < 65536) (hvoid : p.get e ≠ .void) (he : Spelled p d e) : Spelled p (d + 1) t
  | func {d : Nat} {t ret : TypeId} {params : List TypeId} {variadic : Bool}
      (h : p.get t = .func ret params variadic) (hret : Spelled p d ret)
      (hparams : ∀ q ∈ params, Spelled p d q) : Spelled p (d + 1) t

/-- The tokens of the text of a type made as `Spelled` says; other components have none. -/
def tokensOf (p : TypePool) (t : TypeId) : List (TokenKind × TokenValue) :=
  match p.get t with
  | .void => [(.kwVoid, .none)]
  | .int .w16 => [(.kwInt16, .none)]
  | .int .w32 => [(.kwInt32, .none)]
  | .array e none => (.star, .none) :: (if e.idx < t.idx then p.tokensOf e else [])
  | .array e (some len) => [(.lBracket, .none), (.int, .int len .w16), (.rBracket, .none)] ++
      (if e.idx < t.idx then p.tokensOf e else [])
  | .func ret params variadic =>
    let shown := params.attach.map fun ⟨q, _⟩ => if q.idx < t.idx then p.tokensOf q else []
    let shown := if variadic then shown ++ [[(.ellipsis, .none)]] else shown
    [(.kwFun, .none), (.lParen, .none)] ++ [(.comma, .none)].intercalate shown ++
      [(.rParen, .none), (.arrow, .none)] ++ (if ret.idx < t.idx then p.tokensOf ret else [])
  | _ => []
termination_by t.idx

variable {p : TypePool} {t e ret : TypeId} {params : List TypeId} {variadic : Bool} {len : Nat}

/-- With every parameter before the function type, the parameters are shown as themselves. -/
theorem map_attach_of_lt {α : Type} (f : TypeId → α) (g : α) (h : ∀ q ∈ params, q.idx < t.idx) :
    (params.attach.map fun ⟨q, _⟩ => if q.idx < t.idx then f q else g) = params.map f := by
  conv => rhs; rw [← List.attach_map_subtype_val params, List.map_map]
  refine List.map_congr_left fun q _ => ?_
  obtain ⟨q, hq⟩ := q
  simp [h q hq]

theorem format_void (h : p.get t = .void) : p.format t = "void" := by
  rw [format, h]

theorem format_int {w : Width} (h : p.get t = .int w) : p.format t = widthName w := by
  rw [format, h]

theorem tokensOf_void (h : p.get t = .void) : p.tokensOf t = [(.kwVoid, .none)] := by
  rw [tokensOf, h]

theorem tokensOf_int16 (h : p.get t = .int .w16) : p.tokensOf t = [(.kwInt16, .none)] := by
  rw [tokensOf, h]

theorem tokensOf_int32 (h : p.get t = .int .w32) : p.tokensOf t = [(.kwInt32, .none)] := by
  rw [tokensOf, h]

/-! The text and the tokens of a type with components, whose components come before it in a
well-formed pool and are shown as themselves. -/

section Unfold

variable (wf : p.WellFormed)
include wf

theorem lt_of_get_array {n : Option Nat} (h : p.get t = .array e n) : e.idx < t.idx :=
  wf.parts_lt t e (by simp [h, TypeData.parts])

theorem lt_of_get_func (h : p.get t = .func ret params variadic) :
    ret.idx < t.idx ∧ ∀ q ∈ params, q.idx < t.idx :=
  ⟨wf.parts_lt t ret (by simp [h, TypeData.parts]),
    fun q hq => wf.parts_lt t q (by simp [h, TypeData.parts, hq])⟩

theorem toList_format_pointer (h : p.get t = .array e none) :
    (p.format t).toList = ['*'] ++ (p.format e).toList := by
  rw [format, h]
  simp [lt_of_get_array wf h]

theorem toList_format_array (h : p.get t = .array e (some len)) :
    (p.format t).toList = ['['] ++ Nat.toDigits 10 len ++ [']'] ++ (p.format e).toList := by
  rw [format, h]
  simp [lt_of_get_array wf h, toString, Nat.repr]

theorem toList_format_func (h : p.get t = .func ret params variadic) :
    (p.format t).toList = ['f', 'u', 'n'] ++ (['('] ++ [',', ' '].intercalate
      (params.map (String.toList ∘ p.format) ++ if variadic then [['.', '.', '.']] else []) ++
      [')']) ++ [' '] ++ ['-', '>'] ++ [' '] ++ (p.format ret).toList := by
  obtain ⟨hret, hparams⟩ := lt_of_get_func wf h
  rw [format, h]
  simp only [map_attach_of_lt p.format "<error>" hparams, hret, if_true]
  cases variadic <;> simp

theorem tokensOf_pointer (h : p.get t = .array e none) :
    p.tokensOf t = [(.star, .none)] ++ p.tokensOf e := by
  rw [tokensOf, h]
  simp [lt_of_get_array wf h]

theorem tokensOf_array (h : p.get t = .array e (some len)) :
    p.tokensOf t = [(.lBracket, .none)] ++ [(.int, .int len .w16)] ++ [(.rBracket, .none)] ++
      p.tokensOf e := by
  rw [tokensOf, h]
  simp [lt_of_get_array wf h]

theorem tokensOf_func (h : p.get t = .func ret params variadic) :
    p.tokensOf t = [(.kwFun, .none)] ++ ([(.lParen, .none)] ++ [(.comma, .none)].intercalate
      (params.map p.tokensOf ++ if variadic then [[(.ellipsis, .none)]] else []) ++
      [(.rParen, .none)]) ++ [(.arrow, .none)] ++ p.tokensOf ret := by
  obtain ⟨hret, hparams⟩ := lt_of_get_func wf h
  rw [tokensOf, h]
  simp only [map_attach_of_lt p.tokensOf [] hparams, hret, if_true]
  cases variadic <;> simp

end Unfold

/-- **The text of a type reads as its tokens.** The text of a `Spelled` type, standing alone or
before a comma or a closing parenthesis, is cut into lexemes of its own that cook into
`tokensOf` with no comment and no error; and it starts as the text of a type does. -/
theorem reads_format (wf : p.WellFormed) {d : Nat} (h : p.Spelled d t) :
    Lex.Reads (p.format t).toList Lex.AfterType (p.tokensOf t) ∧
      ∃ c cs, (p.format t).toList = c :: cs ∧ Lex.TypeStart c := by
  induction h with
  | void h =>
    rw [format_void h, tokensOf_void h]
    exact ⟨Lex.reads_void, 'v', _, rfl, .inl rfl⟩
  | @int d t w h hw =>
    cases w with
    | w8 => exact absurd rfl hw
    | w16 =>
      rw [format_int h, tokensOf_int16 h]
      exact ⟨Lex.reads_int16, 'i', _, rfl, .inr (.inl rfl)⟩
    | w32 =>
      rw [format_int h, tokensOf_int32 h]
      exact ⟨Lex.reads_int32, 'i', _, rfl, .inr (.inl rfl)⟩
  | pointer h _ ih =>
    obtain ⟨he, c, cs, hcs, hc⟩ := ih
    rw [toList_format_pointer wf h, tokensOf_pointer wf h]
    exact ⟨Lex.reads_star.append he (by simp [hcs]) (by simp [hcs, hc]), '*', _, rfl,
      by simp [Lex.TypeStart]⟩
  | @array d t e len h hlen _ _ ih =>
    obtain ⟨he, c, cs, hcs, hc⟩ := ih
    rw [toList_format_array wf h, tokensOf_array wf h]
    have hdigit : ∀ c ∈ (Nat.toDigits 10 len).head?, c.isDigit = true := fun c hc =>
      Nat.isDigit_of_mem_toDigits (by decide) (by decide) (List.mem_of_mem_head? hc)
    -- a bracket, the digits of the length, a bracket, then the element
    have hbracket := (Lex.reads_lBracket : Lex.Reads ['['] (·.isDigit = true) _).append
      (Lex.reads_digits hlen) Nat.toDigits_ne_nil hdigit
    exact ⟨((hbracket.append (Lex.reads_rBracket : Lex.Reads [']'] Lex.TypeStart _) (by simp)
      (by simp)).append he (by simp [hcs])
      (by simp [hcs, hc])), '[', _, rfl, by simp [Lex.TypeStart]⟩
  | @func d t ret params variadic h _ _ ihret ihparams =>
    obtain ⟨hr, c, cs, hcs, hc⟩ := ihret
    -- the parameters, and the variadic marker after them
    let items := params.map (fun q => ((p.format q).toList, p.tokensOf q)) ++
      if variadic then [(['.', '.', '.'], [(.ellipsis, .none)])] else []
    have hitems : ∀ x ∈ items, Lex.Reads x.1 Lex.AfterType x.2 ∧
        ∃ c cs, x.1 = c :: cs ∧ Lex.ParamStart c := by
      intro x hx
      rcases List.mem_append.1 hx with hx | hx
      · obtain ⟨q, hq, rfl⟩ := List.mem_map.1 hx
        obtain ⟨hread, c, cs, hcs, hc⟩ := ihparams q hq
        exact ⟨hread, c, cs, hcs, .inl hc⟩
      · cases variadic
        · simp at hx
        · obtain rfl : x = (['.', '.', '.'], [(.ellipsis, .none)]) := by simpa using hx
          exact ⟨Lex.reads_ellipsis, '.', _, rfl, .inr rfl⟩
    have hlist := Lex.reads_paramList hitems
    have hfst : items.map Prod.fst = params.map (String.toList ∘ p.format) ++
        if variadic then [['.', '.', '.']] else [] := by
      cases variadic <;> simp [items]
    have hsnd : items.map Prod.snd = params.map p.tokensOf ++
        if variadic then [[(.ellipsis, .none)]] else [] := by
      cases variadic <;> simp [items]
    rw [hfst, hsnd] at hlist
    rw [toList_format_func wf h, tokensOf_func wf h]
    -- `fun`, the parameter list, the arrow between blanks, then the result type
    have hblank₁ : Lex.Reads [' '] (· = '-') [] := Lex.reads_blank fun c hc => by rw [hc]; decide
    have hblank₂ : Lex.Reads [' '] Lex.TypeStart [] := Lex.reads_blank fun c hc => by
      rcases hc with rfl | rfl | rfl | rfl | rfl <;> decide
    have hread := ((((Lex.reads_fun.append hlist (by simp) (by simp)).append hblank₁ (by simp)
      (by simp)).append (Lex.reads_arrow : Lex.Reads ['-', '>'] (· = ' ') _) (by simp)
      (by simp)).append hblank₂ (by simp)
      (by simp)).append hr (by simp [hcs]) (by simp [hcs, hc])
    exact ⟨by simpa using hread, 'f', _, rfl, by simp [Lex.TypeStart]⟩

/-- The lexer reads the text of a `Spelled` type as its tokens, then the end of file, with no
comment and no error. -/
theorem lex_format (wf : p.WellFormed) {d : Nat} (h : p.Spelled d t) (ar : Bool) :
    (lex (p.format t) ar).tokens.tokens.toList.map Token.form = p.tokensOf t ++ [(.eof, .none)] ∧
      (lex (p.format t) ar).tokens.comments = [] ∧ (lex (p.format t) ar).errors = [] := by
  obtain ⟨hread, -⟩ := reads_format wf h
  obtain ⟨L, hL, hcook⟩ := hread [] 0 (by simp)
  obtain ⟨htoks, hcoms, herrs⟩ := hcook ar
  have hlexemes : Lex.lexemes (p.format t).toList 0 = L := by
    simpa [Lex.lexemes] using hL
  obtain ⟨h₁, h₂, h₃⟩ := Lex.lex_eq (p.format t) ar
  rw [hlexemes] at h₁ h₂ h₃
  refine ⟨?_, h₂.trans hcoms, h₃.trans herrs⟩
  rw [h₁, List.map_append, htoks]
  rfl

end TypePool

end SolarFront
