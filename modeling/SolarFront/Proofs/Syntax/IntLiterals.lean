import Mathlib
import SolarFront.Syntax.Token.Lex

/-!
# Integer literals

The lexer hands the number cooker every run of letters, digits and underscores that starts with
a digit. `IntLiteral.Spells s v w` states when such a text is a literal of value `v` and width
`w`: it is the first base prefix it starts with (`0x 0X 0o 0O 0b 0B`, tried in that order; none
for base ten), then a non-empty run of digits of that base, then a width suffix (none for 16
bits, `l` or `L` for 32, `p` or `P` for a pointer); and the digits' value is at most
`2 ^ bits - 1`. A digit is core's digit character (`Nat.digitChar`) or its upper-case form.

The main statement, `IntLiteral.cook_spells`, says that the cooker accepts exactly the texts
that spell a value, with that value and width; that it refuses every other text with an `E0001`
problem, for which the lexer still gives an integer token of value zero and 16 bits; and that
every value that fits a width, written by `Nat.toDigits` in any base behind any prefix of the
base and any suffix of the width, reads back as itself.

The digits are read into a 64-bit accumulator that fails as soon as it passes 64 bits. That
needs no condition of its own: the value only grows as digits are read, so it passes 64 bits
only when the whole value does, and then it does not fit any width either.
-/

set_option autoImplicit false
set_option linter.all false

namespace SolarFront

namespace IntLiteral

/-! ## What a literal spells -/

/-- `c` is a digit of value `d` in base `base`: core's digit character for `d` or its
upper-case form. -/
def IsDigit (base : Nat) (c : Char) (d : Nat) : Prop :=
  d < base ∧ (c = d.digitChar ∨ c = d.digitChar.toUpper)

/-- The number that digit values spell in a base, the most significant first. -/
def valueOf (base : Nat) (ds : List Nat) : Nat := ds.foldl (fun v d => v * base + d) 0

/-- The base prefixes in the order a literal is tried against them. -/
def basePrefixes : List (List Char × Nat) :=
  [(['0', 'x'], 16), (['0', 'X'], 16), (['0', 'o'], 8), (['0', 'O'], 8), (['0', 'b'], 2),
    (['0', 'B'], 2)]

/-- The first base prefix a text starts with, and its base; no prefix and base ten if there is
none. -/
def leadingBase (s : List Char) : List Char × Nat :=
  (basePrefixes.find? fun pb => pb.1.isPrefixOf s).getD ([], 10)

/-- The suffixes that select a width. -/
def widthSuffixes : LitWidth → List (List Char)
  | .w16 => [[]]
  | .w32 => [['l'], ['L']]
  | .ptr => [['p'], ['P']]

/-- The text `s` spells the value `v` at width `w`: its leading base prefix, a non-empty run of
digits of that base whose value is `v`, and a suffix of the width; and `v` fits the width. -/
def Spells (s : List Char) (v : Nat) (w : LitWidth) : Prop :=
  ∃ (digits : List Char) (ds : List Nat) (suffix : List Char),
    s = (leadingBase s).1 ++ digits ++ suffix ∧ suffix ∈ widthSuffixes w ∧ ds ≠ [] ∧
      List.Forall₂ (IsDigit (leadingBase s).2) digits ds ∧ v = valueOf (leadingBase s).2 ds ∧
      v ≤ 2 ^ w.bits - 1

/-! ## Digits -/

/-- Every base has its digit values below sixteen read back in either case. -/
theorem digitValue_digitChar : ∀ d < 16,
    digitValue 36 d.digitChar = some d ∧ digitValue 36 d.digitChar.toUpper = some d := by
  decide

/-- A character the cooker reads as a digit below sixteen is the digit character of its value or
the upper-case form of it, by its code. -/
theorem digitChar_of_code : ∀ d < 16,
    (d < 10 → Char.ofNat (d + 48) = d.digitChar) ∧
      (10 ≤ d → Char.ofNat (d + 87) = d.digitChar ∧ Char.ofNat (d + 55) = d.digitChar.toUpper) := by
  decide

/-- No digit below sixteen is a width suffix. -/
theorem digitChar_not_suffix : ∀ d < 16,
    d.digitChar ∉ ['l', 'L', 'p', 'P'] ∧ d.digitChar.toUpper ∉ ['l', 'L', 'p', 'P'] := by
  decide

/-- No decimal digit is a base letter. -/
theorem digitChar_not_baseLetter : ∀ d < 10,
    d.digitChar ∉ ['x', 'X', 'o', 'O', 'b', 'B'] ∧
      d.digitChar.toUpper ∉ ['x', 'X', 'o', 'O', 'b', 'B'] := by
  decide

/-- A base only narrows the digits of base 36. -/
theorem digitValue_eq_some_iff_of_lt {base : Nat} {c : Char} {d : Nat} :
    digitValue base c = some d ↔ digitValue 36 c = some d ∧ d < base := by
  simp only [digitValue]
  split_ifs <;> simp_all <;> omega

/-- The codes of the characters the cooker reads as digits: `0` to `9`, then the letters from
ten in either case. -/
theorem code_of_digitValue {c : Char} {d : Nat} (h : digitValue 36 c = some d) :
    (c.toNat = d + 48 ∧ d < 10) ∨ (c.toNat = d + 87 ∧ 10 ≤ d) ∨ (c.toNat = d + 55 ∧ 10 ≤ d) := by
  simp only [digitValue] at h
  split_ifs at h <;> simp_all <;> omega

/-- In a base of at most sixteen the cooker reads exactly the digits. -/
theorem digitValue_eq_some_iff {base : Nat} (hb : base ≤ 16) {c : Char} {d : Nat} :
    digitValue base c = some d ↔ IsDigit base c d := by
  rw [digitValue_eq_some_iff_of_lt]
  constructor
  · rintro ⟨h36, hd⟩
    refine ⟨hd, ?_⟩
    have hcodes := digitChar_of_code d (by omega)
    -- the code of `c` lies in one of the three ranges, which fixes `c` from `d`
    have hc : c = Char.ofNat c.toNat := (Char.ofNat_toNat c).symm
    rcases code_of_digitValue h36 with ⟨hcode, hd10⟩ | ⟨hcode, hd10⟩ | ⟨hcode, hd10⟩
    · exact .inl (by rw [hc, hcode, hcodes.1 hd10])
    · exact .inl (by rw [hc, hcode, (hcodes.2 hd10).1])
    · exact .inr (by rw [hc, hcode, (hcodes.2 hd10).2])
  · rintro ⟨hd, rfl | rfl⟩
    · exact ⟨(digitValue_digitChar d (by omega)).1, hd⟩
    · exact ⟨(digitValue_digitChar d (by omega)).2, hd⟩

theorem IsDigit.not_baseLetter {c : Char} {d : Nat} (h : IsDigit 10 c d) :
    c ∉ ['x', 'X', 'o', 'O', 'b', 'B'] := by
  obtain ⟨hd, rfl | rfl⟩ := h
  · exact (digitChar_not_baseLetter d hd).1
  · exact (digitChar_not_baseLetter d hd).2

theorem IsDigit.not_suffix {base : Nat} (hb : base ≤ 16) {c : Char} {d : Nat}
    (h : IsDigit base c d) : c ∉ ['l', 'L', 'p', 'P'] := by
  obtain ⟨hd, rfl | rfl⟩ := h
  · exact (digitChar_not_suffix d (by omega)).1
  · exact (digitChar_not_suffix d (by omega)).2

/-- A value read onto an accumulator is at least the accumulator. -/
theorem le_foldl {base : Nat} (hb : 0 < base) (acc : Nat) (ds : List Nat) :
    acc ≤ ds.foldl (fun v d => v * base + d) acc := by
  induction ds generalizing acc with
  | nil => exact le_rfl
  | cons d ds ih =>
    have hstep : acc ≤ acc * base + d := le_trans (Nat.le_mul_of_pos_right acc hb) le_self_add
    exact hstep.trans (ih _)

/-- Reading digits onto an accumulator that fits 64 bits yields exactly the value they spell,
when that value fits 64 bits too. -/
theorem readDigits_eq_ok_iff {base bits : Nat} (hb : 0 < base ∧ base ≤ 16) {digits : List Char} :
    ∀ {acc v : Nat}, acc ≤ accumulatorMax →
      (readDigits base bits acc digits = .ok v ↔
        ∃ ds, List.Forall₂ (IsDigit base) digits ds ∧
          v = ds.foldl (fun v d => v * base + d) acc ∧ v ≤ accumulatorMax) := by
  induction digits with
  | nil =>
    intro acc v hacc
    simp only [readDigits, Except.ok.injEq, List.forall₂_nil_left_iff, exists_eq_left,
      List.foldl_nil]
    constructor
    · rintro rfl
      exact ⟨rfl, hacc⟩
    · rintro ⟨rfl, -⟩
      rfl
  | cons c cs ih =>
    intro acc v hacc
    cases hc : digitValue base c with
    | none =>
      -- a character that is no digit fails the reading and every spelling
      simp only [readDigits, hc, reduceCtorEq, false_iff]
      rintro ⟨_, hds, -, -⟩
      obtain ⟨d, ds, hd, -, rfl⟩ := List.forall₂_cons_left_iff.1 hds
      rw [(digitValue_eq_some_iff hb.2).2 hd] at hc
      cases hc
    | some d =>
      have hunique : ∀ {d'}, IsDigit base c d' → d' = d := fun hd' => by
        rw [← digitValue_eq_some_iff hb.2, hc] at hd'
        exact (Option.some.inj hd').symm
      simp only [readDigits, hc]
      split_ifs with hover
      · -- the accumulator passes 64 bits, and the whole value is only larger
        simp only [false_iff]
        rintro ⟨_, hds, rfl, hle⟩
        obtain ⟨d', ds, hd', -, rfl⟩ := List.forall₂_cons_left_iff.1 hds
        obtain rfl := hunique hd'
        have := le_foldl hb.1 (acc * base + d') ds
        simp only [List.foldl_cons] at hle
        omega
      · rw [ih (by omega)]
        constructor
        · rintro ⟨ds, hds, rfl, hle⟩
          exact ⟨d :: ds, .cons ((digitValue_eq_some_iff hb.2).1 hc) hds, rfl, hle⟩
        · rintro ⟨_, hds, rfl, hle⟩
          obtain ⟨d', ds, hd', hrest, rfl⟩ := List.forall₂_cons_left_iff.1 hds
          obtain rfl := hunique hd'
          exact ⟨ds, hrest, rfl, hle⟩

/-- Reading digits from zero yields exactly the value they spell, when it fits 64 bits. -/
theorem readDigits_zero_eq_ok_iff {base bits : Nat} (hb : 0 < base ∧ base ≤ 16)
    {digits : List Char} {v : Nat} :
    readDigits base bits 0 digits = .ok v ↔
      ∃ ds, List.Forall₂ (IsDigit base) digits ds ∧ v = valueOf base ds ∧ v ≤ accumulatorMax :=
  readDigits_eq_ok_iff hb (Nat.zero_le _)

/-- Every character of a spelled run of digits is a digit. -/
theorem exists_isDigit_of_mem {base : Nat} {digits : List Char} {ds : List Nat}
    (h : List.Forall₂ (IsDigit base) digits ds) {c : Char} (hc : c ∈ digits) :
    ∃ d, IsDigit base c d := by
  induction h with
  | nil => cases hc
  | cons hd _ ih =>
    rcases List.mem_cons.1 hc with rfl | hc
    · exact ⟨_, hd⟩
    · exact ih hc

/-- The accumulator only fails with problems of malformed literals. -/
theorem readDigits_error_code {base bits : Nat} {p : LexProblem} :
    ∀ {acc : Nat} {digits : List Char}, readDigits base bits acc digits = .error p →
      p.code = .e0001 := by
  intro acc digits
  induction digits generalizing acc with
  | nil => simp [readDigits]
  | cons c cs ih =>
    intro h
    simp only [readDigits] at h
    split at h
    · cases h
      rfl
    · split_ifs at h
      · cases h
        rfl
      · exact ih h

/-- The value `Nat.toDigits` writes in a base from two to sixteen is spelled by its digits. -/
theorem toDigits_spells {base : Nat} (hb : 1 < base ∧ base ≤ 16) (v : Nat) :
    ∃ ds, List.Forall₂ (IsDigit base) (Nat.toDigits base v) ds ∧ valueOf base ds = v := by
  induction v using Nat.base_induction base hb.1 with
  | single m hm =>
    refine ⟨[m], ?_, by simp [valueOf]⟩
    rw [Nat.toDigits_of_lt_base hm]
    exact List.Forall₂.cons ⟨hm, .inl rfl⟩ .nil
  | digit m k hk hm ih =>
    obtain ⟨ds, hds, hv⟩ := ih
    refine ⟨ds ++ [k], ?_, ?_⟩
    · rw [← Nat.toDigits_append_toDigits hb.1 hm hk, Nat.toDigits_of_lt_base hk]
      exact List.rel_append hds (List.Forall₂.cons ⟨hk, .inl rfl⟩ .nil)
    · simp only [valueOf, List.foldl_append, List.foldl_cons, List.foldl_nil] at hv ⊢
      rw [hv, Nat.mul_comm]

/-! ## Prefixes and suffixes -/

/-- A text has no base prefix, and base ten, when it starts with none of the prefixes. -/
theorem leadingBase_of_forall {s : List Char} (h : ∀ pb ∈ basePrefixes, ∀ r, s ≠ pb.1 ++ r) :
    leadingBase s = ([], 10) := by
  rw [leadingBase, List.find?_eq_none.2]
  · rfl
  · intro pb hpb hpre
    obtain ⟨r, hr⟩ := List.isPrefixOf_iff_prefix.1 hpre
    exact h pb hpb r hr.symm

/-- The leading base prefix is one of the prefixes, or none with base ten. -/
theorem leadingBase_mem (s : List Char) :
    leadingBase s ∈ basePrefixes ∨ leadingBase s = ([], 10) := by
  unfold leadingBase
  cases h : basePrefixes.find? fun pb => pb.1.isPrefixOf s with
  | none => exact .inr rfl
  | some pb => exact .inl (List.mem_of_find?_eq_some h)

/-- Every leading base is two, eight, ten or sixteen. -/
theorem leadingBase_base (s : List Char) : 1 < (leadingBase s).2 ∧ (leadingBase s).2 ≤ 16 := by
  rcases leadingBase_mem s with h | h
  · simp only [basePrefixes, List.mem_cons, List.not_mem_nil, or_false] at h
    rcases h with h | h | h | h | h | h <;> rw [h] <;> decide
  · rw [h]
    decide

/-- The base and the rest of the text the cooker splits off are the leading base prefix's. -/
theorem splitBase_eq (s : List Char) :
    splitBase s = ((leadingBase s).2, s.drop (leadingBase s).1.length) ∧
      (leadingBase s).1 <+: s := by
  unfold splitBase
  split
  all_goals try exact ⟨rfl, by simp [leadingBase, basePrefixes]⟩
  rename_i h₁ h₂ h₃ h₄ h₅ h₆
  have hnone : leadingBase s = ([], 10) :=
    leadingBase_of_forall (by simpa [basePrefixes] using ⟨h₁, h₂, h₃, h₄, h₅, h₆⟩)
  simp [hnone]

/-- Every base prefix leads any text it starts. -/
theorem leadingBase_append {pb : List Char × Nat} (hpb : pb ∈ basePrefixes) (rest : List Char) :
    leadingBase (pb.1 ++ rest) = pb := by
  simp only [basePrefixes, List.mem_cons, List.not_mem_nil, or_false] at hpb
  rcases hpb with rfl | rfl | rfl | rfl | rfl | rfl <;> rfl

/-- A text whose second character is no base letter has no base prefix. -/
theorem leadingBase_of_second {s : List Char}
    (h : ∀ c ∈ (s.drop 1).head?, c ∉ ['x', 'X', 'o', 'O', 'b', 'B']) : leadingBase s = ([], 10) := by
  refine leadingBase_of_forall fun pb hpb r hs => ?_
  simp only [basePrefixes, List.mem_cons, List.not_mem_nil, or_false] at hpb
  rcases hpb with rfl | rfl | rfl | rfl | rfl | rfl <;> subst hs <;> simp at h

/-- The width read off a text and the digits before its suffix. -/
theorem splitWidth_spec (body : List Char) :
    ∃ suffix ∈ widthSuffixes (splitWidth body).1, body = (splitWidth body).2 ++ suffix ∧
      (suffix = [] → ∀ c ∈ (splitWidth body).2.getLast?, c ∉ ['l', 'L', 'p', 'P']) := by
  unfold splitWidth
  split
  all_goals
    rename_i h
    first
    | exact ⟨_, by simp [widthSuffixes], (List.dropLast_append_getLast? _ h).symm, by simp⟩
    | exact ⟨[], by simp [widthSuffixes], by simp, fun _ c hc => by simp_all⟩

/-- The cooker reads a width suffix off the end of a run of digits. -/
theorem splitWidth_append {digits suffix : List Char} {w : LitWidth}
    (hsuffix : suffix ∈ widthSuffixes w)
    (hlast : suffix = [] → ∀ c ∈ digits.getLast?, c ∉ ['l', 'L', 'p', 'P']) :
    splitWidth (digits ++ suffix) = (w, digits) := by
  cases w <;> simp only [widthSuffixes, List.mem_cons, List.not_mem_nil, or_false] at hsuffix
  · subst hsuffix
    cases h : digits.getLast? with
    | none => simp [splitWidth, h]
    | some c =>
      have hc := hlast rfl c (by simp [h])
      simp only [List.mem_cons, List.not_mem_nil, or_false, not_or] at hc
      simp [splitWidth, h, hc.1, hc.2.1, hc.2.2.1, hc.2.2.2]
  all_goals rcases hsuffix with rfl | rfl <;> simp [splitWidth]

/-- The largest value of a width is `2 ^ bits - 1`. -/
theorem maxValue_eq (w : LitWidth) : w.maxValue = 2 ^ w.bits - 1 := by
  simp [LitWidth.maxValue, Nat.pow_eq]

theorem maxValue_le (w : LitWidth) : w.maxValue ≤ accumulatorMax := by
  cases w <;> decide

/-! ## Cooking a literal -/

/-- The cooker accepts exactly the texts that spell a value, with that value and width. -/
theorem cook_eq_ok_iff {s : List Char} {v : Nat} {w : LitWidth} :
    cook s = .ok (v, w) ↔ Spells s v w := by
  obtain ⟨hsplit, ⟨body, hbody⟩⟩ := splitBase_eq s
  have hrest : s.drop (leadingBase s).1.length = body :=
    calc s.drop (leadingBase s).1.length
        = ((leadingBase s).1 ++ body).drop (leadingBase s).1.length := by rw [hbody]
      _ = body := List.drop_left
  have hb := leadingBase_base s
  obtain ⟨suffix, hsuffix, hdigits, hlast⟩ := splitWidth_spec body
  generalize hw : splitWidth body = sw at hsuffix hdigits hlast
  obtain ⟨w', digits'⟩ := sw
  simp only at hsuffix hdigits hlast
  simp only [cook, hsplit, hrest, hw]
  constructor
  · intro h
    split_ifs at h with hempty
    split at h
    · cases h
    · rename_i v' hread
      split_ifs at h with hover
      cases h
      obtain ⟨ds, hds, rfl, -⟩ := (readDigits_zero_eq_ok_iff (by omega)).1 hread
      refine ⟨digits', ds, suffix, hbody.symm.trans (by rw [hdigits, List.append_assoc]), hsuffix,
        ?_, hds,
        rfl, by rw [← maxValue_eq]; omega⟩
      rintro rfl
      simp_all [List.forall₂_nil_right_iff]
  · rintro ⟨digits, ds, suffix', hs, hsuffix', hne, hds, rfl, hfits⟩
    -- the spelled digits and suffix are what the cooker splits the rest into
    have hbody' : body = digits ++ suffix' := by
      rw [List.append_assoc] at hs
      exact List.append_cancel_left (hbody.trans hs)
    have hlast' : suffix' = [] → ∀ c ∈ digits.getLast?, c ∉ ['l', 'L', 'p', 'P'] := by
      intro _ c hc
      obtain ⟨d, hd⟩ := exists_isDigit_of_mem hds (List.mem_of_getLast? hc)
      exact hd.not_suffix hb.2
    rw [hbody', splitWidth_append hsuffix' hlast'] at hw
    obtain ⟨rfl, rfl⟩ := Prod.mk.inj hw
    have hempty : digits.isEmpty = false := by
      cases digits with
      | nil => exact absurd (List.forall₂_nil_left_iff.1 hds) hne
      | cons => rfl
    have hacc : valueOf (leadingBase s).2 ds ≤ accumulatorMax :=
      le_trans (by rw [maxValue_eq]; exact hfits) (maxValue_le w)
    rw [if_neg (by simp [hempty]), (readDigits_zero_eq_ok_iff (by omega)).2 ⟨ds, hds, rfl, hacc⟩]
    simp only [gt_iff_lt, maxValue_eq, not_lt.2 hfits, if_false]

/-- Every problem the cooker finds is a malformed literal. -/
theorem cook_error_code {s : List Char} {p : LexProblem} (h : cook s = .error p) :
    p.code = .e0001 := by
  simp only [cook] at h
  split_ifs at h
  · cases h
    rfl
  · split at h
    · cases h
      exact readDigits_error_code ‹_›
    · split_ifs at h
      cases h
      rfl

/-- A decimal number written by `Nat.toDigits` and followed by a width suffix has no base
prefix. -/
theorem leadingBase_toDigits_ten (v : Nat) {w : LitWidth} {suffix : List Char}
    (hsuffix : suffix ∈ widthSuffixes w) :
    leadingBase (Nat.toDigits 10 v ++ suffix) = ([], 10) := by
  obtain ⟨ds, hds, -⟩ := toDigits_spells (by decide : 1 < 10 ∧ 10 ≤ 16) v
  apply leadingBase_of_second
  cases h : Nat.toDigits 10 v with
  | nil => exact absurd h Nat.toDigits_ne_nil
  | cons c rest =>
    rw [h] at hds
    cases rest with
    | nil =>
      -- the second character is the suffix's, which is no base letter
      cases w <;> simp [widthSuffixes] at hsuffix <;> rcases hsuffix with rfl | rfl <;> simp
    | cons c' rest =>
      intro c'' hc''
      obtain ⟨d, hd⟩ := exists_isDigit_of_mem hds (List.mem_cons_of_mem c List.mem_cons_self)
      simp only [List.cons_append, List.drop_succ_cons, List.drop_zero, List.head?_cons,
        Option.mem_def, Option.some.injEq] at hc''
      exact hc'' ▸ hd.not_baseLetter

/-- Every value that fits a width, written by `Nat.toDigits` behind a prefix of its base and
followed by a suffix of the width, reads back as itself. -/
theorem cook_toDigits {v : Nat} {w : LitWidth} (hv : v ≤ 2 ^ w.bits - 1) {pb : List Char × Nat}
    (hpb : pb ∈ basePrefixes ++ [([], 10)]) {suffix : List Char}
    (hsuffix : suffix ∈ widthSuffixes w) :
    cook (pb.1 ++ Nat.toDigits pb.2 v ++ suffix) = .ok (v, w) := by
  have hlead : leadingBase (pb.1 ++ Nat.toDigits pb.2 v ++ suffix) = pb := by
    rcases List.mem_append.1 hpb with hpb | hpb
    · rw [List.append_assoc]
      exact leadingBase_append hpb _
    · obtain rfl := List.mem_singleton.1 hpb
      exact leadingBase_toDigits_ten v hsuffix
  have hbase : 1 < pb.2 ∧ pb.2 ≤ 16 := hlead ▸ leadingBase_base _
  obtain ⟨ds, hds, hval⟩ := toDigits_spells hbase v
  refine cook_eq_ok_iff.2 ⟨Nat.toDigits pb.2 v, ds, suffix, by rw [hlead], hsuffix, ?_,
    by rw [hlead]; exact hds, by rw [hlead, hval], hv⟩
  rintro rfl
  exact Nat.toDigits_ne_nil (List.forall₂_nil_right_iff.1 hds)

/-- Integer literals: the cooker accepts exactly the texts that spell a value, with that value and
width; it refuses every other text with a malformed-literal problem, for which the lexer gives an
integer token of value zero and 16 bits and reports the problem at the literal; and every value
that fits a width, written in any base behind any prefix of the base and any suffix of the width,
reads back as itself. -/
theorem cook_spells :
    (∀ s v w, cook s = .ok (v, w) ↔ Spells s v w) ∧
      (∀ s, (¬ ∃ v w, Spells s v w) → ∃ p, cook s = .error p ∧ p.code = .e0001 ∧
        ∀ allowReserved span, Lex.cook allowReserved .number s span =
          (some ⟨.int, span, .int 0 .w16⟩, none, [⟨p, span⟩])) ∧
      (∀ v w, v ≤ 2 ^ w.bits - 1 → ∀ pb ∈ basePrefixes ++ [([], 10)],
        ∀ suffix ∈ widthSuffixes w, cook (pb.1 ++ Nat.toDigits pb.2 v ++ suffix) = .ok (v, w)) := by
  refine ⟨fun s v w => cook_eq_ok_iff, fun s hnot => ?_,
    fun v w hv pb hpb suffix hsuffix => cook_toDigits hv hpb hsuffix⟩
  cases h : cook s with
  | error p => exact ⟨p, rfl, cook_error_code h, fun _ _ => by simp [Lex.cook, h]⟩
  | ok r => exact absurd ⟨r.1, r.2, cook_eq_ok_iff.1 h⟩ hnot

end IntLiteral

end SolarFront
