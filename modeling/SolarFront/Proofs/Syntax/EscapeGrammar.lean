import SolarFront.Proofs.Syntax.LexSpans

/-!
# The escape grammar of literal bodies

The body of a string or character literal is read left to right. `Escape.Reads` states the
grammar as rules, one constructor per case:

* a plain character stands for itself when it is one unit of the literal (ASCII in a narrow
  literal, up to U+FFFF in a wide one), and for `?` (0x3F) with an error otherwise;
* a backslash and an octal digit start an octal escape that takes up to five more digits from
  `1` to `7`; `\x` takes one to four hex digits, `\u` exactly four (wide literals only), `\U`
  exactly six (string literals only, a code point that is no surrogate and at most U+10FFFF,
  given as its UTF-8 bytes or UTF-16 units); a numeric value that does not fit a unit becomes
  `?` with an error;
* `\a \b \t \n \v \f \r \e \d \\ \' \"` stand for their control or quoting character, and any
  other escaped character for itself, with a warning;
* a backslash at the very end stands for nothing.

The digit runs are stated as the longest runs of at most so many digits (`Escape.Takes`), their
values digit by digit, and the code-point encodings by core's UTF-8 encoder and by the decoding
of a surrogate pair. The main statement, `Escape.cookFrom_reads`, says that `Escape.cookFrom`
computes exactly what the rules give: its result is the only one they allow. So every unit of a
narrow literal is below 256 and of a wide one below 65536, and every error lies inside the body.
-/

set_option autoImplicit false
set_option linter.all false

namespace SolarFront

namespace Escape

/-! ## Digit runs -/

/-- The value of a hexadecimal digit. -/
def hexDigitValue (c : Char) : Nat :=
  if c.isDigit then c.toNat - '0'.toNat
  else if 'a' ≤ c then c.toNat - 'a'.toNat + 10
  else c.toNat - 'A'.toNat + 10

/-- The value of an octal digit. -/
def octalDigitValue (c : Char) : Nat := c.toNat - '0'.toNat

/-- The digits an octal escape takes after its first: `1` to `7`, so that a `0` ends it. -/
def isOctalTail (c : Char) : Bool := '1' ≤ c && c ≤ '7'

/-- The number the digits spell in base `b`, the most significant first. -/
def digitsValue (b : Nat) (value : Char → Nat) (ds : List Char) : Nat :=
  ds.foldl (fun v d => v * b + value d) 0

/-- `taken` is the run of characters satisfying `p` that an escape reads in front of `rest`: at
most `max` of them, and as many as there are up to `max`. -/
structure Takes (p : Char → Bool) (max : Nat) (taken rest : List Char) : Prop where
  length_le : taken.length ≤ max
  all : ∀ c ∈ taken, p c = true
  longest : taken.length = max ∨ ∀ c ∈ rest.head?, p c = false

theorem digitsValue_cons (b : Nat) (value : Char → Nat) (d : Char) (ds : List Char) :
    digitsValue b value (d :: ds) = value d * b ^ ds.length + digitsValue b value ds := by
  -- the fold starts from the first digit's value, which every later digit multiplies by `b`
  have hfold : ∀ (a : Nat) (ds : List Char), ds.foldl (fun v d => v * b + value d) a =
      a * b ^ ds.length + ds.foldl (fun v d => v * b + value d) 0 := by
    intro a ds
    induction ds generalizing a with
    | nil => simp
    | cons e es ih =>
      simp only [List.foldl_cons, List.length_cons, Nat.zero_mul, Nat.zero_add]
      rw [ih, ih (value e), Nat.pow_succ]
      ring
  simp only [digitsValue, List.foldl_cons, Nat.zero_mul, Nat.zero_add]
  exact hfold (value d) ds

/-- Every text starts with a run an escape can take. -/
theorem exists_takes (p : Char → Bool) (max : Nat) (cs : List Char) :
    ∃ taken rest, cs = taken ++ rest ∧ Takes p max taken rest := by
  induction cs generalizing max with
  | nil => exact ⟨[], [], rfl, ⟨by simp, by simp, .inr (by simp)⟩⟩
  | cons c cs ih =>
    cases max with
    | zero => exact ⟨[], c :: cs, rfl, ⟨le_rfl, by simp, .inl rfl⟩⟩
    | succ m =>
      cases hc : p c with
      | false => exact ⟨[], c :: cs, rfl, ⟨by simp, by simp, .inr (by simpa using hc)⟩⟩
      | true =>
        obtain ⟨taken, rest, rfl, ht⟩ := ih m
        refine ⟨c :: taken, rest, rfl, ⟨by simpa using ht.length_le, ?_, ?_⟩⟩
        · simpa [hc] using ht.all
        · simpa using ht.longest

/-- A run's first character is one it may take, and the rest of the run is a run with one less
to take. -/
theorem Takes.cons {p : Char → Bool} {max : Nat} {c : Char} {taken rest : List Char}
    (h : Takes p (max + 1) (c :: taken) rest) : p c = true ∧ Takes p max taken rest :=
  ⟨h.all c List.mem_cons_self,
    ⟨by simpa using h.length_le, fun d hd => h.all d (List.mem_cons_of_mem c hd),
      by simpa using h.longest⟩⟩

/-- A run that stops before its limit stops at a character it cannot take. -/
theorem Takes.nil_stop {p : Char → Bool} {max : Nat} {rest : List Char}
    (h : Takes p (max + 1) [] rest) : ∀ c ∈ rest.head?, p c = false := by
  simpa using h.longest

/-- Lowering a character adds 32 to the code of an upper-case ASCII letter. -/
theorem toNat_toLower (c : Char) :
    c.toLower.toNat = if 65 ≤ c.toNat ∧ c.toNat ≤ 90 then c.toNat + 32 else c.toNat := by
  have hcodes : 'A'.val.toNat = 65 ∧ 'Z'.val.toNat = 90 ∧ ('a'.val - 'A'.val).toNat = 32 :=
    ⟨rfl, rfl, rfl⟩
  unfold Char.toLower
  simp only [ge_iff_le, UInt32.le_iff_toNat_le, hcodes.1, hcodes.2.1, Char.toNat_val]
  split
  · show (c.val + ('a'.val - 'A'.val)).toNat = c.toNat + 32
    rw [UInt32.toNat_add, hcodes.2.2, Char.toNat_val, Nat.mod_eq_of_lt]
    show c.toNat + 32 < 4294967296
    omega
  · rfl

/-- The folder reads a hex digit's value off its character code, letters through lower case. -/
theorem hexDigit_value {c : Char} (hc : c.isHexDigit = true) :
    (if c.isDigit then c.toNat - 48 else c.toLower.toNat - 87) = hexDigitValue c := by
  unfold hexDigitValue
  by_cases hd : c.isDigit = true
  · simp [hd]
  · have hcodes : 'a'.toNat = 97 ∧ 'f'.toNat = 102 ∧ 'A'.toNat = 65 ∧ 'F'.toNat = 70 :=
      ⟨rfl, rfl, rfl, rfl⟩
    simp only [Char.isHexDigit, hd, Bool.false_or, Bool.or_eq_true, Bool.and_eq_true,
      decide_eq_true_eq, ge_iff_le, UInt32.le_iff_toNat_le, Char.toNat_val, hcodes] at hc
    have ha : ('a' ≤ c) ↔ 97 ≤ c.toNat := by
      rw [Char.le_def, UInt32.le_iff_toNat_le, Char.toNat_val]; rfl
    simp only [hd, Bool.false_eq_true, if_false, toNat_toLower, ha, hcodes]
    split_ifs <;> omega

/-- The folder's hex loop reads exactly the run of hex digits an escape takes, and its value. -/
theorem hexRun_of_takes {m : Nat} {taken rest : List Char}
    (h : Takes Char.isHexDigit m taken rest) :
    hexRun m (taken ++ rest) = (digitsValue 16 hexDigitValue taken, taken.length) := by
  induction taken generalizing m with
  | nil =>
    cases rest with
    | nil => simp [hexRun, digitsValue]
    | cons c cs =>
      cases m with
      | zero => simp [hexRun, digitsValue]
      | succ m => simp [hexRun, h.nil_stop c rfl, digitsValue]
  | cons c taken ih =>
    obtain ⟨m, rfl⟩ : ∃ m', m = m' + 1 := ⟨m - 1, by have := h.length_le; simp at this; omega⟩
    obtain ⟨hc, ht⟩ := h.cons
    simp only [List.cons_append, hexRun, hc, ih ht, hexDigit_value hc, digitsValue_cons,
      Nat.pow_eq, List.length_cons]

/-- The folder's octal loop reads exactly the run of digits from `1` to `7` an escape takes after
its first digit, and its value. -/
theorem octalRun_of_takes {m : Nat} {taken rest : List Char}
    (h : Takes isOctalTail m taken rest) :
    octalRun m (taken ++ rest) = (digitsValue 8 octalDigitValue taken, taken.length) := by
  induction taken generalizing m with
  | nil =>
    cases rest with
    | nil => simp [octalRun, digitsValue]
    | cons c cs =>
      cases m with
      | zero => simp [octalRun, digitsValue]
      | succ m =>
        have hc := h.nil_stop c rfl
        simp only [isOctalTail] at hc
        simp [octalRun, hc, digitsValue]
  | cons c taken ih =>
    obtain ⟨m, rfl⟩ : ∃ m', m = m' + 1 := ⟨m - 1, by have := h.length_le; simp at this; omega⟩
    obtain ⟨hc, ht⟩ := h.cons
    simp only [isOctalTail] at hc
    simp only [List.cons_append, octalRun, hc, if_true, ih ht, digitsValue_cons, octalDigitValue,
      Nat.pow_eq, List.length_cons]
    rfl

/-! ## The rules -/

/-- Whether a character is one unit of a literal with this encoding: ASCII in a narrow literal,
at most U+FFFF in a wide one. -/
def Fits (enc : Encoding) (c : Char) : Prop :=
  (enc = .narrow ∧ c.toNat < 0x80) ∨ (enc = .wide ∧ c.toNat ≤ 0xFFFF)

/-- A character as units of the literal: itself when it fits, else `?` with an error at
`span`. -/
inductive CharUnit (ctx : LiteralContext) (span : Span) (c : Char) :
    List Nat → List LexError → Prop
  | fits (h : Fits ctx.encoding c) : CharUnit ctx span c [c.toNat] []
  | replaced (h : ¬ Fits ctx.encoding c) :
      CharUnit ctx span c [0x3F] [⟨.notRepresentable c ctx.encoding, span⟩]

/-- The value of a numeric escape as units: itself when it fits one unit, else `?` with an
error at `span`. -/
inductive NumericUnit (ctx : LiteralContext) (span : Span) (v : Nat) :
    List Nat → List LexError → Prop
  | fits (h : v ≤ ctx.maxUnit) : NumericUnit ctx span v [v] []
  | overflows (h : ctx.maxUnit < v) :
      NumericUnit ctx span v [0x3F] [⟨.invalidEscape .unitOverflow, span⟩]

/-- `units` are the UTF-16 units of the code point `v`: `v` itself below U+10000, else a high and
a low surrogate that decode to `v`. -/
def Utf16 (v : Nat) (units : List Nat) : Prop :=
  (v < 0x10000 ∧ units = [v]) ∨
    ∃ hi lo, units = [hi, lo] ∧ 0xD800 ≤ hi ∧ hi < 0xDC00 ∧ 0xDC00 ≤ lo ∧ lo < 0xE000 ∧
      v = 0x10000 + (hi - 0xD800) * 0x400 + (lo - 0xDC00)

/-- The units of a code point in a literal: its UTF-8 bytes in a narrow literal, its UTF-16
units in a wide one. -/
def CodeUnits (enc : Encoding) (v : Nat) (units : List Nat) : Prop :=
  (enc = .narrow ∧ units = (String.utf8EncodeChar (Char.ofNat v)).map UInt8.toNat) ∨
    (enc = .wide ∧ Utf16 v units)

/-- The span of an escape whose backslash is at `start`, from the backslash to the last
character it takes; the digits it takes are one byte each. -/
def escapeSpan (start : Nat) (esc : Char) (taken : List Char) : Span :=
  ⟨start, start + 1 + esc.utf8Size + taken.length⟩

/-- The one-letter escapes and the units they stand for. -/
def letterEscapes : List (Char × Nat) :=
  [('a', 0x07), ('b', 0x08), ('t', 0x09), ('n', 0x0A), ('v', 0x0B), ('f', 0x0C), ('r', 0x0D),
    ('e', 0x1B), ('d', 0x7F), ('\\', 0x5C), ('\'', 0x27), ('"', 0x22)]

theorem simple_eq_some_iff {c : Char} {u : Nat} :
    simple c = some u ↔ (c, u) ∈ letterEscapes := by
  unfold simple
  split <;> simp_all [letterEscapes, eq_comm]

/-- No letter escape is an octal digit or one of the numeric escape letters, and each stands for
an ASCII unit. -/
theorem letterEscapes_plain :
    ∀ p ∈ letterEscapes, ¬ ('0' ≤ p.1 ∧ p.1 ≤ '7') ∧ p.1 ≠ 'x' ∧ p.1 ≠ 'u' ∧ p.1 ≠ 'U' ∧
      p.2 < 0x80 := by
  decide

theorem simple_eq_none_iff {c : Char} : simple c = none ↔ ∀ p ∈ letterEscapes, p.1 ≠ c := by
  unfold simple
  split <;> simp_all [letterEscapes, eq_comm]

/-- An escape: the backslash at `start`, the escaped character, the characters `taken` it reads
after it in front of `rest`, and the units and errors it stands for. -/
inductive Escapes (ctx : LiteralContext) (start : Nat) :
    Char → List Char → List Char → List Nat → List LexError → Prop
  /-- An octal digit and up to five more digits from `1` to `7`. -/
  | octal {d : Char} {taken rest : List Char} {us : List Nat} {es : List LexError}
      (hd : '0' ≤ d ∧ d ≤ '7') (ht : Takes isOctalTail 5 taken rest)
      (hu : NumericUnit ctx (escapeSpan start d taken)
        (digitsValue 8 octalDigitValue (d :: taken)) us es) :
      Escapes ctx start d taken rest us es
  /-- `\x` and no hex digit. -/
  | hexMissing {rest : List Char} (ht : Takes Char.isHexDigit 4 [] rest) :
      Escapes ctx start 'x' [] rest [] [⟨.invalidEscape .noHexDigit, escapeSpan start 'x' []⟩]
  /-- `\x` and one to four hex digits. -/
  | hex {taken rest : List Char} {us : List Nat} {es : List LexError}
      (ht : Takes Char.isHexDigit 4 taken rest) (hne : taken ≠ [])
      (hu : NumericUnit ctx (escapeSpan start 'x' taken)
        (digitsValue 16 hexDigitValue taken) us es) :
      Escapes ctx start 'x' taken rest us es
  /-- `\u` and fewer than four hex digits. -/
  | shortU {taken rest : List Char} (ht : Takes Char.isHexDigit 4 taken rest)
      (hn : taken.length ≠ 4) :
      Escapes ctx start 'u' taken rest []
        [⟨.invalidEscape .needsFourHex, escapeSpan start 'u' taken⟩]
  /-- `\u` in a narrow literal. -/
  | narrowU {taken rest : List Char} (ht : Takes Char.isHexDigit 4 taken rest)
      (hn : taken.length = 4) (henc : ctx.encoding = .narrow) :
      Escapes ctx start 'u' taken rest []
        [⟨.invalidEscape .fourHexNarrow, escapeSpan start 'u' taken⟩]
  /-- `\u` and four hex digits in a wide literal. -/
  | wideU {taken rest : List Char} {us : List Nat} {es : List LexError}
      (ht : Takes Char.isHexDigit 4 taken rest) (hn : taken.length = 4)
      (henc : ctx.encoding = .wide)
      (hu : NumericUnit ctx (escapeSpan start 'u' taken)
        (digitsValue 16 hexDigitValue taken) us es) :
      Escapes ctx start 'u' taken rest us es
  /-- `\U` and fewer than six hex digits. -/
  | shortBigU {taken rest : List Char} (ht : Takes Char.isHexDigit 6 taken rest)
      (hn : taken.length ≠ 6) :
      Escapes ctx start 'U' taken rest []
        [⟨.invalidEscape .needsSixHex, escapeSpan start 'U' taken⟩]
  /-- `\U` in a character literal. -/
  | charBigU {taken rest : List Char} (ht : Takes Char.isHexDigit 6 taken rest)
      (hn : taken.length = 6) (hc : ctx.isChar = true) :
      Escapes ctx start 'U' taken rest []
        [⟨.invalidEscape .sixHexInChar, escapeSpan start 'U' taken⟩]
  /-- `\U` beyond U+10FFFF. -/
  | beyondBigU {taken rest : List Char} (ht : Takes Char.isHexDigit 6 taken rest)
      (hn : taken.length = 6) (hc : ctx.isChar = false)
      (hv : 0x10FFFF < digitsValue 16 hexDigitValue taken) :
      Escapes ctx start 'U' taken rest []
        [⟨.invalidEscape .beyondUnicode, escapeSpan start 'U' taken⟩]
  /-- `\U` naming a surrogate. -/
  | surrogateBigU {taken rest : List Char} (ht : Takes Char.isHexDigit 6 taken rest)
      (hn : taken.length = 6) (hc : ctx.isChar = false)
      (hv : 0xD800 ≤ digitsValue 16 hexDigitValue taken ∧
        digitsValue 16 hexDigitValue taken ≤ 0xDFFF) :
      Escapes ctx start 'U' taken rest []
        [⟨.invalidEscape .surrogate, escapeSpan start 'U' taken⟩]
  /-- `\U` and a code point, in a string literal. -/
  | bigU {taken rest : List Char} {us : List Nat} (ht : Takes Char.isHexDigit 6 taken rest)
      (hn : taken.length = 6) (hc : ctx.isChar = false)
      (hv : digitsValue 16 hexDigitValue taken ≤ 0x10FFFF)
      (hs : ¬ (0xD800 ≤ digitsValue 16 hexDigitValue taken ∧
        digitsValue 16 hexDigitValue taken ≤ 0xDFFF))
      (hu : CodeUnits ctx.encoding (digitsValue 16 hexDigitValue taken) us) :
      Escapes ctx start 'U' taken rest us []
  /-- A one-letter escape. -/
  | letter {c : Char} {u : Nat} {rest : List Char} (h : (c, u) ∈ letterEscapes) :
      Escapes ctx start c [] rest [u] []
  /-- Any other escaped character stands for itself, with a warning. -/
  | other {c : Char} {rest : List Char} {us : List Nat} {es : List LexError}
      (hd : ¬ ('0' ≤ c ∧ c ≤ '7')) (hx : c ≠ 'x') (hu : c ≠ 'u') (hU : c ≠ 'U')
      (hl : ∀ p ∈ letterEscapes, p.1 ≠ c) (hc : CharUnit ctx (escapeSpan start c []) c us es) :
      Escapes ctx start c [] rest us (⟨.unknownEscape c, escapeSpan start c []⟩ :: es)

/-- A literal body read from byte `pos`, left to right: the units and errors it stands for. -/
inductive Reads (ctx : LiteralContext) : Nat → List Char → List Nat → List LexError → Prop
  | nil (pos : Nat) : Reads ctx pos [] [] []
  /-- A backslash at the very end stands for nothing. -/
  | lone (pos : Nat) : Reads ctx pos ['\\'] [] []
  | char {pos : Nat} {c : Char} {rest : List Char} {us us' : List Nat} {es es' : List LexError}
      (hc : c ≠ '\\') (hu : CharUnit ctx ⟨pos, pos + c.utf8Size⟩ c us es)
      (h : Reads ctx (pos + c.utf8Size) rest us' es') :
      Reads ctx pos (c :: rest) (us ++ us') (es ++ es')
  | escape {pos : Nat} {esc : Char} {taken rest : List Char} {us us' : List Nat}
      {es es' : List LexError} (he : Escapes ctx pos esc taken rest us es)
      (h : Reads ctx (pos + 1 + esc.utf8Size + taken.length) rest us' es') :
      Reads ctx pos ('\\' :: esc :: (taken ++ rest)) (us ++ us') (es ++ es')

/-! ## The folder follows the rules -/

theorem charUnit_of {ctx : LiteralContext} {span : Span} {c : Char} {us : List Nat}
    {es : List LexError} (h : CharUnit ctx span c us es) :
    [(charUnit ctx c span).1] = us ∧ (charUnit ctx c span).2 = es := by
  cases h with
  | fits hf =>
    rcases hf with ⟨henc, hlt⟩ | ⟨henc, hle⟩
    · simp [charUnit, henc, hlt]
    · simp [charUnit, henc, hle]
  | replaced hf =>
    cases henc : ctx.encoding <;> simp only [Fits, henc, reduceCtorEq, true_and, false_and,
      or_false, false_or, Nat.not_lt, Nat.not_le] at hf
    · simp [charUnit, henc, Nat.not_lt.mpr hf, replacementUnit]
    · simp [charUnit, henc, Nat.not_le.mpr hf, replacementUnit]

theorem numericUnit_of {ctx : LiteralContext} {span : Span} {v : Nat} {us : List Nat}
    {es : List LexError} (h : NumericUnit ctx span v us es) :
    [(numericUnit ctx v span).1] = us ∧ (numericUnit ctx v span).2 = es := by
  cases h with
  | fits hf => simp [numericUnit, hf]
  | overflows hf => simp [numericUnit, Nat.not_le.mpr hf, replacementUnit]

/-- The folder's UTF-8 bytes of a code point are core's encoding of its character. -/
theorem utf8Bytes_eq {v : Nat} (hv : v ≤ 0x10FFFF) (hs : ¬ (0xD800 ≤ v ∧ v ≤ 0xDFFF)) :
    Unicode.utf8Bytes v = (String.utf8EncodeChar (Char.ofNat v)).map UInt8.toNat := by
  have hvalid : v.isValidChar := by
    unfold Nat.isValidChar
    omega
  have hc : (Char.ofNat v).val.toNat = v := by
    rw [Char.toNat_val, Char.toNat_ofNat, if_pos hvalid]
  simp only [String.utf8EncodeChar, hc, Unicode.utf8Bytes]
  split_ifs <;> simp [UInt8.toNat_ofNat] <;> omega

/-- A code point has one UTF-16 encoding, the folder's. -/
theorem Utf16.eq {v : Nat} {us : List Nat} (h : Utf16 v us) : us = Unicode.utf16Units v := by
  rcases h with ⟨hlt, rfl⟩ | ⟨hi, lo, rfl, h₁, h₂, h₃, h₄, hv⟩
  · simp [Unicode.utf16Units, hlt]
  · -- a surrogate pair carries the ten high and the ten low bits of `v - 0x10000`
    have hge : ¬ v < 0x10000 := by omega
    simp only [Unicode.utf16Units, hge, if_false, List.cons.injEq, and_true]
    omega

theorem utf16_utf16Units {v : Nat} (hv : v ≤ 0x10FFFF) : Utf16 v (Unicode.utf16Units v) := by
  unfold Unicode.utf16Units
  split_ifs with h
  · exact .inl ⟨h, rfl⟩
  · exact .inr ⟨_, _, rfl, by omega, by omega, by omega, by omega, by omega⟩

theorem codePointUnits_of {ctx : LiteralContext} {span : Span} {v : Nat} {us : List Nat}
    (hv : v ≤ 0x10FFFF) (hs : ¬ (0xD800 ≤ v ∧ v ≤ 0xDFFF)) (hu : CodeUnits ctx.encoding v us) :
    codePointUnits ctx v span = (us, []) := by
  have hsur : Unicode.isSurrogate v = false := by simpa [Unicode.isSurrogate] using hs
  simp only [codePointUnits, Nat.not_lt.mpr hv, hsur, if_false]
  rcases hu with ⟨henc, rfl⟩ | ⟨henc, hu⟩
  · simp [henc, utf8Bytes_eq hv hs]
  · simp [henc, hu.eq]

/-- The folder's reading of an escape is what the rule for it gives. -/
theorem escapeUnits_of {ctx : LiteralContext} {start : Nat} {esc : Char}
    {taken rest : List Char} {us : List Nat} {es : List LexError}
    (h : Escapes ctx start esc taken rest us es) :
    escapeUnits ctx esc (taken ++ rest) start (start + 1 + esc.utf8Size) =
      (us, es, taken.length) := by
  cases h with
  | octal hd ht hu =>
    obtain ⟨hus, hes⟩ := numericUnit_of hu
    have hd' : ('0' ≤ esc && esc ≤ '7') = true := by simpa using hd
    simp only [escapeUnits, hd', if_true, octalRun_of_takes ht]
    rw [digitsValue_cons] at hus hes
    rw [← hus, ← hes]
    rfl
  | hexMissing ht =>
    simp only [escapeUnits, hexRun_of_takes ht]
    simp [escapeSpan]
  | hex ht hne hu =>
    obtain ⟨hus, hes⟩ := numericUnit_of hu
    have hn : taken.length ≠ 0 := by simpa using hne
    simp only [escapeUnits, hexRun_of_takes ht]
    simpa [escapeSpan, hn] using And.intro hus hes
  | shortU ht hn =>
    simp only [escapeUnits, hexRun_of_takes ht]
    simp [escapeSpan, hn]
  | narrowU ht hn henc =>
    simp only [escapeUnits, hexRun_of_takes ht]
    simp [escapeSpan, hn, henc]
  | wideU ht hn henc hu =>
    obtain ⟨hus, hes⟩ := numericUnit_of hu
    simp only [escapeUnits, hexRun_of_takes ht]
    simpa [escapeSpan, hn, henc] using And.intro hus hes
  | shortBigU ht hn =>
    simp only [escapeUnits, hexRun_of_takes ht]
    simp [escapeSpan, hn]
  | charBigU ht hn hc =>
    simp only [escapeUnits, hexRun_of_takes ht]
    simp [escapeSpan, hn, hc]
  | beyondBigU ht hn hc hv =>
    simp only [escapeUnits, hexRun_of_takes ht]
    simp [escapeSpan, hn, hc, codePointUnits, hv]
  | surrogateBigU ht hn hc hv =>
    simp only [escapeUnits, hexRun_of_takes ht]
    have hbelow : ¬ 0x10FFFF < digitsValue 16 hexDigitValue taken := by omega
    simp [escapeSpan, hn, hc, codePointUnits, Unicode.isSurrogate, hv, hbelow]
  | bigU ht hn hc hv hs hu =>
    simp only [escapeUnits, hexRun_of_takes ht]
    simp [hn, hc, codePointUnits_of hv hs hu]
  | letter h =>
    obtain ⟨hd, hx, hu, hU, -⟩ := letterEscapes_plain _ h
    have hoct : ('0' ≤ esc && esc ≤ '7') = false := by simpa using hd
    simp [escapeUnits, hoct, hx, hu, hU, simple_eq_some_iff.mpr h]
  | other hd hx hu hU hl hc =>
    obtain ⟨hus, hes⟩ := charUnit_of hc
    have hoct : ('0' ≤ esc && esc ≤ '7') = false := by simpa using hd
    simp only [escapeSpan, List.length_nil, Nat.add_zero] at hus hes ⊢
    simp [escapeUnits, hoct, hx, hu, hU, simple_eq_none_iff.mpr hl, ← hus, ← hes]

/-- The folder reads a body exactly as the rules do. -/
theorem cookFrom_of_reads {ctx : LiteralContext} {pos : Nat} {body : List Char} {us : List Nat}
    {es : List LexError} (h : Reads ctx pos body us es) : cookFrom ctx pos body = (us, es) := by
  induction h with
  | nil pos => simp [cookFrom]
  | lone pos => simp [cookFrom]
  | char hc hu h ih =>
    obtain ⟨hus, hes⟩ := charUnit_of hu
    rw [cookFrom.eq_def]
    simp [hc, ih, ← hus, ← hes]
  | escape he h ih =>
    simp [cookFrom, escapeUnits_of he, ih]

/-! ## Every body has a reading -/

theorem CharUnit.exists (ctx : LiteralContext) (span : Span) (c : Char) :
    ∃ us es, CharUnit ctx span c us es := by
  by_cases h : Fits ctx.encoding c
  · exact ⟨_, _, .fits h⟩
  · exact ⟨_, _, .replaced h⟩

theorem NumericUnit.exists (ctx : LiteralContext) (span : Span) (v : Nat) :
    ∃ us es, NumericUnit ctx span v us es := by
  by_cases h : v ≤ ctx.maxUnit
  · exact ⟨_, _, .fits h⟩
  · exact ⟨_, _, .overflows (Nat.lt_of_not_le h)⟩

theorem CodeUnits.exists (enc : Encoding) {v : Nat} (hv : v ≤ 0x10FFFF) :
    ∃ us, CodeUnits enc v us := by
  cases enc with
  | narrow => exact ⟨_, .inl ⟨rfl, rfl⟩⟩
  | wide => exact ⟨_, .inr ⟨rfl, utf16_utf16Units hv⟩⟩

/-- The folder's unit for a character is the one the rules give. -/
theorem charUnit_rule (ctx : LiteralContext) (span : Span) (c : Char) :
    CharUnit ctx span c [(charUnit ctx c span).1] (charUnit ctx c span).2 := by
  obtain ⟨us, es, h⟩ := CharUnit.exists ctx span c
  obtain ⟨hus, hes⟩ := charUnit_of h
  rwa [hus, hes]

/-- Every `\\U` escape has a rule: the cases split on the digit count, the literal kind and the
code point. -/
theorem exists_bigU (ctx : LiteralContext) (start : Nat) (cs : List Char) :
    ∃ taken rest us es, cs = taken ++ rest ∧ Escapes ctx start 'U' taken rest us es := by
  obtain ⟨taken, rest, rfl, ht⟩ := exists_takes Char.isHexDigit 6 cs
  refine ⟨taken, rest, ?_⟩
  by_cases hn : taken.length = 6
  swap
  · exact ⟨_, _, rfl, .shortBigU ht hn⟩
  cases hc : ctx.isChar with
  | true => exact ⟨_, _, rfl, .charBigU ht hn hc⟩
  | false =>
    by_cases hv : 0x10FFFF < digitsValue 16 hexDigitValue taken
    · exact ⟨_, _, rfl, .beyondBigU ht hn hc hv⟩
    by_cases hs : 0xD800 ≤ digitsValue 16 hexDigitValue taken ∧
        digitsValue 16 hexDigitValue taken ≤ 0xDFFF
    · exact ⟨_, _, rfl, .surrogateBigU ht hn hc hs⟩
    obtain ⟨us, hu⟩ := CodeUnits.exists ctx.encoding (Nat.le_of_not_lt hv)
    exact ⟨us, [], rfl, .bigU ht hn hc (Nat.le_of_not_lt hv) hs hu⟩

/-- Every escape has a rule, whatever follows the backslash. -/
theorem exists_escapes (ctx : LiteralContext) (start : Nat) (esc : Char) (cs : List Char) :
    ∃ taken rest us es, cs = taken ++ rest ∧ Escapes ctx start esc taken rest us es := by
  by_cases hd : '0' ≤ esc ∧ esc ≤ '7'
  · obtain ⟨taken, rest, rfl, ht⟩ := exists_takes isOctalTail 5 cs
    obtain ⟨us, es, hu⟩ := NumericUnit.exists ctx (escapeSpan start esc taken)
      (digitsValue 8 octalDigitValue (esc :: taken))
    exact ⟨taken, rest, us, es, rfl, .octal hd ht hu⟩
  by_cases hx : esc = 'x'
  · subst hx
    obtain ⟨taken, rest, rfl, ht⟩ := exists_takes Char.isHexDigit 4 cs
    by_cases hne : taken = []
    · subst hne
      exact ⟨[], rest, _, _, rfl, .hexMissing ht⟩
    obtain ⟨us, es, hu⟩ := NumericUnit.exists ctx (escapeSpan start 'x' taken)
      (digitsValue 16 hexDigitValue taken)
    exact ⟨taken, rest, us, es, rfl, .hex ht hne hu⟩
  by_cases hu : esc = 'u'
  · subst hu
    obtain ⟨taken, rest, rfl, ht⟩ := exists_takes Char.isHexDigit 4 cs
    by_cases hn : taken.length = 4
    swap
    · exact ⟨taken, rest, _, _, rfl, .shortU ht hn⟩
    cases henc : ctx.encoding with
    | narrow => exact ⟨taken, rest, _, _, rfl, .narrowU ht hn henc⟩
    | wide =>
      obtain ⟨us, es, hu⟩ := NumericUnit.exists ctx (escapeSpan start 'u' taken)
        (digitsValue 16 hexDigitValue taken)
      exact ⟨taken, rest, us, es, rfl, .wideU ht hn henc hu⟩
  by_cases hU : esc = 'U'
  · subst hU
    exact exists_bigU ctx start cs
  cases hs : simple esc with
  | some u => exact ⟨[], cs, [u], [], rfl, .letter (simple_eq_some_iff.mp hs)⟩
  | none =>
    obtain ⟨us, es, hc⟩ := CharUnit.exists ctx (escapeSpan start esc []) esc
    exact ⟨[], cs, us, _, rfl, .other hd hx hu hU (simple_eq_none_iff.mp hs) hc⟩

/-- What the folder gives is a reading of the body: induction along the folder's own
recursion. -/
theorem reads_cookFrom (ctx : LiteralContext) (pos : Nat) (body : List Char) :
    Reads ctx pos body (cookFrom ctx pos body).1 (cookFrom ctx pos body).2 := by
  fun_induction cookFrom ctx pos body with
  | case1 pos => exact .nil pos
  | case2 pos c cs hc u es hu us es' hus ih =>
    rw [hus] at ih
    have hcu := charUnit_rule ctx ⟨pos, pos + c.utf8Size⟩ c
    rw [hu] at hcu
    exact .char hc hcu ih
  | case3 pos c hc =>
    obtain rfl : c = '\\' := not_not.mp hc
    exact .lone pos
  | case4 pos c hc esc cs stop us es n he us' es' hus ih =>
    obtain rfl : c = '\\' := not_not.mp hc
    obtain ⟨taken, rest, us₀, es₀, rfl, hesc⟩ := exists_escapes ctx pos esc cs
    obtain ⟨rfl, rfl, rfl⟩ : us₀ = us ∧ es₀ = es ∧ taken.length = n := by
      simpa [stop, escapeUnits_of hesc] using he
    rw [List.drop_left] at hus ih
    rw [hus] at ih
    exact .escape hesc ih

/-- The folder's result is the one reading the rules allow. -/
theorem cookFrom_eq_iff {ctx : LiteralContext} {pos : Nat} {body : List Char} {us : List Nat}
    {es : List LexError} : cookFrom ctx pos body = (us, es) ↔ Reads ctx pos body us es := by
  constructor
  · intro h
    have hr := reads_cookFrom ctx pos body
    rwa [h] at hr
  · exact cookFrom_of_reads

/-! ## Every unit fits the literal -/

theorem le_maxUnit_of_lt (ctx : LiteralContext) {u : Nat} (h : u < 0x100) : u ≤ ctx.maxUnit := by
  unfold LiteralContext.maxUnit
  split <;> omega

theorem CharUnit.le_maxUnit {ctx : LiteralContext} {span : Span} {c : Char} {us : List Nat}
    {es : List LexError} (h : CharUnit ctx span c us es) : ∀ u ∈ us, u ≤ ctx.maxUnit := by
  intro u hu
  cases h with
  | fits hf =>
    obtain rfl := List.mem_singleton.mp hu
    unfold LiteralContext.maxUnit
    rcases hf with ⟨he, hc⟩ | ⟨he, hc⟩ <;> simp only [he] <;> omega
  | replaced =>
    obtain rfl := List.mem_singleton.mp hu
    exact le_maxUnit_of_lt ctx (by decide)

theorem NumericUnit.le_maxUnit {ctx : LiteralContext} {span : Span} {v : Nat} {us : List Nat}
    {es : List LexError} (h : NumericUnit ctx span v us es) : ∀ u ∈ us, u ≤ ctx.maxUnit := by
  intro u hu
  cases h with
  | fits hv => rwa [List.mem_singleton.mp hu]
  | overflows =>
    obtain rfl := List.mem_singleton.mp hu
    exact le_maxUnit_of_lt ctx (by decide)

/-- UTF-8 bytes fit a narrow unit and UTF-16 units a wide one. -/
theorem CodeUnits.le_maxUnit {ctx : LiteralContext} {v : Nat} {us : List Nat}
    (h : CodeUnits ctx.encoding v us) : ∀ u ∈ us, u ≤ ctx.maxUnit := by
  intro u hu
  rcases h with ⟨-, rfl⟩ | ⟨he, hv⟩
  · obtain ⟨b, -, rfl⟩ := List.mem_map.mp hu
    exact le_maxUnit_of_lt ctx b.toNat_lt
  · simp only [LiteralContext.maxUnit, he]
    rcases hv with ⟨hv, rfl⟩ | ⟨hi, lo, rfl, -, hhi, -, hlo, -⟩
    · rw [List.mem_singleton.mp hu]
      omega
    · simp only [List.mem_cons, List.not_mem_nil, or_false] at hu
      omega

theorem Escapes.le_maxUnit {ctx : LiteralContext} {start : Nat} {esc : Char}
    {taken rest : List Char} {us : List Nat} {es : List LexError}
    (h : Escapes ctx start esc taken rest us es) : ∀ u ∈ us, u ≤ ctx.maxUnit := by
  cases h with
  | octal _ _ hu | hex _ _ hu | wideU _ _ _ hu => exact hu.le_maxUnit
  | bigU _ _ _ _ _ hu => exact hu.le_maxUnit
  | other _ _ _ _ _ hc => exact hc.le_maxUnit
  | letter h =>
    intro u hu
    rw [List.mem_singleton.mp hu]
    exact le_maxUnit_of_lt ctx (by have := (letterEscapes_plain _ h).2.2.2.2; omega)
  | hexMissing | shortU | narrowU | shortBigU | charBigU | beyondBigU | surrogateBigU =>
    simp

/-- Every unit of a reading fits the literal's unit: induction on the reading. -/
theorem Reads.le_maxUnit {ctx : LiteralContext} {pos : Nat} {body : List Char} {us : List Nat}
    {es : List LexError} (h : Reads ctx pos body us es) : ∀ u ∈ us, u ≤ ctx.maxUnit := by
  induction h with
  | nil | lone => simp
  | char _ hu _ ih =>
    intro u hu'
    rcases List.mem_append.mp hu' with h | h
    · exact hu.le_maxUnit u h
    · exact ih u h
  | escape he _ ih =>
    intro u hu'
    rcases List.mem_append.mp hu' with h | h
    · exact he.le_maxUnit u h
    · exact ih u h

/-! ## The main statement -/

/-- The folder reads a literal body by the escape grammar: its result is exactly the reading the
rules give, every unit fits the literal (below 256 in a narrow literal, below 65536 in a wide
one), and every error lies inside the body. -/
theorem cookFrom_reads (ctx : LiteralContext) (pos : Nat) (body : List Char) (us : List Nat)
    (es : List LexError) :
    (cookFrom ctx pos body = (us, es) ↔ Reads ctx pos body us es) ∧
      (∀ u ∈ (cookFrom ctx pos body).1, u ≤ ctx.maxUnit) ∧
      ∀ e ∈ (cookFrom ctx pos body).2,
        pos ≤ e.span.start ∧ e.span.stop ≤ pos + Lex.byteLength body := by
  refine ⟨cookFrom_eq_iff, (reads_cookFrom ctx pos body).le_maxUnit, ?_⟩
  intro e he
  obtain ⟨hstart, hstop, -⟩ := cookFrom_within ctx pos body e he
  exact ⟨hstart, hstop⟩

end Escape

end SolarFront
