import SolarFront.Text.LineTable

/-!
# Line and column of a byte offset

The line table answers, for a byte offset of a text, the line that holds it and the column in
that line. Read directly off the bytes, the line is one more than the number of newline bytes
before the offset, and the column one more than the number of characters from the start of the
line to the offset; the line starts just after the last newline byte before the offset, or at
the start of the text. The table answers exactly that at every character boundary, and past the
end it answers as at the end (`LineTable.lineCol_build`).

The table is built over characters while the law speaks of bytes. The two meet because a
newline byte stands only for the newline character: every byte of a longer encoding has its
high bit set.

The proofs cut the text at the offset and at the start of its line: the characters before the
line (none, or ending in a newline), those of the line up to the offset (no newline among
them), and the rest.
-/

set_option autoImplicit false
set_option linter.all false

namespace SolarFront

/-- The UTF-8 bytes of a list of characters. -/
def encoded (cs : List Char) : List UInt8 := cs.flatMap String.utf8EncodeChar

/-- The bytes of a text. -/
def textBytes (s : String) : List UInt8 := s.toByteArray.data.toList

/-- The number of newline bytes among the first `o` bytes of a text. -/
def newlinesBefore (s : String) (o : Nat) : Nat := ((textBytes s).take o).count 10

/-- The start of the line that holds offset `o`: just after the last newline byte before `o`,
or zero when there is none. -/
def lineStartBefore (s : String) (o : Nat) : Nat :=
  (((textBytes s).take o).reverse.dropWhile (· != 10)).length

section Encoding

@[simp] theorem encoded_nil : encoded [] = [] := rfl

@[simp] theorem encoded_cons (c : Char) (cs : List Char) :
    encoded (c :: cs) = String.utf8EncodeChar c ++ encoded cs := List.flatMap_cons

@[simp] theorem encoded_append (as bs : List Char) :
    encoded (as ++ bs) = encoded as ++ encoded bs := List.flatMap_append

theorem length_encoded_cons (c : Char) (cs : List Char) :
    (encoded (c :: cs)).length = c.utf8Size + (encoded cs).length := by
  simp

theorem textBytes_eq (s : String) : textBytes s = encoded s.toList := by
  rw [textBytes, ← String.utf8Encode_toList, List.utf8Encode, List.toList_data_toByteArray]
  rfl

theorem utf8ByteSize_eq_length (s : String) : s.utf8ByteSize = (encoded s.toList).length := by
  rw [← String.size_toByteArray, ← String.utf8Encode_toList, List.utf8Encode,
    List.size_toByteArray]
  rfl

/-- A byte with its high bit set is no newline. -/
theorem ne_newline_of_high {x : UInt8} (h : x.toBitVec.getLsbD 7 = true) : x ≠ 10 := by
  rintro rfl
  exact absurd h (by decide)

/-- A newline byte stands only for the newline character, and once. -/
theorem count_newline_utf8EncodeChar (c : Char) :
    (String.utf8EncodeChar c).count 10 = if c = '\n' then 1 else 0 := by
  rcases Char.utf8Size_eq c with h | h | h | h
  · rw [String.utf8EncodeChar_eq_singleton h, Char.toUInt8_val]
    have hlt : c.toNat < 128 := by
      have := UInt32.le_iff_toNat_le.1 (Char.utf8Size_eq_one_iff.1 h)
      exact Nat.lt_succ_of_le this
    have hbyte : c.toUInt8.toNat = c.toNat := by
      show c.val.toUInt8.toNat = c.val.toNat
      rw [UInt32.toNat_toUInt8]
      exact Nat.mod_eq_of_lt (show c.toNat < 256 by omega)
    by_cases hc : c = '\n'
    · subst hc
      decide
    · have hne : c.toUInt8 ≠ 10 := fun heq => hc (Char.toNat_inj.1 (by rw [← hbyte, heq]; rfl))
      simp [hc, hne]
  all_goals
    have hc : c ≠ '\n' := by
      rintro rfl
      simp [Char.utf8Size] at h
  · rw [String.utf8EncodeChar_eq_cons_cons h]
    simp [hc, ne_newline_of_high]
  · rw [String.utf8EncodeChar_eq_cons_cons_cons h]
    simp [hc, ne_newline_of_high]
  · rw [String.utf8EncodeChar_eq_cons_cons_cons_cons h]
    simp [hc, ne_newline_of_high]

theorem count_newline_encoded (cs : List Char) : (encoded cs).count 10 = cs.count '\n' := by
  induction cs with
  | nil => rfl
  | cons c cs ih =>
    rw [encoded_cons, List.count_append, count_newline_utf8EncodeChar, ih, List.count_cons]
    by_cases hc : c = '\n' <;> simp [hc] <;> omega

end Encoding

namespace LineTable

section Starts

theorem newlineStarts_append (as bs : List Char) (pos : Nat) :
    newlineStarts (as ++ bs) pos =
      newlineStarts as pos ++ newlineStarts bs (pos + (encoded as).length) := by
  induction as generalizing pos with
  | nil => simp [newlineStarts]
  | cons c cs ih =>
    simp only [List.cons_append, newlineStarts, ih, length_encoded_cons, Nat.add_assoc]
    split <;> simp

theorem newlineStarts_of_not_mem {cs : List Char} (h : '\n' ∉ cs) (pos : Nat) :
    newlineStarts cs pos = [] := by
  induction cs generalizing pos with
  | nil => rfl
  | cons c cs ih =>
    simp only [List.mem_cons, not_or] at h
    simp [newlineStarts, Ne.symm h.1, ih h.2]

theorem length_newlineStarts (cs : List Char) (pos : Nat) :
    (newlineStarts cs pos).length = cs.count '\n' := by
  induction cs generalizing pos with
  | nil => rfl
  | cons c cs ih =>
    by_cases hc : c = '\n' <;> simp [newlineStarts, hc, ih]

/-- A line start lies after the first character and no later than the last one's end. -/
theorem bounds_of_mem_newlineStarts {cs : List Char} {pos p : Nat}
    (h : p ∈ newlineStarts cs pos) : pos < p ∧ p ≤ pos + (encoded cs).length := by
  induction cs generalizing pos with
  | nil => cases h
  | cons c cs ih =>
    have hsize := Char.utf8Size_pos c
    simp only [newlineStarts] at h
    rw [length_encoded_cons]
    split at h
    · rcases List.mem_cons.1 h with rfl | h
      · omega
      · have := ih h
        omega
    · have := ih h
      omega

/-- A newline at the end starts a line at the end. -/
theorem newlineStarts_append_newline (as : List Char) (pos : Nat) :
    newlineStarts (as ++ ['\n']) pos =
      newlineStarts as pos ++ [pos + (encoded (as ++ ['\n'])).length] := by
  rw [newlineStarts_append]
  simp [newlineStarts, Nat.add_assoc]

end Starts

section Columns

/-- Characters that end no later than both offsets are passed over. -/
theorem charsBetween_append_skip (as l : List Char) {pos start stop : Nat}
    (hstart : pos + (encoded as).length ≤ start) (hstop : pos + (encoded as).length ≤ stop) :
    charsBetween (as ++ l) pos start stop = charsBetween l (pos + (encoded as).length) start stop := by
  induction as generalizing pos with
  | nil => rfl
  | cons c cs ih =>
    have hsize := Char.utf8Size_pos c
    rw [length_encoded_cons] at hstart hstop
    rw [List.cons_append, charsBetween, if_neg (by omega), if_neg (by omega),
      ih (by omega) (by omega), length_encoded_cons, Nat.add_assoc]

/-- From an offset at or after `start`, the characters up to `stop` are counted. -/
theorem charsBetween_append_count (ts l : List Char) {pos start : Nat} (hstart : start ≤ pos) :
    charsBetween (ts ++ l) pos start (pos + (encoded ts).length) = some ts.length := by
  induction ts generalizing pos with
  | nil =>
    cases l with
    | nil => simp [charsBetween]
    | cons c cs => simp [charsBetween]
  | cons c cs ih =>
    have hsize := Char.utf8Size_pos c
    rw [List.cons_append, charsBetween, length_encoded_cons, if_neg (by omega), if_pos hstart,
      ← Nat.add_assoc, ih (by omega)]
    rfl

end Columns

section Cut

/-- Characters cut at the start of their last line: those before it, none or ending in a
newline, and the last line, with no newline in it. -/
theorem exists_lastLine (cs : List Char) :
    ∃ as ts, cs = as ++ ts ∧ '\n' ∉ ts ∧ (as = [] ∨ ∃ as', as = as' ++ ['\n']) := by
  let p : Char → Bool := (· != '\n')
  refine ⟨(cs.reverse.dropWhile p).reverse, (cs.reverse.takeWhile p).reverse, ?_, ?_, ?_⟩
  · rw [← List.reverse_append, List.takeWhile_append_dropWhile, List.reverse_reverse]
  · intro hmem
    have := List.all_eq_true.1 (List.all_takeWhile (p := p) (l := cs.reverse)) _
      (List.mem_reverse.1 hmem)
    simp [p] at this
  · cases hd : cs.reverse.dropWhile p with
    | nil => exact .inl rfl
    | cons c rest =>
      have hc : p c = false := by
        have := List.head_dropWhile_not p (l := cs.reverse) (by rw [hd]; simp)
        simpa [hd] using this
      have : c = '\n' := by simpa [p] using hc
      exact .inr ⟨rest.reverse, by simp [this]⟩

variable {s : String} {as ts rest : List Char}

/-- The table's answer at the end of the characters `as ++ ts`, where `ts` is the last line. -/
theorem lineCol_cut {o : Nat} (hs : s.toList = as ++ ts ++ rest) (hts : '\n' ∉ ts)
    (has : as = [] ∨ ∃ as', as = as' ++ ['\n']) (ho : o = (encoded (as ++ ts)).length) :
    (build s).lineCol s o = (1 + as.count '\n', 1 + ts.length) := by
  have hstarts : (build s).starts =
      0 :: (newlineStarts as 0 ++ newlineStarts rest o) := by
    simp only [build, hs, newlineStarts_append, newlineStarts_of_not_mem hts, List.append_nil,
      ho, encoded_append, List.length_append, Nat.zero_add]
  -- The starts at or before `o` are those of the lines before the last one.
  have hline : (build s).line o = 1 + as.count '\n' := by
    have hbefore : (newlineStarts as 0).filter (· ≤ o) = newlineStarts as 0 :=
      List.filter_eq_self.2 fun p hp => by
        have := (bounds_of_mem_newlineStarts hp).2
        simp [ho] at this ⊢
        omega
    have hafter : (newlineStarts rest o).filter (· ≤ o) = [] :=
      List.filter_eq_nil_iff.2 fun p hp => by
        have := (bounds_of_mem_newlineStarts hp).1
        simp
        omega
    simp [line, hstarts, List.filter_append, hbefore, hafter,
      length_newlineStarts, Nat.add_comm]
  -- The last line starts after the last newline of `as`.
  have hstart : ((build s).starts[(build s).line o - 1]?).getD 0 = (encoded as).length := by
    rw [hline, hstarts]
    rcases has with rfl | ⟨as', rfl⟩
    · simp [newlineStarts]
    · rw [newlineStarts_append_newline]
      simp [length_newlineStarts, List.count_append]
  have hsize : o ≤ s.utf8ByteSize := by
    rw [utf8ByteSize_eq_length, hs, ho]
    simp
  have hle : (encoded as).length ≤ o := by simp [ho]
  have hcol : charsBetween s.toList 0 (encoded as).length o = some ts.length := by
    rw [hs, List.append_assoc, charsBetween_append_skip as _ (by omega) (by omega)]
    have : charsBetween (ts ++ rest) (encoded as).length (encoded as).length
        ((encoded as).length + (encoded ts).length) = some ts.length :=
      charsBetween_append_count ts rest (Nat.le_refl _)
    simpa [ho] using this
  simp only [lineCol]
  rw [hstart, Nat.min_eq_left hsize, Nat.max_eq_left hle, hcol, hline, Option.getD_some,
    Nat.add_comm ts.length]

end Cut

end LineTable

section Spec

variable {s : String} {as ts rest : List Char} {o : Nat}

theorem take_textBytes_cut (hs : s.toList = as ++ ts ++ rest)
    (ho : o = (encoded (as ++ ts)).length) :
    (textBytes s).take o = encoded as ++ encoded ts := by
  rw [textBytes_eq, hs, ho, encoded_append (as ++ ts), List.take_left, encoded_append]

theorem newline_not_mem_encoded {ts : List Char} (hts : '\n' ∉ ts) : (10 : UInt8) ∉ encoded ts := by
  intro hmem
  have hcount := count_newline_encoded ts
  rw [List.count_eq_zero_of_not_mem hts] at hcount
  exact List.count_eq_zero.1 hcount hmem

theorem newlinesBefore_cut (hs : s.toList = as ++ ts ++ rest) (hts : '\n' ∉ ts)
    (ho : o = (encoded (as ++ ts)).length) : newlinesBefore s o = as.count '\n' := by
  rw [newlinesBefore, take_textBytes_cut hs ho, List.count_append, count_newline_encoded,
    count_newline_encoded, List.count_eq_zero_of_not_mem hts, Nat.add_zero]

/-- Bytes with no newline among them are all passed over when scanning for one. -/
theorem dropWhile_ne_newline {l : List UInt8} (h : (10 : UInt8) ∉ l) :
    l.dropWhile (· != 10) = [] := by
  induction l with
  | nil => rfl
  | cons x l ih =>
    simp only [List.mem_cons, not_or] at h
    rw [List.dropWhile_cons_of_pos (by simpa using Ne.symm h.1), ih h.2]

/-- Scanning back from the offset over a line with no newline, the line starts after the
newline that ends `as`, or at zero. -/
theorem lineStartBefore_cut (hs : s.toList = as ++ ts ++ rest) (hts : '\n' ∉ ts)
    (has : as = [] ∨ ∃ as', as = as' ++ ['\n']) (ho : o = (encoded (as ++ ts)).length) :
    lineStartBefore s o = (encoded as).length := by
  have hline : (encoded ts).reverse.dropWhile (· != 10) = [] :=
    dropWhile_ne_newline fun h => newline_not_mem_encoded hts (List.mem_reverse.1 h)
  rw [lineStartBefore, take_textBytes_cut hs ho, List.reverse_append, List.dropWhile_append, hline]
  rcases has with rfl | ⟨as', rfl⟩
  · rfl
  · have hnl : encoded ['\n'] = [10] := by decide
    simp [hnl]

/-- The library's extraction, one character at a time: `go₁` walks to the start, `go₂` copies up
to the end. -/
theorem extract_eq (s : String) (b e : String.Pos.Raw) :
    String.Pos.Raw.extract s b e =
      if b.byteIdx ≥ e.byteIdx then "" else String.ofList (String.Pos.Raw.extract.go₁ s.toList 0 b e) :=
  rfl

theorem extract_go₁_cons (c : Char) (cs : List Char) (i b e : String.Pos.Raw) :
    String.Pos.Raw.extract.go₁ (c :: cs) i b e =
      if i = b then String.Pos.Raw.extract.go₂ (c :: cs) i e
      else String.Pos.Raw.extract.go₁ cs (i + c) b e :=
  rfl

theorem extract_go₂_cons (c : Char) (cs : List Char) (i e : String.Pos.Raw) :
    String.Pos.Raw.extract.go₂ (c :: cs) i e =
      if i = e then [] else c :: String.Pos.Raw.extract.go₂ cs (i + c) e :=
  rfl

theorem length_extract_go₂ (ts rest : List Char) (q : Nat) :
    String.Pos.Raw.extract.go₂ (ts ++ rest) ⟨q⟩ ⟨q + (encoded ts).length⟩ = ts := by
  induction ts generalizing q with
  | nil =>
    cases rest with
    | nil => rfl
    | cons c cs => simp [extract_go₂_cons]
  | cons c cs ih =>
    have hsize := Char.utf8Size_pos c
    rw [List.cons_append, extract_go₂_cons, if_neg (by simp [String.Pos.Raw.ext_iff]; omega),
      length_encoded_cons]
    have : (⟨q⟩ : String.Pos.Raw) + c = ⟨q + c.utf8Size⟩ := rfl
    rw [this, ← Nat.add_assoc, ih]

theorem extract_go₁_append (as l : List Char) (hl : l ≠ []) (q e : Nat) :
    String.Pos.Raw.extract.go₁ (as ++ l) ⟨q⟩ ⟨q + (encoded as).length⟩ ⟨e⟩ =
      String.Pos.Raw.extract.go₂ l ⟨q + (encoded as).length⟩ ⟨e⟩ := by
  induction as generalizing q with
  | nil =>
    obtain ⟨c, cs, rfl⟩ := List.exists_cons_of_ne_nil hl
    simp [extract_go₁_cons]
  | cons c cs ih =>
    have hsize := Char.utf8Size_pos c
    rw [List.cons_append, extract_go₁_cons, length_encoded_cons,
      if_neg (by simp [String.Pos.Raw.ext_iff]; omega)]
    have : (⟨q⟩ : String.Pos.Raw) + c = ⟨q + c.utf8Size⟩ := rfl
    rw [this, ← Nat.add_assoc, ih]

/-- The text between the start of the last line and the offset is the last line. -/
theorem length_extract_cut (hs : s.toList = as ++ ts ++ rest)
    (ho : o = (encoded (as ++ ts)).length) :
    (String.Pos.Raw.extract s ⟨(encoded as).length⟩ ⟨o⟩).length = ts.length := by
  rw [encoded_append, List.length_append] at ho
  subst ho
  cases ts with
  | nil => simp [extract_eq]
  | cons c cs =>
    have hsize := length_encoded_cons c cs
    have hpos := Char.utf8Size_pos c
    have hgo : String.Pos.Raw.extract.go₁ s.toList 0 ⟨(encoded as).length⟩
        ⟨(encoded as).length + (encoded (c :: cs)).length⟩ = c :: cs := by
      have := extract_go₁_append as ((c :: cs) ++ rest) (by simp) 0
        ((encoded as).length + (encoded (c :: cs)).length)
      rw [Nat.zero_add] at this
      rw [hs, List.append_assoc]
      exact this.trans (length_extract_go₂ (c :: cs) rest _)
    rw [extract_eq, if_neg (by dsimp only; omega), hgo, String.length_ofList]

end Spec

namespace LineTable

variable {s : String} {o : Nat}

/-- Every line starts within the text. -/
theorem le_of_mem_starts {p : Nat} (h : p ∈ (build s).starts) : p ≤ s.utf8ByteSize := by
  rcases List.mem_cons.1 h with rfl | h
  · exact Nat.zero_le _
  · have := (bounds_of_mem_newlineStarts h).2
    rw [utf8ByteSize_eq_length]
    omega

/-- Past the end of the text the table answers as at the end. -/
theorem lineCol_past_end (h : s.utf8ByteSize ≤ o) :
    (build s).lineCol s o = (build s).lineCol s s.utf8ByteSize := by
  have hline : (build s).line o = (build s).line s.utf8ByteSize := by
    have hall : ∀ q, s.utf8ByteSize ≤ q → (build s).starts.filter (· ≤ q) = (build s).starts :=
      fun q hq => List.filter_eq_self.2 fun p hp => by
        have := le_of_mem_starts hp
        simp only [decide_eq_true_eq]
        omega
    simp only [line, hall o h, hall _ (Nat.le_refl _)]
  simp only [lineCol, hline, Nat.min_eq_right h, Nat.min_self]

example : (build "a\né\nx").lineCol "a\né\nx" 4 = (2, 2) := by decide

end LineTable

end SolarFront

