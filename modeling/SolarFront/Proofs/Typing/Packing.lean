import Mathlib
import SolarFront.Typing.Layout

/-!
# How a struct packs its members

`structLayout` places the members of a struct in order. A bitfield narrower than its type goes
into the storage word the member before it left open when that word has its type and room for
its bits; any other member starts new storage at the end of the struct so far, and a member that
is not such a bitfield leaves no word open. This module states the outcome as laws of the placed
members (`Packed`): the rule between consecutive members, every member inside the struct and
every bit range inside its word, no two members overlapping, and the size and alignment of the
struct.

Offsets and word widths saturate at `wordMax`, so the laws need the member sizes to sum to less
than 2^32 and every bitfield's word to have fewer than 2^32 bits (`Shaped`), besides what the
checker makes sure of: bit widths from one to the width of the type, and one size for all
members of one type. Past 4 GiB the saturated offsets do overlap (`structLayout_saturated`).
A union places every member at offset zero and is as large and as aligned as its largest
member.
-/

set_option autoImplicit false
set_option linter.all false

namespace SolarFront

namespace FieldShape

/-- The bit width of a bitfield narrower than its type; `none` for any other member. -/
def narrowBits (f : FieldShape) : Option Nat := f.bits.filter fun b => b < 8 * f.size

@[simp] theorem narrowBits_eq_some {f : FieldShape} {b : Nat} :
    f.narrowBits = some b ↔ f.bits = some b ∧ b < 8 * f.size := by
  simp [narrowBits, Option.filter_eq_some_iff]

end FieldShape

namespace Packing

/-- A member with the place it was given. -/
abbrev Placed := FieldShape × MemberLayout

/-- The word a member leaves open: a bitfield narrower than its type leaves its word open with
its own bits used; any other member closes it. -/
def wordAfter (p : Placed) : Option BitWord :=
  p.1.narrowBits.map fun b => ⟨p.1.ty, p.2.offset, p.2.bitOffset + b, 8 * p.1.size⟩

/-- Whether a member goes into the open word: it is a bitfield narrower than its type, the word
has its type and room for its bits. -/
def joins : Option BitWord → FieldShape → Bool
  | some w, f => match f.narrowBits with
    | some b => w.ty == f.ty && w.used + b ≤ w.width
    | none => false
  | none, _ => false

/-- The rule between a member and the next: the next one sits in the open word after its used
bits when it joins it, else at the end of the member before, at bit zero. -/
def Next (p q : Placed) : Prop :=
  (joins (wordAfter p) q.1 = true ∧ q.2.offset = p.2.offset ∧
      ∀ w ∈ wordAfter p, q.2.bitOffset = w.used) ∨
    (joins (wordAfter p) q.1 = false ∧ q.2.offset = p.2.offset + p.1.size ∧ q.2.bitOffset = 0)

/-- Two members placed in this order do not overlap: the first ends before the second starts, or
both are bitfields narrower than their one type, in one word, the first's bits below the
second's. -/
def Apart (p q : Placed) : Prop :=
  p.2.offset + p.1.size ≤ q.2.offset ∨
    ∃ b ∈ p.1.narrowBits, ∃ c ∈ q.1.narrowBits,
      p.1.ty = q.1.ty ∧ p.2.offset = q.2.offset ∧ p.2.bitOffset + b ≤ q.2.bitOffset

/-- A member sits in the word `w`: it is a bitfield narrower than its type, of the word's type, at
its offset, and its bits are among the used ones. -/
def InWord (w : BitWord) (p : Placed) : Prop :=
  ∃ b ∈ p.1.narrowBits, p.1.ty = w.ty ∧ p.2.offset = w.offset ∧ p.2.bitOffset + b ≤ w.used

/-- The members that start storage of their own: those at bit zero. -/
def startSizes (ps : List Placed) : Nat :=
  ((ps.filter fun p => p.2.bitOffset == 0).map fun p => p.1.size).sum

theorem wordAfter_eq_some {p : Placed} {w : BitWord} :
    wordAfter p = some w ↔
      ∃ b, p.1.narrowBits = some b ∧ w = ⟨p.1.ty, p.2.offset, p.2.bitOffset + b, 8 * p.1.size⟩ := by
  simp [wordAfter, eq_comm]

@[simp] theorem joins_none (f : FieldShape) : joins none f = false := rfl

theorem joins_eq_true {w : BitWord} {f : FieldShape} :
    joins (some w) f = true ↔ ∃ b, f.narrowBits = some b ∧ w.ty = f.ty ∧ w.used + b ≤ w.width := by
  simp only [joins]
  cases hn : f.narrowBits with
  | none => simp
  | some b => simp

theorem startSizes_snoc (ps : List Placed) (p : Placed) :
    startSizes (ps ++ [p]) = startSizes ps + if p.2.bitOffset = 0 then p.1.size else 0 := by
  unfold startSizes
  split <;> simp_all

/-- Only members that start storage count, so the count is at most the sum of all sizes. -/
theorem startSizes_le (ps : List Placed) : startSizes ps ≤ (ps.map fun p => p.1.size).sum :=
  (List.filter_sublist.map _).sum_le_sum fun _ _ => Nat.zero_le _

end Packing

open Packing

/-- The laws of placed members `ps` in a struct of size `size` and alignment `align`. -/
structure Packed (ps : List Placed) (size align : Nat) : Prop where
  /-- Every member keeps its name and bit width. -/
  copies : ∀ p ∈ ps, p.2.name = p.1.name ∧ p.2.bitWidth = p.1.bits
  /-- The first member is at offset zero, bit zero. -/
  first : ∀ p ∈ ps.head?, p.2.offset = 0 ∧ p.2.bitOffset = 0
  /-- Each member is placed after the one before by the packing rule. -/
  chain : ps.IsChain Next
  /-- Every member lies inside the struct, every bit range inside its word. -/
  within : ∀ p ∈ ps, p.2.offset + p.1.size ≤ size ∧
    ∀ b ∈ p.1.bits, p.2.bitOffset + b ≤ 8 * p.1.size
  /-- No two members overlap. -/
  apart : ps.Pairwise Apart
  /-- The size is the sum of the sizes of the members that start storage. -/
  size_eq : size = startSizes ps
  /-- The alignment is the largest member alignment, and at least one. -/
  align_max : 1 ≤ align ∧ (∀ p ∈ ps, p.1.align ≤ align) ∧
    (align = 1 ∨ ∃ p ∈ ps, p.1.align = align)

/-- Member shapes as the checker makes them, small enough that nothing saturates: bit widths
from one to the width of the type, one size for the members of one type, sizes that sum to less
than 2^32 and bitfield words of fewer than 2^32 bits. -/
structure Shaped (fields : List FieldShape) : Prop where
  bits : ∀ f ∈ fields, ∀ b ∈ f.bits, 1 ≤ b ∧ b ≤ 8 * f.size
  sameSize : ∀ f ∈ fields, ∀ g ∈ fields, f.ty = g.ty → f.size = g.size
  sum : (fields.map (·.size)).sum ≤ wordMax
  width : ∀ f ∈ fields, ∀ b ∈ f.bits, 8 * f.size ≤ wordMax

namespace Shaped

theorem of_append {l₁ l₂ : List FieldShape} (h : Shaped (l₁ ++ l₂)) : Shaped l₁ where
  bits f hf := h.bits f (List.mem_append_left l₂ hf)
  sameSize f hf g hg := h.sameSize f (List.mem_append_left l₂ hf) g (List.mem_append_left l₂ hg)
  sum := by
    have := h.sum
    simp only [List.map_append, List.sum_append] at this
    omega
  width f hf := h.width f (List.mem_append_left l₂ hf)

end Shaped

namespace StructCursor

/-- What the cursor knows of the members placed so far: the open word is the one the last
member left, the offset is the end of the last member, and every member ends before the open
word or sits in it. -/
structure Open (ps : List Placed) (c : StructCursor) : Prop where
  word : c.word = ps.getLast?.bind wordAfter
  last : ∀ p ∈ ps.getLast?, c.offset = p.2.offset + p.1.size
  inWord : ∀ w ∈ c.word, ∀ p ∈ ps, p.2.offset + p.1.size ≤ w.offset ∨ InWord w p

/-- One member placed without saturation: it joins the open word, or it starts storage at the
offset; either way the word it leaves open is `wordAfter`. -/
theorem place_cases (c : StructCursor) (f : FieldShape) (hsat : c.offset + f.size ≤ wordMax)
    (hwide : ∀ b ∈ f.bits, 8 * f.size ≤ wordMax)
    (hw : ∀ w ∈ c.word, w.ty = f.ty → w.width = 8 * f.size) :
    (joins c.word f = true ∧ ∃ w ∈ c.word,
        c.place f = (⟨f.name, w.offset, w.used, f.bits⟩,
          ⟨c.offset, max c.align f.align, wordAfter (f, ⟨f.name, w.offset, w.used, f.bits⟩)⟩)) ∨
      (joins c.word f = false ∧
        c.place f = (⟨f.name, c.offset, 0, f.bits⟩,
          ⟨c.offset + f.size, max c.align f.align,
            wordAfter (f, ⟨f.name, c.offset, 0, f.bits⟩)⟩)) := by
  have hadd : satAdd c.offset f.size = c.offset + f.size := by
    unfold satAdd
    omega
  unfold place
  cases hb : f.bits with
  | none =>
    right
    have hn : f.narrowBits = none := by simp [FieldShape.narrowBits, hb]
    cases hcw : c.word <;> simp [joins, hn, wordAfter, hadd]
  | some b =>
    have hmul : satMul f.size 8 = 8 * f.size := by
      have := hwide b hb
      unfold satMul
      omega
    by_cases hlt : b < 8 * f.size
    · have hn : f.narrowBits = some b := by simp [hb, hlt]
      cases hcw : c.word with
      | none =>
        right
        simp [joins, wordAfter, hn, hmul, hlt, hadd]
      | some w =>
        by_cases hfit : w.ty = f.ty ∧ w.used + b ≤ w.width
        · left
          have hwidth := hw w (by simp [hcw]) hfit.1
          have hroom : w.used + b ≤ 8 * f.size := hwidth ▸ hfit.2
          simp [joins, wordAfter, hn, hmul, hlt, hfit, hwidth, hroom]
        · right
          have hfull : w.ty = f.ty → w.width < w.used + b :=
            fun hty => Nat.lt_of_not_le fun hle => hfit ⟨hty, hle⟩
          simp only [joins, hn, hmul, hlt, hadd, Bool.and_eq_true, beq_iff_eq, decide_eq_true_eq,
            hfit, if_true]
          simpa [wordAfter, hb, hlt] using hfull
    · right
      have hn : f.narrowBits = none := by
        simp only [FieldShape.narrowBits, hb, Option.filter_some, decide_eq_true_eq, hlt]
        rfl
      cases hcw : c.word <;> simp [joins, wordAfter, hn, hmul, hlt, hadd]

/-! ## One member -/

section Step

variable {ps : List Placed} {c : StructCursor} {f : FieldShape}

theorem align_max_snoc {align : Nat}
    (h : 1 ≤ align ∧ (∀ p ∈ ps, p.1.align ≤ align) ∧ (align = 1 ∨ ∃ p ∈ ps, p.1.align = align))
    (m : MemberLayout) :
    1 ≤ max align f.align ∧ (∀ p ∈ ps ++ [(f, m)], p.1.align ≤ max align f.align) ∧
      (max align f.align = 1 ∨ ∃ p ∈ ps ++ [(f, m)], p.1.align = max align f.align) := by
  obtain ⟨hone, hle, heq⟩ := h
  refine ⟨le_max_of_le_left hone, ?_, ?_⟩
  · intro p hp
    rcases List.mem_append.mp hp with hp | hp
    · exact le_max_of_le_left (hle p hp)
    · simp [List.mem_singleton.mp hp]
  · rcases le_total f.align align with hfa | hfa
    · rw [max_eq_left hfa]
      rcases heq with heq | ⟨p, hp, heq⟩
      · exact .inl heq
      · exact .inr ⟨p, List.mem_append_left _ hp, heq⟩
    · rw [max_eq_right hfa]
      exact .inr ⟨(f, m), by simp, rfl⟩

theorem copies_snoc (h : ∀ p ∈ ps, p.2.name = p.1.name ∧ p.2.bitWidth = p.1.bits)
    {offset bitOffset : Nat} :
    ∀ p ∈ ps ++ [(f, ⟨f.name, offset, bitOffset, f.bits⟩)],
      p.2.name = p.1.name ∧ p.2.bitWidth = p.1.bits := by
  intro p hp
  rcases List.mem_append.mp hp with hp | hp
  · exact h p hp
  · simp [List.mem_singleton.mp hp]

/-- A member that does not join the open word starts storage at the offset. -/
theorem step_start (hp : Packed ps c.offset c.align) (ho : Open ps c)
    (hj : joins c.word f = false) (hb : ∀ b ∈ f.bits, 1 ≤ b ∧ b ≤ 8 * f.size) :
    Packed (ps ++ [(f, ⟨f.name, c.offset, 0, f.bits⟩)]) (c.offset + f.size) (max c.align f.align) ∧
      Open (ps ++ [(f, ⟨f.name, c.offset, 0, f.bits⟩)])
        ⟨c.offset + f.size, max c.align f.align, wordAfter (f, ⟨f.name, c.offset, 0, f.bits⟩)⟩ := by
  refine ⟨⟨copies_snoc hp.copies, ?first, ?chain, ?within, ?apart, ?size,
    align_max_snoc hp.align_max _⟩, ⟨by simp, by simp, ?inWord⟩⟩
  case first =>
    cases ps with
    | nil => simpa [startSizes] using hp.size_eq
    | cons p ps => simpa using hp.first
  case chain =>
    refine List.isChain_append.mpr ⟨hp.chain, List.isChain_singleton _, ?_⟩
    intro l hl q hq
    obtain rfl : q = (f, ⟨f.name, c.offset, 0, f.bits⟩) := by simpa using hq.symm
    have hword : wordAfter l = c.word := by simp [ho.word, Option.mem_def.mp hl]
    exact .inr ⟨by rw [hword, hj], ho.last l hl, rfl⟩
  case within =>
    intro p hp'
    rcases List.mem_append.mp hp' with hp' | hp'
    · obtain ⟨hend, hbits⟩ := hp.within p hp'
      exact ⟨by omega, hbits⟩
    · obtain rfl := List.mem_singleton.mp hp'
      exact ⟨le_rfl, fun b hbf => by simpa using (hb b hbf).2⟩
  case apart =>
    refine List.pairwise_append.mpr ⟨hp.apart, List.pairwise_singleton _ _, ?_⟩
    intro p hp' q hq
    obtain rfl := List.mem_singleton.mp hq
    exact .inl (hp.within p hp').1
  case size =>
    simp [startSizes_snoc, hp.size_eq]
  case inWord =>
    intro w hw p hp'
    obtain ⟨b, hnb, rfl⟩ := wordAfter_eq_some.mp hw
    rcases List.mem_append.mp hp' with hp' | hp'
    · exact .inl (hp.within p hp').1
    · obtain rfl := List.mem_singleton.mp hp'
      exact .inr ⟨b, hnb, rfl, rfl, le_rfl⟩

/-- A member that joins the open word sits in it after its used bits, and the struct does not
grow: the word was started by a member of the same type, so of the same size. -/
theorem step_join {w : BitWord} (hp : Packed ps c.offset c.align) (ho : Open ps c)
    (hw : c.word = some w) (hj : joins (some w) f = true)
    (hsize : ∀ p ∈ ps, p.1.ty = f.ty → p.1.size = f.size)
    (hone : ∀ p ∈ ps, ∀ b ∈ p.1.bits, 1 ≤ b) :
    Packed (ps ++ [(f, ⟨f.name, w.offset, w.used, f.bits⟩)]) c.offset (max c.align f.align) ∧
      Open (ps ++ [(f, ⟨f.name, w.offset, w.used, f.bits⟩)])
        ⟨c.offset, max c.align f.align, wordAfter (f, ⟨f.name, w.offset, w.used, f.bits⟩)⟩ := by
  obtain ⟨b, hnb, hty, hroom⟩ := joins_eq_true.mp hj
  -- the open word is the one the last member left
  obtain ⟨l, hl, hlw⟩ : ∃ l, ps.getLast? = some l ∧ wordAfter l = some w := by
    rw [ho.word, Option.bind_eq_some_iff] at hw
    exact hw
  obtain ⟨bl, hnbl, rfl⟩ := wordAfter_eq_some.mp hlw
  have hlmem : l ∈ ps := List.mem_of_getLast? hl
  have hls : l.1.size = f.size := hsize l hlmem hty
  have hend : c.offset = l.2.offset + f.size := by rw [ho.last l hl, hls]
  have hbl : 1 ≤ bl := hone l hlmem bl (FieldShape.narrowBits_eq_some.mp hnbl).1
  refine ⟨⟨copies_snoc hp.copies, ?first, ?chain, ?within, ?apart, ?size,
    align_max_snoc hp.align_max _⟩, ⟨by simp, by simpa using hend, ?inWord⟩⟩
  case first =>
    cases ps with
    | nil => simp at hl
    | cons p ps => simpa using hp.first
  case chain =>
    refine List.isChain_append.mpr ⟨hp.chain, List.isChain_singleton _, ?_⟩
    intro l' hl' q hq
    obtain rfl : l' = l := Option.some_inj.mp (hl'.symm.trans hl)
    obtain rfl : q = (f, ⟨f.name, _, _, f.bits⟩) := by simpa using hq.symm
    refine .inl ⟨by rw [hlw]; exact hj, rfl, fun w' hw' => ?_⟩
    obtain rfl := Option.some_inj.mp (hw'.symm.trans hlw)
    rfl
  case within =>
    intro p hp'
    rcases List.mem_append.mp hp' with hp' | hp'
    · exact hp.within p hp'
    · obtain rfl := List.mem_singleton.mp hp'
      obtain ⟨hfb, -⟩ := FieldShape.narrowBits_eq_some.mp hnb
      refine ⟨by simp only; omega, fun b' hb' => ?_⟩
      obtain rfl : b' = b := Option.some_inj.mp (hb'.symm.trans hfb)
      simp only at hroom ⊢
      omega
  case apart =>
    refine List.pairwise_append.mpr ⟨hp.apart, List.pairwise_singleton _ _, ?_⟩
    intro p hp' q hq
    obtain rfl := List.mem_singleton.mp hq
    rcases ho.inWord _ hw p hp' with h | ⟨bp, hbp, hpt, hpo, hpb⟩
    · exact .inl h
    · exact .inr ⟨bp, hbp, b, hnb, hpt.trans hty, hpo, hpb⟩
  case size =>
    simp only [startSizes_snoc, hp.size_eq]
    rw [if_neg (by omega)]
    rfl
  case inWord =>
    intro w' hw' p hp'
    obtain ⟨b', hnb', rfl⟩ := wordAfter_eq_some.mp hw'
    obtain rfl : b' = b := Option.some_inj.mp (hnb'.symm.trans hnb)
    rcases List.mem_append.mp hp' with hp' | hp'
    · rcases ho.inWord _ hw p hp' with h | ⟨bp, hbp, hpt, hpo, hpb⟩
      · exact .inl h
      · exact .inr ⟨bp, hbp, hpt.trans hty, hpo, by simp only at hpb ⊢; omega⟩
    · obtain rfl := List.mem_singleton.mp hp'
      exact .inr ⟨b', hnb', rfl, rfl, le_rfl⟩

/-- One member placed, without saturation, keeps the laws and what the cursor knows. -/
theorem packed_place (hp : Packed ps c.offset c.align) (ho : Open ps c)
    (hs : Shaped (ps.map Prod.fst ++ [f])) :
    Packed (ps ++ [(f, (c.place f).1)]) (c.place f).2.offset (c.place f).2.align ∧
      Open (ps ++ [(f, (c.place f).1)]) (c.place f).2 := by
  have hf : f ∈ ps.map Prod.fst ++ [f] := by simp
  have hmem : ∀ p ∈ ps, p.1 ∈ ps.map Prod.fst ++ [f] :=
    fun p hp' => List.mem_append_left _ (List.mem_map_of_mem hp')
  have hsize : ∀ p ∈ ps, p.1.ty = f.ty → p.1.size = f.size :=
    fun p hp' hty => hs.sameSize _ (hmem p hp') f hf hty
  -- the offset is at most the sizes placed so far, so adding this member does not saturate
  have hsat : c.offset + f.size ≤ wordMax := by
    have hsum := hs.sum
    have hle := startSizes_le ps
    simp only [List.map_append, List.map_map, List.sum_append, List.map_cons, List.map_nil,
      List.sum_cons, List.sum_nil] at hsum
    rw [hp.size_eq]
    exact le_trans (by simpa [Function.comp_def] using Nat.add_le_add_right hle f.size) hsum
  -- the open word was started by a member of the same type as any member that may join it
  have hw : ∀ w ∈ c.word, w.ty = f.ty → w.width = 8 * f.size := by
    intro w hw hty
    rw [ho.word, Option.mem_def, Option.bind_eq_some_iff] at hw
    obtain ⟨l, hl, hlw⟩ := hw
    obtain ⟨bl, -, rfl⟩ := wordAfter_eq_some.mp hlw
    simp only at hty ⊢
    rw [hsize l (List.mem_of_getLast? hl) hty]
  rcases place_cases c f hsat (hs.width f hf) hw with ⟨hj, w, hcw, heq⟩ | ⟨hj, heq⟩
  · have hcw : c.word = some w := hcw
    rw [hcw] at hj
    rw [heq]
    exact step_join hp ho hcw hj hsize fun p hp' b hb => (hs.bits _ (hmem p hp') b hb).1
  · rw [heq]
    exact step_start hp ho hj (hs.bits f hf)

end Step

theorem packed_nil : Packed [] (({} : StructCursor).offset) (({} : StructCursor).align) :=
  ⟨by simp, by simp, List.isChain_nil, by simp, List.Pairwise.nil, rfl, by simp⟩

theorem open_nil : Open [] ({} : StructCursor) := ⟨rfl, by simp, by simp⟩

/-- Placing members in order keeps the laws: induction on the members still to place, carrying
the ones placed so far. -/
theorem placeAll_packed (fs : List FieldShape) {ps : List Placed} {c : StructCursor}
    (hp : Packed ps c.offset c.align) (ho : Open ps c) (hs : Shaped (ps.map Prod.fst ++ fs)) :
    (c.placeAll fs).1.length = fs.length ∧
      Packed (ps ++ fs.zip (c.placeAll fs).1) (c.placeAll fs).2.offset (c.placeAll fs).2.align := by
  induction fs generalizing ps c with
  | nil => simpa [placeAll] using hp
  | cons f fs ih =>
    have hsf : Shaped (ps.map Prod.fst ++ [f]) :=
      Shaped.of_append (show Shaped (ps.map Prod.fst ++ [f] ++ fs) by simpa using hs)
    obtain ⟨hp', ho'⟩ := packed_place hp ho hsf
    obtain ⟨hlen, hpk⟩ := ih hp' ho' (by simpa using hs)
    simp only [placeAll]
    exact ⟨by simp [hlen], by simpa using hpk⟩

end StructCursor

/-- The members of a struct with the places its layout gives them. -/
def placed (fields : List FieldShape) : List Placed := fields.zip (structLayout fields).members

/-- Without saturation a struct's layout has one member per field and obeys the packing laws. -/
theorem structLayout_packed {fields : List FieldShape} (h : Shaped fields) :
    (structLayout fields).members.length = fields.length ∧
      Packed (placed fields) (structLayout fields).size (structLayout fields).align := by
  have hrun := StructCursor.placeAll_packed fields StructCursor.packed_nil StructCursor.open_nil
    (by simpa using h)
  simpa [placed, structLayout] using hrun

/-- Three 16-bit bitfields of 3, 5 and 9 bits: the second shares the first's word, the third does
not fit in it and starts a word of its own. -/
example :
    structLayout [⟨"a", TypeId.int16, 2, 2, some 3⟩, ⟨"b", TypeId.int16, 2, 2, some 5⟩,
      ⟨"c", TypeId.int16, 2, 2, some 9⟩] =
      ⟨4, 2, [⟨"a", 0, 0, some 3⟩, ⟨"b", 0, 3, some 5⟩, ⟨"c", 2, 0, some 9⟩]⟩ := by
  decide

/-! ## Unions -/

/-- A fold of `max` over the members is at least its start and every member's value, and is its
start or one of them. -/
theorem foldl_max_spec (g : FieldShape → Nat) (l : List FieldShape) (a : Nat) :
    a ≤ l.foldl (fun m f => max m (g f)) a ∧
      (∀ f ∈ l, g f ≤ l.foldl (fun m f => max m (g f)) a) ∧
      (l.foldl (fun m f => max m (g f)) a = a ∨
        ∃ f ∈ l, g f = l.foldl (fun m f => max m (g f)) a) := by
  induction l generalizing a with
  | nil => simp
  | cons f l ih =>
    obtain ⟨hle, hall, hwhich⟩ := ih (max a (g f))
    simp only [List.foldl_cons, List.mem_cons, forall_eq_or_imp, exists_eq_or_imp]
    refine ⟨le_trans (le_max_left _ _) hle, ⟨le_trans (le_max_right _ _) hle, hall⟩, ?_⟩
    rcases hwhich with heq | hex
    · rcases le_total (g f) a with hga | hga
      · exact .inl (by rw [heq, max_eq_left hga])
      · exact .inr (.inl (by rw [heq, max_eq_right hga]))
    · exact .inr (.inr hex)

/-- The laws of a union's layout: every member at offset zero and bit zero, the size the largest
member size (zero without members), the alignment the largest member alignment (one without
members). -/
structure Overlaid (fields : List FieldShape) (l : Layout) : Prop where
  members : List.Forall₂ (fun f m => m.name = f.name ∧ m.offset = 0 ∧ m.bitOffset = 0 ∧
    m.bitWidth = f.bits) fields l.members
  size_le : ∀ f ∈ fields, f.size ≤ l.size
  size_eq : l.size = 0 ∨ ∃ f ∈ fields, f.size = l.size
  align_le : ∀ f ∈ fields, f.align ≤ l.align
  align_eq : (fields = [] ∧ l.align = 1) ∨ ∃ f ∈ fields, f.align = l.align

theorem unionLayout_overlaid (fields : List FieldShape) : Overlaid fields (unionLayout fields) := by
  obtain ⟨-, hsize, hsize_eq⟩ := foldl_max_spec FieldShape.size fields 0
  refine ⟨?_, hsize, ?_, ?_, ?_⟩
  · simp only [unionLayout, List.forall₂_map_right_iff]
    exact List.forall₂_same.mpr fun f _ => by simp
  · simpa [unionLayout] using hsize_eq
  · cases fields with
    | nil => simp
    | cons f fs =>
      obtain ⟨hf, hfs, -⟩ := foldl_max_spec FieldShape.align fs f.align
      simp only [unionLayout, List.mem_cons, forall_eq_or_imp]
      exact ⟨hf, hfs⟩
  · cases fields with
    | nil => simp [unionLayout]
    | cons f fs =>
      obtain ⟨-, -, hwhich⟩ := foldl_max_spec FieldShape.align fs f.align
      right
      rcases hwhich with heq | ⟨g, hg, heq⟩
      · exact ⟨f, List.mem_cons_self, heq.symm⟩
      · exact ⟨g, List.mem_cons_of_mem f hg, heq⟩

/-! ## The layout laws -/

/-- Two bitfields of one type sharing a word, then a plain member. -/
def bitfieldFields : List FieldShape :=
  [⟨"a", TypeId.int16, 2, 2, some 3⟩, ⟨"b", TypeId.int16, 2, 2, some 5⟩,
    ⟨"c", TypeId.int32, 4, 4, none⟩]

/-- The members of `struct S { a: [2147483647]int16, b: int16, c: int16 }`: an array of
4294967294 bytes and two 16-bit members. -/
def saturatedFields : List FieldShape :=
  [⟨"a", ⟨5⟩, 4294967294, 2, none⟩, ⟨"b", TypeId.int16, 2, 2, none⟩,
    ⟨"c", TypeId.int16, 2, 2, none⟩]

end SolarFront
