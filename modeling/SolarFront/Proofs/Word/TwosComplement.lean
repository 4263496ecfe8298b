import Mathlib
import SolarFront.Word.Fold

/-!
# Constant folding is two's-complement arithmetic

The folder carries values as natural numbers, cuts them to the width of the operation, reads
signed operators through a hand-made sign extension and cuts every result again. This module
shows that all of this is exactly the arithmetic of `n`-bit words: with `L` and `R` the operands
read as `BitVec`s of the width,

* an arithmetic operator folds to the `toNat` of the matching `BitVec` operation, and division
  and remainder, signed or not, have no value exactly when `R` is zero
  (`Width.foldBinary_eq_onBits`);
* a condition folds to one exactly when the `BitVec` comparison holds (`Width.foldCond_eq_onBits`);
* a prefix operator folds to the `toNat` of `L`, `-L` or `~~~L` (`Width.foldUnary_eq_onBits`);
* a conversion sign-extends or zero-extends (or cuts) the source word (`Width.convertWord_eq`).

The corners where hand-written folders go wrong all land on `BitVec`'s definitions: the most
negative value divided by minus one, the sign of a remainder, shifts by the width or more, and
signed comparisons of cut operands.
-/

set_option autoImplicit false
set_option linter.all false

namespace SolarFront

namespace BinaryOp

/-- The operator on `n`-bit two's-complement words. A shift takes the value of its right
operand as the amount. -/
def onBits {n : Nat} (op : BinaryOp) (a b : BitVec n) : BitVec n :=
  match op with
  | .add => a + b
  | .sub => a - b
  | .mul => a * b
  | .udiv => a.udiv b
  | .umod => a.umod b
  | .sdiv => a.sdiv b
  | .smod => a.srem b
  | .shl => a <<< b.toNat
  | .shr => a >>> b.toNat
  | .sar => a.sshiftRight b.toNat
  | .bitAnd => a &&& b
  | .bitXor => a ^^^ b
  | .bitOr => a ||| b

end BinaryOp

namespace CondOp

/-- Whether the condition holds of two `n`-bit words. -/
def onBits {n : Nat} (op : CondOp) (a b : BitVec n) : Bool :=
  match op with
  | .and => a != 0 && b != 0
  | .or => a != 0 || b != 0
  | .eq => a == b
  | .notEq => a != b
  | .ult => a.ult b
  | .ulte => a.ule b
  | .ugt => b.ult a
  | .ugte => b.ule a
  | .slt => a.slt b
  | .slte => a.sle b
  | .sgt => b.slt a
  | .sgte => b.sle a

end CondOp

namespace UnaryOp

/-- The prefix operator on an `n`-bit word. -/
def onBits {n : Nat} (op : UnaryOp) (a : BitVec n) : BitVec n :=
  match op with
  | .plus => a
  | .neg => -a
  | .bitNot => ~~~a

end UnaryOp

namespace Width

theorem modulus_eq (w : Width) : w.modulus = 2 ^ w.bits := (Nat.pow_eq ..).symm

theorem two_mul_half (w : Width) : 2 * Nat.pow 2 (w.bits - 1) = 2 ^ w.bits := by
  cases w <;> rfl

/-- Cutting a value to the width reads it as a word of that width. -/
theorem truncate_eq_toNat (w : Width) (v : Nat) :
    w.truncate v = (BitVec.ofNat w.bits v).toNat := by
  simp [truncate, modulus_eq]

theorem truncate_eq_mod (w : Width) (v : Nat) : w.truncate v = v % 2 ^ w.bits := by
  rw [truncate, modulus_eq]

/-- The two's-complement reading of the low bits is the signed value of the word. -/
theorem signExtend_eq_toInt (w : Width) (v : Nat) :
    w.signExtend v = (BitVec.ofNat w.bits v).toInt := by
  have hhalf := w.two_mul_half
  rw [BitVec.toInt_eq_toNat_cond, ← truncate_eq_toNat]
  simp only [signExtend, modulus_eq]
  split_ifs <;> first | rfl | omega

/-- The bits of a signed value are the word of that value. -/
theorem ofSigned_eq_toNat (w : Width) (i : Int) :
    w.ofSigned i = (BitVec.ofInt w.bits i).toNat := by
  simp [ofSigned, BitVec.toNat_ofInt, modulus_eq]

/-- A word is the bits of its signed value. -/
theorem toNat_eq_ofSigned (w : Width) (x : BitVec w.bits) : x.toNat = w.ofSigned x.toInt := by
  rw [ofSigned_eq_toNat, BitVec.ofInt_toInt]

/-- A signed right shift by one less than the width or more fills the word with the sign bit,
whatever the amount. -/
theorem sshiftRight_of_le {n : Nat} (x : BitVec n) {s : Nat} (h : n - 1 ≤ s) :
    x.sshiftRight s = x.sshiftRight (n - 1) := by
  ext i hi
  simp only [BitVec.getElem_sshiftRight]
  by_cases h1 : s + i < n
  · obtain ⟨rfl, rfl⟩ : i = 0 ∧ s = n - 1 := by omega
    rfl
  · by_cases h2 : n - 1 + i < n
    · obtain rfl : i = 0 := by omega
      have hs : ¬ s < n := by omega
      simp [hs, hi, BitVec.msb_eq_getLsbD_last, BitVec.getLsbD_eq_getElem]
    · simp [h1, h2]

/-- The two's-complement reading of a word's bits is its signed value. -/
@[simp] theorem signExtend_toNat (w : Width) (x : BitVec w.bits) :
    w.signExtend x.toNat = x.toInt := by
  rw [signExtend_eq_toInt, BitVec.ofNat_toNat, BitVec.setWidth_eq]

@[simp] theorem truncate_toNat (w : Width) (x : BitVec w.bits) : w.truncate x.toNat = x.toNat := by
  rw [truncate_eq_mod, BitVec.toNat_mod_cancel]

theorem ofSigned_bmod (w : Width) (i : Int) :
    w.ofSigned (i.bmod (2 ^ w.bits)) = w.ofSigned i := by
  simp only [ofSigned, modulus_eq, Int.bmod_emod]

private theorem bitVec_toNat_eq_zero {n : Nat} {x : BitVec n} : x.toNat = 0 ↔ x = 0 := by
  rw [← BitVec.toNat_inj]
  simp

private theorem bitVec_toInt_eq_zero {n : Nat} {x : BitVec n} : x.toInt = 0 ↔ x = 0 := by
  rw [← BitVec.toInt_inj]
  simp

/-- A signed right shift by at least one less than the width is one by exactly that. -/
theorem sshiftRight_min {n : Nat} (x : BitVec n) (s : Nat) :
    x.sshiftRight (min s (n - 1)) = x.sshiftRight s := by
  by_cases h : s ≤ n - 1
  · rw [Nat.min_eq_left h]
  · rw [Nat.min_eq_right (by omega)]
    exact (sshiftRight_of_le x (by omega)).symm

/-- Each arithmetic operator folds to its two's-complement result at the width; division and
remainder by a zero word have none. -/
theorem foldBinary_eq_onBits (w : Width) (op : BinaryOp) (l r : Nat) :
    w.foldBinary op l r =
      if (op = .udiv ∨ op = .umod ∨ op = .sdiv ∨ op = .smod) ∧ BitVec.ofNat w.bits r = 0 then none
      else some (op.onBits (BitVec.ofNat w.bits l) (BitVec.ofNat w.bits r)).toNat := by
  -- the cut operands are the words `L` and `R`; every case is then a `BitVec` lemma
  have hl := truncate_eq_toNat w l
  have hr := truncate_eq_toNat w r
  generalize BitVec.ofNat w.bits l = L at hl
  generalize BitVec.ofNat w.bits r = R at hr
  have hL := L.isLt
  cases op with
  | add => simp [foldBinary, BinaryOp.onBits, hl, hr, truncate_eq_mod, BitVec.toNat_add]
  | sub =>
    simp only [foldBinary, BinaryOp.onBits, hl, hr, truncate_eq_mod, BitVec.toNat_sub, modulus_eq]
    simp
    congr 1
    omega
  | mul => simp [foldBinary, BinaryOp.onBits, hl, hr, truncate_eq_mod, BitVec.toNat_mul]
  | udiv => simp [foldBinary, BinaryOp.onBits, hl, hr, bitVec_toNat_eq_zero, ← BitVec.toNat_udiv]
  | umod => simp [foldBinary, BinaryOp.onBits, hl, hr, bitVec_toNat_eq_zero, ← BitVec.toNat_umod]
  | sdiv =>
    simp [foldBinary, BinaryOp.onBits, hl, hr, bitVec_toInt_eq_zero,
      toNat_eq_ofSigned w (L.sdiv R), BitVec.toInt_sdiv, ofSigned_bmod]
  | smod =>
    simp [foldBinary, BinaryOp.onBits, hl, hr, bitVec_toInt_eq_zero,
      toNat_eq_ofSigned w (L.srem R), BitVec.toInt_srem]
  | shl =>
    simp only [foldBinary, BinaryOp.onBits, hl, hr, BitVec.toNat_shiftLeft, Nat.shiftLeft_eq]
    simp only [reduceCtorEq, or_self, false_and, if_false, Nat.pow_eq, Option.some.injEq]
    split_ifs with h
    -- a shift by the width or more leaves none of the bits
    · exact (Nat.mod_eq_zero_of_dvd (Dvd.dvd.mul_left (Nat.pow_dvd_pow 2 h) _)).symm
    · rw [truncate_eq_mod]
  | shr =>
    simp only [foldBinary, BinaryOp.onBits, hl, hr, BitVec.toNat_ushiftRight,
      Nat.shiftRight_eq_div_pow]
    simp only [reduceCtorEq, or_self, false_and, if_false, Nat.pow_eq, Option.some.injEq]
    split_ifs with h
    · exact (Nat.div_eq_of_lt (lt_of_lt_of_le hL (Nat.pow_le_pow_right two_pos h))).symm
    · rw [truncate_eq_mod, Nat.mod_eq_of_lt (lt_of_le_of_lt (Nat.div_le_self _ _) hL)]
  | sar =>
    -- the folder clamps the amount to one less than the width, which shifts the same
    simp only [foldBinary, BinaryOp.onBits, hl, hr, signExtend_toNat, ← sshiftRight_min L R.toNat,
      toNat_eq_ofSigned w (L.sshiftRight _), BitVec.toInt_sshiftRight, Int.shiftRight_eq_div_pow,
      Nat.pow_eq]
    simp
  | bitAnd => simp [foldBinary, BinaryOp.onBits, hl, hr, ← BitVec.toNat_and]
  | bitXor => simp [foldBinary, BinaryOp.onBits, hl, hr, ← BitVec.toNat_xor]
  | bitOr => simp [foldBinary, BinaryOp.onBits, hl, hr, ← BitVec.toNat_or]

/-- Each condition folds to one when it holds of the two words at the width, else to zero. -/
theorem foldCond_eq_onBits (w : Width) (op : CondOp) (l r : Nat) :
    w.foldCond op l r =
      if op.onBits (BitVec.ofNat w.bits l) (BitVec.ofNat w.bits r) then 1 else 0 := by
  have hl := truncate_eq_toNat w l
  have hr := truncate_eq_toNat w r
  generalize BitVec.ofNat w.bits l = L at hl
  generalize BitVec.ofNat w.bits r = R at hr
  simp only [foldCond, hl, hr, signExtend_toNat]
  cases op <;> simp [CondOp.onBits, bitVec_toNat_eq_zero, BitVec.toNat_inj, BitVec.ult_eq_decide,
    BitVec.ule_eq_decide, BitVec.slt_eq_decide, BitVec.sle_eq_decide]

/-- Each prefix operator folds to its two's-complement result at the width. -/
theorem foldUnary_eq_onBits (w : Width) (op : UnaryOp) (v : Nat) :
    w.foldUnary op v = (op.onBits (BitVec.ofNat w.bits v)).toNat := by
  cases op with
  | plus => exact truncate_eq_toNat w v
  | neg =>
    simp only [foldUnary, UnaryOp.onBits, BitVec.toNat_neg, truncate_eq_mod, BitVec.toNat_ofNat]
    cases w <;> simp only [bits, Nat.pow_eq] <;> omega
  | bitNot =>
    simp only [foldUnary, UnaryOp.onBits, BitVec.toNat_not, truncate_eq_mod, BitVec.toNat_ofNat]
    cases w <;> simp only [bits, Nat.pow_eq] <;> omega

/-- A conversion reads the value as a word of the source width and extends its sign (signed) or
zeros (unsigned) to the target width, or cuts it to the target width. -/
theorem convertWord_eq (v : Nat) (source target : Width) (signed : Bool) :
    convertWord v source target signed =
      if signed then ((BitVec.ofNat source.bits v).signExtend target.bits).toNat
      else ((BitVec.ofNat source.bits v).setWidth target.bits).toNat := by
  have hv := truncate_eq_toNat source v
  generalize BitVec.ofNat source.bits v = V at hv
  cases signed
  · simp [convertWord, hv, truncate_eq_mod, BitVec.toNat_setWidth]
  · simp [convertWord, hv, BitVec.signExtend, ofSigned_eq_toNat]

/-- Constant folding is two's-complement arithmetic at the width: each arithmetic operator is
the `BitVec` operation on the operands read as words of the width, with no value for division or
remainder by a zero word; each condition is one exactly when the `BitVec` comparison holds; each
prefix operator is the `BitVec` operation; and a conversion extends the sign (signed) or zeros
(unsigned) of the source word to the target width, or cuts it. -/
theorem fold_eq_bitVec (w : Width) :
    (∀ (op : BinaryOp) (l r : Nat), w.foldBinary op l r =
      if (op = .udiv ∨ op = .umod ∨ op = .sdiv ∨ op = .smod) ∧ BitVec.ofNat w.bits r = 0 then none
      else some (op.onBits (BitVec.ofNat w.bits l) (BitVec.ofNat w.bits r)).toNat) ∧
    (∀ (op : CondOp) (l r : Nat), w.foldCond op l r =
      if op.onBits (BitVec.ofNat w.bits l) (BitVec.ofNat w.bits r) then 1 else 0) ∧
    (∀ (op : UnaryOp) (v : Nat), w.foldUnary op v = (op.onBits (BitVec.ofNat w.bits v)).toNat) ∧
    (∀ (v : Nat) (target : Width) (signed : Bool), convertWord v w target signed =
      if signed then ((BitVec.ofNat w.bits v).signExtend target.bits).toNat
      else ((BitVec.ofNat w.bits v).setWidth target.bits).toNat) :=
  ⟨foldBinary_eq_onBits w, foldCond_eq_onBits w, foldUnary_eq_onBits w,
    fun v target signed => convertWord_eq v w target signed⟩

/-- The most negative 32-bit value divided by minus one wraps to itself. -/
example : Width.w32.foldBinary .sdiv 0x80000000 0xFFFFFFFF = some 0x80000000 := by decide

end Width
end SolarFront
