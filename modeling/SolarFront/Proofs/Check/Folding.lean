import SolarFront.Compilation

/-!
# Folding against the recorded conversion

The checker records that the right operand of an arithmetic operator or a comparison is
converted to the left operand's type, by an unsigned cast, and the folder is meant to compute
what the target computes. An arithmetic operator folds at the width of its result, the left
operand's, and the folder cuts its right operand to that width first; so folding the converted
right operand gives the same value, whenever the right value fits its own width.

A comparison folds at the wider of its operands' widths instead. Where the right operand is
not wider than the left one, that is again the left width and the two agree; where it is
wider, the comparison reads bits that the conversion drops, and `1 == 65537l` folds to zero
although `1` and the converted `65537l` are both one.
-/

set_option autoImplicit false
set_option linter.all false

namespace SolarFront

namespace Width

@[simp] theorem truncate_truncate (w : Width) (v : Nat) : w.truncate (w.truncate v) = w.truncate v :=
  Nat.mod_mod v w.modulus

theorem truncate_of_lt {w : Width} {v : Nat} (h : v < w.modulus) : w.truncate v = v :=
  Nat.mod_eq_of_lt h

theorem bits_injective {a b : Width} (h : a.bits = b.bits) : a = b := by
  cases a <;> cases b <;> simp_all [bits]

/-- The wider of two widths is the first one when the second is not wider. -/
theorem max_eq_left {a b : Width} (h : b.bits ≤ a.bits) : a.max b = a := by
  unfold max
  split
  · next hab => exact (bits_injective (Nat.le_antisymm hab h)).symm
  · rfl

/-- An unsigned conversion keeps the source bits and cuts them to the target width. -/
theorem convertWord_unsigned (v : Nat) (source target : Width) :
    convertWord v source target false = target.truncate (source.truncate v) := rfl

/-- A value that fits its width converts, unsigned, to its low bits at the target width. -/
theorem convertWord_of_lt {v : Nat} {source : Width} (target : Width) (h : v < source.modulus) :
    convertWord v source target false = target.truncate v := by
  rw [convertWord_unsigned, truncate_of_lt h]

/-- The folder cuts its right operand to the width, so cutting it before changes nothing. -/
theorem foldBinary_truncate_right (w : Width) (op : BinaryOp) (l r : Nat) :
    w.foldBinary op l (w.truncate r) = w.foldBinary op l r := by
  unfold foldBinary
  simp only [truncate_truncate]

theorem foldCond_truncate_right (w : Width) (op : CondOp) (l r : Nat) :
    w.foldCond op l (w.truncate r) = w.foldCond op l r := by
  unfold foldCond
  simp only [truncate_truncate]

/-- An arithmetic operator folded at the left width gives the same value on the right operand
as on that operand converted to the left width. -/
theorem foldBinary_convert (w source : Width) (op : BinaryOp) (l : Nat) {r : Nat}
    (hr : r < source.modulus) :
    w.foldBinary op l (convertWord r source w false) = w.foldBinary op l r := by
  rw [convertWord_of_lt w hr, foldBinary_truncate_right]

/-- A comparison whose right operand is not wider than its left one folds, at the wider
width, to what it folds to at the left width on the converted right operand. -/
theorem foldCond_max_convert (left right : Width) (op : CondOp) (l : Nat) {r : Nat}
    (hle : right.bits ≤ left.bits) (hr : r < right.modulus) :
    (left.max right).foldCond op l r = left.foldCond op l (convertWord r right left false) := by
  rw [max_eq_left hle, convertWord_of_lt left hr, foldCond_truncate_right]

end Width

/-- A comparison with a wider right operand folds at the wider width: in
`const c: int16 := 1 == 65537l;` the operands `1 : int16` (node 1) and `65537l : int32`
(node 2) fold to themselves, the right one is recorded as converted to `int16`, and the
comparison (node 3) folds to zero, while comparing `1` with the converted right operand at the
left width gives one. -/
theorem Module.compare_folds_past_conversion :
    let parsed := parse (lex "const c: int16 := 1 == 65537l;" false).tokens
    let s := parsed.module.check parsed.nodeCount
    s.exprTypes.get? 1 = some .int16 ∧ s.exprTypes.get? 2 = some .int32 ∧
      s.consts.get? 1 = some 1 ∧ s.consts.get? 2 = some 65537 ∧
      s.implicitCasts.get? 2 = some .int16 ∧ s.consts.get? 3 = some 0 ∧
      Width.w16.foldCond .eq 1 (convertWord 65537 .w32 .w16 false) = 1 := by
  decide +kernel

end SolarFront
