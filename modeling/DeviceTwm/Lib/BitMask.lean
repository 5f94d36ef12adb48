import Mathlib.Data.Nat.Bitwise

/-!
# A word as a set of bits

The bits of a 32-bit word, as `Nat.testBit` reads them, when one of them is tested, set or cleared
with `1 << i`, and the comparison that finds the low bits all set.
-/

namespace Lib

variable {w i : UInt32}

theorem toNat_one_shiftLeft (hi : i.toNat < 32) : ((1 : UInt32) <<< i).toNat = 2 ^ i.toNat := by
  rw [UInt32.toNat_shiftLeft, Nat.mod_eq_of_lt hi, Nat.shiftLeft_eq]
  simp only [UInt32.reduceToNat, Nat.one_mul]
  exact Nat.mod_eq_of_lt (Nat.pow_lt_pow_right (by decide) hi)

/-- The test of one bit. -/
theorem and_bit_eq_zero (hi : i.toNat < 32) :
    w &&& (1 <<< i) = 0 ↔ w.toNat.testBit i.toNat = false := by
  have hand : (w &&& (1 <<< i)).toNat = 2 ^ i.toNat * (w.toNat.testBit i.toNat).toNat := by
    rw [UInt32.toNat_and, toNat_one_shiftLeft hi, Nat.and_two_pow, Nat.mul_comm]
  rw [← UInt32.toNat_inj, hand]
  cases w.toNat.testBit i.toNat with
  | false => simp
  | true => simp

theorem testBit_setBit (hi : i.toNat < 32) (w : UInt32) (j : Nat) :
    (w ||| (1 <<< i)).toNat.testBit j = true ↔ w.toNat.testBit j = true ∨ j = i.toNat := by
  rw [UInt32.toNat_or, toNat_one_shiftLeft hi, Nat.testBit_or, Bool.or_eq_true, Nat.testBit_two_pow,
    decide_eq_true_eq]
  exact or_congr_right eq_comm

theorem testBit_clearBit (hi : i.toNat < 32) (w : UInt32) (j : Nat) :
    (w &&& ~~~(1 <<< i)).toNat.testBit j = true ↔ w.toNat.testBit j = true ∧ j ≠ i.toNat := by
  rw [UInt32.toNat_and, Nat.testBit_and, Bool.and_eq_true]
  have hnot : (~~~(1 <<< i : UInt32)).toNat = 2 ^ 32 - (2 ^ i.toNat + 1) := by
    rw [UInt32.toNat_not, toNat_one_shiftLeft hi]
    simp only [UInt32.size]
    omega
  have hlt : 2 ^ i.toNat < 2 ^ 32 := Nat.pow_lt_pow_right (by decide) hi
  rw [hnot, Nat.testBit_two_pow_sub_succ hlt, Bool.and_eq_true, Bool.not_eq_true', Nat.testBit_two_pow,
    decide_eq_true_eq, decide_eq_false_iff_not]
  constructor
  · rintro ⟨hw, -, hne⟩
    exact ⟨hw, fun h => hne h.symm⟩
  · rintro ⟨hw, hne⟩
    refine ⟨hw, ?_, fun h => hne h.symm⟩
    by_contra hj
    have hbig : w.toNat < 2 ^ j :=
      Nat.lt_of_lt_of_le w.toNat_lt (Nat.pow_le_pow_right (by decide) (Nat.not_lt.mp hj))
    rw [Nat.testBit_lt_two_pow hbig] at hw
    cases hw

/-- A bit that is not set need not be cleared. -/
theorem clearBit_eq_self (hi : i.toNat < 32) (h : w &&& (1 <<< i) = 0) : w &&& ~~~(1 <<< i) = w := by
  have hclear := (and_bit_eq_zero hi).mp h
  apply UInt32.toNat_inj.mp
  apply Nat.eq_of_testBit_eq
  intro j
  rw [Bool.eq_iff_iff, testBit_clearBit hi]
  constructor
  · rintro ⟨hj, -⟩
    exact hj
  · intro hj
    refine ⟨hj, ?_⟩
    rintro rfl
    rw [hclear] at hj
    cases hj

/-- Of a word below `1 << i`, all the bits are set when it is not below `(1 << i) - 1`. -/
theorem full_iff (hi : i.toNat < 32) (hlow : ∀ j, w.toNat.testBit j = true → j < i.toNat) :
    ((1 : UInt32) <<< i) - 1 ≤ w ↔ ∀ j, j < i.toNat → w.toNat.testBit j = true := by
  have hone := toNat_one_shiftLeft hi
  have hpos := Nat.two_pow_pos i.toNat
  have hpow : 2 ^ i.toNat < 2 ^ 32 := Nat.pow_lt_pow_right (by decide) hi
  have hmask : (((1 : UInt32) <<< i) - 1).toNat = 2 ^ i.toNat - 1 := by
    rw [UInt32.toNat_sub, hone]
    simp only [UInt32.reduceToNat]
    omega
  have hw : w.toNat < 2 ^ i.toNat := by
    apply Nat.lt_pow_two_of_testBit
    intro j hj
    by_contra hset
    exact absurd (hlow j (by simpa using hset)) (Nat.not_lt.mpr hj)
  rw [UInt32.le_iff_toNat_le, hmask]
  constructor
  · intro h j hj
    rw [show w.toNat = 2 ^ i.toNat - 1 by omega, Nat.testBit_two_pow_sub_one]
    exact decide_eq_true hj
  · intro h
    have heq : w.toNat = 2 ^ i.toNat - 1 := by
      apply Nat.eq_of_testBit_eq
      intro j
      rw [Nat.testBit_two_pow_sub_one, Bool.eq_iff_iff, decide_eq_true_eq]
      exact ⟨hlow j, h j⟩
    omega

end Lib
