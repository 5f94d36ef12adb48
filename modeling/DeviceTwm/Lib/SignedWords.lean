import Mathlib.Algebra.Group.Nat.Defs
import Mathlib.Algebra.Group.Int.Defs

/-!
# Signed words read as unsigned ones

An `Int32` as an unsigned word is its value modulo `2 ^ 32`, and a difference or a sum of two is
that of the values.
-/

namespace Lib

theorem toNat_toUInt32 (x : Int32) : (x.toUInt32.toNat : Int) = x.toInt % 2 ^ 32 := by
  have h := BitVec.toInt_eq_toNat_cond x.toBitVec
  rw [show x.toBitVec.toInt = x.toInt from rfl, show x.toBitVec.toNat = x.toUInt32.toNat from rfl] at h
  have hlt := x.toUInt32.toNat_lt
  split at h <;> omega

theorem toInt_bounds (x : Int32) : -2 ^ 31 ≤ x.toInt ∧ x.toInt < 2 ^ 31 := ⟨x.le_toInt, x.toInt_lt⟩

theorem toNat_sub_toUInt32 (a b : Int32) :
    ((a - b).toUInt32.toNat : Int) = (a.toInt - b.toInt) % 2 ^ 32 := by
  rw [toNat_toUInt32, Int32.toInt_sub]
  exact Int.bmod_emod

theorem toNat_add_toUInt32 (a b : Int32) :
    ((a + b).toUInt32.toNat : Int) = (a.toInt + b.toInt) % 2 ^ 32 := by
  rw [toNat_toUInt32, Int32.toInt_add]
  exact Int.bmod_emod

theorem sub_eq_zero_iff (a b : Int32) : a - b = 0 ↔ a = b := by
  constructor
  · intro h
    have hz := toNat_sub_toUInt32 a b
    have ha := toInt_bounds a
    have hb := toInt_bounds b
    rw [h] at hz
    apply Int32.toInt_inj.mp
    have hz : (0 : Int) = (a.toInt - b.toInt) % 2 ^ 32 := hz
    omega
  · rintro rfl
    simp

theorem toInt_max (a b : Int32) : (max a b).toInt = max a.toInt b.toInt := by
  rw [show max a b = if a ≤ b then b else a from rfl]
  by_cases hab : a ≤ b
  · have hle := Int32.le_iff_toInt_le.mp hab
    rw [if_pos hab]
    omega
  · have hlt := (not_congr Int32.le_iff_toInt_le).mp hab
    rw [if_neg hab]
    omega

theorem toInt_min (a b : Int32) : (min a b).toInt = min a.toInt b.toInt := by
  rw [show min a b = if a ≤ b then a else b from rfl]
  by_cases hab : a ≤ b
  · have hle := Int32.le_iff_toInt_le.mp hab
    rw [if_pos hab]
    omega
  · have hlt := (not_congr Int32.le_iff_toInt_le).mp hab
    rw [if_neg hab]
    omega

/-- Below the sign bit an unsigned word is the same number as a signed one. -/
theorem toInt_toInt32_of_lt {x : UInt32} (h : x.toNat < 2 ^ 31) : x.toInt32.toInt = x.toNat := by
  have hx := toNat_toUInt32 x.toInt32
  have hb := toInt_bounds x.toInt32
  rw [show x.toInt32.toUInt32 = x from rfl] at hx
  omega

end Lib
