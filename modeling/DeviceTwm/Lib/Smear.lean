import Mathlib.Data.Nat.Size
import Mathlib.Order.Bounds.Basic
import Mathlib.Algebra.Group.Nat.Defs

/-!
# Filling up the bits of a number

`x | (x >> n)`, with `n` doubled each time, sets every bit below the highest one.

* `Smeared n x y`: a bit of `y` is set when one of the `n` bits of `x` from there on is.
* `Smeared.double`: one step of the chain.
* `Smeared.succ_eq`: when all bits of `x` are in reach, the number after `y` is a power of two;
  `isLeast_two_pow_size` says which.
-/

namespace Lib

variable {n x y : Nat}

/-- The bits of `y` are set that have one of `x` less than `n` places above. -/
def Smeared (n x y : Nat) : Prop := ∀ i, y.testBit i = true ↔ ∃ j < n, x.testBit (i + j) = true

theorem smeared_one (x : Nat) : Smeared 1 x x := by
  intro i
  constructor
  · intro h
    exact ⟨0, Nat.one_pos, h⟩
  · rintro ⟨j, hj, h⟩
    obtain rfl := Nat.lt_one_iff.mp hj
    exact h

theorem Smeared.double (h : Smeared n x y) : Smeared (2 * n) x (y ||| y >>> n) := by
  intro i
  rw [Nat.testBit_or, Nat.testBit_shiftRight, Bool.or_eq_true, h i, h (n + i)]
  constructor
  · rintro (⟨j, hj, hx⟩ | ⟨j, hj, hx⟩)
    · exact ⟨j, by omega, hx⟩
    · exact ⟨n + j, by omega, by rwa [← Nat.add_assoc, Nat.add_comm i n]⟩
  · rintro ⟨j, hj, hx⟩
    rcases Nat.lt_or_ge j n with hlt | hge
    · exact .inl ⟨j, hlt, hx⟩
    · exact .inr ⟨j - n, by omega, by rwa [show n + i + (j - n) = i + j by omega]⟩

/-- When every bit of `x` is in reach, the bits of `y` are those below the highest one of `x`. -/
theorem Smeared.eq (h : Smeared n x y) (hx : x < 2 ^ n) : y = 2 ^ x.size - 1 := by
  apply Nat.eq_of_testBit_eq
  intro i
  rw [Nat.testBit_two_pow_sub_one, Bool.eq_iff_iff, h i, decide_eq_true_iff, Nat.lt_size]
  constructor
  · rintro ⟨j, -, hj⟩
    exact Nat.le_trans (Nat.pow_le_pow_right (by decide) (Nat.le_add_right i j))
      (Nat.ge_two_pow_of_testBit hj)
  · intro hi
    obtain ⟨k, hk, hbit⟩ := Nat.exists_ge_and_testBit_of_ge_two_pow hi
    have hkn : k < n := by
      refine Nat.lt_of_not_ge fun hge => ?_
      have hle : 2 ^ n ≤ 2 ^ k := Nat.pow_le_pow_right (by decide) hge
      rw [Nat.testBit_lt_two_pow (Nat.lt_of_lt_of_le hx hle)] at hbit
      cases hbit
    exact ⟨k - i, by omega, by rwa [Nat.add_sub_cancel' hk]⟩

theorem Smeared.succ_eq (h : Smeared n x y) (hx : x < 2 ^ n) : y + 1 = 2 ^ x.size := by
  rw [h.eq hx, Nat.sub_add_cancel Nat.one_le_two_pow]

/-- The power of two after the bits of `x` is the least one above `x`. -/
theorem isLeast_two_pow_size (x : Nat) : IsLeast {p | (∃ k, p = 2 ^ k) ∧ x < p} (2 ^ x.size) := by
  refine ⟨⟨⟨x.size, rfl⟩, x.lt_size_self⟩, ?_⟩
  rintro p ⟨⟨k, rfl⟩, hk⟩
  exact Nat.pow_le_pow_right (by decide) (Nat.size_le.mpr hk)

end Lib
