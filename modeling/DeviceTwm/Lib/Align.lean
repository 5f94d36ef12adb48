import Mathlib.Data.Int.Init
import Mathlib.Tactic.Ring
import DeviceTwm.Lib.Bytes

/-!
# Rounding up to a multiple

`alignUp x g` is the least multiple of `g` from `x` on, over all integers. A computation on 32-bit words
that adds, multiplies and rounds up with a mask follows the one on integers: it is that one, read
modulo `2 ^ 32` (`UInt32.ofInt`).

* `alignUp_of_dvd`, `alignUp_add`: a multiple stays, and moves out.
* `ofInt_align`: `(x + g - 1) & ~(g - 1)` rounds up, for a power of two `g`.
-/

namespace Lib

/-- The least multiple of `g` that is not less than `x`. -/
def alignUp (x g : Int) : Int := (x + g - 1) / g * g

variable {x y g : Int}

theorem dvd_alignUp (x g : Int) : g ∣ alignUp x g := Int.dvd_mul_left _ _

theorem le_alignUp (x : Int) (hg : 0 < g) : x ≤ alignUp x g := by
  have h := Int.lt_ediv_add_one_mul_self (x + g - 1) hg
  unfold alignUp
  rw [Int.add_mul, Int.one_mul] at h
  omega

theorem alignUp_lt (x : Int) (hg : 0 < g) : alignUp x g < x + g := by
  have h := Int.ediv_mul_le (x + g - 1) (Int.ne_of_gt hg)
  unfold alignUp
  omega

/-- A multiple before the rest of a sum is not rounded. -/
theorem alignUp_add (hg : 0 < g) (h : g ∣ x) (y : Int) : alignUp (x + y) g = x + alignUp y g := by
  obtain ⟨q, rfl⟩ := h
  unfold alignUp
  rw [show g * q + y + g - 1 = (y + g - 1) + g * q by ring,
    Int.add_mul_ediv_left _ _ (Int.ne_of_gt hg)]
  ring

theorem alignUp_of_dvd (hg : 0 < g) (h : g ∣ x) : alignUp x g = x := by
  have hadd := alignUp_add hg h 0
  have hzero : alignUp 0 g = 0 := by
    unfold alignUp
    rw [Int.ediv_eq_zero_of_lt (by omega) (by omega), Int.zero_mul]
  rwa [Int.add_zero, hzero, Int.add_zero] at hadd

theorem alignUp_pos (hg : 0 < g) (h : 0 < x) : 0 < alignUp x g :=
  Int.lt_of_lt_of_le h (le_alignUp x hg)

theorem alignUp_nonneg (hg : 0 < g) (h : 0 ≤ x) : 0 ≤ alignUp x g :=
  Int.le_trans h (le_alignUp x hg)

/-! ## Words -/

theorem toNat_ofInt (X : Int) : ((UInt32.ofInt X).toNat : Int) = X % 2 ^ 32 := by
  have hlt := Int.emod_lt_of_pos X (show (0 : Int) < 2 ^ 32 by decide)
  have hnn := Int.emod_nonneg X (show (2 : Int) ^ 32 ≠ 0 by decide)
  unfold UInt32.ofInt
  rw [UInt32.toNat_ofNat']
  omega

theorem ofInt_congr {X Y : Int} (h : X % 2 ^ 32 = Y % 2 ^ 32) : UInt32.ofInt X = UInt32.ofInt Y := by
  unfold UInt32.ofInt
  rw [h]

/-- A word is what it is read as. -/
theorem ofInt_toNat (x : UInt32) : UInt32.ofInt x.toNat = x := by
  apply UInt32.toNat_inj.mp
  have h := toNat_ofInt x.toNat
  have hlt := x.toNat_lt
  omega

/-- Rounding up with a mask. -/
theorem ofInt_align (X : Int) {g : UInt32} {k : Nat} (hk : k < 32) (hg : g.toNat = 2 ^ k) :
    (UInt32.ofInt X + g - 1) &&& ~~~(g - 1) = UInt32.ofInt (alignUp X (2 ^ k)) := by
  have hpos := Nat.two_pow_pos k
  have hlt : 2 ^ k < 2 ^ 32 := Nat.pow_lt_pow_right (by decide) hk
  have hsum : UInt32.ofInt X + g - 1 = UInt32.ofInt (X + 2 ^ k - 1) := by
    have hg' : g = UInt32.ofInt (2 ^ k) := by
      rw [← ofInt_toNat g, hg]
      norm_cast
    rw [UInt32.sub_eq_add_neg, show X + 2 ^ k - 1 = X + 2 ^ k + -1 by ring, UInt32.ofInt_add,
      UInt32.ofInt_add, ← hg']
    rfl
  have hone : (g - 1).toNat = 2 ^ k - 1 := by
    rw [UInt32.toNat_sub, hg]
    simp only [UInt32.reduceToNat]
    omega
  have hmask : (~~~(g - 1)).toNat = 2 ^ 32 - 2 ^ k := by
    rw [UInt32.toNat_not, hone]
    simp only [UInt32.size]
    omega
  apply UInt32.toNat_inj.mp
  rw [hsum, UInt32.toNat_and, hmask, and_highMask (UInt32.toNat_lt _) (Nat.le_of_lt hk)]
  -- The sum is `y` and some multiple of `2 ^ 32`, which `2 ^ k` divides.
  obtain ⟨m, hm⟩ : (2 : Int) ^ k ∣ 2 ^ 32 := pow_dvd_pow 2 (Nat.le_of_lt hk)
  have hy := toNat_ofInt (X + 2 ^ k - 1)
  have hr := toNat_ofInt (alignUp X (2 ^ k))
  have hkpos : (0 : Int) < 2 ^ k := by exact_mod_cast hpos
  have hylt : ((UInt32.ofInt (X + 2 ^ k - 1)).toNat : Int) < 2 ^ 32 := by
    exact_mod_cast UInt32.toNat_lt _
  generalize (UInt32.ofInt (X + 2 ^ k - 1)).toNat = y at *
  obtain ⟨q, hq⟩ : ∃ q, X + 2 ^ k - 1 = y + 2 ^ k * (m * q) := by
    refine ⟨(X + 2 ^ k - 1) / 2 ^ 32, ?_⟩
    rw [← Int.mul_assoc, ← hm, hy]
    exact (Int.emod_add_mul_ediv _ _).symm
  have hle := Int.ediv_mul_le (y : Int) (Int.ne_of_gt hkpos)
  have hnn : 0 ≤ (y : Int) / 2 ^ k * 2 ^ k :=
    Int.mul_nonneg (Int.ediv_nonneg (Int.natCast_nonneg _) (Int.le_of_lt hkpos)) (Int.le_of_lt hkpos)
  have hround : alignUp X (2 ^ k) = y / 2 ^ k * 2 ^ k + 2 ^ 32 * q := by
    rw [alignUp, hq, Int.add_mul_ediv_left _ _ (Int.ne_of_gt hkpos), hm]
    ring
  rw [hround] at hr ⊢
  rw [Int.add_mul_emod_self_left, Int.emod_eq_of_lt hnn (by omega)] at hr
  have hcast : ((y / 2 ^ k * 2 ^ k : Nat) : Int) = y / 2 ^ k * 2 ^ k := by push_cast; rfl
  exact Int.ofNat_inj.mp (hcast.trans hr.symm)

end Lib
