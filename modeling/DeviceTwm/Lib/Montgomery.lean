import DeviceTwm.Lib.Limbs
import Mathlib.Data.Nat.ModEq
import Mathlib.Data.Nat.GCD.BigOperators

/-!
# Montgomery multiplication

Multiplication modulo `n` by digits of base `r`, each of which is divided out again as soon as it is
added: to `t` a multiple of `n` is added that makes it a multiple of `r`, which `m`, with
`m n ≡ -1 (mod r)`, finds.

* `redc`: the quotient; `redc_modEq`, `redc_le`.
* `Mont n r k c t`: `c` is `t r⁻ᵏ` modulo `n`, said without the inverse.
* `Mont.step`: one digit more. `Mont.cancel`: a factor that takes the division away, if `r` has an inverse.
-/

namespace Lib

/-- `t` and the multiple of `n` that makes it divisible by `r`, divided by `r`. -/
def redc (n m r t : Nat) : Nat := (t + t * m % r * n) / r

theorem dvd_redc {n m r : Nat} (hm : (m * n + 1) % r = 0) (t : Nat) :
    r ∣ t + t * m % r * n := by
  have hcong : t + t * m % r * n ≡ t * (m * n + 1) [MOD r] :=
    calc t + t * m % r * n ≡ t + t * m * n [MOD r] :=
          Nat.ModEq.add_left _ ((Nat.mod_modEq _ _).mul_right _)
      _ = t * (m * n + 1) := by ring
  have hzero : t * (m * n + 1) ≡ 0 [MOD r] := by
    have h : m * n + 1 ≡ 0 [MOD r] := hm
    simpa using h.mul_left t
  exact (Nat.modEq_zero_iff_dvd).mp (hcong.trans hzero)

theorem redc_mul {n m r : Nat} (hm : (m * n + 1) % r = 0) (t : Nat) :
    r * redc n m r t = t + t * m % r * n := Nat.mul_div_cancel' (dvd_redc hm t)

theorem redc_modEq {n m r : Nat} (hm : (m * n + 1) % r = 0) (t : Nat) :
    r * redc n m r t ≡ t [MOD n] := by
  rw [redc_mul hm]
  simp

/-- The quotient exceeds `t / r` by less than `n`. -/
theorem redc_lt {n m r t b : Nat} (hr : 0 < r) (h : t < r * b + n) : redc n m r t < b + n := by
  have hd : t * m % r + 1 ≤ r := Nat.mod_lt _ hr
  have hmul : (t * m % r + 1) * n ≤ r * n := Nat.mul_le_mul_right _ hd
  rw [redc]
  apply Nat.div_lt_of_lt_mul
  rw [Nat.mul_add]
  rw [Nat.add_mul] at hmul
  omega

/-- `c` is `t` divided `k` times by `r`, modulo `n`. -/
def Mont (n r k c t : Nat) : Prop := r ^ k * c ≡ t [MOD n]

namespace Mont

variable {n r k c t : Nat}

theorem congr {c' t' : Nat} (h : Mont n r k c t) (hc : c ≡ c' [MOD n]) (ht : t ≡ t' [MOD n]) :
    Mont n r k c' t' := (hc.symm.mul_left _).trans (h.trans ht)

/-- One digit of a product more. -/
theorem step {c' a b : Nat} (h : Mont n r k c t) (hc : r * c' ≡ c + a * b [MOD n]) :
    Mont n r (k + 1) c' (t + r ^ k * a * b) := by
  have heq : r ^ (k + 1) * c' = r ^ k * (r * c') := by ring
  have hrhs : r ^ k * (c + a * b) = r ^ k * c + r ^ k * a * b := by ring
  rw [Mont, heq]
  refine (hc.mul_left _).trans ?_
  rw [hrhs]
  exact h.add_right _

/-- A factor that is `r ^ k` times a number takes the division away. -/
theorem cancel {x : Nat} (hr : n.Coprime r) (h : Mont n r k c (r ^ k * x)) : c ≡ x [MOD n] :=
  Nat.ModEq.cancel_left_of_coprime (Nat.Coprime.pow_right k hr) h

end Mont

end Lib
