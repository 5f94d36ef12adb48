import Mathlib.Algebra.Order.Ring.Nat
import Mathlib.Data.Nat.Init
import Mathlib.Tactic.Ring
import Mathlib.Tactic.Linarith

/-!
# Scaling a part of a line

A line of `d` points is mapped to one of `m`: the point at `o` goes to `o * m / d`, and `n` points from
there on to `n * m / d`, rounded down.

* `scaled_part_le`: a part goes to a part.
* `scale_shifted_iff`: when an origin that is scaled together with the offset is as good as one that
  is added to the scaled offset.
-/

namespace Lib

/-- A part of the line goes inside the other line. -/
theorem scaled_part_le {o n m d : Nat} (hd : 0 < d) (h : o + n ≤ d) :
    o * m / d + n * m / d ≤ m :=
  calc o * m / d + n * m / d ≤ (o * m + n * m) / d := Nat.div_add_div_le_add_div
    _ = (o + n) * m / d := by rw [Nat.add_mul]
    _ ≤ d * m / d := Nat.div_le_div_right (Nat.mul_le_mul_right m h)
    _ = m := Nat.mul_div_cancel_left m hd

/-- The origin `a` scaled with the offset gives the scaled offset from `s` exactly if `a` and what the
scaled offset leaves come to `s` points. -/
theorem scale_shifted_iff {s a o m d : Nat} (hd : 0 < d) :
    m * (o + a) / d = s + o * m / d ↔ s * d ≤ a * m + o * m % d ∧ a * m + o * m % d < (s + 1) * d := by
  have hsplit : m * (o + a) = (a * m + o * m % d) + d * (o * m / d) := by
    have h := Nat.div_add_mod (o * m) d
    linarith [Nat.mul_add m o a, Nat.mul_comm m o, Nat.mul_comm m a]
  rw [hsplit, Nat.add_mul_div_left _ _ hd, Nat.add_right_cancel_iff, Nat.div_eq_iff hd, Nat.add_one_mul]
  omega

end Lib
