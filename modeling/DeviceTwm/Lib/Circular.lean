import Mathlib.Data.Nat.ModEq

/-!
# Queues in a circular buffer

The items of a queue stand in the first `n` slots of a buffer, one after the other from `start` on, and
go on at the first slot after the last. Slots from `n` on may be there for other purposes.

* `Queued slots n start q`: the slots hold the queue `q`.
* `Queued.push` and `Queued.pop`: what a writer and a reader have to do.
* `Queued.keep`: what is written outside of the queue does not matter.
-/

namespace Lib

variable {α : Type} {slots slots' : List α} {n start : Nat} {q : List α} {x : α}

/-- The slots hold the queue `q`, whose first item is at `start`. -/
def Queued (slots : List α) (n start : Nat) (q : List α) : Prop :=
  ∀ i < q.length, slots[(start + i) % n]? = q[i]?

namespace Queued

theorem nil : Queued slots n start [] := fun i hi => absurd hi (Nat.not_lt_zero i)

/-- The slots of a queue that is not full, and the next one, are different. -/
theorem slot_ne {i k : Nat} (hi : i < k) (hk : k < n) : (start + i) % n ≠ (start + k) % n := by
  intro h
  have hmod : i % n = k % n := Nat.ModEq.add_left_cancel' start h
  rw [Nat.mod_eq_of_lt (Nat.lt_trans hi hk), Nat.mod_eq_of_lt hk] at hmod
  exact Nat.ne_of_lt hi hmod

/-- A queue stays when only the next free slot changes. -/
theorem keep (h : Queued slots n start q) (hq : q.length < n)
    (hslots : ∀ j < n, j ≠ (start + q.length) % n → slots'[j]? = slots[j]?) :
    Queued slots' n start q := by
  intro i hi
  rw [hslots _ (Nat.mod_lt _ (Nat.zero_lt_of_lt hq)) (slot_ne hi hq)]
  exact h i hi

/-- The next free slot takes the next item. -/
theorem push (h : Queued slots n start q) (hq : q.length < n)
    (hslots : ∀ j < n, j ≠ (start + q.length) % n → slots'[j]? = slots[j]?)
    (hx : slots'[(start + q.length) % n]? = some x) : Queued slots' n start (q ++ [x]) := by
  have hkeep := h.keep hq hslots
  intro i hi
  rw [List.length_append, List.length_singleton] at hi
  by_cases hlast : i = q.length
  · rw [hlast, hx, List.getElem?_concat_length]
  · rw [List.getElem?_append_left (by omega)]
    exact hkeep i (by omega)

theorem head (h : Queued slots n start (x :: q)) : slots[start % n]? = some x := h 0 (Nat.succ_pos _)

/-- The first item is taken out. -/
theorem pop (h : Queued slots n start (x :: q)) : Queued slots n ((start + 1) % n) q := by
  intro i hi
  rw [Nat.mod_add_mod, Nat.add_assoc, Nat.add_comm 1]
  exact h (i + 1) (Nat.succ_lt_succ hi)

end Queued

/-- The next position of a cursor that goes back to the start at the end. -/
theorem wrap_eq {k : Nat} (h : k < n) : (if n ≤ k + 1 then 0 else k + 1) = (k + 1) % n := by
  by_cases hk : n ≤ k + 1
  · rw [if_pos hk, show k + 1 = n by omega, Nat.mod_self]
  · rw [if_neg hk, Nat.mod_eq_of_lt (Nat.not_le.mp hk)]

end Lib
