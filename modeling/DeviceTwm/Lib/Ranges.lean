import Mathlib.Data.List.Pairwise

/-!
# Address ranges in use

The ranges of an address space that are in use, each with its owner. A new range is clear of those in
use; `vacate` takes every range out of use that it touches.

* `Ranges`: no two ranges in use share an address, and none holds the null address.
* `Ranges.reserve`, `Ranges.vacate`: both operations keep that.
-/

namespace Lib

structure Range (κ : Type) where
  owner : κ
  start : Nat
  size : Nat
  deriving DecidableEq

variable {κ : Type}

namespace Range

/-- No address of `[b, b+n)` is in the range. -/
def Clear (x : Range κ) (b n : Nat) : Prop := x.start + x.size ≤ b ∨ b + n ≤ x.start

instance (x : Range κ) (b n : Nat) : Decidable (x.Clear b n) :=
  inferInstanceAs (Decidable (_ ∨ _))

instance : Std.Symm fun x y : Range κ => x.Clear y.start y.size := ⟨fun _ _ => Or.symm⟩

/-- A part of what is clear is clear. -/
theorem Clear.part {x : Range κ} {b n b' n' : Nat} (h : x.Clear b n) (hb : b ≤ b')
    (hn : b' + n' ≤ b + n) : x.Clear b' n' := by
  rcases h with h | h
  · left
    omega
  · right
    omega

end Range

/-- A range that may be handed out: below `limit`, not at the null address, and clear of the rest. -/
def Grantable (limit : Nat) (rs : List (Range κ)) (b n : Nat) : Prop :=
  0 < b ∧ 0 < n ∧ b + n ≤ limit ∧ ∀ x ∈ rs, x.Clear b n

instance (limit : Nat) (rs : List (Range κ)) (b n : Nat) : Decidable (Grantable limit rs b n) :=
  inferInstanceAs (Decidable (_ ∧ _))

/-- The ranges that are left when `[b, b+n)` is vacated. -/
def vacate (rs : List (Range κ)) (b n : Nat) : List (Range κ) := rs.filter fun x => x.Clear b n

/-- What is in use. -/
structure Ranges (limit : Nat) (rs : List (Range κ)) : Prop where
  bounds : ∀ x ∈ rs, 0 < x.start ∧ 0 < x.size ∧ x.start + x.size ≤ limit
  clear : rs.Pairwise fun x y => x.Clear y.start y.size

namespace Ranges

variable {limit : Nat} {rs : List (Range κ)} {b n : Nat}

theorem nil : Ranges limit ([] : List (Range κ)) where
  bounds := fun _ h => absurd h List.not_mem_nil
  clear := .nil

theorem reserve (h : Ranges limit rs) (hg : Grantable limit rs b n) (o : κ) :
    Ranges limit (⟨o, b, n⟩ :: rs) := by
  obtain ⟨hb, hn, hlimit, hclear⟩ := hg
  refine ⟨?_, List.pairwise_cons.mpr ⟨fun x hx => Or.symm (hclear x hx), h.clear⟩⟩
  intro x hx
  rcases List.mem_cons.mp hx with rfl | hx
  · exact ⟨hb, hn, hlimit⟩
  · exact h.bounds x hx

theorem vacate (h : Ranges limit rs) (b n : Nat) : Ranges limit (Lib.vacate rs b n) where
  bounds := fun x hx => h.bounds x (List.mem_filter.mp hx).1
  clear := h.clear.filter _

/-- Two ranges in use that differ are clear of each other. -/
theorem clear_of_ne (h : Ranges limit rs) {x y : Range κ} (hx : x ∈ rs) (hy : y ∈ rs) (hne : y ≠ x) :
    y.Clear x.start x.size :=
  h.clear.forall hy hx hne

end Ranges

end Lib
