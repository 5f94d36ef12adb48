import Mathlib.Data.List.TakeDrop

/-!
# Hashing in blocks

A state that takes in a message a block at a time, and a buffer for the block that is not complete yet.

* `chunks n m`: the whole blocks of `n` of a string.
* `Streamed f n s₀ m s b`: with the message `m` taken in, the state is `s`, and `b` is left over.
* `Streamed.push`, `Streamed.block`: one more element, without and with a block completed.
* `Streamed.eq_foldl`: at the end of a block the state is that of all the blocks; how the message came
  in pieces does not matter.
-/

namespace Lib

variable {σ α : Type} {f : σ → List α → σ} {n : Nat} {s₀ s : σ} {m b : List α}

/-- The whole blocks of `n`. -/
def chunks (n : Nat) (m : List α) : List (List α) :=
  (List.range (m.length / n)).map fun i => (m.drop (n * i)).take n

theorem length_flatten_blocks {bs : List (List α)} (h : ∀ x ∈ bs, x.length = n) :
    bs.flatten.length = n * bs.length := by
  induction bs with
  | nil => rfl
  | cons x bs ih =>
    have hrest := ih fun y hy => h y (List.mem_cons_of_mem x hy)
    rw [List.flatten_cons, List.length_append, hrest, h x List.mem_cons_self, List.length_cons,
      Nat.mul_add, Nat.mul_one, Nat.add_comm]

theorem chunks_flatten (hn : 0 < n) {bs : List (List α)} (h : ∀ x ∈ bs, x.length = n) :
    chunks n bs.flatten = bs := by
  rw [chunks, length_flatten_blocks h, Nat.mul_div_cancel_left _ hn]
  induction bs with
  | nil => rfl
  | cons x bs ih =>
    have hx := h x List.mem_cons_self
    rw [List.length_cons, List.range_succ_eq_map, List.map_cons, List.map_map]
    congr 1
    · rw [Nat.mul_zero, List.drop_zero, List.flatten_cons, ← hx, List.take_left]
    · conv_rhs => rw [← ih fun y hy => h y (List.mem_cons_of_mem x hy)]
      refine List.map_congr_left fun i _ => ?_
      rw [Function.comp, List.flatten_cons, Nat.mul_succ, Nat.add_comm, ← List.drop_drop, ← hx,
        List.drop_left]

/-- With `m` taken in, in blocks of `n`, the state is `s`, and `b` is left over. -/
def Streamed (f : σ → List α → σ) (n : Nat) (s₀ : σ) (m : List α) (s : σ) (b : List α) : Prop :=
  ∃ bs : List (List α), (∀ x ∈ bs, x.length = n) ∧ m = bs.flatten ++ b ∧ b.length < n ∧
    s = bs.foldl f s₀

namespace Streamed

theorem init (hn : 0 < n) : Streamed f n s₀ [] s₀ [] := ⟨[], nofun, rfl, hn, rfl⟩

theorem lt (h : Streamed f n s₀ m s b) : b.length < n := by
  obtain ⟨bs, -, -, hb, -⟩ := h
  exact hb

/-- What is left over has the length that is over. -/
theorem length_mod (h : Streamed f n s₀ m s b) : m.length % n = b.length := by
  obtain ⟨bs, hbs, rfl, hb, -⟩ := h
  rw [List.length_append, length_flatten_blocks hbs, Nat.mul_add_mod, Nat.mod_eq_of_lt hb]

theorem push (h : Streamed f n s₀ m s b) {c : α} (hb : b.length + 1 ≠ n) :
    Streamed f n s₀ (m ++ [c]) s (b ++ [c]) := by
  obtain ⟨bs, hbs, rfl, hlt, hs⟩ := h
  exact ⟨bs, hbs, List.append_assoc _ _ _, by rw [List.length_append, List.length_singleton]; omega,
    hs⟩

theorem block (h : Streamed f n s₀ m s b) {c : α} (hb : b.length + 1 = n) :
    Streamed f n s₀ (m ++ [c]) (f s (b ++ [c])) [] := by
  obtain ⟨bs, hbs, rfl, hlt, rfl⟩ := h
  refine ⟨bs ++ [b ++ [c]], fun x hx => ?_, ?_, by rw [List.length_nil]; omega, ?_⟩
  · rcases List.mem_append.mp hx with hx | hx
    · exact hbs x hx
    · rw [List.mem_singleton.mp hx, List.length_append, List.length_singleton, hb]
  · simp [List.append_assoc]
  · rw [List.foldl_append]
    rfl

/-- A message of whole blocks has the state of its blocks. -/
theorem eq_foldl (h : Streamed f n s₀ m s b) (hm : m.length % n = 0) :
    s = (chunks n m).foldl f s₀ := by
  have hb := h.length_mod
  have hpos := h.lt
  obtain ⟨bs, hbs, rfl, -, rfl⟩ := h
  have hnil : b = [] := List.eq_nil_of_length_eq_zero (by omega)
  rw [hnil, List.append_nil, chunks_flatten (by omega) hbs]

end Streamed

end Lib
