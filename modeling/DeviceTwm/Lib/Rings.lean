import DeviceTwm.Lib.Links

/-!
# Several intrusive lists over the same nodes

Rings that have no node in common (`Rings`), each with its own head. A node that is in none of them can
be put at the end of one (`Rings.append`), and an item can be taken out of its own (`Rings.remove`);
the other rings stay as they are.
-/

namespace Lib

variable {α ι : Type}

theorem Ring.next_mem {L : Links α} {s x : α} {l : List α} (h : Ring L s l) (hx : x ∈ s :: l) :
    L.next x ∈ s :: l := by
  have := (h.linked.prev_next hx).2
  simpa [or_comm] using this

theorem Ring.prev_mem {L : Links α} {s x : α} {l : List α} (h : Ring L s l) (hx : x ∈ s :: l) :
    L.prev x ∈ s :: l := by
  rcases List.mem_cons.mp hx with rfl | hx
  · rw [h.prev_head, List.getLastD_eq_getLast?]
    cases hl : l.getLast? with
    | none => exact List.mem_cons_self
    | some y => exact List.mem_cons_of_mem _ (List.mem_of_getLast? hl)
  · obtain ⟨l₁, l₂, rfl⟩ := List.append_of_mem hx
    rw [h.around.2, List.getLastD_eq_getLast?]
    cases hl : l₁.getLast? with
    | none => exact List.mem_cons_self
    | some y => exact List.mem_cons_of_mem _ (List.mem_append_left _ (List.mem_of_getLast? hl))

/-- Rings with the heads `head i` that have no node in common. -/
structure Rings (L : Links α) (head : ι → α) (items : ι → List α) : Prop where
  ring : ∀ i, Ring L (head i) (items i)
  disjoint : ∀ i j x, x ∈ head i :: items i → x ∈ head j :: items j → i = j

namespace Rings

variable [DecidableEq α] {L : Links α} {head : ι → α} {items : ι → List α} {i : ι} {x : α}

omit [DecidableEq α] in
/-- Pointers that agree on the nodes of the rings keep them. -/
theorem congr {L' : Links α} (h : Rings L head items)
    (hnext : ∀ j, ∀ y ∈ head j :: items j, L'.next y = L.next y)
    (hprev : ∀ j, ∀ y ∈ head j :: items j, L'.prev y = L.prev y) : Rings L' head items :=
  ⟨fun j => (h.ring j).congr (hnext j) (hprev j), h.disjoint⟩

/-- The writes that put `x` before the head of a ring. -/
theorem append [DecidableEq ι] (h : Rings L head items) (i : ι) (hx : ∀ j, x ∉ head j :: items j) :
    Rings ((L.link (L.prev (head i)) x).link x (head i)) head
      (Function.update items i (items i ++ [x])) := by
  have hprev : L.prev (head i) ∈ head i :: items i := (h.ring i).prev_mem List.mem_cons_self
  constructor
  · intro j
    by_cases hj : j = i
    · subst hj
      rw [Function.update_self]
      have hring : Ring L (head j) (items j ++ []) := by simpa using h.ring j
      exact hring.insert (by simpa using hx j) (h.ring j).prev_head rfl
    · rw [Function.update_of_ne hj]
      have hout : ∀ y ∈ head i :: items i, y ∉ head j :: items j :=
        fun y hy hy' => hj (h.disjoint j i y hy' hy)
      exact ((h.ring j).frame (hout _ hprev) (hx j)).frame (hx j) (hout _ List.mem_cons_self)
  · intro j k y hy hy'
    by_cases hxy : y = x
    · have heq (j : ι) (hy : y ∈ head j :: Function.update items i (items i ++ [x]) j) : j = i := by
        by_contra hj
        rw [Function.update_of_ne hj, hxy] at hy
        exact hx j hy
      rw [heq j hy, heq k hy']
    · have hold (j : ι) (hy : y ∈ head j :: Function.update items i (items i ++ [x]) j) :
          y ∈ head j :: items j := by
        by_cases hj : j = i
        · subst hj
          rw [Function.update_self] at hy
          simpa [hxy] using hy
        · rwa [Function.update_of_ne hj] at hy
      exact h.disjoint j k y (hold j hy) (hold k hy')

/-- The writes that take `x` out of its ring, and those that make it a ring of its own. -/
theorem remove (h : Rings L head items) (hx : x ∈ items i) :
    Rings ((L.unlink x).link x x) head fun j => (items j).erase x := by
  have hxi : x ∈ head i :: items i := List.mem_cons_of_mem _ hx
  constructor
  · intro j
    by_cases hj : j = i
    · subst hj
      obtain ⟨l₁, l₂, heq⟩ := List.append_of_mem hx
      have hring := h.ring j
      rw [heq] at hring
      have hnot : x ∉ head j :: (l₁ ++ l₂) := by
        have := hring.nodup
        grind
      have herase : (items j).erase x = l₁ ++ l₂ := by
        rw [heq, List.erase_append_right _ (by grind), List.erase_cons_head]
      rw [herase]
      exact hring.remove.frame hnot hnot
    · have hout : ∀ y ∈ head i :: items i, y ∉ head j :: items j :=
        fun y hy hy' => hj (h.disjoint j i y hy' hy)
      have hnot := hout x hxi
      rw [List.erase_of_not_mem (fun hmem => hnot (List.mem_cons_of_mem _ hmem))]
      exact ((h.ring j).frame (hout _ ((h.ring i).prev_mem hxi))
        (hout _ ((h.ring i).next_mem hxi))).frame hnot hnot
  · intro j k y hy hy'
    have hold (j : ι) (hy : y ∈ head j :: (items j).erase x) : y ∈ head j :: items j := by
      rcases List.mem_cons.mp hy with rfl | hy
      · exact List.mem_cons_self
      · exact List.mem_cons_of_mem _ (List.mem_of_mem_erase hy)
    exact h.disjoint j k y (hold j hy) (hold k hy')

/-- The pointers of other nodes stay when `x` is put before `s`. -/
theorem append_prev {s y : α} (hx : y ≠ x) (hs : y ≠ s) :
    ((L.link (L.prev s) x).link x s).prev y = L.prev y := by
  rw [Links.link_prev, Function.update_of_ne hs, Links.link_prev, Function.update_of_ne hx]

/-- The pointers of a node outside the ring stay when `x` is taken out. -/
theorem remove_prev (h : Rings L head items) (hx : x ∈ items i) {y : α} (hout : y ∉ head i :: items i) :
    ((L.unlink x).link x x).prev y = L.prev y := by
  have hxi : x ∈ head i :: items i := List.mem_cons_of_mem _ hx
  have hne : y ≠ x := fun heq => hout (heq ▸ hxi)
  have hnext : y ≠ L.next x := fun heq => hout (heq ▸ (h.ring i).next_mem hxi)
  rw [Links.link_prev, Function.update_of_ne hne, Links.unlink, Links.link_prev,
    Function.update_of_ne hnext]

end Rings

end Lib
