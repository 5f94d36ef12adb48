import Mathlib.Data.List.MinMax

/-!
# The earliest least element of a list

`List.argmin f l` is the element that a search with a strict comparison keeps: the first of those
with the least `f`.

* `argmin_append_of_le`: a search may stop at an element that nothing later is below.
* `Earliest f p l a r`: in `l ++ a :: r`, `a` is the earliest of the elements with `p` that have the
  least `f`; `earliest_of_argmin` finds it in a filtered list.
-/

namespace Lib

variable {α β : Type*} [LinearOrder β] {f : α → β} {p : α → Prop} {l r : List α} {a m : α}

/-- Elements that are not below the least one change nothing. -/
theorem argmin_append_of_le (hm : l.argmin f = some m) (hr : ∀ b ∈ r, f m ≤ f b) :
    (l ++ r).argmin f = some m := by
  induction r using List.reverseRecOn with
  | nil => rw [List.append_nil, hm]
  | append_singleton r b ih =>
    have hb : f m ≤ f b := hr b (by simp)
    have hi := ih fun c hc => hr c (by simp [hc])
    rw [← List.append_assoc, List.argmin_concat, hi]
    exact if_neg (not_lt_of_ge hb)

/-- The least element is after strictly greater ones and before none that is less. -/
theorem argmin_split (h : l.argmin f = some m) :
    ∃ l₁ l₂, l = l₁ ++ m :: l₂ ∧ (∀ b ∈ l₁, f m < f b) ∧ ∀ b ∈ l₂, f m ≤ f b := by
  induction l generalizing m with
  | nil => cases h
  | cons a l ih =>
    rw [List.argmin_cons] at h
    rcases hl : l.argmin f with _ | c
    · rw [hl] at h
      cases h
      have : l = [] := List.argmin_eq_none.mp hl
      exact ⟨[], l, rfl, by simp, by simp [this]⟩
    · rw [hl] at h
      simp only [] at h
      split at h
      · rename_i hca
        cases h
        obtain ⟨l₁, l₂, rfl, h₁, h₂⟩ := ih hl
        refine ⟨a :: l₁, l₂, rfl, fun b hb => ?_, h₂⟩
        rcases List.mem_cons.mp hb with rfl | hb
        · exact hca
        · exact h₁ b hb
      · rename_i hca
        cases h
        refine ⟨[], l, rfl, by simp, fun b hb => ?_⟩
        exact le_trans (le_of_not_gt hca) (List.le_of_mem_argmin hb hl)

/-- In `l ++ a :: r`, `a` is the earliest of the elements with `p` that have the least `f`. -/
structure Earliest (f : α → β) (p : α → Prop) (l : List α) (a : α) (r : List α) : Prop where
  holds : p a
  before : ∀ b ∈ l, p b → f a < f b
  after : ∀ b ∈ r, p b → f a ≤ f b

theorem earliest_of_argmin [DecidablePred p] (h : (l.filter fun b => p b).argmin f = some a) :
    ∃ l₁ l₂, l = l₁ ++ a :: l₂ ∧ Earliest f p l₁ a l₂ := by
  obtain ⟨f₁, f₂, hf, h₁, h₂⟩ := argmin_split h
  obtain ⟨l₁, l₂', rfl, rfl, hl₂⟩ := List.filter_eq_append_iff.mp hf
  obtain ⟨s, l₂, rfl, hs, ha, rfl⟩ := List.filter_eq_cons_iff.mp hl₂
  refine ⟨l₁ ++ s, l₂, by simp, by simpa using ha, fun b hb hp => ?_, fun b hb hp => ?_⟩
  · rcases List.mem_append.mp hb with hb | hb
    · exact h₁ b (by simp [hb, hp])
    · exact absurd (by simpa using hp) (hs b hb)
  · exact h₂ b (by simp [hb, hp])

/-- There is one earliest least element, at one place. -/
theorem Earliest.unique {l₁ r₁ l₂ r₂ : List α} {b : α} (h₁ : Earliest f p l₁ a r₁)
    (h₂ : Earliest f p l₂ b r₂) (h : l₁ ++ a :: r₁ = l₂ ++ b :: r₂) :
    l₁ = l₂ ∧ a = b ∧ r₁ = r₂ := by
  rcases List.append_eq_append_iff.mp h with ⟨t, rfl, ht⟩ | ⟨t, rfl, ht⟩
  · rcases t with _ | ⟨c, t⟩
    · simpa using ht
    · cases ht
      have hab := h₂.before a (by simp) h₁.holds
      have hba := h₁.after b (by simp) h₂.holds
      exact absurd hab (not_lt_of_ge hba)
  · rcases t with _ | ⟨c, t⟩
    · obtain ⟨rfl, rfl⟩ : b = a ∧ r₂ = r₁ := by simpa using ht
      simp
    · cases ht
      have hba := h₁.before b (by simp) h₂.holds
      have hab := h₂.after a (by simp) h₁.holds
      exact absurd hba (not_lt_of_ge hab)

/-- Along a map of the list. -/
theorem Earliest.map {γ : Type*} {g : γ → α} {s t : List γ} {c : γ}
    (h : Earliest (f ∘ g) (p ∘ g) s c t) : Earliest f p (s.map g) (g c) (t.map g) := by
  refine ⟨h.holds, fun b hb hp => ?_, fun b hb hp => ?_⟩
  · obtain ⟨d, hd, rfl⟩ := List.mem_map.mp hb
    exact h.before d hd hp
  · obtain ⟨d, hd, rfl⟩ := List.mem_map.mp hb
    exact h.after d hd hp

end Lib
