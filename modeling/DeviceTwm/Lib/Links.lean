import Mathlib.Logic.Function.Iterate
import Mathlib.Data.List.Nodup

/-!
# Intrusive doubly linked lists

A list whose `next` and `prev` pointers live in the nodes themselves is a pair of functions on
nodes (`Links`). A list is a ring: from a head `s` that is not an item, `next` runs through the
items and back to `s`, and `prev` runs the other way (`Ring`). A list that ends in a null pointer
is a ring too, with the list object itself (its first and last pointers) as the head.

* `Linked L a l b`: from `a`, the pointers run through `l` and end at `b`.
* `Linked.loop`: a loop along the pointers is a fold of the list.
* `Linked.congr`: only the `next` of `a :: l` and the `prev` of `l ++ [b]` matter.
* `Ring.insert` and `Ring.remove`: what the two pointer writes of an insertion and of a removal
  do to the items.
* `Ring.frame`: a write to the pointers of other nodes changes nothing.
-/

namespace Lib

/-- The `next` and `prev` pointers of the nodes. -/
@[ext] structure Links (α : Type) where
  next : α → α
  prev : α → α

namespace Links

variable {α : Type} [DecidableEq α]

/-- The two writes that make `b` the successor of `a`. -/
def link (L : Links α) (a b : α) : Links α where
  next := Function.update L.next a b
  prev := Function.update L.prev b a

@[simp] theorem link_next (L : Links α) (a b : α) :
    (L.link a b).next = Function.update L.next a b := rfl

@[simp] theorem link_prev (L : Links α) (a b : α) :
    (L.link a b).prev = Function.update L.prev b a := rfl

/-- Unlink `x`: its neighbours point to each other. The pointers of `x` itself stay. -/
def unlink (L : Links α) (x : α) : Links α := L.link (L.prev x) (L.next x)

end Links

variable {α : Type}

/-- From `a`, the `next` pointers run through `l` and end at `b`; the `prev` pointers run back. -/
def Linked (L : Links α) : α → List α → α → Prop
  | a, [], b => L.next a = b ∧ L.prev b = a
  | a, x :: l, b => (L.next a = x ∧ L.prev x = a) ∧ Linked L x l b

@[simp] theorem linked_nil {L : Links α} {a b : α} :
    Linked L a [] b ↔ L.next a = b ∧ L.prev b = a := Iff.rfl

@[simp] theorem linked_cons {L : Links α} {a x b : α} {l : List α} :
    Linked L a (x :: l) b ↔ (L.next a = x ∧ L.prev x = a) ∧ Linked L x l b := Iff.rfl

theorem linked_append {L : Links α} {a x b : α} {l₁ l₂ : List α} :
    Linked L a (l₁ ++ x :: l₂) b ↔ Linked L a l₁ x ∧ Linked L x l₂ b := by
  induction l₁ generalizing a with
  | nil => simp
  | cons y l₁ ih => simp [ih, and_assoc]

/-- The path reads the `next` of `a :: l` and the `prev` of `l ++ [b]` only. -/
theorem Linked.congr {L L' : Links α} {a b : α} {l : List α} (h : Linked L a l b)
    (hn : ∀ x ∈ a :: l, L'.next x = L.next x) (hp : ∀ x ∈ l ++ [b], L'.prev x = L.prev x) :
    Linked L' a l b := by
  induction l generalizing a with
  | nil =>
    have h1 := hn a (by simp)
    have h2 := hp b (by simp)
    simp only [linked_nil] at h ⊢
    exact ⟨h1.trans h.1, h2.trans h.2⟩
  | cons x l ih =>
    have h1 := hn a (by simp)
    have h2 := hp x (by simp)
    simp only [linked_cons] at h ⊢
    refine ⟨⟨h1.trans h.1.1, h2.trans h.1.2⟩, ih h.2 ?_ ?_⟩
    · intro y hy
      exact hn y (List.mem_cons_of_mem _ hy)
    · intro y hy
      exact hp y (by simpa using Or.inr hy)

/-- The first step of a path: to its first item, or to its end. -/
theorem Linked.next_first {L : Links α} {a b : α} {l : List α} (h : Linked L a l b) :
    L.next a = l.headD b ∧ L.prev (l.headD b) = a := by
  cases l with
  | nil => exact h
  | cons x l => exact h.1

/-- The last step of a path: from its last item, or from its start. -/
theorem Linked.prev_last {L : Links α} {a b : α} {l : List α} (h : Linked L a l b) :
    L.next (l.getLastD a) = b ∧ L.prev b = l.getLastD a := by
  induction l generalizing a with
  | nil => exact h
  | cons x l ih =>
    have := ih h.2
    rw [List.getLastD_cons]
    exact this

/-- The successor of a node of a path is on it, and points back. -/
theorem Linked.prev_next {L : Links α} {a b x : α} {l : List α} (h : Linked L a l b)
    (hx : x ∈ a :: l) : L.prev (L.next x) = x ∧ L.next x ∈ l ++ [b] := by
  induction l generalizing a with
  | nil =>
    obtain rfl : x = a := by simpa using hx
    rw [h.1, h.2]
    simp
  | cons y l ih =>
    rcases List.mem_cons.mp hx with rfl | hx
    · rw [h.1.1, h.1.2]
      simp
    · obtain ⟨hp, hm⟩ := ih h.2 hx
      exact ⟨hp, by simpa using Or.inr (List.mem_append.mp hm)⟩

/-- The predecessor of a node of a path points to it. -/
theorem Linked.next_prev {L : Links α} {a b x : α} {l : List α} (h : Linked L a l b)
    (hx : x ∈ l ++ [b]) : L.next (L.prev x) = x := by
  induction l generalizing a with
  | nil =>
    obtain rfl : x = b := by simpa using hx
    rw [h.2, h.1]
  | cons y l ih =>
    rcases List.mem_cons.mp (List.cons_append ▸ hx) with rfl | hx
    · rw [h.1.2, h.1.1]
    · exact ih h.2 hx

/-- A loop that follows the `next` pointers through the nodes of `l`, with the `z` it returns at the end of the
path and what a round makes of the rest (`g`). There are rounds enough. -/
theorem Linked.loop {β γ : Type} {L : Links α} {a b : α} {l : List γ} {node : γ → α} {f : Nat → α → β}
    {g : γ → β → β} {z : β} {n : Nat} (h : Linked L a (l.map node) b) (hn : l.length ≤ n)
    (hstop : ∀ n, f n b = z)
    (hround : ∀ n, ∀ i ∈ l, f (n + 1) (node i) = g i (f n (L.next (node i)))) :
    f n (L.next a) = l.foldr g z := by
  induction l generalizing a n with
  | nil => rw [h.1, hstop, List.foldr_nil]
  | cons i l ih =>
    obtain ⟨⟨hnext, -⟩, hpath⟩ := h
    obtain _ | n := n
    · simp at hn
    have hrest := ih hpath (Nat.le_of_succ_le_succ hn) fun m j hj => hround m j (List.mem_cons_of_mem _ hj)
    rw [hnext, hround n i List.mem_cons_self, hrest, List.foldr_cons]

/-- A path is what the pointers say, as long as it does not come to its end before. -/
theorem Linked.unique {L : Links α} {a b : α} {l l' : List α} (h : Linked L a l b) (h' : Linked L a l' b)
    (hl : b ∉ l) (hl' : b ∉ l') : l = l' := by
  induction l generalizing a l' with
  | nil =>
    cases l' with
    | nil => rfl
    | cons y l' => exact absurd (h.1.symm.trans h'.1.1 ▸ List.mem_cons_self) hl'
  | cons x l ih =>
    cases l' with
    | nil => exact absurd (h'.1.symm.trans h.1.1 ▸ List.mem_cons_self) hl
    | cons y l' =>
      obtain rfl : x = y := h.1.1.symm.trans h'.1.1
      rw [ih h.2 h'.2 (fun hb => hl (List.mem_cons_of_mem _ hb))
        fun hb => hl' (List.mem_cons_of_mem _ hb)]

/-- A search returns at the first hit. -/
theorem foldr_search {β γ : Type} (p : γ → Bool) (f : Option γ → β) (l : List γ) :
    l.foldr (fun i r => if p i then f (some i) else r) (f none) = f (l.find? p) := by
  induction l with
  | nil => rfl
  | cons i l ih =>
    rw [List.foldr_cons, ih, List.find?_cons]
    cases p i <;> rfl

/-- The items `l` in a ring with the head `s`. -/
structure Ring (L : Links α) (s : α) (l : List α) : Prop where
  linked : Linked L s l s
  nodup : (s :: l).Nodup

namespace Ring

variable {L L' : Links α} {s x : α} {l l₁ l₂ : List α}

theorem items_nodup (h : Ring L s l) : l.Nodup := (List.nodup_cons.mp h.nodup).2

theorem next_head (h : Ring L s l) : L.next s = l.headD s := h.linked.next_first.1

theorem prev_head (h : Ring L s l) : L.prev s = l.getLastD s := h.linked.prev_last.2

/-- The pointers have one ring with a head. -/
theorem unique {l' : List α} (h : Ring L s l) (h' : Ring L s l') : l = l' :=
  h.linked.unique h'.linked (List.nodup_cons.mp h.nodup).1 (List.nodup_cons.mp h'.nodup).1

/-- The neighbours of an item. -/
theorem around (h : Ring L s (l₁ ++ x :: l₂)) :
    L.next x = l₂.headD s ∧ L.prev x = l₁.getLastD s := by
  have hl := linked_append.mp h.linked
  exact ⟨hl.2.next_first.1, hl.1.prev_last.2⟩

theorem prev_next (h : Ring L s l) (hx : x ∈ s :: l) : L.prev (L.next x) = x :=
  (h.linked.prev_next hx).1

theorem next_prev (h : Ring L s l) (hx : x ∈ s :: l) : L.next (L.prev x) = x :=
  h.linked.next_prev (by simpa [or_comm] using hx)

/-- The `next` pointers do not leave the ring. -/
theorem iterate_mem (h : Ring L s l) (n : Nat) : L.next^[n] s ∈ s :: l := by
  induction n with
  | zero => exact List.mem_cons_self
  | succ n ih =>
    rw [Function.iterate_succ_apply']
    simpa [or_comm] using (h.linked.prev_next ih).2

/-- Pointers that agree on the nodes of a ring keep it. -/
theorem congr (h : Ring L s l) (hn : ∀ y ∈ s :: l, L'.next y = L.next y)
    (hp : ∀ y ∈ s :: l, L'.prev y = L.prev y) : Ring L' s l := by
  refine ⟨h.linked.congr hn fun y hy => hp y ?_, h.nodup⟩
  simpa [or_comm] using hy

end Ring

section Writes

variable [DecidableEq α] {L : Links α} {a b p q s x : α} {l l₁ l₂ : List α}

/-- A write outside the pointers that a path reads keeps it. -/
theorem Linked.link (h : Linked L a l b) (hp : p ∉ a :: l) (hq : q ∉ l ++ [b]) :
    Linked (L.link p q) a l b := by
  refine h.congr (fun y hy => ?_) fun y hy => ?_
  · exact Function.update_of_ne (by rintro rfl; exact hp hy) _ _
  · exact Function.update_of_ne (by rintro rfl; exact hq hy) _ _

/-- A write to the pointers of nodes outside a ring keeps it. -/
theorem Ring.frame (h : Ring L s l) (hp : p ∉ s :: l) (hq : q ∉ s :: l) :
    Ring (L.link p q) s l :=
  ⟨h.linked.link hp (by simpa [or_comm] using hq), h.nodup⟩

/-- The path that an insertion of `x` between `a` and `b` makes. -/
private theorem linked_insert (h : Linked L s (l₁ ++ l₂) s) (hnd : (s :: (l₁ ++ x :: l₂)).Nodup)
    (ha : a = l₁.getLastD s) (hb : b = l₂.headD s) :
    Linked ((L.link a x).link x b) s (l₁ ++ x :: l₂) s := by
  rw [linked_append]
  rcases List.eq_nil_or_concat l₁ with rfl | ⟨m₁, z, rfl⟩
  · rcases l₂ with _ | ⟨y, m₂⟩
    · simp at ha hb hnd
      subst ha hb
      simp [hnd, Ne.symm hnd]
    · simp at ha hb hnd
      subst ha hb
      simp only [List.nil_append, linked_cons] at h
      have := (h.2.link (p := a) (q := x) (by grind) (by grind)).link (p := x) (q := b)
        (by grind) (by grind)
      simp only [linked_nil, linked_cons]
      refine ⟨⟨?_, ?_⟩, ⟨?_, ?_⟩, this⟩ <;> simp <;> grind
  · simp only [List.concat_eq_append, List.append_assoc, List.singleton_append] at h hnd ha ⊢
    rw [linked_append] at h
    simp only [List.getLastD_concat] at ha
    subst ha
    rw [linked_append]
    have hl := h.1
    have hr := h.2
    rcases l₂ with _ | ⟨y, m₂⟩
    · simp only [List.headD_nil] at hb
      subst hb
      have := (hl.link (p := a) (q := x) (by grind) (by grind)).link (p := x) (q := b)
        (by grind) (by grind)
      refine ⟨⟨this, ?_⟩, ?_⟩
      · simp; grind
      · simp
    · simp only [List.headD_cons] at hb
      subst hb
      simp only [linked_cons] at hr
      have h1 := (hl.link (p := a) (q := x) (by grind) (by grind)).link (p := x) (q := b)
        (by grind) (by grind)
      have h2 := (hr.2.link (p := a) (q := x) (by grind) (by grind)).link (p := x) (q := b)
        (by grind) (by grind)
      refine ⟨⟨h1, ?_⟩, ⟨?_, h2⟩⟩
      · simp
        grind
      · simp

/-- An insertion of `x` between the neighbours `a` and `b`. -/
theorem Ring.insert (h : Ring L s (l₁ ++ l₂)) (hx : x ∉ s :: (l₁ ++ l₂))
    (ha : a = l₁.getLastD s) (hb : b = l₂.headD s) :
    Ring ((L.link a x).link x b) s (l₁ ++ x :: l₂) := by
  have hnd : (s :: (l₁ ++ x :: l₂)).Nodup := by
    have := h.nodup
    simp only [List.mem_cons, List.mem_append, not_or] at hx
    simp only [List.nodup_cons, List.nodup_append, List.mem_append, List.mem_cons] at this ⊢
    grind
  exact ⟨linked_insert h.linked hnd ha hb, hnd⟩

/-- A removal of the item `x`. -/
theorem Ring.remove (h : Ring L s (l₁ ++ x :: l₂)) : Ring (L.unlink x) s (l₁ ++ l₂) := by
  have hnd := h.nodup
  have hnd' : (s :: (l₁ ++ l₂)).Nodup := by
    refine hnd.sublist ?_
    simp
  obtain ⟨hn, hp⟩ := h.around
  refine ⟨?_, hnd'⟩
  have hl := linked_append.mp h.linked
  unfold Links.unlink
  rw [hn, hp]
  rcases List.eq_nil_or_concat l₁ with rfl | ⟨m₁, z, rfl⟩
  · rcases l₂ with _ | ⟨y, m₂⟩
    · simp
    · have := hl.2.2.link (p := s) (q := y) (by grind) (by grind)
      simp only [List.getLastD_nil, List.headD_cons, List.nil_append, linked_cons]
      refine ⟨?_, this⟩
      simp
  · simp only [List.concat_eq_append, List.append_assoc, List.singleton_append] at hl hnd ⊢
    have h1 := (linked_append.mp hl.1).1
    simp only [List.getLastD_concat]
    rw [linked_append]
    rcases l₂ with _ | ⟨y, m₂⟩
    · have := h1.link (p := z) (q := s) (by grind) (by grind)
      exact ⟨this, by simp⟩
    · have h1' := h1.link (p := z) (q := y) (by grind) (by grind)
      have h2' := hl.2.2.link (p := z) (q := y) (by grind) (by grind)
      refine ⟨h1', ?_, h2'⟩
      simp

end Writes

end Lib
