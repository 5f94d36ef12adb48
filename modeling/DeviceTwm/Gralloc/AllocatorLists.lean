import Mathlib.Data.Option.Basic
import Mathlib.Data.List.Perm.Subperm
import DeviceTwm.Lib.Links
import DeviceTwm.Lib.Argmin
import DeviceTwm.Gralloc.Allocator

/-!
# The chunk list as a list

`links s` is the chunk list of `s` as a ring (`DeviceTwm/Lib/Links.lean`): the head is the
`LinkedList` object (`none`), with `mFirst` as its `next` and `mLast` as its `prev`. `Holds s as`
says that the list holds the chunks at the addresses `as`, head to tail, all of them made by `new`.

`insertBefore`, `insertAfter`, `insertHead` and `remove` insert and remove one address and change
no extent (`start`, `size`, `free`) of a chunk; the loops read the list `as`.
-/

namespace Twm.Gralloc

open Lib

/-- What a chunk says of the heap: its pointers left out. -/
structure Extent where
  start : Nat
  size : Nat
  free : Bool
  deriving DecidableEq, Repr

namespace SimpleBestFitAllocator

variable {s : SimpleBestFitAllocator} {as l₁ l₂ : List Nat} {a b c x : Nat}

def extent (s : SimpleBestFitAllocator) (a : Nat) : Extent :=
  ⟨(s.mem a).start, (s.mem a).size, (s.mem a).free⟩

/-- The extents of the chunk list, head to tail. -/
def extents (s : SimpleBestFitAllocator) : List Extent := s.chunkList.map s.extent

/-- The pointers of the chunk list; `none` is the list object. -/
def links (s : SimpleBestFitAllocator) : Links (Option Nat) where
  next
    | none => s.mFirst
    | some a => (s.mem a).next
  prev
    | none => s.mLast
    | some a => (s.mem a).prev

/-- The chunk list holds the chunks at `as`. -/
structure Holds (s : SimpleBestFitAllocator) (as : List Nat) : Prop where
  ring : Ring s.links none (as.map some)
  below : ∀ a ∈ as, a < s.top

/-! ## Writes -/

@[simp] theorem modify_mem_self (f : Chunk → Chunk) : (s.modify a f).mem a = f (s.mem a) := by
  simp [modify]

theorem modify_mem_ne (f : Chunk → Chunk) (h : b ≠ a) : (s.modify a f).mem b = s.mem b := by
  simp [modify, h]

@[simp] theorem modify_top (f : Chunk → Chunk) : (s.modify a f).top = s.top := rfl
@[simp] theorem modify_mFirst (f : Chunk → Chunk) : (s.modify a f).mFirst = s.mFirst := rfl
@[simp] theorem modify_mLast (f : Chunk → Chunk) : (s.modify a f).mLast = s.mLast := rfl
@[simp] theorem modify_mHeapSize (f : Chunk → Chunk) :
    (s.modify a f).mHeapSize = s.mHeapSize := rfl

/-- A write that keeps the pointers of the chunk keeps the list. -/
theorem modify_links {f : Chunk → Chunk} (hn : (f (s.mem a)).next = (s.mem a).next)
    (hp : (f (s.mem a)).prev = (s.mem a).prev) : (s.modify a f).links = s.links := by
  apply Links.ext <;> funext o <;> rcases o with _ | b
  · rfl
  · by_cases h : b = a
    · subst h; simpa [links] using hn
    · simp [links, modify_mem_ne _ h]
  · rfl
  · by_cases h : b = a
    · subst h; simpa [links] using hp
    · simp [links, modify_mem_ne _ h]

/-- A write that keeps the extent of the chunk keeps every extent. -/
theorem modify_extent {f : Chunk → Chunk} (hs : (f (s.mem a)).start = (s.mem a).start)
    (hz : (f (s.mem a)).size = (s.mem a).size) (hf : (f (s.mem a)).free = (s.mem a).free) :
    (s.modify a f).extent = s.extent := by
  funext b
  by_cases h : b = a
  · subst h; simp [extent, hs, hz, hf]
  · simp [extent, modify_mem_ne _ h]

theorem extent_modify_ne (f : Chunk → Chunk) (h : b ≠ a) :
    (s.modify a f).extent b = s.extent b := by simp [extent, modify_mem_ne _ h]

/-! ## The list operations -/

section Pointers

variable (s : SimpleBestFitAllocator) (o v : Option Nat)

@[simp] theorem setNext_links : (s.setNext o v).links =
    { s.links with next := Function.update s.links.next o v } := by
  apply Links.ext <;> funext q <;> rcases o with _ | a <;> rcases q with _ | b <;>
    simp [links, setNext, modify, Function.update_apply]
  · split <;> simp [*]
  · split <;> simp [*]

@[simp] theorem setPrev_links : (s.setPrev o v).links =
    { s.links with prev := Function.update s.links.prev o v } := by
  apply Links.ext <;> funext q <;> rcases o with _ | a <;> rcases q with _ | b <;>
    simp [links, setPrev, modify, Function.update_apply]
  · split <;> simp [*]
  · split <;> simp [*]

@[simp] theorem setNext_extent : (s.setNext o v).extent = s.extent := by
  rcases o with _ | a
  · rfl
  · exact modify_extent (f := fun c => { c with next := v }) rfl rfl rfl

@[simp] theorem setPrev_extent : (s.setPrev o v).extent = s.extent := by
  rcases o with _ | a
  · rfl
  · exact modify_extent (f := fun c => { c with prev := v }) rfl rfl rfl

@[simp] theorem setNext_top : (s.setNext o v).top = s.top := by cases o <;> rfl
@[simp] theorem setPrev_top : (s.setPrev o v).top = s.top := by cases o <;> rfl
@[simp] theorem setNext_mHeapSize : (s.setNext o v).mHeapSize = s.mHeapSize := by cases o <;> rfl
@[simp] theorem setPrev_mHeapSize : (s.setPrev o v).mHeapSize = s.mHeapSize := by cases o <;> rfl

end Pointers

theorem mem_next : (s.mem a).next = s.links.next (some a) := rfl
theorem mem_prev : (s.mem a).prev = s.links.prev (some a) := rfl

theorem insertAfter_links (h : a ≠ x) : (s.insertAfter a x).links =
    (s.links.link (some a) (some x)).link (some x) (s.links.next (some a)) := by
  have hax : (some a : Option Nat) ≠ some x := by simpa using h
  unfold insertAfter
  simp only [mem_next, setPrev_links, setNext_links, Function.update_of_ne hax]
  apply Links.ext
  · simp only [Links.link_next]
    exact (Function.update_comm hax _ _ _).symm
  · rfl

theorem insertBefore_links (h : a ≠ x) (hp : s.links.prev (some a) ≠ some x) :
    (s.insertBefore a x).links =
      (s.links.link (s.links.prev (some a)) (some x)).link (some x) (some a) := by
  have hax : (some a : Option Nat) ≠ some x := by simpa using h
  unfold insertBefore
  simp only [mem_prev, setPrev_links, setNext_links, Function.update_of_ne hax]
  apply Links.ext
  · simp only [Links.link_next]
    exact (Function.update_comm hp _ _ _).symm
  · rfl

theorem remove_links (h : s.links.prev (some a) ≠ some a) :
    (s.remove a).links = s.links.unlink (some a) := by
  unfold remove
  simp only [mem_next, mem_prev, setPrev_links, setNext_links, Function.update_of_ne h.symm]
  rfl

@[simp] theorem insertAfter_extent : (s.insertAfter a x).extent = s.extent := by simp [insertAfter]
@[simp] theorem insertBefore_extent : (s.insertBefore a x).extent = s.extent := by
  simp [insertBefore]
@[simp] theorem remove_extent : (s.remove a).extent = s.extent := by simp [remove]
@[simp] theorem insertAfter_top : (s.insertAfter a x).top = s.top := by simp [insertAfter]
@[simp] theorem insertBefore_top : (s.insertBefore a x).top = s.top := by simp [insertBefore]
@[simp] theorem remove_top : (s.remove a).top = s.top := by simp [remove]
@[simp] theorem insertAfter_mHeapSize : (s.insertAfter a x).mHeapSize = s.mHeapSize := by
  simp [insertAfter]
@[simp] theorem insertBefore_mHeapSize : (s.insertBefore a x).mHeapSize = s.mHeapSize := by
  simp [insertBefore]
@[simp] theorem remove_mHeapSize : (s.remove a).mHeapSize = s.mHeapSize := by simp [remove]

/-! ## The addresses in the list -/

theorem map_some_headD (l : List Nat) : (l.map some).headD none = l.head? := by cases l <;> rfl

theorem map_some_getLastD (l : List Nat) : (l.map some).getLastD none = l.getLast? := by
  rcases List.eq_nil_or_concat l with rfl | ⟨m, z, rfl⟩
  · rfl
  · simp

namespace Holds

theorem nodup (h : Holds s as) : as.Nodup := (List.nodup_map_iff (Option.some_injective _)).mp
  h.ring.items_nodup

theorem length_le (h : Holds s as) : as.length ≤ s.top := by
  have hsub : as ⊆ List.range s.top := fun a ha => List.mem_range.mpr (h.below a ha)
  simpa using (List.subperm_of_subset h.nodup hsub).length_le

theorem next_eq (h : Holds s (l₁ ++ a :: l₂)) : (s.mem a).next = l₂.head? := by
  have hr := h.ring
  rw [List.map_append, List.map_cons] at hr
  rw [← map_some_headD]; exact hr.around.1

theorem prev_eq (h : Holds s (l₁ ++ a :: l₂)) : (s.mem a).prev = l₁.getLast? := by
  have hr := h.ring
  rw [List.map_append, List.map_cons] at hr
  rw [← map_some_getLastD]; exact hr.around.2

/-- A write that keeps the pointers of the chunk keeps the list. -/
theorem modify {f : Chunk → Chunk} (h : Holds s as) (hn : (f (s.mem a)).next = (s.mem a).next)
    (hp : (f (s.mem a)).prev = (s.mem a).prev) : Holds (s.modify a f) as :=
  ⟨by rw [modify_links hn hp]; exact h.ring, h.below⟩

theorem insertBefore (h : Holds s (l₁ ++ a :: l₂)) (hx : x ∉ l₁ ++ a :: l₂) (hxt : x < s.top) :
    Holds (s.insertBefore a x) (l₁ ++ x :: a :: l₂) := by
  have hax : a ≠ x := by rintro rfl; simp at hx
  have hp : s.links.prev (some a) = l₁.getLast? := h.prev_eq
  have hpx : s.links.prev (some a) ≠ some x := by
    rw [hp]
    intro e
    exact hx (List.mem_append_left _ (List.mem_of_getLast? e))
  constructor
  · rw [insertBefore_links hax hpx, hp]
    have hr := h.ring
    rw [List.map_append] at hr
    rw [List.map_append, List.map_cons]
    refine hr.insert ?_ (map_some_getLastD l₁).symm rfl
    simpa using hx
  · intro b hb
    rw [insertBefore_top]
    rcases List.mem_append.mp hb with hb | hb
    · exact h.below b (List.mem_append_left _ hb)
    · rcases List.mem_cons.mp hb with rfl | hb
      · exact hxt
      · exact h.below b (List.mem_append_right _ hb)

theorem insertAfter (h : Holds s (l₁ ++ a :: l₂)) (hx : x ∉ l₁ ++ a :: l₂) (hxt : x < s.top) :
    Holds (s.insertAfter a x) (l₁ ++ a :: x :: l₂) := by
  have hax : a ≠ x := by rintro rfl; simp at hx
  have hn : s.links.next (some a) = l₂.head? := h.next_eq
  constructor
  · rw [insertAfter_links hax, hn]
    have hr := h.ring
    rw [show l₁ ++ a :: l₂ = (l₁ ++ [a]) ++ l₂ by simp, List.map_append] at hr
    rw [show l₁ ++ a :: x :: l₂ = (l₁ ++ [a]) ++ x :: l₂ by simp, List.map_append, List.map_cons]
    refine hr.insert ?_ ?_ (map_some_headD l₂).symm
    · simpa using hx
    · rw [map_some_getLastD]; simp
  · intro b hb
    rw [insertAfter_top]
    rcases List.mem_append.mp hb with hb | hb
    · exact h.below b (List.mem_append_left _ hb)
    · rcases List.mem_cons.mp hb with rfl | hb
      · exact h.below b (by simp)
      · rcases List.mem_cons.mp hb with rfl | hb
        · exact hxt
        · exact h.below b (by simp [hb])

theorem remove (h : Holds s (l₁ ++ a :: l₂)) : Holds (s.remove a) (l₁ ++ l₂) := by
  have hp : s.links.prev (some a) ≠ some a := by
    rw [show s.links.prev (some a) = l₁.getLast? from h.prev_eq]
    intro e
    have hnd := h.nodup
    rw [List.nodup_append] at hnd
    exact hnd.2.2 a (List.mem_of_getLast? e) a (by simp) rfl
  constructor
  · rw [remove_links hp]
    have hr := h.ring
    rw [List.map_append, List.map_cons] at hr
    rw [List.map_append]
    exact hr.remove
  · intro b hb
    rw [remove_top]
    exact h.below b (by simp only [List.mem_append, List.mem_cons] at hb ⊢; tauto)

/-- `new` makes a chunk outside the list. -/
theorem newChunk (h : Holds s as) (start size : Nat) :
    Holds (s.newChunk start size).2 as ∧ (s.newChunk start size).1 ∉ as := by
  have hni : s.top ∉ as := fun hm => absurd (h.below _ hm) (Nat.lt_irrefl _)
  refine ⟨⟨?_, fun b hb => Nat.lt_succ_of_lt (h.below b hb)⟩, hni⟩
  refine h.ring.congr (fun o ho => ?_) fun o ho => ?_
  all_goals
    rcases o with _ | b
    · rfl
    · have hb : b ≠ s.top := by
        rintro rfl
        simp at ho
        exact hni ho
      simp [links, SimpleBestFitAllocator.newChunk, hb]

end Holds

/-! ## The loops -/

/-- A walk from a link of the list reads the rest of the list. -/
theorem walk_linked {o : Option Nat} {l : List Nat} {fuel : Nat}
    (h : Linked s.links o (l.map some) none) (hf : l.length ≤ fuel) :
    s.walk fuel (s.links.next o) = l := by
  have hstop (n : Nat) : s.walk n none = [] := by cases n <;> rfl
  have hwalk := h.loop (g := List.cons) hf hstop fun _ _ _ => rfl
  rwa [List.foldr_cons_nil] at hwalk

theorem chunkList_eq (h : Holds s as) : s.chunkList = as :=
  walk_linked (o := none) h.ring.linked (Nat.le_succ_of_le h.length_le)

/-- A free extent that holds `need` units from its first page boundary on. -/
def Fits (P : Platform) (need : Nat) (c : Extent) : Prop :=
  c.free = true ∧ need + extra P c.start ≤ c.size

instance (P : Platform) (need : Nat) : DecidablePred (Fits P need) :=
  fun _ => inferInstanceAs (Decidable (_ ∧ _))

theorem fits_extent {P : Platform} {need : Nat} : Fits P need (s.extent a) ↔
    (s.mem a).free = true ∧ need + extra P (s.mem a).start ≤ (s.mem a).size := Iff.rfl

/-- The chunks of `as` that fit. -/
def fitting (P : Platform) (s : SimpleBestFitAllocator) (need : Nat) (as : List Nat) : List Nat :=
  as.filter fun a => Fits P need (s.extent a)

theorem fitting_append (P : Platform) (need : Nat) :
    fitting P s need (l₁ ++ l₂) = fitting P s need l₁ ++ fitting P s need l₂ :=
  List.filter_append ..

theorem fitting_cons_of_fits {P : Platform} {need : Nat} (h : Fits P need (s.extent a)) :
    fitting P s need (a :: as) = a :: fitting P s need as := List.filter_cons_of_pos (by simpa using h)

theorem fitting_cons_of_not {P : Platform} {need : Nat} (h : ¬ Fits P need (s.extent a)) :
    fitting P s need (a :: as) = fitting P s need as := List.filter_cons_of_neg (by simpa using h)

/-- From the best of the chunks `pre` so far, `findFit` finds the first of the smallest chunks that
fit: one of exactly `need` units is as small as any. -/
theorem findFit_linked {P : Platform} {need : Nat} {o : Option Nat} {l : List Nat} {fuel : Nat}
    (pre : List Nat) (hw : ∀ start, P.word (need + extra P start) = need + extra P start)
    (h : Linked s.links o (l.map some) none) (hf : l.length ≤ fuel) :
    findFit P s need fuel (s.links.next o) ((fitting P s need pre).argmin fun a => (s.mem a).size) =
      (fitting P s need (pre ++ l)).argmin fun a => (s.mem a).size := by
  induction l generalizing o pre fuel with
  | nil =>
    rw [List.map_nil, linked_nil] at h
    rw [h.1, List.append_nil]
    cases fuel <;> rfl
  | cons a l ih =>
    rw [List.map_cons, linked_cons] at h
    rcases fuel with _ | fuel
    · simp at hf
    have ih' := ih (pre ++ [a]) h.2 (Nat.le_of_succ_le_succ hf)
    rw [List.append_assoc, List.singleton_append] at ih'
    rw [h.1.1]
    unfold findFit
    simp only [hw]
    by_cases hfit : Fits P need (s.extent a)
    · rw [if_pos (fits_extent.mp hfit)]
      have hpre : fitting P s need (pre ++ [a]) = fitting P s need pre ++ [a] := by
        rw [fitting_append, fitting_cons_of_fits hfit]
        rfl
      -- With the best of `pre ++ [a]` the loop ends or goes on.
      have hrest : ∀ best, best = (fitting P s need (pre ++ [a])).argmin (fun a => (s.mem a).size) →
          (if (s.mem a).size = need then best else findFit P s need fuel (s.mem a).next best) =
            (fitting P s need (pre ++ a :: l)).argmin fun a => (s.mem a).size := by
        rintro best rfl
        split
        · rename_i hexact
          rcases hm : (fitting P s need (pre ++ [a])).argmin fun a => (s.mem a).size with _ | m
          · rw [List.argmin_eq_none, hpre] at hm
            simp at hm
          rw [← List.singleton_append, ← List.append_assoc, fitting_append]
          refine (argmin_append_of_le hm fun b hb => ?_).symm
          have hma : (s.mem m).size ≤ (s.mem a).size :=
            List.le_of_mem_argmin (f := fun a => (s.mem a).size) (by rw [hpre]; simp) hm
          have hb' : Fits P need (s.extent b) := by simpa using (List.mem_filter.mp hb).2
          have := (fits_extent.mp hb').2
          show (s.mem m).size ≤ (s.mem b).size
          omega
        · exact ih'
      apply hrest
      rw [hpre, List.argmin_concat]
      cases (fitting P s need pre).argmin fun a => (s.mem a).size <;> rfl
    · rw [if_neg (fun hc => hfit (fits_extent.mpr hc))]
      have hpre : fitting P s need (pre ++ [a]) = fitting P s need pre := by
        rw [fitting_append, fitting_cons_of_not hfit]
        exact List.append_nil _
      rw [hpre] at ih'
      exact ih'

theorem findFit_eq {P : Platform} {need : Nat}
    (hw : ∀ start, P.word (need + extra P start) = need + extra P start) (h : Holds s as) :
    findFit P s need (s.top + 1) s.mFirst none =
      (fitting P s need as).argmin fun a => (s.mem a).size :=
  findFit_linked (o := none) [] hw h.ring.linked (Nat.le_succ_of_le h.length_le)

theorem findFit_mem {P : Platform} {need f : Nat}
    (hw : ∀ start, P.word (need + extra P start) = need + extra P start) (h : Holds s as)
    (hr : findFit P s need (s.top + 1) s.mFirst none = some f) :
    f ∈ as ∧ Fits P need (s.extent f) := by
  rw [findFit_eq hw h] at hr
  simpa using List.mem_filter.mp (List.argmin_mem hr)

/-- `findStart` returns the first chunk of the list with that start. -/
theorem findStart_linked {start fuel : Nat} {o : Option Nat} {l : List Nat}
    (h : Linked s.links o (l.map some) none) (hf : l.length ≤ fuel) :
    findStart s start fuel (s.links.next o) = l.find? fun a => (s.mem a).start = start := by
  have hstop (n : Nat) : findStart s start n none = none := by cases n <;> rfl
  refine (h.loop hf hstop fun n a _ => ?_).trans (foldr_search (fun a => (s.mem a).start = start) id l)
  simp only [findStart, mem_next, decide_eq_true_eq]
  rfl

theorem findStart_eq (h : Holds s as) (start : Nat) :
    findStart s start (s.top + 1) s.mFirst = as.find? fun a => (s.mem a).start = start :=
  findStart_linked (o := none) h.ring.linked (Nat.le_succ_of_le h.length_le)

end SimpleBestFitAllocator

end Twm.Gralloc
