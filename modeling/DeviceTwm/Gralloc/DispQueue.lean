import Mathlib.Data.List.Nodup
import Mathlib.Data.Set.Finite.Basic

/-!
# The display queue (`libgralloc/gralloc_priv.h`)

`Queue<T>` is a singly linked list of allocated nodes with a pointer to either end and a count of
its own. `push` asks the count whether the queue is empty, `pop`, `isEmpty` and `getHeadValue` ask
the front pointer.

An operation is `none` when it follows a null pointer or one to a node that was deleted. `new` takes
the address that the allocator gives out.

* `Queue.Holds`: the nodes from the front on are the items, the back is the last one, and the count
  is theirs.
* `push_holds`, `pop_holds`, `getHeadValue_holds`, `isEmpty_iff`: the operations are those of a list.
-/

namespace Twm.Gralloc.Display

/-- `Node<T>`. -/
structure Node (T : Type) where
  data : T
  next : Option Nat

/-- `Queue<T>`, with the nodes that are allocated. -/
structure Queue (T : Type) where
  heap : Nat → Option (Node T)
  front : Option Nat
  back : Option Nat
  len : Nat

variable {T : Type}

namespace Queue

def init : Queue T where
  heap := fun _ => none
  front := none
  back := none
  len := 0

variable (q : Queue T)

/-- `a` is the address of the new node. -/
def push (item : T) (a : Nat) : Option (Queue T) :=
  if q.len ≠ 0 then
    q.back.bind fun b =>
      (q.heap b).map fun node =>
        { heap := Function.update (Function.update q.heap b (some { node with next := some a })) a
            (some ⟨item, none⟩)
          front := q.front
          back := some a
          len := q.len + 1 }
  else
    some
      { heap := Function.update q.heap a (some ⟨item, none⟩)
        front := some a
        back := some a
        len := q.len + 1 }

def isEmpty : Bool := q.front.isNone

def pop : Option (Queue T) :=
  match q.front with
  | none => some q
  | some a =>
    (q.heap a).map fun node =>
      { heap := Function.update q.heap a none
        front := node.next
        back := if node.next = none then none else q.back
        len := q.len - 1 }

/-- The value of the front node; of an empty queue it is the dummy, here `none`. -/
def getHeadValue : Option (Option T) :=
  match q.front with
  | none => some none
  | some a => (q.heap a).map fun node => some node.data

end Queue

/-! ## Chains of nodes -/

/-- From `p`, the `next` pointers run through the nodes `l` and end with the null pointer. -/
def Chain (heap : Nat → Option (Node T)) : Option Nat → List (Nat × T) → Prop
  | p, [] => p = none
  | p, (a, x) :: l => p = some a ∧ ∃ next, heap a = some ⟨x, next⟩ ∧ Chain heap next l

theorem Chain.congr {heap heap' : Nat → Option (Node T)} {p : Option Nat} {l : List (Nat × T)}
    (h : Chain heap p l) (heq : ∀ a ∈ l.map Prod.fst, heap' a = heap a) : Chain heap' p l := by
  induction l generalizing p with
  | nil => exact h
  | cons y l ih =>
    obtain ⟨rfl, next, ha, hl⟩ := h
    have hhead := heq y.1 (by simp)
    refine ⟨rfl, next, hhead.trans ha, ih hl ?_⟩
    intro b hb
    exact heq b (by simp only [List.map_cons]; exact List.mem_cons_of_mem _ hb)

/-- The write of a new last node. -/
theorem Chain.snoc {heap : Nat → Option (Node T)} {p : Option Nat} {l : List (Nat × T)}
    {a b : Nat} {x y : T} (h : Chain heap p (l ++ [(b, y)])) (hnd : ((l ++ [(b, y)]).map Prod.fst).Nodup)
    (ha : a ∉ (l ++ [(b, y)]).map Prod.fst) :
    Chain (Function.update (Function.update heap b (some ⟨y, some a⟩)) a (some ⟨x, none⟩)) p
      (l ++ [(b, y)] ++ [(a, x)]) := by
  induction l generalizing p with
  | nil =>
    obtain ⟨rfl, next, hb, rfl⟩ := h
    have hne : b ≠ a := by simpa using Ne.symm (by simpa using ha)
    refine ⟨rfl, some a, ?_, rfl, none, Function.update_self .., rfl⟩
    rw [Function.update_of_ne hne, Function.update_self]
  | cons z l ih =>
    obtain ⟨c, w⟩ := z
    obtain ⟨rfl, next, hc, hl⟩ := h
    simp only [List.cons_append, List.map_cons, List.nodup_cons, List.mem_cons, not_or] at hnd ha
    have hcb : c ≠ b := by
      rintro rfl
      exact hnd.1 (by simp)
    refine ⟨rfl, next, ?_, ih hl hnd.2 ha.2⟩
    rw [Function.update_of_ne (Ne.symm ha.1), Function.update_of_ne hcb, hc]

/-- The nodes of a chain are allocated. -/
theorem Chain.allocated {heap : Nat → Option (Node T)} {p : Option Nat} {l : List (Nat × T)}
    (h : Chain heap p l) {a : Nat} (ha : a ∈ l.map Prod.fst) : heap a ≠ none := by
  induction l generalizing p with
  | nil => simp at ha
  | cons y l ih =>
    obtain ⟨-, next, hy, hl⟩ := h
    rcases List.mem_cons.mp ha with rfl | ha
    · simp [hy]
    · exact ih hl ha

/-- The last node of a chain. -/
theorem Chain.last {heap : Nat → Option (Node T)} {p : Option Nat} {l : List (Nat × T)}
    {b : Nat} {y : T} (h : Chain heap p (l ++ [(b, y)])) : heap b = some ⟨y, none⟩ := by
  induction l generalizing p with
  | nil =>
    obtain ⟨-, next, hb, rfl⟩ := h
    exact hb
  | cons z l ih =>
    obtain ⟨-, next, -, hl⟩ := h
    exact ih hl

/-! ## The items of a queue -/

namespace Queue

variable {q q' : Queue T} {xs : List T} {x : T} {a : Nat}

/-- The queue has the nodes `l`. -/
structure Nodes (q : Queue T) (l : List (Nat × T)) : Prop where
  chain : Chain q.heap q.front l
  nodup : (l.map Prod.fst).Nodup
  back : q.back = (l.map Prod.fst).getLast?
  len : q.len = l.length
  /-- Every other node was deleted. -/
  rest : ∀ a, a ∉ l.map Prod.fst → q.heap a = none

/-- The queue holds the items `xs`, from the front to the back. -/
def Holds (q : Queue T) (xs : List T) : Prop := ∃ l, q.Nodes l ∧ l.map Prod.snd = xs

theorem init_holds : (init : Queue T).Holds [] :=
  ⟨[], ⟨rfl, List.nodup_nil, rfl, rfl, fun _ _ => rfl⟩, rfl⟩

theorem isEmpty_iff (h : q.Holds xs) : q.isEmpty = true ↔ xs = [] := by
  obtain ⟨l, hl, rfl⟩ := h
  have hc := hl.chain
  unfold isEmpty
  cases l with
  | nil =>
    have hf : q.front = none := hc
    simp [hf]
  | cons y l => simp [hc.1]

theorem size_eq (h : q.Holds xs) : q.len = xs.length := by
  obtain ⟨l, hl, rfl⟩ := h
  simp [hl.len]

/-- A queue holds one list of items. -/
theorem Holds.unique {ys : List T} (h : q.Holds xs) (h' : q.Holds ys) : xs = ys := by
  obtain ⟨l, hl, rfl⟩ := h
  obtain ⟨m, hm, rfl⟩ := h'
  suffices h : ∀ (l m : List (Nat × T)) p, Chain q.heap p l → Chain q.heap p m → l = m by
    rw [h l m _ hl.chain hm.chain]
  intro l
  induction l with
  | nil =>
    intro m p hp hm
    cases m with
    | nil => rfl
    | cons z m => cases hp.symm.trans hm.1
  | cons y l ih =>
    intro m p hp hm
    obtain ⟨rfl, next, hy, hl⟩ := hp
    cases m with
    | nil => cases hm
    | cons z m =>
      obtain ⟨hz, next', hz', hm⟩ := hm
      have hfst : y.1 = z.1 := Option.some.inj hz
      rw [← hfst, hy] at hz'
      obtain ⟨hsnd, rfl⟩ := Node.mk.inj (Option.some.inj hz')
      rw [Prod.ext hfst hsnd, ih m next hl hm]

/-- There is an address that `new` can give out. -/
theorem exists_fresh (h : q.Holds xs) : ∃ a, q.heap a = none := by
  obtain ⟨l, hl, -⟩ := h
  obtain ⟨a, ha⟩ := Infinite.exists_notMem_finset (l.map Prod.fst).toFinset
  exact ⟨a, hl.rest a (by simpa using ha)⟩

theorem push_holds (h : q.Holds xs) (x : T) (ha : q.heap a = none) :
    ∃ q', q.push x a = some q' ∧ q'.Holds (xs ++ [x]) := by
  obtain ⟨l, hl, rfl⟩ := h
  have hfresh : a ∉ l.map Prod.fst := fun hm => hl.chain.allocated hm ha
  rcases List.eq_nil_or_concat l with rfl | ⟨l, ⟨b, y⟩, rfl⟩
  · have hlen : ¬ q.len ≠ 0 := by simp [hl.len]
    refine ⟨_, if_neg hlen, [(a, x)], ⟨?_, by simp, rfl, ?_, ?_⟩, rfl⟩
    · exact ⟨rfl, none, Function.update_self .., rfl⟩
    · simp [hl.len]
    · intro c hc
      have hca : c ≠ a := by simpa using hc
      exact (Function.update_of_ne hca ..).trans (hl.rest c (by simp))
  · rw [List.concat_eq_append] at hl hfresh ⊢
    have hlen : q.len ≠ 0 := by simp [hl.len]
    have hb : q.back = some b := by simp [hl.back]
    have hpush : q.push x a = some
        { heap := Function.update (Function.update q.heap b (some ⟨y, some a⟩)) a (some ⟨x, none⟩)
          front := q.front
          back := some a
          len := q.len + 1 } := by
      unfold push
      rw [if_pos hlen, hb, Option.bind_some, hl.chain.last, Option.map_some]
    refine ⟨_, hpush, l ++ [(b, y)] ++ [(a, x)], ⟨hl.chain.snoc hl.nodup hfresh, ?_, ?_, ?_, ?_⟩, ?_⟩
    · rw [List.map_append]
      refine List.nodup_append.mpr ⟨hl.nodup, by simp, ?_⟩
      rintro c hc d hd rfl
      have hca : c = a := by simpa using hd
      exact hfresh (hca ▸ hc)
    · simp
    · simp [hl.len]
    · intro c hc
      have hca : c ≠ a := by
        rintro rfl
        simp at hc
      have hcl : c ∉ (l ++ [(b, y)]).map Prod.fst := by
        intro hm
        rw [List.map_append] at hc
        exact hc (List.mem_append_left _ hm)
      have hcb : c ≠ b := by
        rintro rfl
        simp at hcl
      exact (Function.update_of_ne hca ..).trans ((Function.update_of_ne hcb ..).trans (hl.rest c hcl))
    · simp

theorem getHeadValue_holds (h : q.Holds xs) : q.getHeadValue = some xs.head? := by
  obtain ⟨l, hl, rfl⟩ := h
  have hc := hl.chain
  unfold getHeadValue
  cases l with
  | nil =>
    have hf : q.front = none := hc
    simp [hf]
  | cons y l =>
    obtain ⟨hf, next, hy, -⟩ := hc
    simp [hf, hy]

theorem pop_holds (h : q.Holds xs) : ∃ q', q.pop = some q' ∧ q'.Holds xs.tail := by
  obtain ⟨l, hl, rfl⟩ := h
  cases l with
  | nil =>
    have hf : q.front = none := hl.chain
    exact ⟨q, by simp [pop, hf], [], hl, rfl⟩
  | cons y l =>
    obtain ⟨b, y⟩ := y
    obtain ⟨hf, next, hy, hchain⟩ := hl.chain
    have hpop : q.pop = some
        { heap := Function.update q.heap b none
          front := next
          back := if next = none then none else q.back
          len := q.len - 1 } := by
      unfold pop
      rw [hf]
      simp [hy]
    have hnd := List.nodup_cons.mp hl.nodup
    refine ⟨_, hpop, l, ⟨?_, hnd.2, ?_, ?_, ?_⟩, rfl⟩
    · refine hchain.congr fun c hc => Function.update_of_ne ?_ _ _
      rintro rfl
      exact hnd.1 hc
    · have hb := hl.back
      cases l with
      | nil =>
        have hn : next = none := hchain
        simp [hn]
      | cons z l =>
        have hn : next = some z.1 := hchain.1
        simp [hn, hb]
    · simp [hl.len]
    · intro c hc
      by_cases hcb : c = b
      · subst hcb
        exact Function.update_self ..
      · refine (Function.update_of_ne hcb ..).trans (hl.rest c ?_)
        simpa [hcb] using hc

end Queue

end Twm.Gralloc.Display
