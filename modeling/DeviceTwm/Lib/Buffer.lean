import Mathlib.Data.List.Basic
import DeviceTwm.Lib.Logged

/-!
# C strings in a buffer

A `Buffer` is memory from some address on, with the offsets that were read or written so far. The
string functions run through it a byte at a time, and give up where the memory ends.

* `Within n m b a b'`: with the memory `b`, `m` returns `a`, leaves `b'`, and touches only offsets
  below `n`. The string functions are `Within` when the string ends in time.
* `Touches n m b`: with the memory `b`, `m` touches the offset `n`. A search does when what it looks for
  is not before `n`.
-/

namespace Lib

/-- The bytes from an address on, and the offsets that were touched. -/
abbrev Buffer := Logged (List UInt8) Nat

namespace Buffer

open Logged

def read (i : Nat) : Act Buffer UInt8 := do
  emit i
  .reading fun s =>
    match s.state[i]? with
    | some c => pure c
    | none => .fail

def write (i : Nat) (c : UInt8) : Act Buffer Unit := do
  emit i
  fun s => if i < s.state.length then (some (), { s with state := s.state.set i c }) else (none, s)

/-- Reads from `i` on; the first argument bounds the rounds. -/
def strchrLoop (c : UInt8) : Nat → Nat → Act Buffer (Option Nat)
  | 0, _ => .fail
  | n + 1, i => do
    let x ← read i
    if x = c then pure (some i)
    else if x = 0 then pure none
    else strchrLoop c n (i + 1)

/-- `strchr(p + i, c)`, as an offset. -/
def strchr (c : UInt8) (i : Nat) : Act Buffer (Option Nat) :=
  .reading fun s => strchrLoop c (s.state.length + 1) i

/-- The string at `p + i`, as `strdup` or `%s` reads it: up to its end, and then the bytes before that. -/
def strdup (i : Nat) : Act Buffer (List UInt8) := do
  match ← strchr 0 i with
  | none => .fail
  | some e => .reading fun s => pure ((s.state.drop i).take (e - i))

/-- `strcmp(p + i, s) == 0`, for a string `s` somewhere else. -/
def strcmp : Nat → List UInt8 → Act Buffer Bool
  | i, [] => do
    let x ← read i
    pure (x == 0)
  | i, c :: s => do
    let x ← read i
    if x = c then strcmp (i + 1) s else pure false

/-! ## What stays below an offset -/

variable {α β : Type} {n i : Nat} {c x : UInt8} {b b' b'' pre l rest t : List UInt8}

/-- With the memory `b`, `m` returns `a`, leaves `b'`, and touches only offsets below `n`. -/
def Within (n : Nat) (m : Act Buffer α) (b : List UInt8) (a : α) (b' : List UInt8) : Prop :=
  ∀ s, s.state = b → ∃ s', m s = (some a, s') ∧ s'.state = b' ∧ (All (· < n) s → All (· < n) s')

theorem Within.pure (a : α) : Within n (pure a) b a b := fun s hs => ⟨s, rfl, hs, id⟩

theorem Within.bind {m : Act Buffer α} {f : α → Act Buffer β} {a : α} {d : β}
    (hm : Within n m b a b') (hf : Within n (f a) b' d b'') : Within n (m >>= f) b d b'' := by
  intro s hs
  obtain ⟨s', hrun, hs', hall⟩ := hm s hs
  obtain ⟨s'', hrun', hs'', hall'⟩ := hf s' hs'
  exact ⟨s'', (Act.bind_some hrun).trans hrun', hs'', hall' ∘ hall⟩

theorem Within.reading {f : Buffer → Act Buffer α} {a : α}
    (h : ∀ s, s.state = b → Within n (f s) b a b') : Within n (.reading f) b a b' :=
  fun s hs => h s hs s hs

theorem read_within (hi : b[i]? = some x) (hn : i < n) : Within n (read i) b x b := by
  intro s hs
  refine ⟨{ s with log := i :: s.log }, ?_, hs, fun h => all_emit.mpr ⟨hn, h⟩⟩
  refine (Act.bind_some (emit_eq i s)).trans ?_
  subst hs
  simp only [Act.reading, hi]
  rfl

theorem write_within (hi : i < b.length) (hn : i < n) : Within n (write i c) b () (b.set i c) := by
  intro s hs
  subst hs
  refine ⟨⟨s.state.set i c, i :: s.log⟩, ?_, rfl, fun h => all_emit.mpr ⟨hn, h⟩⟩
  exact (Act.bind_some (emit_eq i s)).trans (if_pos hi)

/-- The byte after two parts of the memory. -/
theorem getElem?_mid (pre l : List UInt8) (x : UInt8) (rest : List UInt8) :
    (pre ++ (l ++ x :: rest))[pre.length + l.length]? = some x := by
  rw [← List.append_assoc, ← List.length_append, List.getElem?_append_right (Nat.le_refl _)]
  simp

theorem read_within_mid (pre l rest : List UInt8) (x : UInt8) (hn : pre.length + l.length < n) :
    Within n (read (pre.length + l.length)) (pre ++ (l ++ x :: rest)) x (pre ++ (l ++ x :: rest)) :=
  read_within (getElem?_mid pre l x rest) hn

theorem write_within_mid (pre l rest : List UInt8) (x c : UInt8) (hn : pre.length + l.length < n) :
    Within n (write (pre.length + l.length) c) (pre ++ (l ++ x :: rest)) ()
      (pre ++ (l ++ c :: rest)) := by
  have h : (pre ++ (l ++ x :: rest)).set (pre.length + l.length) c = pre ++ (l ++ c :: rest) := by
    rw [← List.append_assoc, ← List.length_append, List.set_append_right _ _ (Nat.le_refl _)]
    simp
  rw [← h]
  exact write_within (by simp only [List.length_append, List.length_cons]; omega) hn

/-- The first byte of a string that is not empty. -/
theorem read_within_head (hn : pre.length < n) :
    Within n (read pre.length) (pre ++ (x :: t)) x (pre ++ (x :: t)) :=
  read_within_mid pre [] t x hn

section Strings

variable (pre rest) (hn : pre.length + l.length < n)
include hn

theorem strchrLoop_within (hl : ∀ y ∈ l, y ≠ c ∧ y ≠ 0) (hx : x = c ∨ x = 0) (k : Nat)
    (hk : l.length < k) :
    Within n (strchrLoop c k pre.length) (pre ++ (l ++ x :: rest))
      (if x = c then some (pre.length + l.length) else none) (pre ++ (l ++ x :: rest)) := by
  induction l generalizing pre k with
  | nil =>
    obtain _ | k := k
    · simp at hk
    refine (read_within_head hn).bind ?_
    by_cases hc : x = c
    · rw [if_pos hc, if_pos hc]
      exact .pure _
    · rw [if_neg hc, if_neg hc, if_pos (hx.resolve_left hc)]
      exact .pure _
  | cons y l ih =>
    obtain _ | k := k
    · simp at hk
    have hy := hl y List.mem_cons_self
    simp only [List.length_cons] at hn hk
    refine (read_within_head (by omega)).bind ?_
    rw [if_neg hy.1, if_neg hy.2]
    have := ih (pre ++ [y]) (by simp; omega) (fun z hz => hl z (List.mem_cons_of_mem _ hz)) k
      (by omega)
    simpa [Nat.add_assoc, Nat.add_comm 1] using this

/-- A search that ends: at the byte, or at the end of the string. -/
theorem strchr_within (hl : ∀ y ∈ l, y ≠ c ∧ y ≠ 0) (hx : x = c ∨ x = 0) :
    Within n (strchr c pre.length) (pre ++ (l ++ x :: rest))
      (if x = c then some (pre.length + l.length) else none) (pre ++ (l ++ x :: rest)) := by
  refine .reading fun s hs => strchrLoop_within pre rest hn hl hx _ ?_
  rw [hs]
  simp only [List.length_append]
  omega

theorem strdup_within (hl : 0 ∉ l) :
    Within n (strdup pre.length) (pre ++ (l ++ 0 :: rest)) l (pre ++ (l ++ 0 :: rest)) := by
  have hne : ∀ y ∈ l, y ≠ (0 : UInt8) ∧ y ≠ 0 := fun y hy =>
    ⟨ne_of_mem_of_not_mem hy hl, ne_of_mem_of_not_mem hy hl⟩
  refine (strchr_within pre _ hn hne (.inl rfl)).bind (.reading fun s hs => ?_)
  have hcopy : (s.state.drop pre.length).take (pre.length + l.length - pre.length) = l := by
    rw [hs, List.drop_left, Nat.add_sub_cancel_left, List.take_left]
  rw [hcopy]
  exact .pure _

/-- A comparison stops at the first difference, or at the end of the string in the buffer. -/
theorem strcmp_within (hl : 0 ∉ l) (ht : 0 ∉ t) :
    Within n (strcmp pre.length t) (pre ++ (l ++ 0 :: rest)) (decide (l = t))
      (pre ++ (l ++ 0 :: rest)) := by
  induction t generalizing pre l with
  | nil =>
    rcases l with _ | ⟨y, l⟩
    · exact (read_within_head hn).bind (.pure _)
    · have hy : y ≠ 0 := by
        rintro rfl
        simp at hl
      refine (read_within_head (by omega)).bind ?_
      have hd : decide (y :: l = []) = (y == 0) := by simp [hy]
      rw [hd]
      exact .pure _
  | cons z t ih =>
    simp only [List.mem_cons, not_or] at ht
    rcases l with _ | ⟨y, l⟩
    · refine (read_within_head hn).bind ?_
      rw [if_neg ht.1]
      exact .pure _
    · simp only [List.mem_cons, not_or] at hl
      simp only [List.length_cons] at hn
      refine (read_within_head (by omega)).bind ?_
      by_cases hyz : y = z
      · rw [if_pos hyz]
        have := ih (pre ++ [y]) (by simp; omega) hl.2 ht.2
        subst hyz
        simpa using this
      · rw [if_neg hyz]
        have hd : decide (y :: l = z :: t) = false := by simp [hyz]
        rw [hd]
        exact .pure _

end Strings

/-! ## What touches an offset -/

/-- `m` forgets no offset. -/
def Grows (m : Act Buffer α) : Prop := ∀ s, ∀ i ∈ s.log, i ∈ (m s).2.log

/-- With the memory `b`, `m` touches the offset `i`. -/
def Touches (i : Nat) (m : Act Buffer α) (b : List UInt8) : Prop :=
  ∀ s, s.state = b → i ∈ (m s).2.log

theorem Grows.pure (a : α) : Grows (pure a) := fun _ _ h => h

theorem Grows.bind {m : Act Buffer α} {f : α → Act Buffer β} (hm : Grows m) (hf : ∀ a, Grows (f a)) :
    Grows (m >>= f) := by
  intro s i hi
  have h := hm s i hi
  rcases hrun : m s with ⟨_ | a, s'⟩
  · rw [Act.bind_none hrun]
    rwa [hrun] at h
  · rw [Act.bind_some hrun]
    rw [hrun] at h
    exact hf a s' i h

theorem Grows.reading {f : Buffer → Act Buffer α} (h : ∀ s, Grows (f s)) : Grows (.reading f) :=
  fun s => h s s

theorem Grows.ite {p : Prop} [Decidable p] {m m' : Act Buffer α} (h : Grows m) (h' : Grows m') :
    Grows (if p then m else m') := by
  split
  · exact h
  · exact h'

theorem grows_emit (i : Nat) : Grows (emit i) := fun _ _ h => List.mem_cons_of_mem _ h

theorem grows_read (i : Nat) : Grows (read i) := by
  refine (grows_emit i).bind fun _ => .reading fun s => ?_
  split
  · exact .pure _
  · exact fun _ _ h => h

theorem grows_write (i : Nat) (c : UInt8) : Grows (write i c) := by
  refine (grows_emit i).bind fun _ s j hj => ?_
  show j ∈ (if _ then _ else _ : Option Unit × Buffer).2.log
  split <;> exact hj

theorem grows_strchrLoop (c : UInt8) (k i : Nat) : Grows (strchrLoop c k i) := by
  induction k generalizing i with
  | zero => exact fun _ _ h => h
  | succ k ih => exact (grows_read i).bind fun x => .ite (.pure _) (.ite (.pure _) (ih _))

theorem grows_strchr (c : UInt8) (i : Nat) : Grows (strchr c i) :=
  .reading fun _ => grows_strchrLoop c _ i

theorem grows_strdup (i : Nat) : Grows (strdup i) := by
  refine (grows_strchr 0 i).bind fun e => ?_
  cases e with
  | none => exact fun _ _ h => h
  | some e => exact .reading fun _ => .pure _

theorem grows_strcmp (i : Nat) (t : List UInt8) : Grows (strcmp i t) := by
  induction t generalizing i with
  | nil => exact (grows_read i).bind fun _ => .pure _
  | cons c t ih => exact (grows_read i).bind fun _ => .ite (ih _) (.pure _)

theorem Touches.bind {m : Act Buffer α} {f : α → Act Buffer β} (hm : Touches i m b)
    (hf : ∀ a, Grows (f a)) : Touches i (m >>= f) b := by
  intro s hs
  have h := hm s hs
  rcases hrun : m s with ⟨_ | a, s'⟩
  · rw [Act.bind_none hrun]
    rwa [hrun] at h
  · rw [Act.bind_some hrun]
    rw [hrun] at h
    exact hf a s' i h

theorem Within.bind_touches {m : Act Buffer α} {f : α → Act Buffer β} {a : α} (hm : Within n m b a b')
    (hf : Touches i (f a) b') : Touches i (m >>= f) b := by
  intro s hs
  obtain ⟨s', hrun, hs', -⟩ := hm s hs
  rw [Act.bind_some hrun]
  exact hf s' hs'

theorem read_touches (i : Nat) (b : List UInt8) : Touches i (read i) b := by
  have hrest : Grows (.reading fun s : Buffer =>
      match s.state[i]? with
      | some c => pure c
      | none => .fail) := by
    refine .reading fun s => ?_
    split
    · exact .pure _
    · exact fun _ _ h => h
  intro s _
  exact hrest _ i List.mem_cons_self

/-- A search gets to the end of what has neither the byte nor a zero. -/
theorem strchrLoop_touches (pre rest : List UInt8) (hl : ∀ y ∈ l, y ≠ c ∧ y ≠ 0) (k : Nat)
    (hk : l.length < k) :
    Touches (pre.length + l.length) (strchrLoop c k pre.length) (pre ++ (l ++ rest)) := by
  induction l generalizing pre k with
  | nil =>
    obtain _ | k := k
    · simp at hk
    refine (read_touches _ _).bind fun x => .ite (.pure _) (.ite (.pure _) ?_)
    exact grows_strchrLoop c k _
  | cons y l ih =>
    obtain _ | k := k
    · simp at hk
    have hy := hl y List.mem_cons_self
    simp only [List.length_cons] at hk
    refine (read_within_head (Nat.lt_succ_self _)).bind_touches ?_
    rw [if_neg hy.1, if_neg hy.2]
    have := ih (pre ++ [y]) (fun z hz => hl z (List.mem_cons_of_mem _ hz)) k (by omega)
    simpa [Nat.add_assoc, Nat.add_comm 1] using this

theorem strchr_touches (pre rest : List UInt8) (hl : ∀ y ∈ l, y ≠ c ∧ y ≠ 0) :
    Touches (pre.length + l.length) (strchr c pre.length) (pre ++ (l ++ rest)) := by
  intro s hs
  refine strchrLoop_touches pre rest hl _ ?_ s hs
  rw [hs]
  simp only [List.length_append]
  omega

theorem strdup_touches (pre rest : List UInt8) (hl : 0 ∉ l) :
    Touches (pre.length + l.length) (strdup pre.length) (pre ++ (l ++ rest)) := by
  have hne : ∀ y ∈ l, y ≠ (0 : UInt8) ∧ y ≠ 0 := fun y hy =>
    ⟨ne_of_mem_of_not_mem hy hl, ne_of_mem_of_not_mem hy hl⟩
  refine (strchr_touches pre rest hne).bind fun e => ?_
  cases e with
  | none => exact fun _ _ h => h
  | some e => exact .reading fun _ => .pure _

end Buffer

end Lib
