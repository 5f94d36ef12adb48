import DeviceTwm.Audio.Routing
import DeviceTwm.Lib.Loop
import DeviceTwm.Lib.Run
import Mathlib.Data.List.Sort

/-!
# The input streams (`libaudio/AudioHardware.cpp`)

`mInputs` is a sorted vector of the addresses of the input streams. `closeInputStream` looks up the index
of a stream under the lock, deletes the stream at this index without it, and removes the index under the
lock again. The destructor of a stream restores the routing, by `doRouting`, which uses the output stream
without asking whether there is one.

* `Registry`: the vector and the streams. A stream is a number, the calls of `openInputStream` in order; the
  allocator may return an address again that is free.
* `step`: one thread does one thing between two uses of the lock.
* `stepOk`: the index of a thread still names its stream, and there is an output stream when an input
  stream is deleted. `Inv` holds of all runs of such steps, and none of them goes wrong (`step_isSome`).
* `destroyLoop`: the loop of the destructor.
-/

open Lib

namespace Twm.Audio.Inputs

/-- Where the closing of a stream is. -/
inductive Stage
  | opened
  | found (index : Nat)
  | freed (index : Nat)
  | closed
  deriving DecidableEq

structure Registry where
  /-- `mInputs`. -/
  inputs : List Nat
  made : Nat
  addr : Nat → Nat
  stage : Nat → Stage
  /-- The stream at an address. -/
  heap : Nat → Option Nat
  /-- How often a stream was deleted. -/
  deletions : Nat → Nat
  /-- `mOutput` is not null. -/
  output : Bool

def Registry.init : Registry := ⟨[], 0, fun _ => 0, fun _ => .closed, fun _ => none, fun _ => 0, false⟩

/-- `SortedVector::add`, which replaces an item that is equal. -/
def add (a : Nat) (inputs : List Nat) : List Nat :=
  if a ∈ inputs then inputs else inputs.orderedInsert (· ≤ ·) a

inductive Step
  /-- `openInputStream`; the new stream is at `a`, and `status` is what its `set` returns. One that failed
  may have come to where it stores the hardware, or not. -/
  | openInput (a : Nat) (isInputDevice : Bool) (status : Status) (hasHardware : Bool)
  /-- `closeInputStream` looks up the index of stream `n`, and releases the lock. -/
  | find (n : Nat)
  /-- It deletes the stream at the index. -/
  | delete (n : Nat)
  /-- It takes the lock again and removes the index. -/
  | remove (n : Nat)
  /-- `openOutputStream`; `status` is what the `set` of the new stream returns. -/
  | openOutput (status : Status)
  /-- `closeOutputStream`, of `mOutput` or of what is not. -/
  | closeOutput (isOutput : Bool)

/-- One step; `none`: it cannot be taken, or it uses an output stream that is not there, reads past the end
of the vector or deletes twice. -/
def step (s : Registry) : Step → Option Registry
  | .openInput a isInputDevice status hasHardware =>
    if !isInputDevice then some s
    else if status ≠ NO_ERROR then
      -- the new stream is deleted, without the lock
      if hasHardware && !s.output then none else some s
    else if (s.heap a).isSome then none
    else
      some { s with
        inputs := add a s.inputs
        made := s.made + 1
        addr := Function.update s.addr s.made a
        stage := Function.update s.stage s.made .opened
        heap := Function.update s.heap a (some s.made) }
  | .find n =>
    if s.stage n = .opened then
      match s.inputs.idxOf? (s.addr n) with
      -- attempt to close invalid input stream
      | none => some { s with stage := Function.update s.stage n .closed }
      | some index => some { s with stage := Function.update s.stage n (.found index) }
    else none
  | .delete n =>
    match s.stage n with
    | .found index =>
      (s.inputs[index]?).bind fun a =>
        (s.heap a).bind fun m =>
          -- `~AudioStreamInMSM72xx`: `standby`, `doRouting` and there `mOutput->devices()`
          if s.output then
            some { s with
              stage := Function.update s.stage n (.freed index)
              heap := Function.update s.heap a none
              deletions := Function.update s.deletions m (s.deletions m + 1) }
          else none
    | _ => none
  | .remove n =>
    match s.stage n with
    | .freed index =>
      some { s with
        inputs := s.inputs.eraseIdx index, stage := Function.update s.stage n .closed }
    | _ => none
  | .openOutput status => some { s with output := s.output || status = NO_ERROR }
  | .closeOutput isOutput => some { s with output := s.output && !isOutput }

/-- The index that was looked up still names the stream; when it is removed, no new stream has the address.
When a stream is deleted there is an output stream. -/
def stepOk (s : Registry) : Step → Bool
  | .openInput _ isInputDevice status hasHardware =>
    !(isInputDevice && status ≠ NO_ERROR && hasHardware) || s.output
  | .find _ | .openOutput _ | .closeOutput _ => true
  | .delete n =>
    match s.stage n with
    | .found index => s.inputs[index]? = some (s.addr n) && s.output
    | _ => true
  | .remove n =>
    match s.stage n with
    | .freed index => s.inputs[index]? = some (s.addr n) && (s.heap (s.addr n)).isNone
    | _ => true

/-- The thread has come to this step, and the allocator finds room. -/
def Enabled (s : Registry) : Step → Prop
  | .openInput a isInputDevice status _ => isInputDevice = true → status = NO_ERROR → s.heap a = none
  | .find n => s.stage n = .opened
  | .delete n => ∃ index, s.stage n = .found index
  | .remove n => ∃ index, s.stage n = .freed index
  | .openOutput _ | .closeOutput _ => True

/-- `closeInputStream`, with no other thread. -/
def closing (n : Nat) : List Step := [.find n, .delete n, .remove n]

/-- The loop of the destructor, with the index it has come to, and `mInputs.clear()` after it. -/
def destroyLoop : Registry × Nat → Option ((Registry × Nat) ⊕ Registry)
  | (s, index) =>
    match s.inputs[index]? with
    | none => some (.inr { s with inputs := [] })
    | some a =>
      (s.heap a).bind fun n => (run step s (closing n)).map fun s => .inl (s, index + 1)

/-! ## What is wanted -/

/-- No `closeInputStream` is under way. -/
def Quiescent (s : Registry) : Prop := ∀ n, s.stage n = .opened ∨ s.stage n = .closed

structure Good (s : Registry) : Prop where
  nodup : s.inputs.Nodup
  mem_iff : ∀ a, a ∈ s.inputs ↔ ∃ n, s.stage n = .opened ∧ s.addr n = a
  opened : ∀ n, s.stage n = .opened → s.deletions n = 0
  closed : ∀ n < s.made, s.stage n = .closed → s.deletions n = 1

/-- What holds of one stream, by its stage. -/
inductive StreamOk (s : Registry) (n : Nat) : Prop
  /-- It is in use, or it has been looked up and not been deleted. -/
  | live (hstage : s.stage n = .opened ∨ ∃ i, s.stage n = .found i) (hmade : n < s.made)
      (hmem : s.addr n ∈ s.inputs) (hheap : s.heap (s.addr n) = some n) (hdel : s.deletions n = 0)
  | freed (i : Nat) (hstage : s.stage n = .freed i) (hmade : n < s.made) (hdel : s.deletions n = 1)
  | closed (hstage : s.stage n = .closed) (hmade : n < s.made) (hdel : s.deletions n = 1)
  | unborn (hstage : s.stage n = .closed) (hmade : s.made ≤ n) (hdel : s.deletions n = 0)

structure Inv (s : Registry) : Prop where
  nodup : s.inputs.Nodup
  mem : ∀ a ∈ s.inputs, ∃ n, s.stage n ≠ .closed ∧ s.addr n = a
  stream : ∀ n, StreamOk s n

/-- The destructor returns and has closed every stream. -/
def DestroysAll (s : Registry) : Prop :=
  ∃ rounds s', loop destroyLoop rounds (s, 0) = .left s' ∧
    ∀ n, s.stage n = .opened → s'.stage n = .closed ∧ s'.deletions n = 1

variable {s s' : Registry} {n : Nat}

/-- A stream that is in use, or that was looked up, is in the vector and at its address. -/
theorem StreamOk.held (h : StreamOk s n) (hn : s.stage n = .opened ∨ ∃ i, s.stage n = .found i) :
    s.addr n ∈ s.inputs ∧ s.heap (s.addr n) = some n ∧ n < s.made ∧ s.deletions n = 0 := by
  cases h with
  | live hstage hmade hmem hheap hdel => exact ⟨hmem, hheap, hmade, hdel⟩
  | freed i hstage => simp [hstage] at hn
  | closed hstage => simp [hstage] at hn
  | unborn hstage => simp [hstage] at hn

theorem StreamOk.mem (h : StreamOk s n) (hn : s.stage n = .opened) :
    s.addr n ∈ s.inputs ∧ s.heap (s.addr n) = some n ∧ n < s.made ∧ s.deletions n = 0 :=
  h.held (.inl hn)

theorem StreamOk.found {i : Nat} (h : StreamOk s n) (hn : s.stage n = .found i) :
    s.addr n ∈ s.inputs ∧ s.heap (s.addr n) = some n ∧ n < s.made ∧ s.deletions n = 0 :=
  h.held (.inr ⟨i, hn⟩)

/-- A step that another stream takes, if it leaves this one its address and its place. -/
theorem StreamOk.congr (h : StreamOk s n) (hstage : s'.stage n = s.stage n)
    (haddr : s'.addr n = s.addr n) (hdel : s'.deletions n = s.deletions n)
    (hmade : n < s'.made ↔ n < s.made)
    (hlive : s.addr n ∈ s.inputs → s.heap (s.addr n) = some n →
      s.addr n ∈ s'.inputs ∧ s'.heap (s.addr n) = some n) : StreamOk s' n := by
  cases h with
  | live h hm hmem hheap hd =>
    obtain ⟨hmem', hheap'⟩ := hlive hmem hheap
    rw [← haddr] at hmem' hheap'
    exact .live (hstage ▸ h) (hmade.mpr hm) hmem' hheap' (hdel.trans hd)
  | freed i h hm hd => exact .freed i (hstage.trans h) (hmade.mpr hm) (hdel.trans hd)
  | closed h hm hd => exact .closed (hstage.trans h) (hmade.mpr hm) (hdel.trans hd)
  | unborn h hm hd =>
    exact .unborn (hstage.trans h) (Nat.not_lt.mp (mt hmade.mp (Nat.not_lt.mpr hm))) (hdel.trans hd)

theorem Inv.lt_made (hi : Inv s) (hn : s.stage n ≠ .closed) : n < s.made := by
  cases hi.stream n with
  | live _ hmade => exact hmade
  | freed _ _ hmade => exact hmade
  | closed hstage => exact absurd hstage hn
  | unborn hstage => exact absurd hstage hn

theorem Inv.good (hi : Inv s) (hq : Quiescent s) : Good s := by
  refine ⟨hi.nodup, fun a => ⟨fun ha => ?_, ?_⟩, fun n hn => ?_, fun n hlt hn => ?_⟩
  · obtain ⟨n, hn, rfl⟩ := hi.mem a ha
    exact ⟨n, (hq n).resolve_right hn, rfl⟩
  · rintro ⟨n, hn, rfl⟩
    exact ((hi.stream n).mem hn).1
  · exact ((hi.stream n).mem hn).2.2.2
  · cases hi.stream n with
    | live hstage =>
      rcases hstage with h | ⟨i, h⟩
      · cases hn.symm.trans h
      · cases hn.symm.trans h
    | freed i hstage => cases hn.symm.trans hstage
    | closed hstage hmade hdel => exact hdel
    | unborn hstage hmade => exact absurd hlt (Nat.not_lt.mpr hmade)

theorem init_inv : Inv Registry.init where
  nodup := List.nodup_nil
  mem := by simp [Registry.init]
  stream n := .unborn rfl (Nat.zero_le n) rfl

/-! ## Each step -/

theorem mem_add {a b : Nat} {inputs : List Nat} : b ∈ add a inputs ↔ b = a ∨ b ∈ inputs := by
  unfold add
  split
  · rename_i ha
    constructor
    · exact .inr
    · rintro (rfl | hb)
      · exact ha
      · exact hb
  · exact List.mem_orderedInsert _

theorem nodup_add {a : Nat} {inputs : List Nat} (h : inputs.Nodup) : (add a inputs).Nodup := by
  unfold add
  split
  · exact h
  · rename_i ha
    exact (List.perm_orderedInsert _ a inputs).nodup_iff.mpr (List.nodup_cons.mpr ⟨ha, h⟩)

/-- In a vector without duplicates, the other addresses stay. -/
theorem mem_eraseIdx {inputs : List Nat} {i a b : Nat} (h : inputs.Nodup) (ha : inputs[i]? = some a) :
    b ∈ inputs.eraseIdx i ↔ b ≠ a ∧ b ∈ inputs := by
  obtain ⟨hi, rfl⟩ := List.getElem?_eq_some_iff.mp ha
  rw [← h.erase_getElem i hi, h.mem_erase_iff]

theorem open_inv {a : Nat} (hi : Inv s) (ha : s.heap a = none) :
    Inv { s with
      inputs := add a s.inputs
      made := s.made + 1
      addr := Function.update s.addr s.made a
      stage := Function.update s.stage s.made .opened
      heap := Function.update s.heap a (some s.made) } := by
  refine ⟨nodup_add hi.nodup, fun b hb => ?_, fun n => ?_⟩
  · rcases mem_add.mp hb with rfl | hb
    · exact ⟨s.made, by simp, Function.update_self ..⟩
    · obtain ⟨n, hn, rfl⟩ := hi.mem b hb
      have hne : n ≠ s.made := (hi.lt_made hn).ne
      exact ⟨n, by simpa only [Function.update_of_ne hne] using hn, Function.update_of_ne hne ..⟩
  · by_cases hn : n = s.made
    · subst hn
      have hdel : s.deletions s.made = 0 := by
        cases hi.stream s.made with
        | live _ hmade => exact absurd hmade (Nat.lt_irrefl _)
        | freed _ _ hmade => exact absurd hmade (Nat.lt_irrefl _)
        | closed _ hmade => exact absurd hmade (Nat.lt_irrefl _)
        | unborn _ _ hdel => exact hdel
      refine .live (.inl (Function.update_self ..)) (Nat.lt_succ_self _) ?_ ?_ hdel
      · simp only [Function.update_self]
        exact mem_add.mpr (.inl rfl)
      · simp only [Function.update_self]
    · refine (hi.stream n).congr (Function.update_of_ne hn ..) (Function.update_of_ne hn ..) rfl ?_ ?_
      · dsimp only
        omega
      · intro hmem hheap
        have hne : s.addr n ≠ a := by
          rintro rfl
          rw [hheap] at ha
          cases ha
        exact ⟨mem_add.mpr (.inr hmem), (Function.update_of_ne hne ..).trans hheap⟩

/-- A stream that goes on to another stage, and is not closed by that, keeps the addresses named. -/
theorem mem_of_stage {v : Stage} (hi : Inv s) (hv : v ≠ .closed) {a : Nat} (ha : a ∈ s.inputs) :
    ∃ m, Function.update s.stage n v m ≠ .closed ∧ s.addr m = a := by
  obtain ⟨m, hm, rfl⟩ := hi.mem a ha
  refine ⟨m, ?_, rfl⟩
  by_cases h : m = n
  · subst h
    rwa [Function.update_self]
  · rwa [Function.update_of_ne h]

/-- Looking up the index of a stream that is open. -/
theorem find_inv {i : Nat} (hi : Inv s) (hn : s.stage n = .opened) :
    Inv { s with stage := Function.update s.stage n (.found i) } := by
  refine ⟨hi.nodup, fun a ha => mem_of_stage hi Stage.noConfusion ha, fun m => ?_⟩
  by_cases h : m = n
  · subst h
    obtain ⟨hmem, hheap, hmade, hdel⟩ := (hi.stream m).mem hn
    exact .live (.inr ⟨i, Function.update_self ..⟩) hmade hmem hheap hdel
  · exact (hi.stream m).congr (Function.update_of_ne h ..) rfl rfl Iff.rfl And.intro

/-- Deleting the stream that was looked up. -/
theorem delete_inv {i : Nat} (hi : Inv s) (hn : s.stage n = .found i) :
    Inv { s with
      stage := Function.update s.stage n (.freed i)
      heap := Function.update s.heap (s.addr n) none
      deletions := Function.update s.deletions n (s.deletions n + 1) } := by
  obtain ⟨-, hheap, hmade, hdel⟩ := (hi.stream n).found hn
  refine ⟨hi.nodup, fun a ha => mem_of_stage hi Stage.noConfusion ha, fun m => ?_⟩
  by_cases h : m = n
  · subst h
    exact .freed i (Function.update_self ..) hmade (by simp [hdel])
  · refine (hi.stream m).congr (Function.update_of_ne h ..) rfl (Function.update_of_ne h ..) Iff.rfl ?_
    intro hmem hheap'
    -- two streams that have not been deleted are at different addresses
    have hne : s.addr m ≠ s.addr n := by
      intro heq
      rw [heq, hheap] at hheap'
      exact h (Option.some.inj hheap').symm
    exact ⟨hmem, (Function.update_of_ne hne ..).trans hheap'⟩

/-- Removing the index of the stream that was deleted. -/
theorem remove_inv {i : Nat} (hi : Inv s) (hn : s.stage n = .freed i)
    (hindex : s.inputs[i]? = some (s.addr n)) (hheap : s.heap (s.addr n) = none) :
    Inv { s with
      inputs := s.inputs.eraseIdx i, stage := Function.update s.stage n .closed } := by
  refine ⟨hi.nodup.sublist (List.eraseIdx_sublist _ _), fun a ha => ?_, fun m => ?_⟩
  · obtain ⟨hne, ha⟩ := (mem_eraseIdx hi.nodup hindex).mp ha
    obtain ⟨m, hm, rfl⟩ := hi.mem a ha
    have h : m ≠ n := by
      rintro rfl
      exact hne rfl
    exact ⟨m, by simpa only [Function.update_of_ne h] using hm, rfl⟩
  · by_cases h : m = n
    · subst h
      cases hi.stream m with
      | live hstage =>
        rcases hstage with h | ⟨i, h⟩
        · cases hn.symm.trans h
        · cases hn.symm.trans h
      | freed i hstage hmade hdel => exact .closed (Function.update_self ..) hmade hdel
      | closed hstage => cases hn.symm.trans hstage
      | unborn hstage => cases hn.symm.trans hstage
    · refine (hi.stream m).congr (Function.update_of_ne h ..) rfl rfl Iff.rfl ?_
      intro hmem hheap'
      have hne : s.addr m ≠ s.addr n := by
        intro heq
        rw [heq, hheap] at hheap'
        cases hheap'
      exact ⟨(mem_eraseIdx hi.nodup hindex).mpr ⟨hne, hmem⟩, hheap'⟩

/-- Of the output stream nothing is said. -/
theorem output_inv {b : Bool} (hi : Inv s) : Inv { s with output := b } :=
  ⟨hi.nodup, hi.mem, fun n => (hi.stream n).congr rfl rfl rfl Iff.rfl And.intro⟩

theorem step_inv {l : Step} (hi : Inv s) (hok : stepOk s l) (hs : step s l = some s') : Inv s' := by
  cases l with
  | openInput a isInputDevice status hasHardware =>
    unfold step at hs
    dsimp only at hs
    split at hs
    · cases hs
      exact hi
    split at hs
    · split at hs
      · cases hs
      · cases hs
        exact hi
    split at hs
    · cases hs
    · rename_i ha
      cases hs
      exact open_inv hi (Option.not_isSome_iff_eq_none.mp ha)
  | find n =>
    unfold step at hs
    dsimp only at hs
    split at hs
    · rename_i hn
      have hmem := ((hi.stream n).mem hn).1
      split at hs
      · rename_i hnone
        exact absurd hmem (List.idxOf?_eq_none_iff.mp hnone)
      · cases hs
        exact find_inv hi hn
    · cases hs
  | delete n =>
    unfold step at hs
    unfold stepOk at hok
    dsimp only at hs hok
    split at hs
    · rename_i i hn
      rw [hn] at hok
      obtain ⟨a, ha, hs⟩ := Option.bind_eq_some_iff.mp hs
      obtain ⟨m, hm, hs⟩ := Option.bind_eq_some_iff.mp hs
      obtain ⟨hindex, hout⟩ := Bool.and_eq_true_iff.mp hok
      rw [if_pos hout] at hs
      cases hs
      -- the stream at the index is that of the thread
      have haddr : a = s.addr n := Option.some.inj (ha.symm.trans (of_decide_eq_true hindex))
      subst haddr
      have hheap := ((hi.stream n).found hn).2.1
      cases hm.symm.trans hheap
      exact delete_inv hi hn
    · cases hs
  | remove n =>
    unfold step at hs
    unfold stepOk at hok
    dsimp only at hs hok
    split at hs
    · rename_i i hn
      rw [hn] at hok
      cases hs
      obtain ⟨hindex, hheap⟩ := Bool.and_eq_true_iff.mp hok
      exact remove_inv hi hn (of_decide_eq_true hindex) (Option.isNone_iff_eq_none.mp hheap)
    · cases hs
  | openOutput status =>
    cases hs
    exact output_inv hi
  | closeOutput isOutput =>
    cases hs
    exact output_inv hi

/-- A step that is allowed does not go wrong. -/
theorem step_isSome {l : Step} (hi : Inv s) (hen : Enabled s l) (hok : stepOk s l) :
    (step s l).isSome = true := by
  cases l with
  | openInput a isInputDevice status hasHardware =>
    unfold step
    dsimp only
    split
    · rfl
    rename_i hdev
    have hdev : isInputDevice = true := by simpa using hdev
    split
    · rename_i hstatus
      have hrouted : ¬ (hasHardware && !s.output) = true := by
        simpa [stepOk, hdev, hstatus, imp_iff_not_or] using hok
      rw [if_neg hrouted]
      rfl
    · rename_i hstatus
      rw [hen hdev (not_not.mp hstatus)]
      rfl
  | find n =>
    have hn : s.stage n = .opened := hen
    unfold step
    dsimp only
    rw [if_pos hn]
    split
    · rfl
    · rfl
  | delete n =>
    obtain ⟨index, hn⟩ := hen
    unfold stepOk at hok
    unfold step
    simp only [hn] at hok ⊢
    obtain ⟨hindex, hout⟩ := Bool.and_eq_true_iff.mp hok
    rw [of_decide_eq_true hindex, Option.bind_some, ((hi.stream n).found hn).2.1, Option.bind_some,
      if_pos hout]
    rfl
  | remove n =>
    obtain ⟨index, hn⟩ := hen
    unfold step
    simp only [hn]
    rfl
  | openOutput status => rfl
  | closeOutput isOutput => rfl

/-! ## The destructor -/

/-- In a vector without duplicates, an address is at one index. -/
theorem index_unique {inputs : List Nat} {i j a : Nat} (h : inputs.Nodup) (hi : inputs[i]? = some a)
    (hj : inputs[j]? = some a) : i = j := by
  obtain ⟨hlt, -⟩ := List.getElem?_eq_some_iff.mp hi
  exact (List.getElem?_inj hlt h).mp (hi.trans hj.symm)

/-- In a vector without duplicates, an address is found where it is. -/
theorem idxOf?_eq {inputs : List Nat} {i a : Nat} (h : inputs.Nodup) (ha : inputs[i]? = some a) :
    inputs.idxOf? a = some i := by
  obtain ⟨hi, rfl⟩ := List.getElem?_eq_some_iff.mp ha
  refine List.idxOf?_eq_some_iff.mpr ⟨hi, rfl, fun j hj heq => ?_⟩
  have := (h.getElem_inj_iff).mp heq
  omega

/-- What a whole `closeInputStream` does, of a stream that is open, with no other thread. -/
def Registry.closeAt (s : Registry) (n i : Nat) : Registry :=
  { s with
    inputs := s.inputs.eraseIdx i
    stage := Function.update s.stage n .closed
    heap := Function.update s.heap (s.addr n) none
    deletions := Function.update s.deletions n 1 }

theorem closing_eq {i : Nat} (hi : Inv s) (hout : s.output = true) (hn : s.stage n = .opened)
    (hindex : s.inputs[i]? = some (s.addr n)) :
    RunOk step (fun s l => stepOk s l) s (closing n) ∧
      run step s (closing n) = some (s.closeAt n i) := by
  obtain ⟨hmem, hheap, hmade, hdel⟩ := (hi.stream n).mem hn
  have hfind : step s (.find n) = some { s with stage := Function.update s.stage n (.found i) } := by
    simp [step, hn, idxOf?_eq hi.nodup hindex]
  have hdelete : step { s with stage := Function.update s.stage n (.found i) } (.delete n) =
      some { s with
        stage := Function.update s.stage n (.freed i)
        heap := Function.update s.heap (s.addr n) none
        deletions := Function.update s.deletions n 1 } := by
    simp [step, hindex, hheap, hdel, hout]
  have hremove : step { s with
        stage := Function.update s.stage n (.freed i)
        heap := Function.update s.heap (s.addr n) none
        deletions := Function.update s.deletions n 1 } (.remove n) = some (s.closeAt n i) := by
    simp [step, Registry.closeAt]
  constructor
  · refine ⟨rfl, ?_⟩
    rw [hfind]
    refine ⟨by simp [stepOk, hindex, hout], ?_⟩
    rw [hdelete]
    refine ⟨by simp [stepOk, hindex], ?_⟩
    rw [hremove]
    trivial
  · simp only [closing, run, hfind, hdelete, hremove, Option.bind_some]

/-- With one stream closed by itself, the rest is as before. -/
theorem closeAt_inv {i : Nat} (hi : Inv s) (hout : s.output = true) (hn : s.stage n = .opened)
    (hindex : s.inputs[i]? = some (s.addr n)) : Inv (s.closeAt n i) := by
  obtain ⟨hok, hrun⟩ := closing_eq hi hout hn hindex
  exact run_invariant (fun s l s' hi hok hs => step_inv hi hok hs) hi hok hrun

/-- One round of the destructor's loop, with all streams open. -/
theorem destroyLoop_eq (index : Nat) {a : Nat} (hi : Inv s) (hq : Quiescent s) (hout : s.output = true)
    (ha : s.inputs[index]? = some a) :
    ∃ n, s.stage n = .opened ∧ s.addr n = a ∧
      destroyLoop (s, index) = some (.inl (s.closeAt n index, index + 1)) := by
  obtain ⟨n, hn, rfl⟩ := ((hi.good hq).mem_iff a).mp (List.mem_of_getElem? ha)
  refine ⟨n, hn, rfl, ?_⟩
  have hheap := ((hi.stream n).mem hn).2.1
  unfold destroyLoop
  simp only [ha, hheap, (closing_eq hi hout hn ha).2, Option.bind_some, Option.map_some]

/-- Without an output stream, the first stream that is to be closed is the end. -/
theorem destroyLoop_none {index a : Nat} (hi : Inv s) (hq : Quiescent s) (hout : s.output = false)
    (ha : s.inputs[index]? = some a) : destroyLoop (s, index) = none := by
  obtain ⟨n, hn, rfl⟩ := ((hi.good hq).mem_iff a).mp (List.mem_of_getElem? ha)
  have hheap := ((hi.stream n).mem hn).2.1
  simp [destroyLoop, closing, run, step, hn, ha, hheap, hout, idxOf?_eq hi.nodup ha]

theorem closeAt_quiescent {i : Nat} (hq : Quiescent s) : Quiescent (s.closeAt n i) := by
  intro m
  unfold Registry.closeAt
  by_cases h : m = n
  · subst h
    exact .inr (Function.update_self ..)
  · simp only [Function.update_of_ne h]
    exact hq m

/-- The first stream of the vector is left where it is by rounds with a later index. -/
structure Kept (b n : Nat) (x : Registry × Nat) : Prop where
  inv : Inv x.1
  quiescent : Quiescent x.1
  first : x.1.inputs[0]? = some b
  index : 0 < x.2
  addr : x.1.addr n = b
  stage : x.1.stage n = .opened
  output : x.1.output = true

theorem Kept.goes {b n : Nat} {x y : Registry × Nat} (h : Kept b n x) (hg : Goes destroyLoop x y) :
    Kept b n y := by
  obtain ⟨s, index⟩ := x
  obtain ⟨hi, hq, hfirst, hindex, haddr, hstage, hout⟩ := h
  dsimp only at hi hq hfirst hindex haddr hstage hout
  cases ha : s.inputs[index]? with
  | none =>
    unfold Goes destroyLoop at hg
    dsimp only at hg
    rw [ha] at hg
    cases hg
  | some a =>
    obtain ⟨m, hm, rfl, heq⟩ := destroyLoop_eq index hi hq hout ha
    cases hg.symm.trans heq
    have hne : n ≠ m := by
      rintro rfl
      rw [haddr] at ha
      exact hindex.ne (index_unique hi.nodup hfirst ha)
    refine ⟨closeAt_inv hi hout hm ha, closeAt_quiescent hq, ?_, Nat.succ_pos _, haddr, ?_, hout⟩
    · exact (List.getElem?_eraseIdx_of_lt hindex).trans hfirst
    · exact (Function.update_of_ne hne ..).trans hstage

/-- It is not closed when the loop is left. -/
theorem Kept.left {b n : Nat} {x : Registry × Nat} {s' : Registry} (h : Kept b n x)
    (hl : destroyLoop x = some (.inr s')) : s'.stage n = .opened := by
  obtain ⟨s, index⟩ := x
  cases hget : s.inputs[index]? with
  | none =>
    unfold destroyLoop at hl
    dsimp only at hl
    rw [hget] at hl
    cases hl
    exact h.stage
  | some b =>
    obtain ⟨k, -, -, heq⟩ := destroyLoop_eq index h.inv h.quiescent h.output hget
    cases hl.symm.trans heq

/-- The only stream is closed by the first round, and the second one leaves the loop. -/
theorem destroysAll_singleton (hi : Inv s) (hq : Quiescent s) (hout : s.output = true) {a : Nat}
    (hinputs : s.inputs = [a]) : DestroysAll s := by
  obtain ⟨n, hn, haddr, heq⟩ := destroyLoop_eq 0 hi hq hout (by rw [hinputs]; rfl)
  refine ⟨2, { s.closeAt n 0 with inputs := [] }, ?_, fun m hm => ?_⟩
  · rw [loop_goes heq]
    simp [loop, destroyLoop, Registry.closeAt, hinputs]
  · obtain ⟨hmem, hheap, -, -⟩ := (hi.stream m).mem hm
    rw [hinputs] at hmem
    have hsame : m = n := by
      have hheap' := ((hi.stream n).mem hn).2.1
      rw [haddr, ← List.mem_singleton.mp hmem, hheap] at hheap'
      exact Option.some.inj hheap'
    subst hsame
    exact ⟨Function.update_self .., Function.update_self ..⟩

/-- The index moves on while the vector shrinks: of two streams, the second stays. -/
theorem length_le_of_destroysAll (hi : Inv s) (hq : Quiescent s) (hout : s.output = true)
    (h : DestroysAll s) : s.inputs.length ≤ 1 := by
  obtain ⟨rounds, s', hloop, hall⟩ := h
  by_contra hlen
  obtain ⟨a, h₀⟩ : ∃ a, s.inputs[0]? = some a := ⟨_, List.getElem?_eq_getElem (by omega)⟩
  obtain ⟨b, h₁⟩ : ∃ b, s.inputs[1]? = some b := ⟨_, List.getElem?_eq_getElem (by omega)⟩
  obtain ⟨n, hn, rfl, heq⟩ := destroyLoop_eq 0 hi hq hout h₀
  obtain ⟨m, hm, rfl, -⟩ := destroyLoop_eq 1 hi hq hout h₁
  have hne : m ≠ n := by
    rintro rfl
    exact absurd (index_unique hi.nodup h₀ h₁) (by decide)
  -- the second stream is the first one from now on
  have hkept : Kept (s.addr m) m (s.closeAt n 0, 1) :=
    ⟨closeAt_inv hi hout hn h₀, closeAt_quiescent hq,
      (List.getElem?_eraseIdx_of_ge (Nat.le_refl 0)).trans h₁, Nat.zero_lt_one, rfl,
      (Function.update_of_ne hne ..).trans hm, hout⟩
  cases rounds with
  | zero => cases hloop
  | succ rounds =>
    rw [loop_goes heq] at hloop
    have hstage := loop_left_invariant (fun _ _ => Kept.goes) (fun _ _ => Kept.left) hkept hloop
    rw [(hall m hm).1] at hstage
    cases hstage

/-- The destructor closes all streams exactly when there is none, or one and an output stream. -/
theorem destroysAll_iff (hi : Inv s) (hq : Quiescent s) :
    DestroysAll s ↔ s.inputs.length ≤ 1 ∧ (s.inputs = [] ∨ s.output = true) := by
  constructor
  · intro h
    cases hout : s.output with
    | true => exact ⟨length_le_of_destroysAll hi hq hout h, .inr rfl⟩
    | false =>
      have hnil : s.inputs = [] := by
        by_contra hne
        obtain ⟨a, rest, hinputs⟩ := List.exists_cons_of_ne_nil hne
        obtain ⟨rounds, s', hloop, -⟩ := h
        have hfirst : s.inputs[0]? = some a := by rw [hinputs, List.getElem?_cons_zero]
        have hnone := destroyLoop_none hi hq hout hfirst
        cases rounds with
        | zero => cases hloop
        | succ rounds =>
          rw [loop, hnone] at hloop
          cases hloop
      rw [hnil]
      exact ⟨Nat.zero_le _, .inl rfl⟩
  · rintro ⟨hlen, hor⟩
    rcases hinputs : s.inputs with _ | ⟨a, rest⟩
    · refine ⟨1, { s with inputs := [] }, by simp [loop, destroyLoop, hinputs], fun n hn => ?_⟩
      have hmem := ((hi.stream n).mem hn).1
      rw [hinputs] at hmem
      cases hmem
    · have hrest : rest = [] := by
        rw [hinputs, List.length_cons] at hlen
        exact List.length_eq_zero_iff.mp (by omega)
      subst hrest
      exact destroysAll_singleton hi hq (hor.resolve_left (by rw [hinputs]; exact List.cons_ne_nil a _))
        hinputs

/-! ## Runs -/

/-- When no thread uses an index that has moved, and no input stream is deleted without an output stream,
`mInputs` names the streams that are open, each closed stream was deleted once, and the destructor closes the
rest if it is none, or one and there is an output stream. No further step of this kind goes wrong. -/
theorem registry_good (steps : List Step) (s : Registry)
    (hok : RunOk step (fun s l => stepOk s l) Registry.init steps)
    (hrun : run step Registry.init steps = some s) :
    (∀ l, Enabled s l → stepOk s l → (step s l).isSome = true) ∧
      (Quiescent s → Good s ∧
        (DestroysAll s ↔ s.inputs.length ≤ 1 ∧ (s.inputs = [] ∨ s.output = true))) := by
  have hi : Inv s := run_invariant (fun s l s' hi hok hs => step_inv hi hok hs) init_inv hok hrun
  exact ⟨fun l => step_isSome hi, fun hq => ⟨hi.good hq, destroysAll_iff hi hq⟩⟩

/-- One `closeInputStream` after the other, while there is an output stream. -/
inductive Serial : List Step → Prop
  | nil : Serial []
  | openInput (a : Nat) (isInputDevice : Bool) (status : Status) (hasHardware : Bool) {steps : List Step}
    (h : Serial steps) : Serial (.openInput a isInputDevice status hasHardware :: steps)
  | close (n : Nat) {steps : List Step} (h : Serial steps) : Serial (closing n ++ steps)

theorem openInput_quiescent {a : Nat} {isInputDevice : Bool} {status : Status} {hasHardware : Bool}
    (hq : Quiescent s) (hs : step s (.openInput a isInputDevice status hasHardware) = some s') :
    Quiescent s' ∧ s'.output = s.output := by
  unfold step at hs
  dsimp only at hs
  split at hs
  · cases hs
    exact ⟨hq, rfl⟩
  split at hs
  · split at hs
    · cases hs
    · cases hs
      exact ⟨hq, rfl⟩
  split at hs
  · cases hs
  · cases hs
    refine ⟨fun m => ?_, rfl⟩
    by_cases h : m = s.made
    · subst h
      exact .inl (Function.update_self ..)
    · simp only [Function.update_of_ne h]
      exact hq m

/-- A thread that is not interrupted uses the index it has looked up. -/
theorem Serial.run_good {steps : List Step} (h : Serial steps) (hi : Inv s) (hq : Quiescent s)
    (hout : s.output = true) :
    RunOk step (fun s l => stepOk s l) s steps ∧ ∀ s', run step s steps = some s' → Quiescent s' := by
  induction h generalizing s with
  | nil =>
    refine ⟨trivial, fun s' hs => ?_⟩
    cases hs
    exact hq
  | openInput a isInputDevice status hasHardware h ih =>
    have hok : stepOk s (.openInput a isInputDevice status hasHardware) = true := by
      rw [stepOk, hout, Bool.or_true]
    cases hs : step s (.openInput a isInputDevice status hasHardware) with
    | none => exact ⟨⟨hok, by rw [hs]; trivial⟩, fun s' hrun => by simp [run, hs] at hrun⟩
    | some s₁ =>
      obtain ⟨hq₁, hout₁⟩ := openInput_quiescent hq hs
      obtain ⟨hrest, hend⟩ := ih (step_inv hi hok hs) hq₁ (hout₁.trans hout)
      refine ⟨⟨hok, by rw [hs]; exact hrest⟩, fun s' hrun => hend s' ?_⟩
      rwa [run, hs] at hrun
  | close n h ih =>
    by_cases hn : s.stage n = .opened
    · obtain ⟨i, hindex⟩ := List.getElem?_of_mem ((hi.stream n).mem hn).1
      obtain ⟨hok, hrun⟩ := closing_eq hi hout hn hindex
      obtain ⟨hok', hend⟩ := ih (closeAt_inv hi hout hn hindex) (closeAt_quiescent hq) hout
      refine ⟨hok.append fun s' hs => ?_, fun s' hs => hend s' ?_⟩
      · cases hrun.symm.trans hs
        exact hok'
      · rwa [run_append, hrun] at hs
    · have hnone : step s (.find n) = none := by simp [step, hn]
      refine ⟨⟨rfl, by rw [hnone]; trivial⟩, fun s' hs => ?_⟩
      simp [closing, run, hnone] at hs

/-- An output stream, streams at 1 and 2 are opened, and the first of these is closed. -/
def openTwo : List Step :=
  .openOutput 0 :: ([.openInput 1 true 0 true, .openInput 2 true 0 true] ++ closing 0)

theorem registry_good_two :
    ∃ s, RunOk step (fun s l => stepOk s l) Registry.init openTwo ∧
      run step Registry.init openTwo = some s ∧ Quiescent s ∧
        (∀ l, Enabled s l → stepOk s l → (step s l).isSome = true) ∧ Good s ∧
        (DestroysAll s ↔ s.inputs.length ≤ 1 ∧ (s.inputs = [] ∨ s.output = true)) := by
  have hserial : Serial ([.openInput 1 true 0 true, .openInput 2 true 0 true] ++ closing 0) :=
    .openInput 1 true 0 true (.openInput 2 true 0 true (.close 0 .nil))
  obtain ⟨hok, hend⟩ := hserial.run_good (s := { Registry.init with output := true })
    (output_inv init_inv) (fun _ => .inr rfl) rfl
  have hok : RunOk step (fun s l => stepOk s l) Registry.init openTwo := ⟨rfl, hok⟩
  obtain ⟨s, hrun⟩ := Option.isSome_iff_exists.mp
    (rfl : (run step Registry.init openTwo).isSome = true)
  have hq : Quiescent s := hend s hrun
  obtain ⟨hstep, hall⟩ := registry_good openTwo s hok hrun
  exact ⟨s, hok, hrun, hq, hstep, hall hq⟩

-- Without an output stream the first `closeInputStream` goes wrong.
example : run step Registry.init (.openInput 1 true 0 true :: closing 0) = none := rfl

/-- While one thread is between looking up its index and using it, another removes the stream before it. -/
def indexMoves : List Step :=
  [.openOutput 0, .openInput 1 true 0 true, .openInput 2 true 0 true, .openInput 3 true 0 true, .find 1] ++
    closing 0 ++ [.delete 1, .remove 1]

/-- The thread then deletes a stream that is in use, and removes its own: the last of the three streams is
open, and its address is not in the vector. -/
theorem stale_index :
    ¬ ∀ (steps : List Step) (s : Registry), run step Registry.init steps = some s → Quiescent s →
      Good s ∧ DestroysAll s := by
  intro hall
  obtain ⟨s, hrun⟩ := Option.isSome_iff_exists.mp
    (rfl : (run step Registry.init indexMoves).isSome = true)
  have hget {α : Type} (f : Registry → α) : (run step Registry.init indexMoves).map f = some (f s) :=
    congrArg (Option.map f) hrun
  have hmoves : (run step Registry.init indexMoves).map Registry.stage = some
      ([(0, .opened), (1, .opened), (2, .opened), (1, .found 1), (0, .found 0), (0, .freed 0),
        (0, .closed), (1, .freed 1), (1, .closed)].foldl
          (fun stage p => Function.update stage p.1 p.2) fun _ => .closed) := rfl
  have hstage : s.stage = fun n => if n = 2 then .opened else .closed := by
    rw [Option.some.inj ((hget Registry.stage).symm.trans hmoves)]
    funext n
    simp only [List.foldl_cons, List.foldl_nil, Function.update_apply]
    split_ifs <;> first | rfl | omega
  have hq : Quiescent s := by
    intro n
    rw [hstage]
    by_cases h : n = 2
    · exact .inl (if_pos h)
    · exact .inr (if_neg h)
  have hgood := (hall indexMoves s hrun hq).1
  have haddr : s.addr 2 = 3 := (Option.some.inj (hget fun s => s.addr 2)).symm
  have hinputs : s.inputs = [2] := (Option.some.inj (hget Registry.inputs)).symm
  have hmem : 3 ∈ s.inputs := (hgood.mem_iff 3).mpr ⟨2, by rw [hstage]; rfl, haddr⟩
  rw [hinputs] at hmem
  exact absurd hmem (by decide)

end Twm.Audio.Inputs
