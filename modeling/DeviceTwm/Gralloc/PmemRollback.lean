import DeviceTwm.Gralloc.PmemDeps

/-!
# A failed `alloc_pmem_buffer` leaves no trace

`open`, `connectPmem` and `mapPmem` of the sub-heap can fail after the range was reserved. The one
error block gives the range back, and `LeavesNoTrace` says that this undoes the call: `deallocate`
right after `allocate` restores the chunk list (`Tiled.undo`).

It does so for every request that rounds up to units without a wrap, whatever the device answers, in
every state that such requests reach. A request for more reserves nothing and still succeeds
(`leavesNoTrace_iff`).
-/

namespace Twm.Gralloc.PmemDeps

open SimpleBestFitAllocator

variable {fatal : Bool} {s : Pmem} {d : Device} {usage : SwUsage} {size : UInt32} {out : Area}

/-- What a call leaves that started with `s` and with `out` in the variables of the caller: its
result, the variables and the allocator after it, and the calls that it made on the way. -/
structure Outcome (s : Pmem) (d : Device) (size : UInt32) (out : Area) (err : Int) (out' : Area)
    (s' : Pmem) (calls : List DepsCall) : Prop where
  /-- An error: the chunk list, the descriptors and the caller's variables are as before. -/
  failed : err < 0 → s'.allocator.map extents = s.allocator.map extents ∧ openFds calls = [] ∧
    out' = out
  /-- Success: the variables are set, the range is reserved and zero-filled, and the descriptor is
  open and connected. -/
  served : err = 0 → ∃ a offset : _, s'.allocator = some a ∧ 0 ≤ offset ∧
    out' = ⟨s.masterBase, offset, d.openDev⟩ ∧ Reserved a offset.toNat size.toNat ∧
    .memset (s.masterBase + UInt32.ofInt offset) size ∈ calls ∧
    openFds calls = [d.openDev] ∧ .connectPmem d.openDev s.masterFd 0 ∈ calls

/-- Once `init_pmem_area` has succeeded, the rest of `alloc_pmem_buffer` leaves no trace or
succeeds. -/
def LeavesNoTrace (fatal : Bool) (s : Pmem) (d : Device) (usage : SwUsage) (size : UInt32)
    (out : Area) : Prop :=
  let i := initPmemArea (pmemAllocMgr fatal) d s
  let r := allocPmemBuffer (pmemAllocMgr fatal) d s usage size out
  i.1 = 0 → ∃ calls, r.2.2.2 = i.2.2 ++ calls ∧ Outcome i.2.1 d size out r.1 r.2.1 r.2.2.1 calls

/-! ## The sub-heap -/

/-- The error block closes what was opened. -/
theorem openFds_close (usage : SwUsage) (masterFd offset : Int) (size : UInt32) :
    openFds ((subHeap d usage masterFd offset size).2 ++ [.close d.openDev]) = [] := by
  by_cases hfd : d.openDev < 0
  · have hne : d.openDev ≠ 0 := by omega
    simp [subHeap, openFds, hfd, hne]
  · have hpos : 0 ≤ d.openDev := by omega
    by_cases hc : d.connectPmem = 0
    · simp [subHeap, openFds, hfd, hpos, hc]
    · simp [subHeap, openFds, hfd, hpos, hc]

/-- A sub-heap that was made. -/
theorem subHeap_ok {masterFd offset : Int}
    (h : (subHeap d usage masterFd offset size).1 = 0) :
    0 ≤ d.openDev ∧ (subHeap d usage masterFd offset size).2 =
      [.openDev (getOpenFlags usage) d.openDev, .connectPmem d.openDev masterFd 0,
        .mapPmem d.openDev offset size 0] := by
  by_cases hfd : d.openDev < 0
  · have hne : d.openDev ≠ 0 := by omega
    simp [subHeap, hfd, hne] at h
  · by_cases hc : d.connectPmem = 0
    · have hm : d.mapPmem = 0 := by simpa [subHeap, hfd, hc] using h
      exact ⟨by omega, by simp [subHeap, hfd, hc, hm]⟩
    · simp [subHeap, hfd, hc] at h

/-! ## `alloc_pmem_buffer` -/

/-- `allocate` of the sub-allocator of the device. -/
theorem pmemAllocMgr_allocate {a : SimpleBestFitAllocator} (ha : s.allocator = some a) (n : Nat) :
    (pmemAllocMgr fatal).allocate s.allocator n = ((allocate .arm a n).1, some (allocate .arm a n).2) := by
  rw [ha]
  rfl

/-- The part of the call after `init_pmem_area`. -/
theorem allocRange_outcome {a : SimpleBestFitAllocator} (ha : s.allocator = some a) (h : HeapOk a)
    (h0 : size ≠ 0) (hs : Rounds size) :
    let r := allocRange (pmemAllocMgr fatal) d s usage size out
    Outcome s d size out r.1 r.2.1 r.2.2.1 r.2.2.2 := by
  have h1 : 1 ≤ size.toNat := by
    have : size.toNat ≠ 0 := fun hz => h0 (UInt32.toNat_inj.mp hz)
    omega
  have h2 : size.toNat + 31 < 2 ^ 32 := by
    unfold Rounds at hs
    omega
  unfold allocRange
  rw [pmemAllocMgr_allocate ha]
  intro r
  subst r
  dsimp only
  by_cases hoff : (allocate .arm a size.toNat).1 < 0
  · -- `-ENOMEM`: the allocator is as it was
    rw [if_pos hoff]
    have hkeep : (allocate .arm a size.toNat).2 = a := by
      rcases h with rfl | ⟨ht, hh⟩
      · rfl
      · exact ht.allocate_failed h1 h2 (by rw [hh]; decide) hoff
    refine ⟨fun _ => ⟨?_, rfl, rfl⟩, fun hz => absurd hz (show -ENOMEM ≠ 0 by decide)⟩
    rw [ha, hkeep]
  · rw [if_neg hoff]
    have hpos := d.errno.pos
    obtain ⟨ht, hh⟩ : Tiled .arm a ∧ a.mHeapSize = PmemUserspaceAllocator.masterSize.toNat := by
      rcases h with rfl | h
      · exact absurd (show (-EINVAL : Int) < 0 by decide) hoff
      · exact h
    have hoff' : 0 ≤ (allocate .arm a size.toNat).1 := Int.not_lt.mp hoff
    by_cases herr : (subHeap d usage s.masterFd (allocate .arm a size.toNat).1 size).1 < 0
    · rw [if_pos herr]
      obtain ⟨a', hd, hx⟩ := ht.undo fatal h1 h2 hoff'
      refine ⟨fun _ => ⟨?_, openFds_close .., rfl⟩, fun hz => ?_⟩
      · simp only [pmemAllocMgr, hd, ha, Option.map_some, hx]
      · dsimp only at hz
        omega
    · rw [if_neg herr]
      refine ⟨fun hneg => absurd hneg herr, fun hz => ?_⟩
      obtain ⟨hfd, hcalls⟩ := subHeap_ok hz
      refine ⟨_, _, rfl, hoff', rfl, (ht.reserved h1 h2 hoff').1, ?_⟩
      rw [hcalls]
      simp [openFds, hfd]

theorem leavesNoTrace_of_rounds {ops : List Op} (hrun : Lib.run (step fatal) start ops = some s)
    (hops : ∀ op ∈ ops, op.Sized) (h0 : size ≠ 0) (hs : Rounds size) :
    LeavesNoTrace fatal s d usage size out := by
  intro hinit
  have hsome : (initPmemArea (pmemAllocMgr fatal) d s).2.1.allocator ≠ none :=
    allocator_initPmemArea (allocator_of_run (Option.some_ne_none _) hrun)
  obtain ⟨a, ha⟩ := Option.ne_none_iff_exists'.mp hsome
  have hheap : Heap (initPmemArea (pmemAllocMgr fatal) d s).2.1 :=
    (start_heap.run hops hrun).initPmemArea
  rw [allocPmemBuffer_eq _ _ _ hinit]
  exact ⟨_, rfl, allocRange_outcome ha (hheap a ha) h0 hs⟩

/-! ## A request that wraps -/

/-- The heap after `init_pmem_area`. -/
def heap : SimpleBestFitAllocator := (setSize .arm SimpleBestFitAllocator.init 0x800000).2

/-- Requests of as many units are served alike. -/
theorem alloc_congr {P : Platform} {a : SimpleBestFitAllocator} {n m : Nat} (hn : n ≠ 0) (hm : m ≠ 0)
    (h : P.word (n + kMemoryAlign - 1) / kMemoryAlign = P.word (m + kMemoryAlign - 1) / kMemoryAlign) :
    alloc P a n = alloc P a m := by
  unfold alloc
  rw [if_neg hn, if_neg hm, h]

theorem allocate_of_wraps (h : ¬ Rounds size) :
    allocate .arm heap size.toNat = allocate .arm heap 4294967295 := by
  have hlt := size.toNat_lt
  unfold Rounds at h
  have hunits : Platform.arm.word (size.toNat + kMemoryAlign - 1) / kMemoryAlign = 0 := by
    simp only [Platform.word, Platform.arm, kMemoryAlign]
    omega
  unfold allocate
  rw [@alloc_congr _ _ _ 4294967295 (by omega) (by decide) (hunits.trans (by decide))]

/-- A request that wraps is served with nothing. -/
theorem not_leavesNoTrace_of_wraps (h : ¬ Rounds size) :
    ¬ LeavesNoTrace false start answers {} size {} := by
  intro htrace
  have hoff : (allocate .arm heap 4294967295).1 = 0 := by decide +kernel
  have hbusy : busy (allocate .arm heap 4294967295).2.extents = [⟨0, 0, false⟩] := by decide +kernel
  have hinit : (initPmemArea (pmemAllocMgr false) answers start).2.1 = ⟨3, 0x40000000, some heap⟩ :=
    rfl
  have hr : allocPmemBuffer (pmemAllocMgr false) answers start {} size {} = _ :=
    allocPmemBuffer_eq _ _ _ rfl
  rw [hinit, allocRange, pmemAllocMgr_allocate rfl, allocate_of_wraps h, hoff] at hr
  obtain ⟨calls, -, ho⟩ := htrace rfl
  rw [hr] at ho
  -- The call succeeds, and what it reserved is the empty chunk.
  obtain ⟨a, offset, ha, -, -, ⟨c, hc, -, hsize⟩, -⟩ := ho.served rfl
  obtain rfl := Option.some.inj ha
  rw [hbusy, List.mem_singleton] at hc
  rw [hc] at hsize
  have hzero : size.toNat ≤ 0 := hsize
  unfold Rounds at h
  omega

/-- **A failed allocation leaves no trace.** The requests of `size` bytes that do, in every state
which requests that round up reach and whatever the device answers, are those that round up. -/
theorem leavesNoTrace_iff (size : UInt32) (h0 : size ≠ 0) :
    (∀ (fatal : Bool) (ops : List Op) (s : Pmem), Lib.run (step fatal) start ops = some s →
      (∀ op ∈ ops, op.Sized) → ∀ d usage out, LeavesNoTrace fatal s d usage size out) ↔
    Rounds size := by
  constructor
  · intro h
    by_contra hwraps
    exact not_leavesNoTrace_of_wraps hwraps (h false [] start rfl (by simp) answers {} {})
  · intro hs fatal ops s hrun hops d usage out
    exact leavesNoTrace_of_rounds hrun hops h0 hs

/-- The second allocation fails in `mapPmem`: its range is given back and its descriptor closed. -/
theorem leavesNoTrace_second : ∃ s,
    Lib.run (step true) start [.alloc answers {} 4096 {}] = some s ∧
    LeavesNoTrace true s { answers with mapPmem := -1 } {} 8192 ⟨7, 8, 9⟩ := by
  obtain ⟨s, hs⟩ : ∃ s, Lib.run (step true) start [.alloc answers {} 4096 {}] = some s :=
    Option.isSome_iff_exists.mp (by decide +kernel)
  refine ⟨s, hs, (leavesNoTrace_iff 8192 (by decide)).mpr (by decide) true _ s hs ?_ _ _ _⟩
  intro op hop
  rw [List.mem_singleton] at hop
  subst hop
  show Rounds 4096
  decide

/-- For `2 ^ 32 - 1` bytes the call returns 0 and reserves nothing. -/
theorem leavesNoTrace_fails_on_wrap : ¬ LeavesNoTrace false start answers {} 4294967295 {} :=
  not_leavesNoTrace_of_wraps (by decide)

end Twm.Gralloc.PmemDeps
