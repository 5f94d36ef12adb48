import DeviceTwm.Gralloc.AllocateFree
import DeviceTwm.Gralloc.Pmem
import DeviceTwm.Lib.Run

/-!
# The pmem heap and its calls on `Deps`

`PmemUserspaceAllocator` again, with every call that it makes on its `Deps` and its allocator, in
order, and the values that the caller had in `*pBase`, `*pOffset` and `*pFd`. `Device` adds to the
answers of the kernel the size that `getPmemTotalSize` reports.

* `initPmemArea_erase`, `allocPmemBuffer_erase`: without the calls this is what
  `Gralloc/Pmem.lean` has.
* `step`: the calls of the allocator's clients, in any order; `Heap` is what they keep.
-/

namespace Twm.Gralloc.PmemDeps

open SimpleBestFitAllocator

structure Device extends Os where
  /-- What `getPmemTotalSize` stores in `*size`. -/
  total : UInt32

/-- The tests of `get_open_flags` on `usage`. -/
structure SwUsage where
  readOften : Bool := false
  writeOften : Bool := false
  deriving DecidableEq

/-- `get_open_flags`: whether `O_SYNC` is there beside `O_RDWR`. -/
def getOpenFlags (u : SwUsage) : Bool := !(u.readOften || u.writeOften)

/-- A call on `Deps` or on the sub-allocator, with what it returned. -/
inductive DepsCall
  /-- `open` of the pmem device; `sync` is `O_SYNC`. -/
  | openDev (sync : Bool) (fd : Int)
  | getPmemTotalSize (fd err : Int)
  | setSize (size : UInt32)
  | mmap (fd : Int) (size : UInt32) (base : Option UInt32)
  | connectPmem (fd masterFd err : Int)
  | mapPmem (fd offset : Int) (size : UInt32) (err : Int)
  | unmapPmem (fd offset : Int) (size : UInt32) (err : Int)
  /-- `memset` to 0. -/
  | memset (start size : UInt32)
  | close (fd : Int)
  deriving DecidableEq

/-- The descriptors that the calls opened and did not close. -/
def openFds (calls : List DepsCall) : List Int :=
  calls.foldl (fun fds c =>
    match c with
    | .openDev _ fd => if 0 ≤ fd then fd :: fds else fds
    | .close fd => fds.erase fd
    | _ => fds) []

/-- What the calls mapped. -/
def mapped (calls : List DepsCall) : List UInt32 :=
  calls.filterMap fun c =>
    match c with
    | .mmap _ _ base => base
    | _ => none

/-- `8<<20`, the size in limp mode. -/
def limpSize : UInt32 := 0x800000

/-- `setup size by fengzhe`: whatever the size was. -/
def setupSize (_size : UInt32) : UInt32 := PmemUserspaceAllocator.masterSize

section

variable {α : Type} (A : SubAllocator α) (d : Device) (s : PmemUserspaceAllocator α)

/-! ## `init_pmem_area` -/

def initPmemAreaLocked : Int × PmemUserspaceAllocator α × List DepsCall :=
  let fd := d.masterOpen
  let calls := [.openDev false fd]
  if 0 ≤ fd then
    let err := d.totalSize
    let calls := calls ++ [.getPmemTotalSize fd err]
    let size := setupSize (if err < 0 then limpSize else d.total)
    let s := { s with allocator := (A.setSize s.allocator size.toNat).2 }
    let calls := calls ++ [.setSize size, .mmap fd size d.masterMmap]
    match d.masterMmap with
    | none => (-d.errno.val, s, calls ++ [.close fd])
    | some base => (err, { s with masterFd := fd, masterBase := base }, calls)
  else (-d.errno.val, s, calls)

def initPmemArea : Int × PmemUserspaceAllocator α × List DepsCall :=
  let err := s.masterFd
  if err = MASTER_FD_INIT then
    -- first time, try to initialize pmem
    let (err, s, calls) := initPmemAreaLocked A d s
    if err ≠ 0 then (err, { s with masterFd := err }, calls) else (err, s, calls)
  else if err < 0 then
    -- pmem couldn't be initialized, never use it
    (err, s, [])
  else (0, s, [])

/-! ## `alloc_pmem_buffer` -/

/-- The sub-heap: `open`, `connectPmem` and `mapPmem`, each if nothing before it failed. -/
def subHeap (usage : SwUsage) (masterFd offset : Int) (size : UInt32) : Int × List DepsCall :=
  let fd := d.openDev
  let calls := [.openDev (getOpenFlags usage) fd]
  let err := if fd < 0 then fd else 0
  let (err, calls) :=
    if err = 0 then (d.connectPmem, calls ++ [.connectPmem fd masterFd d.connectPmem])
    else (err, calls)
  if err = 0 then (d.mapPmem, calls ++ [.mapPmem fd offset size d.mapPmem]) else (err, calls)

/-- `alloc_pmem_buffer` after `init_pmem_area`; `out` is what the caller has in `*pBase`, `*pOffset`
and `*pFd`. -/
def allocRange (usage : SwUsage) (size : UInt32) (out : Area) :
    Int × Area × PmemUserspaceAllocator α × List DepsCall :=
  let base := s.masterBase
  let (offset, a) := A.allocate s.allocator size.toNat
  let s := { s with allocator := a }
  if offset < 0 then
    -- no more pmem memory
    (-ENOMEM, out, s, [])
  else
    let (err, calls) := subHeap d usage s.masterFd offset size
    if err < 0 then
      (-d.errno.val, out, { s with allocator := (A.deallocate a offset.toNat).2 },
        calls ++ [.close d.openDev])
    else
      (err, { base := base, offset := offset, fd := d.openDev }, s,
        calls ++ [.memset (base + UInt32.ofInt offset) size])

def allocPmemBuffer (usage : SwUsage) (size : UInt32) (out : Area) :
    Int × Area × PmemUserspaceAllocator α × List DepsCall :=
  let (err, s, calls) := initPmemArea A d s
  if err = 0 then
    let (err, out, s, more) := allocRange A d s usage size out
    (err, out, s, calls ++ more)
  else (err, out, s, calls)

/-- Once `init_pmem_area` has succeeded. -/
theorem allocPmemBuffer_eq {usage : SwUsage} {size : UInt32} {out : Area}
    (h : (initPmemArea A d s).1 = 0) : allocPmemBuffer A d s usage size out =
      ((allocRange A d (initPmemArea A d s).2.1 usage size out).1,
        (allocRange A d (initPmemArea A d s).2.1 usage size out).2.1,
        (allocRange A d (initPmemArea A d s).2.1 usage size out).2.2.1,
        (initPmemArea A d s).2.2 ++
          (allocRange A d (initPmemArea A d s).2.1 usage size out).2.2.2) := by
  unfold allocPmemBuffer
  dsimp only
  rw [if_pos h]

/-! ## `free_pmem_buffer` -/

def freePmemBuffer (unmapErr : Int) (size : UInt32) (offset fd : Int) :
    PmemUserspaceAllocator α × List DepsCall :=
  if 0 ≤ fd then
    let s :=
      if unmapErr = 0 then { s with allocator := (A.deallocate s.allocator offset.toNat).2 } else s
    (s, [.unmapPmem fd offset size unmapErr])
  else (s, [])

/-! ## The same without the calls -/

theorem initPmemAreaLocked_erase : (initPmemAreaLocked A d s).1 = (s.initPmemAreaLocked A d.toOs).1 ∧
    (initPmemAreaLocked A d s).2.1 = (s.initPmemAreaLocked A d.toOs).2.1 := by
  unfold initPmemAreaLocked PmemUserspaceAllocator.initPmemAreaLocked
  dsimp only
  by_cases hfd : 0 ≤ d.masterOpen
  · rw [if_pos hfd, if_pos hfd]
    rcases d.masterMmap with _ | base <;> exact ⟨rfl, rfl⟩
  · rw [if_neg hfd, if_neg hfd]
    exact ⟨rfl, rfl⟩

theorem initPmemArea_erase : (initPmemArea A d s).1 = (s.initPmemArea A d.toOs).1 ∧
    (initPmemArea A d s).2.1 = (s.initPmemArea A d.toOs).2.1 := by
  obtain ⟨herr, hs⟩ := initPmemAreaLocked_erase A d s
  unfold initPmemArea PmemUserspaceAllocator.initPmemArea
  dsimp only
  split
  · rw [herr, hs]
    split <;> exact ⟨rfl, rfl⟩
  · split <;> exact ⟨rfl, rfl⟩

theorem subHeap_err (usage : SwUsage) (masterFd offset : Int) (size : UInt32) :
    (subHeap d usage masterFd offset size).1 = PmemUserspaceAllocator.subHeap d.toOs := by
  unfold subHeap PmemUserspaceAllocator.subHeap
  dsimp only
  generalize (if d.openDev < 0 then d.openDev else 0) = err
  by_cases herr : err = 0
  · simp only [if_pos herr]
    split <;> rfl
  · simp only [if_neg herr]

theorem allocRange_erase (usage : SwUsage) (size : UInt32) :
    (allocRange A d s usage size {}).1 = (s.allocRange A d.toOs size).1 ∧
    (allocRange A d s usage size {}).2.1 = (s.allocRange A d.toOs size).2.1 ∧
    (allocRange A d s usage size {}).2.2.1 = (s.allocRange A d.toOs size).2.2 := by
  have herr := subHeap_err d usage s.masterFd (A.allocate s.allocator size.toNat).1 size
  unfold allocRange PmemUserspaceAllocator.allocRange
  dsimp only
  rw [herr]
  split
  · exact ⟨rfl, rfl, rfl⟩
  · split <;> exact ⟨rfl, rfl, rfl⟩

theorem allocPmemBuffer_erase (usage : SwUsage) (size : UInt32) :
    (allocPmemBuffer A d s usage size {}).1 = (s.allocPmemBuffer A d.toOs size).1 ∧
    (allocPmemBuffer A d s usage size {}).2.1 = (s.allocPmemBuffer A d.toOs size).2.1 ∧
    (allocPmemBuffer A d s usage size {}).2.2.1 = (s.allocPmemBuffer A d.toOs size).2.2.1 := by
  obtain ⟨herr, hs⟩ := initPmemArea_erase A d s
  obtain ⟨h₁, h₂, h₃⟩ := allocRange_erase A d (s.initPmemArea A d.toOs).2.1 usage size
  unfold allocPmemBuffer PmemUserspaceAllocator.allocPmemBuffer
  dsimp only
  rw [herr, hs]
  split
  · exact ⟨h₁, h₂, h₃⟩
  · exact ⟨rfl, rfl, rfl⟩

end

/-! ## Runs -/

/-- The allocator of the device. -/
abbrev Pmem := PmemUserspaceAllocator (Option SimpleBestFitAllocator)

/-- A call of a client. -/
inductive Op
  | init (d : Device)
  | alloc (d : Device) (usage : SwUsage) (size : UInt32) (out : Area)
  | free (unmapErr : Int) (size : UInt32) (offset fd : Int)

def start : Pmem := ⟨MASTER_FD_INIT, 0, some init⟩

/-- The allocator after one call. -/
def after (fatal : Bool) (s : Pmem) : Op → Pmem
  | .init d => (initPmemArea (pmemAllocMgr fatal) d s).2.1
  | .alloc d usage size out => (allocPmemBuffer (pmemAllocMgr fatal) d s usage size out).2.2.1
  | .free unmapErr size offset fd =>
    (freePmemBuffer (pmemAllocMgr fatal) s unmapErr size offset fd).1

/-- One call. `none`: the log ended the process. -/
def step (fatal : Bool) (s : Pmem) (op : Op) : Option Pmem :=
  let s := after fatal s op
  if s.allocator.isNone then none else some s

/-- A request of `size` bytes rounds up to units without a wrap. -/
def Rounds (size : UInt32) : Prop := size.toNat ≤ 2 ^ 32 - 32

instance : DecidablePred Rounds := fun _ => inferInstanceAs (Decidable (_ ≤ _))

/-- Every request of the call rounds up without a wrap. -/
def Op.Sized : Op → Prop
  | .alloc _ _ size _ => Rounds size
  | _ => True

/-- The sub-allocator has not been set up, or its chunks tile a heap of `masterSize` bytes. -/
def HeapOk (a : SimpleBestFitAllocator) : Prop :=
  a = init ∨ Tiled .arm a ∧ a.mHeapSize = PmemUserspaceAllocator.masterSize.toNat

/-- While the process runs, its heap is in order. -/
def Heap (s : Pmem) : Prop := ∀ a, s.allocator = some a → HeapOk a

theorem start_heap : Heap start := fun _ ha => .inl (Option.some.inj ha).symm

/-- A device on which every call succeeds. -/
def answers : Device where
  masterOpen := 3
  totalSize := 0
  masterMmap := some 0x40000000
  openDev := 4
  connectPmem := 0
  mapPmem := 0
  mmap := none
  ashmem := 0
  setProt := 0
  errno := .ioError
  masterMmap_ne := heap_ne_null
  mmap_ne := none_ne_null
  total := 0x800000

variable {fatal : Bool} {s : Pmem} {d : Device} {size : UInt32}

theorem HeapOk.setSize {a : SimpleBestFitAllocator} (h : HeapOk a) :
    HeapOk (setSize .arm a PmemUserspaceAllocator.masterSize.toNat).2 := by
  rcases h with rfl | ⟨ht, hh⟩
  · refine .inr ⟨tiled_setSize .arm _, ?_⟩
    exact setSize_pages .arm (by decide) (by decide)
  · rw [SimpleBestFitAllocator.setSize, if_pos (by rw [hh]; decide)]
    exact .inr ⟨ht, hh⟩

theorem HeapOk.allocate {a : SimpleBestFitAllocator} (h : HeapOk a) (hs : Rounds size) :
    HeapOk (allocate .arm a size.toNat).2 := by
  rcases h with rfl | ⟨ht, hh⟩
  · exact .inl rfl
  · refine .inr ⟨ht.allocate ?_, by rw [allocate_mHeapSize]; exact hh⟩
    by_cases h0 : size.toNat = 0
    · exact .inl h0
    · refine .inr ?_
      unfold Rounds at hs
      rw [Platform.word_of_lt (by unfold kMemoryAlign; omega)]
      simp only [kMemoryAlign]
      omega

theorem HeapOk.deallocate {a : SimpleBestFitAllocator} {offset : Nat}
    {r : Int × SimpleBestFitAllocator} (h : HeapOk a) (hr : deallocate fatal a offset = some r) :
    HeapOk r.2 := by
  rcases h with rfl | ⟨ht, hh⟩
  · cases hr
    exact .inl rfl
  · obtain ⟨ht', hh'⟩ := ht.deallocate hr
    exact .inr ⟨ht', hh'.trans hh⟩

namespace Heap

/-- Only the sub-allocator counts. -/
theorem congr {s' : Pmem} (h : Heap s) (he : s'.allocator = s.allocator) : Heap s' :=
  fun a ha => h a (he ▸ ha)

theorem setSize (fatal : Bool) (h : Heap s) : Heap { s with allocator :=
    ((pmemAllocMgr fatal).setSize s.allocator PmemUserspaceAllocator.masterSize.toNat).2 } := by
  intro a ha
  rcases hs : s.allocator with _ | b
  · simp [pmemAllocMgr, hs] at ha
  · simp only [pmemAllocMgr, hs, Option.some.injEq] at ha
    subst ha
    exact (h b hs).setSize

theorem allocate (fatal : Bool) (h : Heap s) (hs : Rounds size) : Heap { s with allocator :=
    ((pmemAllocMgr fatal).allocate s.allocator size.toNat).2 } := by
  intro a ha
  rcases hb : s.allocator with _ | b
  · simp [pmemAllocMgr, hb] at ha
  · simp only [pmemAllocMgr, hb, Option.some.injEq] at ha
    subst ha
    exact (h b hb).allocate hs

theorem deallocate (fatal : Bool) (h : Heap s) (offset : Nat) : Heap { s with allocator :=
    ((pmemAllocMgr fatal).deallocate s.allocator offset).2 } := by
  intro a ha
  rcases hb : s.allocator with _ | b
  · simp [pmemAllocMgr, hb] at ha
  · simp only [pmemAllocMgr, hb] at ha
    split at ha
    · cases ha
    · rename_i r a' hr
      cases ha
      exact (h b hb).deallocate hr

theorem initPmemAreaLocked (h : Heap s) :
    Heap (initPmemAreaLocked (pmemAllocMgr fatal) d s).2.1 := by
  unfold PmemDeps.initPmemAreaLocked
  dsimp only
  split
  · rcases d.masterMmap with _ | base
    · exact h.setSize fatal
    · exact (h.setSize fatal).congr rfl
  · exact h

theorem initPmemArea (h : Heap s) : Heap (initPmemArea (pmemAllocMgr fatal) d s).2.1 := by
  unfold PmemDeps.initPmemArea
  dsimp only
  split
  · split
    · exact h.initPmemAreaLocked.congr rfl
    · exact h.initPmemAreaLocked
  · split <;> exact h

theorem allocRange (h : Heap s) (usage : SwUsage) (out : Area) (hs : Rounds size) :
    Heap (allocRange (pmemAllocMgr fatal) d s usage size out).2.2.1 := by
  unfold PmemDeps.allocRange
  dsimp only
  split
  · exact h.allocate fatal hs
  · split
    · exact (h.allocate fatal hs).deallocate fatal _
    · exact h.allocate fatal hs

/-- Every call whose request rounds up without a wrap keeps the heap in order. -/
theorem step {op : Op} {s' : Pmem} (h : Heap s) (hop : op.Sized) (hs : step fatal s op = some s') :
    Heap s' := by
  have hafter : Heap (after fatal s op) := by
    cases op with
    | init d => exact h.initPmemArea
    | alloc d usage size out =>
      unfold after PmemDeps.allocPmemBuffer
      dsimp only
      split
      · exact h.initPmemArea.allocRange usage out hop
      · exact h.initPmemArea
    | free unmapErr size offset fd =>
      unfold after PmemDeps.freePmemBuffer
      dsimp only
      split
      · split
        · exact h.deallocate fatal _
        · exact h
      · exact h
  unfold PmemDeps.step at hs
  dsimp only at hs
  split at hs
  · cases hs
  · cases hs
    exact hafter

theorem run {ops : List Op} {s' : Pmem} (h : Heap s) (hops : ∀ op ∈ ops, op.Sized)
    (hs : Lib.run (PmemDeps.step fatal) s ops = some s') : Heap s' := by
  have hok : Lib.RunOk (PmemDeps.step fatal) (fun _ op => op.Sized) s ops :=
    Lib.runOk_of_mem (fun op hop _ => hops op hop) s
  exact Lib.run_invariant (fun _ _ _ hi hsized hst => hi.step hsized hst) h hok hs

end Heap

/-- The log does not end the process in `init_pmem_area`. -/
theorem allocator_initPmemArea (h : s.allocator ≠ none) :
    (initPmemArea (pmemAllocMgr fatal) d s).2.1.allocator ≠ none := by
  obtain ⟨a, ha⟩ := Option.ne_none_iff_exists'.mp h
  have hset : ((pmemAllocMgr fatal).setSize s.allocator PmemUserspaceAllocator.masterSize.toNat).2 ≠
      none := by
    rw [ha]
    exact Option.some_ne_none _
  have hlocked : (initPmemAreaLocked (pmemAllocMgr fatal) d s).2.1.allocator ≠ none := by
    unfold initPmemAreaLocked
    dsimp only
    split
    · rcases d.masterMmap with _ | base <;> exact hset
    · exact h
  unfold initPmemArea
  dsimp only
  split
  · split <;> exact hlocked
  · split <;> exact h

/-- The process runs on as long as its calls return. -/
theorem allocator_of_run {ops : List Op} {s' : Pmem} (h : s.allocator ≠ none)
    (hs : Lib.run (step fatal) s ops = some s') : s'.allocator ≠ none := by
  refine Lib.run_keeps (I := fun s : Pmem => s.allocator ≠ none) (fun t op t' _ hst => ?_) h hs
  unfold step at hst
  dsimp only at hst
  split at hst
  · cases hst
  · rename_i hnone
    cases hst
    simpa using hnone

end Twm.Gralloc.PmemDeps
