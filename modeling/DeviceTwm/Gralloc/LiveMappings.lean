import Mathlib.Logic.Function.Basic
import DeviceTwm.Gralloc.KernelAllocator
import DeviceTwm.Gralloc.LockCalls
import DeviceTwm.Gralloc.Mappings
import DeviceTwm.Gralloc.PmemDeps
import DeviceTwm.Lib.Align
import DeviceTwm.Lib.Ranges

/-!
# The mappings behind `LOCK_STATE_MAPPED`

A process allocates and frees buffers, receives buffers of other processes, and locks, unlocks,
registers and unregisters both kinds. `Process` keeps its mappings beside its handles, each with what
it was made for: the pmem heap, or one buffer.

* `MeansMapped`: what `LOCK_STATE_MAPPED` and the address that a lock returns mean.
* `allocOk`: an allocation that does not fall back from the pmem heap to ashmem leaves a buffer that is
  mapped.

`Gralloc/MappedLocks.lean` has what the other calls keep of this, over whole runs.
-/

namespace Twm.Gralloc.LiveMappings

open Mapper Lib

/-- What a mapping was made for. -/
inductive Source
  | heap
  /-- The buffer with this key. -/
  | buffer (k : Nat)
  deriving DecidableEq

/-- The mappings that are left after a call; `src` is what the call was made for. -/
def afterCall (src : Source) (maps : List (Range Source)) : Call → List (Range Source)
  | .mmap base size => ⟨src, base.toNat, size.toNat⟩ :: maps
  | .munmap base size => vacate maps base.toNat size.toNat

def afterCalls (src : Source) (maps : List (Range Source)) (calls : List Call) : List (Range Source) :=
  calls.foldl (afterCall src) maps

/-- What `mmap` may answer. -/
def Granted (maps : List (Range Source)) : Call → Prop
  | .mmap base size => Grantable (2 ^ 32) maps base.toNat size.toNat
  | .munmap _ _ => True

instance (maps : List (Range Source)) : DecidablePred (Granted maps)
  | .mmap base size => inferInstanceAs (Decidable (Grantable (2 ^ 32) maps base.toNat size.toNat))
  | .munmap _ _ => inferInstanceAs (Decidable True)

/-- A process: its gralloc module, its mappings, and its handles by a key. -/
structure Process where
  module : Module (Option SimpleBestFitAllocator)
  maps : List (Range Source)
  handle : Nat → Option PrivateHandle

/-- Before the first allocation. -/
def start : Process where
  module :=
    { pmem := PmemDeps.start, framebuffer := none, fbFd := -1, numBuffers := 0, bufferMask := 0
      lineLength := 0, yres := 0 }
  maps := []
  handle := fun _ => none

inductive Op
  /-- `gralloc_alloc_buffer`; the handle gets the key `k`. -/
  | alloc (k : Nat) (size : UInt32) (u : AllocUsage) (os : GpuOs)
  | free (k : Nat) (unmapErr : Int)
  /-- A handle of another process comes in, and is registered. -/
  | receive (k : Nat) (hnd : PrivateHandle)
  | lock (k tid : Nat) (u : Usage) (os : Os)
  | unlock (k tid : Nat)
  | register (k : Nat)
  | unregister (k : Nat)

section

variable (B : Build) (fatal : Bool)

/-- What the mappings of an allocation are made for. -/
def allocSource (k : Nat) (u : AllocUsage) : Source :=
  if (pmemFlags B u).usesPmem then .heap else .buffer k

/-- A call on the handle with key `k`. -/
def Process.returned (p : Process) (k : Nat) (r : Returned) : Process :=
  { p with
    maps := afterCalls (.buffer k) p.maps r.calls
    handle := Function.update p.handle k (some r.handle) }

/-- One call. `none`: there is no such handle, or the log ended the process. -/
def step (p : Process) : Op → Option Process
  | .alloc k size u os =>
    if (p.handle k).isSome then none
    else
      let r := grallocAllocBuffer (pmemAllocMgr fatal) B os p.module size u
      if r.module.pmem.allocator.isNone then none
      else
        some { module := r.module, maps := afterCalls (allocSource B k u) p.maps r.calls
               handle := Function.update p.handle k r.handle }
  | .free k unmapErr =>
    match p.handle k with
    | none => none
    | some hnd =>
      if hnd.pid ≠ B.pid then none
      else
        let (m, calls) := freeImpl (pmemAllocMgr fatal) B p.module unmapErr hnd
        if m.pmem.allocator.isNone then none
        else
          some { module := m, maps := afterCalls (.buffer k) p.maps calls
                 handle := Function.update p.handle k none }
  | .receive k hnd =>
    if (p.handle k).isSome ∨ hnd.pid = B.pid then none
    else some (p.returned k (grallocRegisterBuffer B true hnd))
  | .lock k tid u os => (p.handle k).map fun hnd => p.returned k (grallocLock os true tid u hnd)
  | .unlock k tid => (p.handle k).map fun hnd => p.returned k (grallocUnlock true tid hnd)
  | .register k => (p.handle k).map fun hnd => p.returned k (grallocRegisterBuffer B true hnd)
  | .unregister k => (p.handle k).map fun hnd => p.returned k (grallocUnregisterBuffer B true hnd)

/-- The kernel maps no empty range, and none where something is mapped. `alloc_impl` refuses sizes of
no pages, and a handle that comes in was allocated by such a call elsewhere. -/
def Allowed (p : Process) : Op → Prop
  | .alloc _ size u os => roundUpToPageSize size ≠ 0 ∧
    ∀ c ∈ (grallocAllocBuffer (pmemAllocMgr fatal) B os p.module size u).calls, Granted p.maps c
  | .receive _ hnd => hnd.flags.framebuffer = false ∧ 0 ≤ hnd.offset ∧ 0 < hnd.size.toNat ∧
    hnd.offset + hnd.size.toNat < 2 ^ 32
  | .lock k tid u os => ∀ hnd ∈ p.handle k,
    ∀ c ∈ (grallocLock os true tid u hnd).calls, Granted p.maps c
  | _ => True

/-- No allocation falls back to ashmem, and no lock of a received buffer spills over from the count
into `LOCK_STATE_MAPPED`. -/
def Safe (p : Process) : Op → Prop
  | .alloc _ size u os => ¬ ((pmemFlags B u).usesPmem = true ∧
    FallsBack (pmemAllocMgr fatal) os p.module size u)
  | .lock k _ _ _ => ∀ hnd ∈ p.handle k, hnd.pid ≠ B.pid → readCount hnd.lockState + 1 < 2 ^ 30
  | _ => True

instance (A : SubAllocator (Option SimpleBestFitAllocator)) (os : GpuOs)
    (m : Module (Option SimpleBestFitAllocator)) (size : UInt32) (u : AllocUsage) :
    Decidable (FallsBack A os m size u) := inferInstanceAs (Decidable (_ ∧ _))

instance (p : Process) : DecidablePred (Allowed B fatal p)
  | .alloc _ size u os => inferInstanceAs (Decidable (_ ∧
    ∀ c ∈ (grallocAllocBuffer (pmemAllocMgr fatal) B os p.module size u).calls, Granted p.maps c))
  | .receive _ _ => inferInstanceAs (Decidable (_ ∧ _))
  | .lock k tid u os => inferInstanceAs (Decidable (∀ hnd ∈ p.handle k,
    ∀ c ∈ (grallocLock os true tid u hnd).calls, Granted p.maps c))
  | .free _ _ | .unlock _ _ | .register _ | .unregister _ => inferInstanceAs (Decidable True)

instance (p : Process) : DecidablePred (Safe B fatal p)
  | .alloc _ _ _ _ => inferInstanceAs (Decidable (¬ (_ ∧ _)))
  | .lock k _ _ _ => inferInstanceAs (Decidable (∀ hnd ∈ p.handle k,
    hnd.pid ≠ B.pid → readCount hnd.lockState + 1 < 2 ^ 30))
  | .free _ _ | .receive _ _ | .unlock _ _ | .register _ | .unregister _ =>
    inferInstanceAs (Decidable True)

/-- What the mapping of a buffer was made for: a buffer of the pmem heap has none of its own in the
process that allocated it. -/
def source (k : Nat) (hnd : PrivateHandle) : Source :=
  if hnd.flags.usesPmem = true ∧ hnd.pid = B.pid then .heap else .buffer k

/-- At `addr` starts the whole buffer, in a live mapping that was made for it. -/
def MappedAt (maps : List (Range Source)) (k : Nat) (hnd : PrivateHandle) (addr : UInt32) : Prop :=
  ∃ x ∈ maps, x.owner = source B k hnd ∧ 0 ≤ hnd.offset ∧
    (addr.toNat : Int) = x.start + hnd.offset ∧ hnd.offset + hnd.size.toNat ≤ x.size

/-- A new handle is marked as mapped just when it is; a lock for the CPU that succeeds returns where
the buffer is mapped. -/
def MeansMapped (p : Process) (op : Op) : Prop :=
  ∀ p', step B fatal p op = some p' →
    match op with
    | .alloc k _ _ _ => ∀ hnd ∈ p'.handle k,
      (isMapped hnd.lockState = true ↔ MappedAt B p'.maps k hnd hnd.base)
    | .lock k tid u os => ∀ hnd ∈ p.handle k,
      let r := grallocLock os true tid u hnd
      r.err = 0 → (u.swRead || u.swWrite) = true →
        ∃ addr, r.vaddr = some addr ∧ addr ≠ 0 ∧ MappedAt B p'.maps k r.handle addr
    | _ => True

end

/-! ## The pmem heap -/

section

variable {α : Type} (A : SubAllocator α) (os : GpuOs) (s : PmemUserspaceAllocator α)

/-- The mapping that `init_pmem_area` made. -/
def heapRange : Range Source :=
  ⟨.heap, s.masterBase.toNat, PmemUserspaceAllocator.masterSize.toNat⟩

/-- While the heap can be used, it is mapped. -/
def MasterMapped (maps : List (Range Source)) : Prop := 0 ≤ s.masterFd → heapRange s ∈ maps

variable {s} {maps : List (Range Source)}

/-- Also when `init_pmem_area` fails, `master_fd` is a descriptor only if the heap is mapped. -/
theorem MasterMapped.initPmemArea (h : MasterMapped s maps) :
    MasterMapped (s.initPmemArea A os.toOs).2.1
      (afterCalls .heap maps (s.initPmemArea A os.toOs).2.2) := by
  have hpos := os.errno.pos
  unfold PmemUserspaceAllocator.initPmemArea
  split
  · -- Only the call that mapped the heap leaves a descriptor.
    unfold PmemUserspaceAllocator.initPmemAreaLocked
    by_cases hopen : 0 ≤ os.masterOpen
    · rw [if_pos hopen]
      cases hmap : os.masterMmap with
      | none =>
        intro hfd
        simp only [show -os.errno.val ≠ 0 by omega, ne_eq, not_false_eq_true, if_true] at hfd
        omega
      | some base =>
        dsimp only
        split <;> exact fun _ => List.mem_cons_self
    · rw [if_neg hopen]
      intro hfd
      simp only [show -os.errno.val ≠ 0 by omega, ne_eq, not_false_eq_true, if_true] at hfd
      omega
  · split <;> exact h

theorem initPmemArea_ok (h : (s.initPmemArea A os.toOs).1 = 0) :
    0 ≤ (s.initPmemArea A os.toOs).2.1.masterFd := by
  have hpos := os.errno.pos
  have herrno : -os.errno.val ≠ 0 := by omega
  unfold PmemUserspaceAllocator.initPmemArea at h ⊢
  by_cases hfd : s.masterFd = MASTER_FD_INIT
  · simp only [if_pos hfd] at h ⊢
    unfold PmemUserspaceAllocator.initPmemAreaLocked at h ⊢
    by_cases hopen : 0 ≤ os.masterOpen
    · cases hmap : os.masterMmap with
      | none => simp [hopen, hmap, herrno] at h
      | some base =>
        by_cases htotal : os.totalSize = 0
        · simp [hopen, htotal]
        · simp [hopen, hmap, htotal] at h
    · simp [hopen, herrno] at h
  · simp only [if_neg hfd] at h ⊢
    by_cases hneg : s.masterFd < 0
    · simp only [if_pos hneg] at h
      omega
    · simp only [if_neg hneg]
      omega

/-- What a successful allocation from the heap is. -/
theorem allocPmemBuffer_ok (size : UInt32) (h : (s.allocPmemBuffer A os.toOs size).1 = 0) :
    ∃ a, (s.initPmemArea A os.toOs).1 = 0 ∧ a = (s.initPmemArea A os.toOs).2.1.allocator ∧
      0 ≤ (A.allocate a size.toNat).1 ∧
      (s.allocPmemBuffer A os.toOs size).2.1 =
        { base := (s.initPmemArea A os.toOs).2.1.masterBase, offset := (A.allocate a size.toNat).1,
          fd := os.openDev } ∧
      (s.allocPmemBuffer A os.toOs size).2.2.1 =
        { (s.initPmemArea A os.toOs).2.1 with allocator := (A.allocate a size.toNat).2 } := by
  have hpos := os.errno.pos
  unfold PmemUserspaceAllocator.allocPmemBuffer at h ⊢
  dsimp only at h ⊢
  by_cases herr : (s.initPmemArea A os.toOs).1 = 0
  · rw [if_pos herr] at h ⊢
    unfold PmemUserspaceAllocator.allocRange at h ⊢
    dsimp only at h ⊢
    refine ⟨_, herr, rfl, ?_⟩
    by_cases hoff : (A.allocate (s.initPmemArea A os.toOs).2.1.allocator size.toNat).1 < 0
    · rw [if_pos hoff] at h
      exact absurd h (show ¬ (-ENOMEM : Int) = 0 by decide)
    · rw [if_neg hoff] at h ⊢
      by_cases hsub : PmemUserspaceAllocator.subHeap os.toOs < 0
      · rw [if_pos hsub] at h
        simp only at h
        omega
      · rw [if_neg hsub]
        exact ⟨Int.not_lt.mp hoff, rfl, rfl⟩
  · rw [if_neg herr] at h
    exact absurd h herr

/-- The heap is where it was. -/
theorem allocPmemBuffer_master (size : UInt32) :
    (s.allocPmemBuffer A os.toOs size).2.2.1.masterFd = (s.initPmemArea A os.toOs).2.1.masterFd ∧
    (s.allocPmemBuffer A os.toOs size).2.2.1.masterBase =
      (s.initPmemArea A os.toOs).2.1.masterBase := by
  unfold PmemUserspaceAllocator.allocPmemBuffer
  dsimp only
  split
  · unfold PmemUserspaceAllocator.allocRange
    dsimp only
    split
    · exact ⟨rfl, rfl⟩
    · split <;> exact ⟨rfl, rfl⟩
  · exact ⟨rfl, rfl⟩

end

section

variable {fatal : Bool} {s : PmemDeps.Pmem} {size : UInt32}

/-- The heap stays in order (`PmemDeps.Heap`). -/
theorem heap_initPmemArea (fatal : Bool) (os : GpuOs) (h : PmemDeps.Heap s) :
    PmemDeps.Heap (s.initPmemArea (pmemAllocMgr fatal) os.toOs).2.1 := by
  have herase := PmemDeps.initPmemArea_erase (pmemAllocMgr fatal) { os.toOs with total := 0 } s
  rw [← herase.2]
  exact h.initPmemArea

theorem heap_allocPmemBuffer (fatal : Bool) (os : GpuOs) (h : PmemDeps.Heap s) (hs : PmemDeps.Rounds size) :
    PmemDeps.Heap (s.allocPmemBuffer (pmemAllocMgr fatal) os.toOs size).2.2.1 := by
  have herase := PmemDeps.allocPmemBuffer_erase (pmemAllocMgr fatal) { os.toOs with total := 0 } s
    {} size
  rw [← herase.2.2]
  unfold PmemDeps.allocPmemBuffer
  dsimp only
  split
  · exact h.initPmemArea.allocRange {} {} hs
  · exact h.initPmemArea

/-- What the allocator of the device hands out is inside the heap. -/
theorem allocate_inside {a : Option SimpleBestFitAllocator} (h : ∀ b, a = some b → PmemDeps.HeapOk b)
    (h1 : 1 ≤ size.toNat) (hs : PmemDeps.Rounds size)
    (hoff : 0 ≤ ((pmemAllocMgr fatal).allocate a size.toNat).1)
    (hsome : ((pmemAllocMgr fatal).allocate a size.toNat).2 ≠ none) :
    ((pmemAllocMgr fatal).allocate a size.toNat).1.toNat + size.toNat ≤
      PmemUserspaceAllocator.masterSize.toNat := by
  cases a with
  | none => exact absurd rfl hsome
  | some b =>
    rcases h b rfl with rfl | ⟨ht, hsize⟩
    · exact absurd hoff (by simp [pmemAllocMgr, SimpleBestFitAllocator.allocate,
        SimpleBestFitAllocator.init, EINVAL])
    · rw [← hsize]
      unfold PmemDeps.Rounds at hs
      exact (ht.reserved h1 (by omega) hoff).2

end

/-! ## Sizes -/

theorem rounds_page (size : UInt32) : PmemDeps.Rounds (roundUpToPageSize size) := by
  have hle : (roundUpToPageSize size).toNat ≤ 2 ^ 32 - 4096 := by
    unfold roundUpToPageSize
    rw [UInt32.toNat_and]
    exact Nat.and_le_right
  unfold PmemDeps.Rounds
  omega

/-! ## What a handle needs of the mappings -/

/-- A handle of this process stays mapped; a received one is mapped while it is marked so. -/
structure HandleOk (B : Build) (maps : List (Range Source)) (k : Nat) (hnd : PrivateHandle) : Prop where
  plain : hnd.flags.framebuffer = false
  /-- Only the spill of the last lock count takes the mark away, and leaves a write lock that no
  call removes. -/
  own : hnd.pid = B.pid → isMapped hnd.lockState = true ∨ hnd.lockState = LOCK_STATE_WRITE
  mapped : hnd.pid = B.pid ∨ isMapped hnd.lockState = true → MappedAt B maps k hnd hnd.base
  received : hnd.pid ≠ B.pid →
    0 ≤ hnd.offset ∧ 0 < hnd.size.toNat ∧ hnd.offset + hnd.size.toNat < 2 ^ 32
  /-- `free_pmem_buffer` of the ADSP unmaps no more than was mapped. -/
  adsp : hnd.pid = B.pid → hnd.flags.usesPmem = false → hnd.flags.usesPmemAdsp = true →
    ∃ x ∈ maps, x.owner = .buffer k ∧ x.start = hnd.base.toNat ∧ (clp2 hnd.size).toNat ≤ x.size

section

variable {B : Build} {maps maps' : List (Range Source)} {k : Nat} {hnd hnd' : PrivateHandle}
  {addr : UInt32}

/-- Only the mappings that were made for the buffer count. -/
theorem MappedAt.mono (h : MappedAt B maps k hnd addr)
    (hm : ∀ x ∈ maps, x.owner = source B k hnd → x ∈ maps') : MappedAt B maps' k hnd addr := by
  obtain ⟨x, hx, howner, hrest⟩ := h
  exact ⟨x, hm x hx howner, howner, hrest⟩

theorem HandleOk.mono (h : HandleOk B maps k hnd)
    (hm : ∀ x ∈ maps, x.owner = source B k hnd → x ∈ maps') : HandleOk B maps' k hnd where
  plain := h.plain
  own := h.own
  mapped := fun hown => (h.mapped hown).mono hm
  received := h.received
  adsp := by
    intro hown hp ha
    obtain ⟨x, hx, howner, hrest⟩ := h.adsp hown hp ha
    refine ⟨x, hm x hx ?_, howner, hrest⟩
    rw [howner, source, if_neg (by simp [hp])]

/-- A buffer is not mapped at the null address. -/
theorem MappedAt.ne_zero (h : MappedAt B maps k hnd addr) (hr : Ranges (2 ^ 32) maps) : addr ≠ 0 := by
  obtain ⟨x, hx, -, hoff, haddr, -⟩ := h
  have hpos := (hr.bounds x hx).1
  rintro rfl
  simp only [UInt32.toNat_zero, Int.natCast_zero] at haddr
  omega

end

/-! ## An allocation -/

section

variable {B : Build} {fatal : Bool} {os : GpuOs} {m : Module (Option SimpleBestFitAllocator)}
  {maps : List (Range Source)} {k : Nat} {size : UInt32} {u : AllocUsage}

/-- At most one mapping is made. -/
def OneMapping (calls : List Call) : Prop := calls = [] ∨ ∃ base n, calls = [.mmap base n]

namespace OneMapping

variable {calls : List Call} {src : Source}

theorem ranges (h : OneMapping calls) (hr : Ranges (2 ^ 32) maps)
    (hgranted : ∀ c ∈ calls, Granted maps c) : Ranges (2 ^ 32) (afterCalls src maps calls) := by
  rcases h with rfl | ⟨base, n, rfl⟩
  · exact hr
  · exact hr.reserve (hgranted _ List.mem_cons_self) src

theorem mem (h : OneMapping calls) {x : Range Source} (hx : x ∈ maps) :
    x ∈ afterCalls src maps calls := by
  rcases h with rfl | ⟨base, n, rfl⟩
  · exact hx
  · exact List.mem_cons_of_mem _ hx

end OneMapping

/-- What an allocation leaves. -/
structure AllocOk (B : Build) (maps : List (Range Source)) (k : Nat) (src : Source)
    (r : Allocated (Option SimpleBestFitAllocator)) : Prop where
  few : OneMapping r.calls
  heap : PmemDeps.Heap r.module.pmem
  master : MasterMapped r.module.pmem (afterCalls src maps r.calls)
  handle : ∀ hnd, r.handle = some hnd →
    isMapped hnd.lockState = true ∧ HandleOk B (afterCalls src maps r.calls) k hnd

theorem allocOk_newHandle {src : Source} {err : Int} {area : Area} {flags : Flags}
    {lockState : UInt32} {calls : List Call} (hfew : OneMapping calls)
    (hheap : PmemDeps.Heap m.pmem) (hmaster : MasterMapped m.pmem (afterCalls src maps calls))
    (hhandle : err = 0 → isMapped lockState = true ∧ HandleOk B (afterCalls src maps calls) k
      (PrivateHandle.ofArea B size area flags lockState)) :
    AllocOk B maps k src (newHandle B size err area flags lockState m calls) := by
  unfold newHandle
  by_cases herr : err = 0
  · rw [if_pos herr]
    refine ⟨hfew, hheap, hmaster, ?_⟩
    rintro hnd ⟨rfl⟩
    exact hhandle herr
  · rw [if_neg herr]
    exact ⟨hfew, hheap, hmaster, fun hnd h => absurd h (by simp)⟩

/-- The handle of a buffer that was allocated at `offset` of a mapping. -/
theorem handleOk_ofArea {x : Range Source} {area : Area} {flags : Flags} (hr : Ranges (2 ^ 32) maps)
    (hx : x ∈ maps) (howner : x.owner = if flags.usesPmem then .heap else .buffer k)
    (hbase : x.start = area.base.toNat) (hoff : 0 ≤ area.offset) (hpos : 0 < size.toNat)
    (hin : area.offset + size.toNat ≤ x.size) (hfb : flags.framebuffer = false)
    (hadsp : flags.usesPmem = false → flags.usesPmemAdsp = true →
      area.offset = 0 ∧ (clp2 size).toNat ≤ x.size) :
    HandleOk B maps k (PrivateHandle.ofArea B size area flags LOCK_STATE_MAPPED) := by
  have hbound := (hr.bounds x hx).2.2
  have haddr : ((area.base + UInt32.ofInt area.offset).toNat : Int) = x.start + area.offset := by
    have hoffset := toNat_ofInt area.offset
    rw [Int.emod_eq_of_lt hoff (by omega)] at hoffset
    rw [UInt32.toNat_add, ← hbase]
    omega
  refine ⟨hfb, fun _ => .inl (show isMapped LOCK_STATE_MAPPED = true by decide),
    fun _ => ⟨x, hx, ?_, hoff, haddr, hin⟩, fun hne => absurd rfl hne,
    fun _ hp ha => ⟨x, hx, ?_, ?_, (hadsp hp ha).2⟩⟩
  · rw [howner]
    unfold source PrivateHandle.ofArea
    simp
  · rw [howner, if_neg (by simpa [PrivateHandle.ofArea] using hp)]
  · have hzero := (hadsp hp ha).1
    have hb : (PrivateHandle.ofArea B size area flags LOCK_STATE_MAPPED).base =
        area.base + UInt32.ofInt area.offset := rfl
    rw [hb]
    omega

theorem initPmemArea_calls {α : Type} (A : SubAllocator α) (os : GpuOs)
    (s : PmemUserspaceAllocator α) : OneMapping (s.initPmemArea A os.toOs).2.2 := by
  by_cases h : MapsHeap os.toOs s
  · obtain ⟨base, -, hcalls⟩ := initPmemArea_calls_of_mapsHeap A os h
    exact .inr ⟨base, _, hcalls⟩
  · exact .inl (initPmemArea_calls_of_not A os h)

theorem page_pos (hsize : roundUpToPageSize size ≠ 0) : 0 < (roundUpToPageSize size).toNat := by
  rw [Nat.pos_iff_ne_zero]
  intro h
  exact hsize (UInt32.toNat_inj.mp h)

theorem newHandle_kept {err : Int} {area : Area} {flags : Flags} {lockState : UInt32}
    {calls : List Call} : (newHandle B size err area flags lockState m calls).calls = calls ∧
      (newHandle B size err area flags lockState m calls).module = m := by
  unfold newHandle
  split <;> exact ⟨rfl, rfl⟩

/-- A buffer of the pmem heap is in the mapping of the heap. -/
theorem allocOk_pmem (hp : (pmemFlags B u).usesPmem = true) (hheap : PmemDeps.Heap m.pmem)
    (hmaster : MasterMapped m.pmem maps) (hr : Ranges (2 ^ 32) maps)
    (hsize : roundUpToPageSize size ≠ 0)
    (hgranted : ∀ c ∈ (grallocAllocBuffer (pmemAllocMgr fatal) B os m size u).calls, Granted maps c)
    (hsafe : ¬ FallsBack (pmemAllocMgr fatal) os m size u)
    (hsome : (grallocAllocBuffer (pmemAllocMgr fatal) B os m size u).module.pmem.allocator ≠ none) :
    AllocOk B maps k .heap (grallocAllocBuffer (pmemAllocMgr fatal) B os m size u) := by
  have hcalls := allocPmemBuffer_calls (pmemAllocMgr fatal) os m.pmem (roundUpToPageSize size)
  have hfew := initPmemArea_calls (pmemAllocMgr fatal) os m.pmem
  have hmaster' := hmaster.initPmemArea (pmemAllocMgr fatal) os
  have hinit := heap_initPmemArea fatal os hheap
  have hheap' := heap_allocPmemBuffer fatal os hheap (rounds_page size)
  have hkept := allocPmemBuffer_master (pmemAllocMgr fatal) os (s := m.pmem) (roundUpToPageSize size)
  have hok := allocPmemBuffer_ok (pmemAllocMgr fatal) os (s := m.pmem) (roundUpToPageSize size)
  unfold FallsBack at hsafe
  rcases hres : m.pmem.allocPmemBuffer (pmemAllocMgr fatal) os.toOs (roundUpToPageSize size) with
    ⟨err, area, pmem, calls⟩
  have heq := grallocAllocBuffer_pmem (pmemAllocMgr fatal) B os m size u hp hres
  rw [hres] at hcalls hheap' hkept hok hsafe
  simp only at hcalls hheap' hkept hok hsafe
  rw [← hcalls] at hfew hmaster'
  have hm : MasterMapped pmem (afterCalls .heap maps calls) := by
    intro hfd
    have hrange : heapRange pmem = heapRange (m.pmem.initPmemArea (pmemAllocMgr fatal) os.toOs).2.1 := by
      unfold heapRange
      rw [hkept.2]
    rw [hrange]
    exact hmaster' (by rw [← hkept.1]; exact hfd)
  rw [heq] at hgranted hsome ⊢
  by_cases hfall : err < 0 ∧ u.hwMask = false
  · -- Ashmem is tried, and fails too.
    have hneg : os.ashmem < 0 := by
      by_contra h
      exact hsafe ⟨hfall.1, hfall.2, Int.not_lt.mp h⟩
    have hpos := os.errno.pos
    rw [if_pos hfall, tryAshmem, if_pos hneg] at *
    exact allocOk_newHandle hfew hheap' hm fun herr => by omega
  · rw [if_neg hfall] at *
    rw [newHandle_kept.1] at hgranted
    rw [newHandle_kept.2] at hsome
    refine allocOk_newHandle hfew hheap' hm fun herr => ⟨by decide, ?_⟩
    obtain ⟨a, hinit0, ha, hoff, rfl, rfl⟩ := hok herr
    have hx := hmaster' (initPmemArea_ok _ _ hinit0)
    have hinside := allocate_inside (fun b hb => hinit b (ha ▸ hb)) (page_pos hsize)
      (rounds_page size) hoff hsome
    refine handleOk_ofArea (hfew.ranges hr hgranted) hx (by rw [if_pos hp]; rfl) rfl hoff
      (page_pos hsize) ?_ rfl fun hno => absurd hp (by simp [hno])
    simp only [heapRange]
    omega

/-- A buffer with a mapping of its own: what `mmap` answered is where it is. -/
theorem allocOk_own {n : UInt32} {base : UInt32} {fd : Int} {flags : Flags}
    (hheap : PmemDeps.Heap m.pmem) (hmaster : MasterMapped m.pmem maps) (hr : Ranges (2 ^ 32) maps)
    (hsize : size ≠ 0) (hgranted : Granted maps (.mmap base n)) (hle : size.toNat ≤ n.toNat)
    (hp : flags.usesPmem = false) (hfb : flags.framebuffer = false)
    (hadsp : flags.usesPmemAdsp = true → n = clp2 size) :
    AllocOk B maps k (.buffer k)
      (newHandle B size 0 { base := base, offset := 0, fd := fd } flags LOCK_STATE_MAPPED m
        [.mmap base n]) := by
  have hpos : 0 < size.toNat := by
    rw [Nat.pos_iff_ne_zero]
    intro h
    exact hsize (UInt32.toNat_inj.mp h)
  refine allocOk_newHandle (.inr ⟨base, n, rfl⟩) hheap (fun hfd => List.mem_cons_of_mem _ (hmaster hfd))
    fun _ => ⟨by decide, ?_⟩
  refine handleOk_ofArea (hr.reserve hgranted (.buffer k)) List.mem_cons_self (by rw [hp]; rfl) rfl
    (Int.le_refl 0) hpos ?_ hfb fun _ ha => ⟨rfl, ?_⟩
  · simp only
    omega
  · rw [hadsp ha]

theorem allocOk_failed {src : Source} {err : Int} {area : Area} {flags : Flags} {lockState : UInt32}
    (hheap : PmemDeps.Heap m.pmem) (hmaster : MasterMapped m.pmem maps) (herr : err ≠ 0) :
    AllocOk B maps k src (newHandle B size err area flags lockState m []) :=
  allocOk_newHandle (.inl rfl) hheap hmaster fun h => absurd h herr

theorem allocOk_adsp (ha : u.pmemAdsp = true) (hheap : PmemDeps.Heap m.pmem)
    (hmaster : MasterMapped m.pmem maps) (hr : Ranges (2 ^ 32) maps)
    (hsize : roundUpToPageSize size ≠ 0)
    (hgranted : ∀ c ∈ (grallocAllocBuffer (pmemAllocMgr fatal) B os m size u).calls, Granted maps c) :
    AllocOk B maps k (.buffer k) (grallocAllocBuffer (pmemAllocMgr fatal) B os m size u) := by
  have hpos := os.errno.pos
  have herr : -os.errno.val ≠ 0 := by omega
  rw [grallocAllocBuffer_adsp _ _ _ _ _ _ ha] at hgranted ⊢
  unfold PmemKernelAllocator.allocPmemBuffer at hgranted ⊢
  by_cases hopen : os.openDev < 0
  · simp only [if_pos hopen]
    exact allocOk_failed hheap hmaster herr
  · simp only [if_neg hopen] at hgranted ⊢
    cases hmap : os.mmap with
    | none => exact allocOk_failed hheap hmaster herr
    | some base =>
      simp only [hmap, newHandle_kept.1] at hgranted
      have hg := hgranted _ List.mem_cons_self
      have hclp : clp2 (roundUpToPageSize size) ≠ 0 := by
        intro hzero
        have hn := hg.2.1
        rw [hzero] at hn
        exact absurd hn (by decide)
      exact allocOk_own hheap hmaster hr hsize hg (le_clp2 hclp) (usesPmem_of_pmemAdsp ha) rfl
        fun _ => rfl

theorem allocOk_ashmem (hp : (pmemFlags B u).usesPmem = false) (ha : u.pmemAdsp = false)
    (hheap : PmemDeps.Heap m.pmem) (hmaster : MasterMapped m.pmem maps) (hr : Ranges (2 ^ 32) maps)
    (hsize : roundUpToPageSize size ≠ 0)
    (hgranted : ∀ c ∈ (grallocAllocBuffer (pmemAllocMgr fatal) B os m size u).calls, Granted maps c) :
    AllocOk B maps k (.buffer k) (grallocAllocBuffer (pmemAllocMgr fatal) B os m size u) := by
  have hpos := os.errno.pos
  have herr : -os.errno.val ≠ 0 := by omega
  have hp' : ¬ (pmemFlags B u).usesPmem = true := by simp [hp]
  have ha' : ¬ (pmemFlags B u).usesPmemAdsp = true := by simp [pmemFlags, ha]
  unfold grallocAllocBuffer allocAshmemBuffer at hgranted ⊢
  simp only [if_neg hp', if_neg ha'] at hgranted ⊢
  by_cases hfd : os.ashmem < 0
  · simp only [if_pos hfd]
    exact allocOk_failed hheap hmaster herr
  simp only [if_neg hfd] at hgranted ⊢
  by_cases hprot : os.setProt < 0
  · simp only [if_pos hprot]
    exact allocOk_failed hheap hmaster herr
  simp only [if_neg hprot] at hgranted ⊢
  cases hmap : os.mmap with
  | none => exact allocOk_failed hheap hmaster herr
  | some base =>
    simp only [hmap, newHandle_kept.1] at hgranted
    exact allocOk_own hheap hmaster hr hsize (hgranted _ List.mem_cons_self) (Nat.le_refl _) hp rfl
      fun h => absurd h ha'

theorem allocOk (hheap : PmemDeps.Heap m.pmem) (hmaster : MasterMapped m.pmem maps)
    (hr : Ranges (2 ^ 32) maps) (hsize : roundUpToPageSize size ≠ 0)
    (hgranted : ∀ c ∈ (grallocAllocBuffer (pmemAllocMgr fatal) B os m size u).calls, Granted maps c)
    (hsafe : ¬ ((pmemFlags B u).usesPmem = true ∧ FallsBack (pmemAllocMgr fatal) os m size u))
    (hsome : (grallocAllocBuffer (pmemAllocMgr fatal) B os m size u).module.pmem.allocator ≠ none) :
    AllocOk B maps k (allocSource B k u) (grallocAllocBuffer (pmemAllocMgr fatal) B os m size u) := by
  unfold allocSource
  by_cases hp : (pmemFlags B u).usesPmem = true
  · rw [if_pos hp]
    exact allocOk_pmem hp hheap hmaster hr hsize hgranted (fun h => hsafe ⟨hp, h⟩) hsome
  · rw [if_neg hp]
    rw [Bool.not_eq_true] at hp
    by_cases ha : u.pmemAdsp = true
    · exact allocOk_adsp ha hheap hmaster hr hsize hgranted
    · rw [Bool.not_eq_true] at ha
      exact allocOk_ashmem hp ha hheap hmaster hr hsize hgranted

end

end Twm.Gralloc.LiveMappings
