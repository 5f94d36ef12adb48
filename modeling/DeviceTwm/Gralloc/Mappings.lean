import DeviceTwm.Gralloc.Gpu

/-!
# The mappings of a buffer

A mapping that was made while a buffer was allocated should be removed once, when the buffer is
freed. Four allocations end otherwise:

* of a buffer of the ADSP: `free_pmem_buffer` removes the mapping, and so does `terminateBuffer`,
  which knows the other two kinds of buffer only;
* of a buffer that falls back to ashmem: it is marked as mapped but never was, and
  `terminateBuffer` unmaps the null address;
* the one that maps the pmem heap, and the one that maps the framebuffer: both stay.

`life_balanced_iff`: there are no others.
-/

namespace Twm.Gralloc

/-- Every mapping is removed as often as it is made. -/
def Balanced (calls : List Call) : Prop :=
  ∀ b n, calls.count (.munmap b n) = calls.count (.mmap b n)

namespace Balanced

@[simp] theorem nil : Balanced [] := fun _ _ => rfl

theorem pair (b n : UInt32) : Balanced [.mmap b n, .munmap b n] := by
  intro b' n'
  simp [List.count_cons]

/-- What was mapped first stays mapped. -/
theorem not_of_le {b n : UInt32} {calls : List Call}
    (h : calls.count (.munmap b n) ≤ calls.count (.mmap b n)) : ¬ Balanced (.mmap b n :: calls) := by
  intro hb
  have := hb b n
  rw [List.count_cons_of_ne (by simp), List.count_cons_self] at this
  omega

end Balanced

/-- When a buffer is freed: the module then, what `unmapPmem` returns, and what its locks have made
of the handle. -/
structure Release (α : Type) where
  module : Module α
  unmapErr : Int
  lockState : UInt32
  writeOwner : Nat
  needsFlush : Bool

/-- The handle when it is freed. Locks do not clear `LOCK_STATE_MAPPED`. -/
def PrivateHandle.used {α : Type} (hnd : PrivateHandle) (x : Release α) : PrivateHandle :=
  { hnd with
    lockState := x.lockState ||| (hnd.lockState &&& Mapper.LOCK_STATE_MAPPED)
    writeOwner := x.writeOwner
    flags := { hnd.flags with needsFlush := x.needsFlush } }

section

variable {α : Type} (A : SubAllocator α) (B : Build) (os : GpuOs) (m : Module α) (x : Release α)

/-- The calls from an allocation until the buffer is freed, if there is one. -/
def lifeCalls (r : Allocated α) : List Call :=
  match r.handle with
  | none => r.calls
  | some hnd => r.calls ++ (freeImpl A B x.module x.unmapErr (hnd.used x)).2

/-! ## Where a buffer's mappings are not released once -/

/-- The allocation maps the pmem heap. -/
def MapsHeap (os : Os) (s : PmemUserspaceAllocator α) : Prop :=
  s.masterFd = MASTER_FD_INIT ∧ 0 ≤ os.masterOpen ∧ os.masterMmap ≠ none

/-- There is no pmem for the buffer, and it need not be pmem. -/
def FallsBack (size : UInt32) (u : AllocUsage) : Prop :=
  (m.pmem.allocPmemBuffer A os.toOs (roundUpToPageSize size)).1 < 0 ∧ u.hwMask = false ∧ 0 ≤ os.ashmem

/-- The buffer is pmem of the ADSP. -/
def MapsAdsp (os : Os) : Prop := 0 ≤ os.openDev ∧ os.mmap ≠ none

/-- The mappings of a buffer that is not in the framebuffer are released once. -/
def BufferReleased (size : UInt32) (u : AllocUsage) : Prop :=
  ((pmemFlags B u).usesPmem → ¬ MapsHeap os.toOs m.pmem ∧ ¬ FallsBack A os m size u) ∧
    (u.pmemAdsp → ¬ MapsAdsp os.toOs)

/-- The same for a buffer of the framebuffer. -/
def FramebufferReleased (u : AllocUsage) : Prop :=
  match m.framebuffer with
  | some _ =>
    m.numBuffers = 1 → BufferReleased A B os m m.bufferSize { u with hwFb := false, hw2d := true }
  | none => os.fbProbe = none ∨ os.fbMmap = none

/-- The request is refused, or its mappings are released once. -/
def Released (q : Request) : Prop :=
  ∀ size, q.size = some size →
    if q.usage.hwFb then q.usage.pmemAdsp = false → FramebufferReleased A B os m q.usage
    else BufferReleased A B os m size q.usage

/-! ## What each kind of buffer is freed with -/

variable {hnd : PrivateHandle}

/-- A buffer that was marked as mapped still is. -/
theorem PrivateHandle.used_mapped (h : hnd.lockState = Mapper.LOCK_STATE_MAPPED) :
    Mapper.isMapped (hnd.used x).lockState = true := by
  have hor : (hnd.used x).lockState = x.lockState ||| Mapper.LOCK_STATE_MAPPED := by
    rw [PrivateHandle.used, h]
    rfl
  rw [hor]
  exact (Mapper.Says.setMapped (Mapper.Says.of x.lockState)).mapped

/-- The process that allocated a buffer of the pmem heap, or of ashmem, does not unmap it in
`terminateBuffer`. -/
theorem terminateBuffer_own (hpid : hnd.pid = B.pid)
    (hf : hnd.flags.usesPmem = true ∨ hnd.flags.usesAshmem = true) :
    (terminateBuffer B hnd).2 = [] := by
  by_cases hm : Mapper.isMapped hnd.lockState = true
  · simp [terminateBuffer, hm, hf, hpid]
  · simp [terminateBuffer, hm]

/-- Every other buffer that is marked as mapped is. -/
theorem terminateBuffer_other (hm : Mapper.isMapped hnd.lockState = true)
    (hp : hnd.flags.usesPmem = false) (ha : hnd.flags.usesAshmem = false)
    (hfb : hnd.flags.framebuffer = false) (hoff : hnd.offset = 0) :
    (terminateBuffer B hnd).2 = [.munmap hnd.base hnd.size] := by
  have hzero : UInt32.ofInt 0 = 0 := rfl
  simp [terminateBuffer, hm, hp, ha, grallocUnmap, hfb, hoff, hzero]

theorem freeImpl_pmem (e : Int) (hfb : hnd.flags.framebuffer = false)
    (hp : hnd.flags.usesPmem = true) (hpid : hnd.pid = B.pid) : (freeImpl A B m e hnd).2 = [] := by
  have hterm := terminateBuffer_own B hpid (.inl hp)
  simp [freeImpl, hfb, hp, hterm]

theorem freeImpl_adsp (e : Int) (hfb : hnd.flags.framebuffer = false)
    (hp : hnd.flags.usesPmem = false) (ha : hnd.flags.usesAshmem = false)
    (hadsp : hnd.flags.usesPmemAdsp = true) (hm : Mapper.isMapped hnd.lockState = true)
    (hoff : hnd.offset = 0) :
    (freeImpl A B m e hnd).2 = [.munmap hnd.base (clp2 hnd.size), .munmap hnd.base hnd.size] := by
  have hterm := terminateBuffer_other B hm hp ha hfb hoff
  simp [freeImpl, hfb, hp, hadsp, hterm, PmemKernelAllocator.freePmemBuffer]

theorem freeImpl_ashmem (e : Int) (hfb : hnd.flags.framebuffer = false)
    (hp : hnd.flags.usesPmem = false) (hadsp : hnd.flags.usesPmemAdsp = false)
    (ha : hnd.flags.usesAshmem = true) (hpid : hnd.pid = B.pid) (hfd : 0 ≤ hnd.fd)
    (hbase : hnd.base ≠ 0) : (freeImpl A B m e hnd).2 = [.munmap hnd.base hnd.size] := by
  have hterm := terminateBuffer_own B hpid (.inr ha)
  simp [freeImpl, hfb, hp, hadsp, ha, hterm, hfd, hbase]

/-- A buffer without a flag. -/
theorem freeImpl_plain (e : Int) (hf : hnd.flags = { needsFlush := hnd.flags.needsFlush })
    (hm : Mapper.isMapped hnd.lockState = true) (hoff : hnd.offset = 0) :
    (freeImpl A B m e hnd).2 = [.munmap hnd.base hnd.size] := by
  have hfb : hnd.flags.framebuffer = false := by rw [hf]
  have hp : hnd.flags.usesPmem = false := by rw [hf]
  have hadsp : hnd.flags.usesPmemAdsp = false := by rw [hf]
  have ha : hnd.flags.usesAshmem = false := by rw [hf]
  have hterm := terminateBuffer_other B hm hp ha hfb hoff
  simp [freeImpl, hfb, hp, hadsp, ha, hterm]

theorem allocPmemBuffer_calls (s : PmemUserspaceAllocator α) (size : UInt32) :
    (s.allocPmemBuffer A os.toOs size).2.2.2 = (s.initPmemArea A os.toOs).2.2 := by
  unfold PmemUserspaceAllocator.allocPmemBuffer
  dsimp only
  split <;> rfl

theorem initPmemArea_calls_of_mapsHeap {s : PmemUserspaceAllocator α} (h : MapsHeap os.toOs s) :
    ∃ base, base ≠ 0 ∧ (s.initPmemArea A os.toOs).2.2 =
      [.mmap base PmemUserspaceAllocator.masterSize] := by
  obtain ⟨hfd, hopen, hmap⟩ := h
  obtain ⟨base, hbase⟩ := Option.ne_none_iff_exists'.mp hmap
  refine ⟨base, ?_, ?_⟩
  · rintro rfl
    exact os.masterMmap_ne hbase
  · simp only [PmemUserspaceAllocator.initPmemArea, if_pos hfd,
      PmemUserspaceAllocator.initPmemAreaLocked, if_pos hopen, hbase]
    split <;> rfl

theorem initPmemArea_calls_of_not {s : PmemUserspaceAllocator α} (h : ¬ MapsHeap os.toOs s) :
    (s.initPmemArea A os.toOs).2.2 = [] := by
  unfold PmemUserspaceAllocator.initPmemArea
  split
  · rename_i hfd
    have hlocked : (s.initPmemAreaLocked A os.toOs).2.2 = [] := by
      unfold PmemUserspaceAllocator.initPmemAreaLocked
      split
      · rename_i hopen
        have hnone : os.masterMmap = none := by
          by_contra hmap
          exact h ⟨hfd, hopen, hmap⟩
        rw [hnone]
      · rfl
    dsimp only
    split <;> exact hlocked
  · split <;> rfl

/-! ## The three kinds of buffer -/

variable (size : UInt32) (u : AllocUsage)

/-- An allocation without a handle: the calls are its own. -/
theorem lifeCalls_newHandle_of_ne {err : Int} {area : Area} {flags : Flags} {lockState : UInt32}
    {calls : List Call} (herr : err ≠ 0) :
    lifeCalls A B x (newHandle B size err area flags lockState m calls) = calls := by
  simp [lifeCalls, newHandle, herr]

/-- The handle of a new buffer. -/
def PrivateHandle.ofArea (size : UInt32) (area : Area) (flags : Flags) (lockState : UInt32) :
    PrivateHandle :=
  { fd := area.fd, flags := flags, size := size, offset := area.offset,
    base := area.base + UInt32.ofInt area.offset, lockState := lockState, pid := B.pid }

theorem lifeCalls_newHandle {area : Area} {flags : Flags} {lockState : UInt32} {calls : List Call} :
    lifeCalls A B x (newHandle B size 0 area flags lockState m calls) =
      calls ++ (freeImpl A B x.module x.unmapErr
        ((PrivateHandle.ofArea B size area flags lockState).used x)).2 := by
  simp [lifeCalls, newHandle, PrivateHandle.ofArea]

theorem pmemAdsp_of_usesPmem {B : Build} {u : AllocUsage} (hp : (pmemFlags B u).usesPmem = true) :
    u.pmemAdsp = false := by
  simp [pmemFlags] at hp
  exact hp.2

/-- `gralloc_alloc_buffer` for the pmem heap. -/
theorem grallocAllocBuffer_pmem {err : Int} {area : Area} {pmem : PmemUserspaceAllocator α}
    {calls : List Call} (hp : (pmemFlags B u).usesPmem = true)
    (hr : m.pmem.allocPmemBuffer A os.toOs (roundUpToPageSize size) = (err, area, pmem, calls)) :
    grallocAllocBuffer A B os m size u =
      if err < 0 ∧ u.hwMask = false then
        tryAshmem B os (roundUpToPageSize size) { pmemFlags B u with usesPmem := false }
          Mapper.LOCK_STATE_MAPPED { m with pmem := pmem } calls
      else
        newHandle B (roundUpToPageSize size) err area (pmemFlags B u) Mapper.LOCK_STATE_MAPPED
          { m with pmem := pmem } calls := by
  simp only [grallocAllocBuffer, if_pos hp, pmemAdsp_of_usesPmem hp, and_true, hr]

/-- A buffer of the pmem heap has no mapping of its own. -/
theorem lifeCalls_pmem (hp : (pmemFlags B u).usesPmem = true) (hb : ¬ FallsBack A os m size u) :
    lifeCalls A B x (grallocAllocBuffer A B os m size u) = (m.pmem.initPmemArea A os.toOs).2.2 := by
  have hcalls := allocPmemBuffer_calls A os m.pmem (roundUpToPageSize size)
  unfold FallsBack at hb
  rcases hr : m.pmem.allocPmemBuffer A os.toOs (roundUpToPageSize size) with ⟨err, area, pmem, calls⟩
  rw [hr] at hb hcalls
  rw [grallocAllocBuffer_pmem A B os m size u hp hr, ← hcalls]
  by_cases hfall : err < 0 ∧ u.hwMask = false
  · have hneg : os.ashmem < 0 := by
      by_contra h
      exact hb ⟨hfall.1, hfall.2, Int.not_lt.mp h⟩
    have hpos := os.errno.pos
    rw [if_pos hfall, tryAshmem, if_pos hneg, lifeCalls_newHandle_of_ne _ _ _ _ _ (by omega)]
  · rw [if_neg hfall]
    by_cases herr : err = 0
    · subst herr
      rw [lifeCalls_newHandle, freeImpl_pmem _ _ _ _ rfl hp rfl, List.append_nil]
    · rw [lifeCalls_newHandle_of_ne _ _ _ _ _ herr]

/-- One that falls back to ashmem is unmapped at the null address. -/
theorem lifeCalls_fallsBack (hp : (pmemFlags B u).usesPmem = true) (hb : FallsBack A os m size u) :
    lifeCalls A B x (grallocAllocBuffer A B os m size u) =
      (m.pmem.initPmemArea A os.toOs).2.2 ++ [.munmap 0 (roundUpToPageSize size)] := by
  have hcalls := allocPmemBuffer_calls A os m.pmem (roundUpToPageSize size)
  have hadsp := pmemAdsp_of_usesPmem hp
  unfold FallsBack at hb
  rcases hr : m.pmem.allocPmemBuffer A os.toOs (roundUpToPageSize size) with ⟨err, area, pmem, calls⟩
  rw [hr] at hb hcalls
  obtain ⟨herr, hhw, hfd⟩ := hb
  rw [grallocAllocBuffer_pmem A B os m size u hp hr, ← hcalls, if_pos ⟨herr, hhw⟩, tryAshmem,
    if_neg (Int.not_lt.mpr hfd), lifeCalls_newHandle, freeImpl_plain]
  · rfl
  · simp [PrivateHandle.used, PrivateHandle.ofArea, pmemFlags, hadsp]
  · exact PrivateHandle.used_mapped x rfl
  · rfl

theorem usesPmem_of_pmemAdsp {B : Build} {u : AllocUsage} (ha : u.pmemAdsp = true) :
    (pmemFlags B u).usesPmem = false := by
  simp [pmemFlags, ha]

/-- `gralloc_alloc_buffer` for the ADSP. -/
theorem grallocAllocBuffer_adsp (ha : u.pmemAdsp = true) :
    grallocAllocBuffer A B os m size u =
      let r := PmemKernelAllocator.allocPmemBuffer os.toOs (roundUpToPageSize size)
      newHandle B (roundUpToPageSize size) r.1 r.2.1 (pmemFlags B u) Mapper.LOCK_STATE_MAPPED m
        r.2.2 := by
  have hp : ¬ (pmemFlags B u).usesPmem = true := by simp [usesPmem_of_pmemAdsp ha]
  have hf : (pmemFlags B u).usesPmemAdsp = true := ha
  simp only [grallocAllocBuffer, if_neg hp, if_pos hf, ha, Bool.true_eq_false, and_false, if_false]

/-- A buffer of the ADSP that could not be mapped. -/
theorem lifeCalls_adsp_failed (ha : u.pmemAdsp = true) (hn : ¬ MapsAdsp os.toOs) :
    lifeCalls A B x (grallocAllocBuffer A B os m size u) = [] := by
  have hpos := os.errno.pos
  have hfail : PmemKernelAllocator.allocPmemBuffer os.toOs (roundUpToPageSize size) =
      (-os.errno.val, {}, []) := by
    unfold PmemKernelAllocator.allocPmemBuffer
    split
    · rfl
    · rename_i hopen
      have hnone : os.mmap = none := by
        by_contra h
        exact hn ⟨Int.not_lt.mp hopen, h⟩
      rw [hnone]
  rw [grallocAllocBuffer_adsp _ _ _ _ _ _ ha, hfail]
  exact lifeCalls_newHandle_of_ne _ _ _ _ _ (by dsimp only; omega)

/-- A buffer of the ADSP is unmapped twice. -/
theorem lifeCalls_adsp (ha : u.pmemAdsp = true) (hm : MapsAdsp os.toOs) :
    ∃ base, lifeCalls A B x (grallocAllocBuffer A B os m size u) =
      [.mmap base (clp2 (roundUpToPageSize size)), .munmap base (clp2 (roundUpToPageSize size)),
        .munmap base (roundUpToPageSize size)] := by
  obtain ⟨hopen, hmap⟩ := hm
  obtain ⟨base, hbase⟩ := Option.ne_none_iff_exists'.mp hmap
  have hok : PmemKernelAllocator.allocPmemBuffer os.toOs (roundUpToPageSize size) =
      (0, { base := base, offset := 0, fd := os.openDev },
        [.mmap base (clp2 (roundUpToPageSize size))]) := by
    simp [PmemKernelAllocator.allocPmemBuffer, Int.not_lt.mpr hopen, hbase]
  refine ⟨base, ?_⟩
  rw [grallocAllocBuffer_adsp _ _ _ _ _ _ ha, hok, lifeCalls_newHandle,
    freeImpl_adsp _ _ _ _ rfl (usesPmem_of_pmemAdsp ha) rfl ha (PrivateHandle.used_mapped x rfl) rfl]
  have hzero : base + UInt32.ofInt 0 = base := by
    rw [show UInt32.ofInt 0 = 0 from rfl, UInt32.add_zero]
  simp [PrivateHandle.used, PrivateHandle.ofArea, hzero]

/-- A buffer of ashmem is unmapped once. -/
theorem lifeCalls_ashmem (hp : (pmemFlags B u).usesPmem = false) (ha : u.pmemAdsp = false) :
    Balanced (lifeCalls A B x (grallocAllocBuffer A B os m size u)) := by
  have hpos := os.errno.pos
  have hneg : -os.errno.val ≠ 0 := by omega
  have hp' : ¬ (pmemFlags B u).usesPmem = true := by simp [hp]
  have ha' : ¬ (pmemFlags B u).usesPmemAdsp = true := by simp [pmemFlags, ha]
  simp only [grallocAllocBuffer, if_neg hp', if_neg ha', allocAshmemBuffer]
  by_cases hfd : os.ashmem < 0
  · simp only [if_pos hfd, lifeCalls_newHandle_of_ne _ _ _ _ _ hneg, Balanced.nil]
  simp only [if_neg hfd]
  by_cases hprot : os.setProt < 0
  · simp only [if_pos hprot, lifeCalls_newHandle_of_ne _ _ _ _ _ hneg, Balanced.nil]
  simp only [if_neg hprot]
  cases hmap : os.mmap with
  | none => simp only [lifeCalls_newHandle_of_ne _ _ _ _ _ hneg, Balanced.nil]
  | some base =>
    have hzero : base + UInt32.ofInt 0 = base := by
      rw [show UInt32.ofInt 0 = 0 from rfl, UInt32.add_zero]
    have hbase : base ≠ 0 := by
      rintro rfl
      exact os.mmap_ne hmap
    simp only [lifeCalls_newHandle]
    rw [freeImpl_ashmem _ _ _ _ rfl hp ha rfl rfl (Int.not_lt.mp hfd) (by
      simpa only [PrivateHandle.used, PrivateHandle.ofArea, hzero] using hbase)]
    simp only [PrivateHandle.used, PrivateHandle.ofArea, hzero]
    exact Balanced.pair base _

/-- The mappings of a buffer that is not in the framebuffer. -/
theorem buffer_balanced_iff :
    Balanced (lifeCalls A B x (grallocAllocBuffer A B os m size u)) ↔
      BufferReleased A B os m size u := by
  by_cases ha : u.pmemAdsp = true
  · have hp : (pmemFlags B u).usesPmem = false := usesPmem_of_pmemAdsp ha
    by_cases hm : MapsAdsp os.toOs
    · obtain ⟨base, hcalls⟩ := lifeCalls_adsp A B os m x size u ha hm
      rw [hcalls]
      refine ⟨fun hb => ?_, fun h => absurd hm (h.2 ha)⟩
      -- the second call unmaps what the first mapped, so the third is one too many
      have h := hb base (roundUpToPageSize size)
      by_cases hsize : clp2 (roundUpToPageSize size) = roundUpToPageSize size
      · simp [hsize] at h
      · simp [hsize] at h
    · rw [lifeCalls_adsp_failed A B os m x size u ha hm]
      simp [BufferReleased, hp, hm]
  · rw [Bool.not_eq_true] at ha
    by_cases hp : (pmemFlags B u).usesPmem = true
    · have hiff : BufferReleased A B os m size u ↔
          ¬ MapsHeap os.toOs m.pmem ∧ ¬ FallsBack A os m size u := by
        simp [BufferReleased, hp, ha]
      rw [hiff]
      by_cases hb : FallsBack A os m size u
      · rw [lifeCalls_fallsBack A B os m x size u hp hb]
        refine ⟨fun hbal => ?_, fun h => absurd hb h.2⟩
        have h := hbal 0 (roundUpToPageSize size)
        by_cases hheap : MapsHeap os.toOs m.pmem
        · obtain ⟨base, hne, hcalls⟩ := initPmemArea_calls_of_mapsHeap A os hheap
          simp [hcalls, hne] at h
        · simp [initPmemArea_calls_of_not A os hheap] at h
      · rw [lifeCalls_pmem A B os m x size u hp hb]
        by_cases hheap : MapsHeap os.toOs m.pmem
        · obtain ⟨base, -, hcalls⟩ := initPmemArea_calls_of_mapsHeap A os hheap
          rw [hcalls]
          exact ⟨fun h => absurd h (Balanced.not_of_le (Nat.zero_le _)), fun h => absurd hheap h.1⟩
        · simp [initPmemArea_calls_of_not A os hheap, hheap, hb]
    · rw [Bool.not_eq_true] at hp
      have hbal := lifeCalls_ashmem A B os m x size u hp ha
      simp [hbal, BufferReleased, hp, ha]

/-! ## The framebuffer -/

/-- Without a fallback and outside the ADSP, nothing is unmapped more often than mapped. -/
theorem lifeCalls_count_le (ha : u.pmemAdsp = false) (hhw : u.hwMask = true) (b n : UInt32) :
    (lifeCalls A B x (grallocAllocBuffer A B os m size u)).count (.munmap b n) ≤
      (lifeCalls A B x (grallocAllocBuffer A B os m size u)).count (.mmap b n) := by
  by_cases hp : (pmemFlags B u).usesPmem = true
  · have hb : ¬ FallsBack A os m size u := by
      rintro ⟨-, hno, -⟩
      simp [hhw] at hno
    rw [lifeCalls_pmem A B os m x size u hp hb]
    by_cases hheap : MapsHeap os.toOs m.pmem
    · obtain ⟨base, -, hcalls⟩ := initPmemArea_calls_of_mapsHeap A os hheap
      simp [hcalls]
    · simp [initPmemArea_calls_of_not A os hheap]
  · rw [Bool.not_eq_true] at hp
    exact le_of_eq (lifeCalls_ashmem A B os m x size u hp ha b n)

variable (base : UInt32) (calls : List Call)

/-- A buffer of the framebuffer: the calls that mapped it, and those of the buffer when there is only
one. -/
theorem lifeCalls_allocSlot : lifeCalls A B x (allocSlot A B os m u base calls) =
    calls ++ if m.numBuffers = 1 then
      lifeCalls A B x (grallocAllocBuffer A B os m m.bufferSize { u with hwFb := false, hw2d := true })
    else [] := by
  unfold allocSlot
  by_cases hone : m.numBuffers = 1
  · simp only [if_pos hone]
    unfold lifeCalls
    dsimp only
    split
    · rfl
    · rw [List.append_assoc]
  · simp only [if_neg hone, List.append_nil]
    split
    · rfl
    · simp [lifeCalls, freeImpl, PrivateHandle.used]

theorem framebuffer_balanced_iff (ha : u.pmemAdsp = false) :
    Balanced (lifeCalls A B x (grallocAllocFramebuffer A B os m u)) ↔
      FramebufferReleased A B os m u := by
  have hadsp : ¬ u.pmemAdsp = true := by simp [ha]
  have hpos := os.errno.pos
  unfold grallocAllocFramebuffer FramebufferReleased
  rw [if_neg hadsp]
  cases hfb : m.framebuffer with
  | some base =>
    simp only [lifeCalls_allocSlot, List.nil_append]
    by_cases hone : m.numBuffers = 1
    · simp only [true_implies, hone]
      exact buffer_balanced_iff A B os m x _ _
    · simp [hone]
  | none =>
    unfold mapFrameBufferLocked
    cases hprobe : os.fbProbe with
    | none => simp [hpos, lifeCalls]
    | some i =>
      cases hmap : os.fbMmap with
      | none => simp [hpos, lifeCalls]
      | some base =>
        simp only [reduceCtorEq, or_self, iff_false]
        rw [if_neg (by decide), lifeCalls_allocSlot]
        apply Balanced.not_of_le
        split
        · exact lifeCalls_count_le A B os _ x _ { u with hwFb := false, hw2d := true } ha
            (by simp [AllocUsage.hwMask]) _ _
        · simp

/-- **Every mapping released once**: the mappings that are made while a buffer is allocated are
removed once, and nothing else is, if and only if the buffer is not one of the four kinds. -/
theorem life_balanced_iff (q : Request) :
    Balanced (lifeCalls A B x (allocImpl A B os m q)) ↔ Released A B os m q := by
  unfold allocImpl Released
  cases hq : q.size with
  | none => simp [lifeCalls]
  | some size =>
    simp only [Option.some.injEq, forall_eq']
    by_cases hfb : q.usage.hwFb = true
    · simp only [if_pos hfb]
      by_cases ha : q.usage.pmemAdsp = true
      · simp [grallocAllocFramebuffer, ha, lifeCalls]
      · rw [Bool.not_eq_true] at ha
        simp only [ha, true_implies]
        exact framebuffer_balanced_iff A B os m x q.usage ha
    · simp only [if_neg hfb]
      exact buffer_balanced_iff A B os m x size q.usage

end

/-- A device on which every call succeeds. -/
def workingOs : GpuOs where
  masterOpen := 3
  totalSize := 0
  masterMmap := some 0x40000000
  openDev := 4
  connectPmem := 0
  mapPmem := 0
  mmap := some 0x41000000
  ashmem := 5
  setProt := 0
  errno := .noMemory
  masterMmap_ne := heap_ne_null
  mmap_ne := by decide
  fbProbe := none
  fbMmap := none
  dup := 6

/-- The module before its first buffer. -/
def Module.start : Module (Option SimpleBestFitAllocator) where
  pmem := { masterFd := MASTER_FD_INIT, masterBase := 0, allocator := some SimpleBestFitAllocator.init }
  framebuffer := none
  fbFd := -1
  numBuffers := 0
  bufferMask := 0
  lineLength := 0
  yres := 0

/-- A buffer of the ADSP, of 256 pixels by 96: 98304 bytes, for which 131072 are mapped. Both are
unmapped. -/
theorem adsp_unmapped_twice :
    let x : Release (Option SimpleBestFitAllocator) := ⟨.start, 0, 0, 0, false⟩
    let q : Request := ⟨256, 96, .RGBA_8888, { pmemAdsp := true }⟩
    let calls := lifeCalls (pmemAllocMgr true) ⟨false, 1⟩ x
      (allocImpl (pmemAllocMgr true) ⟨false, 1⟩ workingOs .start q)
    calls = [.mmap 0x41000000 131072, .munmap 0x41000000 131072, .munmap 0x41000000 98304] ∧
      ¬ Balanced calls := by
  have hcalls : lifeCalls (pmemAllocMgr true) ⟨false, 1⟩ ⟨.start, 0, 0, 0, false⟩
      (allocImpl (pmemAllocMgr true) ⟨false, 1⟩ workingOs .start
        ⟨256, 96, .RGBA_8888, { pmemAdsp := true }⟩) =
      [.mmap 0x41000000 131072, .munmap 0x41000000 131072, .munmap 0x41000000 98304] := by
    decide +kernel
  refine ⟨hcalls, ?_⟩
  intro hb
  have h := hb 0x41000000 98304
  rw [hcalls] at h
  exact absurd h (by decide)

end Twm.Gralloc
