import DeviceTwm.Gralloc.AllocatorClient
import DeviceTwm.Gralloc.Pmem
import DeviceTwm.Lib.Run

/-!
# Ranges of the pmem heap over whole runs

`alloc_pmem_buffer` and `free_pmem_buffer` of one `PmemUserspaceAllocator`, in any order, with any
answers of the device. A client frees a buffer at most once, so a buffer is `live` from the call
that hands it out to the one that frees it. A buffer whose `unmapPmem` failed is `stuck`: its range
is not given back to the allocator.

`NoReuse` is what the comment in `free_pmem_buffer` asks for: a range is handed out only while no
earlier buffer over it is live or stuck. It holds along every run whose calls ask for 1 to
`2 ^ 32 - 32` bytes (`noReuse_of_sizes`). Size 0 reserves nothing and comes back with offset 0;
to free that buffer gives away the range of whoever holds offset 0 (`noReuse_fails_on_empty`).
-/

namespace Twm.Gralloc

open SimpleBestFitAllocator

/-- A buffer that `alloc_pmem_buffer` handed out; `id` counts them. -/
structure PmemBuffer where
  id : Nat
  offset : Nat
  size : Nat
  fd : Int
  deriving DecidableEq

/-- The offset and the size, as the allocator's client holds them. -/
def PmemBuffer.range (b : PmemBuffer) : Nat × Nat := (b.offset, b.size)

/-- `[offset, offset+size)` of the two have no byte in common. -/
def PmemBuffer.Apart (b b' : PmemBuffer) : Prop :=
  b.offset + b.size ≤ b'.offset ∨ b'.offset + b'.size ≤ b.offset

instance (b b' : PmemBuffer) : Decidable (b.Apart b') := inferInstanceAs (Decidable (_ ∨ _))

inductive PmemEvent
  | handed (b : PmemBuffer)
  | unmapped (b : PmemBuffer)
  | stuck (b : PmemBuffer)
  deriving DecidableEq

/-- The allocator, the buffers in use, and what has happened, the newest first. -/
structure Pool where
  pmem : PmemUserspaceAllocator (Option SimpleBestFitAllocator)
  live : List PmemBuffer
  stuck : List PmemBuffer
  made : Nat
  log : List PmemEvent

inductive PmemOp
  | alloc (size : UInt32) (os : Os)
  | free (b : PmemBuffer) (unmapErr : Int)

namespace Pool

def start : Pool := ⟨⟨MASTER_FD_INIT, 0, some init⟩, [], [], 0, []⟩

/-- `alloc_pmem_buffer` set `*pFd` to a descriptor: the caller has a buffer. -/
def hand (p : Pool) (size : UInt32) (area : Area) : Pool :=
  let b : PmemBuffer := ⟨p.made, area.offset.toNat, size.toNat, area.fd⟩
  { p with live := b :: p.live, made := p.made + 1, log := .handed b :: p.log }

/-- One call. `none`: the buffer to free is not live, or the log ended the process. -/
def step (fatal : Bool) (p : Pool) : PmemOp → Option Pool
  | .alloc size os =>
    let (_, area, pmem, _) := p.pmem.allocPmemBuffer (pmemAllocMgr fatal) os size
    let p := { p with pmem := pmem }
    if pmem.allocator.isNone then none
    else if 0 ≤ area.fd then some (p.hand size area)
    else some p
  | .free b unmapErr =>
    if b ∈ p.live then
      let pmem := p.pmem.freePmemBuffer (pmemAllocMgr fatal) unmapErr b.offset b.fd
      let p := { p with pmem := pmem, live := p.live.erase b }
      if pmem.allocator.isNone then none
      else if unmapErr = 0 then some { p with log := .unmapped b :: p.log }
      else some { p with stuck := b :: p.stuck, log := .stuck b :: p.log }
    else none

end Pool

/-- A range is handed out only while no earlier buffer over it is live or failed to unmap. -/
structure NoReuse (log : List PmemEvent) : Prop where
  /-- Every buffer handed out before and not unmapped since is apart from the new one. -/
  handed : ∀ newer b older b', log = newer ++ .handed b :: older → .handed b' ∈ older →
    .unmapped b' ∉ older → b.Apart b'
  /-- The range of a buffer that failed to unmap is never handed out again. -/
  stuck : ∀ newer b older b', log = newer ++ .handed b :: older → .stuck b' ∈ older → b.Apart b'

namespace SimpleBestFitAllocator.ClientInv

variable {P : Platform} {fatal : Bool} {a : SimpleBestFitAllocator} {l l' : List (Nat × Nat)}

theorem perm (h : ClientInv P ⟨a, l⟩) (hp : l.Perm l') : ClientInv P ⟨a, l'⟩ :=
  ⟨h.inv, h.word, fun x hx => h.aligned x (hp.mem_iff.mpr hx),
    fun x hx => h.positive x (hp.mem_iff.mpr hx), (hp.symm.map chunkOf).subperm.trans h.chunks⟩

/-- A range that the client holds is given back. -/
theorem release {x : Nat × Nat} (fatal : Bool) (hw : P.wordBits = 32)
    (h : ClientInv P ⟨a, x :: l⟩) :
    ∃ a', deallocate fatal a x.1 = some (0, a') ∧ ClientInv P ⟨a', l⟩ := by
  obtain ⟨a', ha', -⟩ := h.deallocate_live fatal (List.mem_cons_self (a := x))
  have hstep : Client.step P fatal ⟨a, x :: l⟩ (.deallocate x.1) = some ⟨a', l⟩ := by
    simp [Client.step, ha']
  refine ⟨a', ha', h.step hw ?_ hstep⟩
  trivial

/-- An allocation that does not wrap is held. -/
theorem reserve {size : Nat} (hw : P.wordBits = 32) (h : ClientInv P ⟨a, l⟩) (h1 : 1 ≤ size)
    (h2 : size + 31 < 2 ^ 32) : ClientInv P ⟨(allocate P a size).2,
      if 0 ≤ (allocate P a size).1 then ((allocate P a size).1.toNat, size) :: l else l⟩ := by
  have hstep : Client.step P false ⟨a, l⟩ (.allocate size) = some ⟨(allocate P a size).2,
      if 0 ≤ (allocate P a size).1 then ((allocate P a size).1.toNat, size) :: l else l⟩ := rfl
  refine h.step hw ?_ hstep
  exact ⟨h1, h2⟩

end SimpleBestFitAllocator.ClientInv

/-! ## The heap -/

/-- The heap has not been set up, or its client holds `held`. -/
def HeapInv (s : PmemUserspaceAllocator (Option SimpleBestFitAllocator))
    (held : List (Nat × Nat)) : Prop :=
  ∃ a, s.allocator = some a ∧ ((a = init ∧ held = []) ∨ ClientInv .arm ⟨a, held⟩)

namespace HeapInv

variable {fatal : Bool} {os : Os} {held held' : List (Nat × Nat)}
  {s : PmemUserspaceAllocator (Option SimpleBestFitAllocator)}

theorem perm (h : HeapInv s held) (hp : held.Perm held') : HeapInv s held' := by
  obtain ⟨a, ha, ⟨hi, rfl⟩ | hc⟩ := h
  · exact ⟨a, ha, .inl ⟨hi, hp.nil_eq.symm⟩⟩
  · exact ⟨a, ha, .inr (hc.perm hp)⟩

theorem of_allocator {s' : PmemUserspaceAllocator (Option SimpleBestFitAllocator)}
    (h : HeapInv s held) (he : s'.allocator = s.allocator) : HeapInv s' held := by
  obtain ⟨a, ha, hc⟩ := h
  exact ⟨a, he.trans ha, hc⟩

theorem start_client : ClientInv .arm ⟨(setSize .arm init 0x800000).2, []⟩ := by
  refine (start_inv .arm rfl 0x800000).resolve_left ?_
  show (setSize .arm init 0x800000).2.mHeapSize ≠ 0
  rw [setSize_pages .arm (by decide) (by decide)]
  decide

/-- `setSize` sets up the heap once; the later calls change nothing. -/
theorem setSize (h : HeapInv s held) : HeapInv
    { s with allocator := ((pmemAllocMgr fatal).setSize s.allocator
      PmemUserspaceAllocator.masterSize.toNat).2 } held := by
  obtain ⟨a, ha, hc⟩ := h
  rw [ha]
  refine ⟨(SimpleBestFitAllocator.setSize .arm a 0x800000).2, rfl, .inr ?_⟩
  rcases hc with ⟨rfl, rfl⟩ | hc
  · exact start_client
  · rw [SimpleBestFitAllocator.setSize, if_pos hc.inv.heapSize_ne]
    exact hc

theorem initPmemAreaLocked (h : HeapInv s held) :
    HeapInv (s.initPmemAreaLocked (pmemAllocMgr fatal) os).2.1 held := by
  unfold PmemUserspaceAllocator.initPmemAreaLocked
  split
  · split
    · exact h.setSize
    · exact h.setSize.of_allocator rfl
  · exact h

theorem initPmemArea (h : HeapInv s held) :
    HeapInv (s.initPmemArea (pmemAllocMgr fatal) os).2.1 held := by
  unfold PmemUserspaceAllocator.initPmemArea
  split
  · dsimp only
    split
    · exact h.initPmemAreaLocked.of_allocator rfl
    · exact h.initPmemAreaLocked
  · split <;> exact h

/-- The range that a failed sub-heap gives back is the one just taken. -/
theorem allocRange {size : UInt32} (h : HeapInv s held) (h1 : 1 ≤ size.toNat)
    (h2 : size.toNat + 31 < 2 ^ 32) {err : Int} {area : Area}
    {s' : PmemUserspaceAllocator (Option SimpleBestFitAllocator)}
    (hr : s.allocRange (pmemAllocMgr fatal) os size = (err, area, s')) :
    HeapInv s' (if 0 ≤ area.fd then (area.offset.toNat, size.toNat) :: held else held) := by
  obtain ⟨a, ha, hc⟩ := h
  have hal : (pmemAllocMgr fatal).allocate s.allocator size.toNat =
      ((allocate .arm a size.toNat).1, some (allocate .arm a size.toNat).2) := by rw [ha]; rfl
  simp only [PmemUserspaceAllocator.allocRange, hal] at hr
  rcases hc with ⟨rfl, rfl⟩ | hc
  · -- the heap was never set up: `allocate` answers `-EINVAL`
    cases hr
    exact ⟨init, rfl, .inl ⟨rfl, rfl⟩⟩
  · have hres := hc.reserve rfl h1 h2
    split at hr
    · rename_i hneg
      cases hr
      rw [if_neg (Int.not_le.mpr hneg)] at hres
      exact ⟨_, rfl, .inr hres⟩
    · rename_i hpos
      rw [if_pos (Int.not_lt.mp hpos)] at hres
      split at hr
      · cases hr
        obtain ⟨a', ha', hc'⟩ := hres.release fatal rfl
        refine ⟨a', ?_, .inr hc'⟩
        simp only [pmemAllocMgr]
        rw [ha']
      · rename_i hsub
        cases hr
        have hfd : 0 ≤ os.openDev := by
          unfold PmemUserspaceAllocator.subHeap at hsub
          by_contra hlt
          rw [if_pos (Int.not_le.mp hlt)] at hsub
          simp [Int.ne_of_lt (Int.not_le.mp hlt)] at hsub
          omega
        rw [if_pos hfd]
        exact ⟨_, rfl, .inr hres⟩

theorem allocPmemBuffer {size : UInt32} (h : HeapInv s held) (h1 : 1 ≤ size.toNat)
    (h2 : size.toNat + 31 < 2 ^ 32) {err : Int} {area : Area} {calls : List Call}
    {s' : PmemUserspaceAllocator (Option SimpleBestFitAllocator)}
    (hr : s.allocPmemBuffer (pmemAllocMgr fatal) os size = (err, area, s', calls)) :
    HeapInv s' (if 0 ≤ area.fd then (area.offset.toNat, size.toNat) :: held else held) := by
  unfold PmemUserspaceAllocator.allocPmemBuffer at hr
  dsimp only at hr
  split at hr
  · cases hr
    exact h.initPmemArea.allocRange h1 h2 rfl
  · cases hr
    exact h.initPmemArea

/-- A buffer that is unmapped gives its range back; one that is not keeps it. -/
theorem freePmemBuffer (fatal : Bool) (unmapErr : Int) {offset size : Nat} {fd : Int}
    (h : HeapInv s ((offset, size) :: held)) (hfd : 0 ≤ fd) :
    HeapInv (s.freePmemBuffer (pmemAllocMgr fatal) unmapErr offset fd)
      (if unmapErr = 0 then held else (offset, size) :: held) := by
  unfold PmemUserspaceAllocator.freePmemBuffer
  by_cases hu : unmapErr = 0
  · rw [if_pos ⟨hfd, hu⟩, if_pos hu]
    obtain ⟨a, ha, ⟨-, hn⟩ | hc⟩ := h
    · cases hn
    · obtain ⟨a', ha', hc'⟩ := hc.release fatal rfl
      refine ⟨a', ?_, .inr hc'⟩
      rw [ha]
      simp only [pmemAllocMgr, Int.toNat_natCast]
      rw [ha']
  · rw [if_neg (fun hn => hu hn.2), if_neg hu]
    exact h

/-- A range that was just taken is apart from those held before. -/
theorem apart {x : Nat × Nat} (h : HeapInv s (x :: held)) {y : Nat × Nat} (hy : y ∈ held) :
    x.1 + x.2 ≤ y.1 ∨ y.1 + y.2 ≤ x.1 := by
  obtain ⟨a, -, ⟨-, hn⟩ | hc⟩ := h
  · cases hn
  · have hiso : Isolation .arm false ⟨a, x :: held⟩ := hc.isolation
    exact (List.pairwise_cons.mp hiso.disjoint).1 y hy

end HeapInv

namespace NoReuse

variable {log : List PmemEvent}

theorem nil : NoReuse [] := by
  constructor <;> intro newer b older b' h <;> simp at h

theorem cons_other {e : PmemEvent} (h : NoReuse log) (he : ∀ b, e ≠ .handed b) :
    NoReuse (e :: log) := by
  constructor
  all_goals
    intro newer b older b' heq
    rcases newer with _ | ⟨x, newer⟩
    · exact absurd (List.cons.inj heq).1 (he b)
  · exact h.handed newer b older b' (List.cons.inj heq).2
  · exact h.stuck newer b older b' (List.cons.inj heq).2

theorem cons_handed {b : PmemBuffer} (h : NoReuse log)
    (h1 : ∀ b', .handed b' ∈ log → .unmapped b' ∉ log → b.Apart b')
    (h2 : ∀ b', .stuck b' ∈ log → b.Apart b') : NoReuse (.handed b :: log) := by
  constructor
  all_goals
    intro newer c older b' heq
    rcases newer with _ | ⟨x, newer⟩
    · obtain ⟨hb, rfl⟩ := List.cons.inj heq
      cases hb
      first | exact h1 b' | exact h2 b'
  · exact h.handed newer c older b' (List.cons.inj heq).2
  · exact h.stuck newer c older b' (List.cons.inj heq).2

end NoReuse

namespace Pool

/-! ## Runs -/

/-- What the run has handed out and not unmapped is held, and the rest of the log is right. -/
structure Inv (p : Pool) : Prop where
  heap : HeapInv p.pmem ((p.live ++ p.stuck).map PmemBuffer.range)
  fd : ∀ b ∈ p.live, 0 ≤ b.fd
  held : ∀ b, .handed b ∈ p.log → .unmapped b ∉ p.log → b ∈ p.live ++ p.stuck
  stuck : ∀ b, .stuck b ∈ p.log → b ∈ p.stuck
  noReuse : NoReuse p.log

/-- The sizes that the allocator rounds up without a wrap. -/
def Sized (_ : Pool) : PmemOp → Prop
  | .alloc size _ => 1 ≤ size.toNat ∧ size.toNat ≤ 2 ^ 32 - 32
  | .free _ _ => True

theorem start_ok : Inv start :=
  ⟨⟨init, rfl, .inl ⟨rfl, rfl⟩⟩, by simp [start], by simp [start], by simp [start], .nil⟩

theorem Inv.hand {p : Pool} {pmem : PmemUserspaceAllocator (Option SimpleBestFitAllocator)}
    {size : UInt32} {area : Area} (h : Inv p) (hfd : 0 ≤ area.fd)
    (hheap : HeapInv pmem
      ((area.offset.toNat, size.toNat) :: (p.live ++ p.stuck).map PmemBuffer.range)) :
    Inv (hand { p with pmem := pmem } size area) := by
  have hapart : ∀ b' ∈ p.live ++ p.stuck,
      PmemBuffer.Apart ⟨p.made, area.offset.toNat, size.toNat, area.fd⟩ b' := fun b' hb' =>
    hheap.apart (List.mem_map_of_mem hb')
  refine ⟨hheap, ?_, ?_, ?_, h.noReuse.cons_handed ?_ ?_⟩
  · intro b hb
    rcases List.mem_cons.mp hb with rfl | hb
    · exact hfd
    · exact h.fd b hb
  · intro b hb hu
    rcases List.mem_cons.mp hb with he | hb
    · cases he
      exact List.mem_cons_self
    · exact List.mem_cons_of_mem _ (h.held b hb fun hn => hu (List.mem_cons_of_mem _ hn))
  · intro b hb
    rcases List.mem_cons.mp hb with he | hb
    · cases he
    · exact h.stuck b hb
  · exact fun b' hb' hu => hapart b' (h.held b' hb' hu)
  · exact fun b' hb' => hapart b' (List.mem_append_right _ (h.stuck b' hb'))

/-- The freed buffer, in front of the others that are held. -/
theorem Inv.heap_front {p : Pool} {b : PmemBuffer} (h : Inv p) (hb : b ∈ p.live) :
    HeapInv p.pmem (b.range :: (p.live.erase b ++ p.stuck).map PmemBuffer.range) := by
  have hp : (p.live ++ p.stuck).Perm (b :: (p.live.erase b ++ p.stuck)) :=
    (List.perm_cons_erase hb).append_right p.stuck
  exact h.heap.perm (hp.map _)

theorem Inv.unmap {p : Pool} {pmem : PmemUserspaceAllocator (Option SimpleBestFitAllocator)}
    {b : PmemBuffer} (h : Inv p)
    (hheap : HeapInv pmem ((p.live.erase b ++ p.stuck).map PmemBuffer.range)) :
    Inv { p with pmem := pmem, live := p.live.erase b, log := .unmapped b :: p.log } := by
  refine ⟨hheap, fun c hc => h.fd c (List.mem_of_mem_erase hc), ?_, ?_,
    h.noReuse.cons_other (by simp)⟩
  · intro c hc hu
    simp only [List.mem_cons, reduceCtorEq, PmemEvent.unmapped.injEq, false_or, not_or] at hc hu
    rcases List.mem_append.mp (h.held c hc hu.2) with hl | hs
    · exact List.mem_append_left _ ((List.mem_erase_of_ne hu.1).mpr hl)
    · exact List.mem_append_right _ hs
  · intro c hc
    exact h.stuck c (by simpa using hc)

theorem Inv.keep {p : Pool} {pmem : PmemUserspaceAllocator (Option SimpleBestFitAllocator)}
    {b : PmemBuffer} (h : Inv p) (hb : b ∈ p.live)
    (hheap : HeapInv pmem (b.range :: (p.live.erase b ++ p.stuck).map PmemBuffer.range)) :
    Inv { p with pmem := pmem, live := p.live.erase b, stuck := b :: p.stuck,
                 log := .stuck b :: p.log } := by
  have hp : (b :: (p.live.erase b ++ p.stuck)).Perm (p.live.erase b ++ b :: p.stuck) :=
    List.perm_middle.symm
  refine ⟨hheap.perm (hp.map _), fun c hc => h.fd c (List.mem_of_mem_erase hc), ?_, ?_,
    h.noReuse.cons_other (by simp)⟩
  · intro c hc hu
    simp only [List.mem_cons, reduceCtorEq, false_or] at hc hu
    have hall : c ∈ b :: (p.live.erase b ++ p.stuck) :=
      ((List.perm_cons_erase hb).append_right p.stuck).mem_iff.mp (h.held c hc hu)
    exact hp.mem_iff.mp hall
  · intro c hc
    rcases List.mem_cons.mp hc with he | hc
    · cases he
      exact List.mem_cons_self
    · exact List.mem_cons_of_mem _ (h.stuck c hc)

theorem Inv.step {fatal : Bool} (p : Pool) (op : PmemOp) (p' : Pool) (h : Inv p)
    (hop : Sized p op) (hs : p.step fatal op = some p') : Inv p' := by
  cases op with
  | alloc size os =>
    rcases hr : p.pmem.allocPmemBuffer (pmemAllocMgr fatal) os size with ⟨err, area, pmem, calls⟩
    have h31 : size.toNat + 31 < 2 ^ 32 := by
      have := hop.2
      omega
    have hheap := h.heap.allocPmemBuffer hop.1 h31 hr
    simp only [Pool.step, hr] at hs
    split at hs
    · cases hs
    · split at hs
      · rename_i hfd
        rw [if_pos hfd] at hheap
        cases hs
        exact h.hand hfd hheap
      · rename_i hfd
        rw [if_neg hfd] at hheap
        cases hs
        exact ⟨hheap, h.fd, h.held, h.stuck, h.noReuse⟩
  | free b unmapErr =>
    simp only [Pool.step] at hs
    split at hs
    · rename_i hb
      have hheap := (h.heap_front hb).freePmemBuffer fatal unmapErr (h.fd b hb)
      split at hs
      · cases hs
      · split at hs
        · rename_i hu
          rw [if_pos hu] at hheap
          cases hs
          exact h.unmap hheap
        · rename_i hu
          rw [if_neg hu] at hheap
          cases hs
          exact h.keep hb hheap
    · cases hs

/-- **Ranges that failed to unmap stay reserved.** Along every run whose calls ask for 1 to
`2 ^ 32 - 32` bytes, whatever the device answers, a range is handed out only while no earlier
buffer over it is live or failed to unmap. -/
theorem noReuse_of_sizes (fatal : Bool) (ops : List PmemOp) (p : Pool)
    (hops : ∀ size os, .alloc size os ∈ ops → 1 ≤ size.toNat ∧ size.toNat ≤ 2 ^ 32 - 32)
    (hrun : Lib.run (step fatal) start ops = some p) : NoReuse p.log := by
  have hok : Lib.RunOk (step fatal) Sized start ops := by
    apply Lib.runOk_of_mem
    intro op hop p
    cases op with
    | alloc size os => exact hops size os hop
    | free b unmapErr => trivial
  exact (Lib.run_invariant Inv.step start_ok hok hrun).noReuse

/-- Every call succeeds, but for what the arguments say. -/
def answers (mapPmem : Int) : Os where
  masterOpen := 3
  totalSize := 0
  masterMmap := some 0x40000000
  openDev := 4
  connectPmem := 0
  mapPmem := mapPmem
  mmap := none
  ashmem := 0
  setProt := 0
  errno := .ioError
  masterMmap_ne := heap_ne_null
  mmap_ne := none_ne_null

/-- Two buffers, of which the first fails to unmap, and a third beside a failed sub-heap. -/
def stuckRun : List PmemOp :=
  [.alloc 4096 (answers 0), .alloc 8192 (answers 0), .free ⟨0, 0, 4096, 4⟩ (-1),
    .alloc 4096 (answers (-1)), .free ⟨1, 4096, 8192, 4⟩ 0, .alloc 100 (answers 0)]

theorem noReuse_stuckRun : ∃ p : Pool, Lib.run (step true) start stuckRun = some p ∧
    p.stuck = [⟨0, 0, 4096, 4⟩] ∧ p.live = [⟨2, 4096, 100, 4⟩] ∧ NoReuse p.log := by
  have hany : (Lib.run (step true) start stuckRun).any (fun p =>
      p.stuck = [⟨0, 0, 4096, 4⟩] ∧ p.live = [⟨2, 4096, 100, 4⟩]) = true := by decide +kernel
  obtain ⟨p, hp, h⟩ := (Option.any_eq_true ..).mp hany
  obtain ⟨hs, hl⟩ := of_decide_eq_true h
  refine ⟨p, hp, hs, hl, noReuse_of_sizes true stuckRun p ?_ hp⟩
  intro size os hop
  simp only [stuckRun, List.mem_cons, PmemOp.alloc.injEq, reduceCtorEq, List.not_mem_nil, or_false,
    false_or] at hop
  rcases hop with ⟨rfl, -⟩ | ⟨rfl, -⟩ | ⟨rfl, -⟩ | ⟨rfl, -⟩ <;> decide

/-- The first buffer fails to unmap and stays reserved. A buffer of no bytes gets offset 0 too; its
`free_pmem_buffer` deallocates the chunk of the first one, and the next call hands that range
out. -/
theorem noReuse_fails_on_empty : ∃ p : Pool, Lib.run (step false) start
    [.alloc 4096 (answers 0), .free ⟨0, 0, 4096, 4⟩ (-1), .alloc 0 (answers 0),
      .free ⟨1, 0, 0, 4⟩ 0, .alloc 4096 (answers 0)] = some p ∧ ¬ NoReuse p.log := by
  have hany : (Lib.run (step false) start
      [.alloc 4096 (answers 0), .free ⟨0, 0, 4096, 4⟩ (-1), .alloc 0 (answers 0),
        .free ⟨1, 0, 0, 4⟩ 0, .alloc 4096 (answers 0)]).any (fun p =>
      p.log = [.handed ⟨2, 0, 4096, 4⟩, .unmapped ⟨1, 0, 0, 4⟩, .handed ⟨1, 0, 0, 4⟩,
        .stuck ⟨0, 0, 4096, 4⟩, .handed ⟨0, 0, 4096, 4⟩]) = true := by decide +kernel
  obtain ⟨p, hp, hlog⟩ := (Option.any_eq_true ..).mp hany
  refine ⟨p, hp, fun h => ?_⟩
  have hapart := h.stuck [] _ _ ⟨0, 0, 4096, 4⟩ (of_decide_eq_true hlog) (by simp)
  exact absurd hapart (by decide)

end Pool

end Twm.Gralloc
