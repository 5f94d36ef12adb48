import DeviceTwm.Gralloc.Allocator

/-!
# The pmem allocators (`libgralloc/pmemalloc.cpp`)

`PmemUserspaceAllocator` maps the device once and hands out ranges of the mapping;
`PmemKernelAllocator` maps the device anew for every buffer.

What the kernel answers to the calls of one allocation is an `Os`. `Call` records the mappings that
are made and removed, in order.
-/

namespace Twm.Gralloc

/-- A mapping that the process makes or removes. -/
inductive Call
  | mmap (base size : UInt32)
  | munmap (base size : UInt32)
  deriving DecidableEq

/-- `errno` after a call that failed. -/
structure Errno where
  val : Int
  pos : 0 < val

def Errno.noMemory : Errno := ⟨12, by decide⟩
def Errno.ioError : Errno := ⟨5, by decide⟩

/-- What the calls of an allocation return; a failed `mmap` is `none`. -/
structure Os where
  masterOpen : Int
  /-- `getPmemTotalSize`. -/
  totalSize : Int
  masterMmap : Option UInt32
  openDev : Int
  connectPmem : Int
  mapPmem : Int
  mmap : Option UInt32
  ashmem : Int
  setProt : Int
  errno : Errno
  /-- Nothing is mapped at the null address. -/
  masterMmap_ne : masterMmap ≠ some 0
  mmap_ne : mmap ≠ some 0

/-! What an `mmap` may return: nothing, or a place for a heap or for a buffer. -/

theorem none_ne_null : (none : Option UInt32) ≠ some 0 := nofun
theorem heap_ne_null : some (0x40000000 : UInt32) ≠ some 0 := by decide
theorem buffer_ne_null : some (0x50000000 : UInt32) ≠ some 0 := by decide

/-- What `alloc_pmem_buffer` leaves in `*pBase`, `*pOffset` and `*pFd`. -/
structure Area where
  base : UInt32 := 0
  offset : Int := 0
  fd : Int := -1
  deriving DecidableEq

/-! ## `PmemUserspaceAllocator` -/

/-- `PmemUserspaceAllocator::Deps::Allocator`. -/
structure SubAllocator (α : Type) where
  setSize : α → Nat → Int × α
  allocate : α → Nat → Int × α
  deallocate : α → Nat → Int × α

/-- The sub-allocator of the device; `none`: the log ended the process. -/
def pmemAllocMgr (fatal : Bool) : SubAllocator (Option SimpleBestFitAllocator) where
  setSize
    | none, _ => (0, none)
    | some a, n => let (r, a) := a.setSize .arm n; (r, some a)
  allocate
    | none, _ => (0, none)
    | some a, n => let (r, a) := a.allocate .arm n; (r, some a)
  deallocate
    | none, _ => (0, none)
    | some a, n =>
      match a.deallocate fatal n with
      | none => (0, none)
      | some (r, a) => (r, some a)

def MASTER_FD_INIT : Int := -1

structure PmemUserspaceAllocator (α : Type) where
  masterFd : Int
  masterBase : UInt32
  allocator : α

namespace PmemUserspaceAllocator

variable {α : Type} (A : SubAllocator α) (os : Os) (s : PmemUserspaceAllocator α)

/-- `8<<20`: the size of the heap, whatever the device reports. -/
def masterSize : UInt32 := 0x800000

/-- `init_pmem_area_locked`. -/
def initPmemAreaLocked : Int × PmemUserspaceAllocator α × List Call :=
  if 0 ≤ os.masterOpen then
    -- a failed `getPmemTotalSize` is what the function returns, also when the mapping succeeds
    let err := os.totalSize
    let s := { s with allocator := (A.setSize s.allocator masterSize.toNat).2 }
    match os.masterMmap with
    | none => (-os.errno.val, s, [])
    | some base =>
      (err, { s with masterFd := os.masterOpen, masterBase := base }, [.mmap base masterSize])
  else (-os.errno.val, s, [])

def initPmemArea : Int × PmemUserspaceAllocator α × List Call :=
  if s.masterFd = MASTER_FD_INIT then
    let (err, s, calls) := s.initPmemAreaLocked A os
    if err ≠ 0 then (err, { s with masterFd := err }, calls) else (err, s, calls)
  else if s.masterFd < 0 then (s.masterFd, s, [])
  else (0, s, [])

/-- The sub-heap: `open`, `connectPmem` and `mapPmem`. -/
def subHeap : Int :=
  let err := if os.openDev < 0 then os.openDev else 0
  let err := if err = 0 then os.connectPmem else err
  if err = 0 then os.mapPmem else err

/-- `alloc_pmem_buffer` after `init_pmem_area`. -/
def allocRange (size : UInt32) : Int × Area × PmemUserspaceAllocator α :=
  let (offset, a) := A.allocate s.allocator size.toNat
  let s := { s with allocator := a }
  if offset < 0 then (-ENOMEM, {}, s)
  else
    let err := subHeap os
    if err < 0 then
      (-os.errno.val, {}, { s with allocator := (A.deallocate a offset.toNat).2 })
    else (err, { base := s.masterBase, offset := offset, fd := os.openDev }, s)

def allocPmemBuffer (size : UInt32) : Int × Area × PmemUserspaceAllocator α × List Call :=
  let (err, s, calls) := s.initPmemArea A os
  if err = 0 then
    let (err, area, s) := s.allocRange A os size
    (err, area, s, calls)
  else (err, {}, s, calls)

/-- `free_pmem_buffer`; `unmapErr` is what `unmapPmem` returns. -/
def freePmemBuffer (unmapErr : Int) (offset fd : Int) : PmemUserspaceAllocator α :=
  -- we can't deallocate the memory in case of UNMAP failure because it would give that process
  -- access to someone else's surfaces
  if 0 ≤ fd ∧ unmapErr = 0 then
    { s with allocator := (A.deallocate s.allocator offset.toNat).2 }
  else s

end PmemUserspaceAllocator

/-! ## `PmemKernelAllocator` -/

def clp2 (x : UInt32) : UInt32 :=
  let x := x - 1
  let x := x ||| (x >>> 1)
  let x := x ||| (x >>> 2)
  let x := x ||| (x >>> 4)
  let x := x ||| (x >>> 8)
  let x := x ||| (x >>> 16)
  x + 1

namespace PmemKernelAllocator

def allocPmemBuffer (os : Os) (size : UInt32) : Int × Area × List Call :=
  if os.openDev < 0 then (-os.errno.val, {}, [])
  else
    -- The size should already be page aligned, now round it up to a power of 2.
    let size := clp2 size
    match os.mmap with
    | none => (-os.errno.val, {}, [])
    | some base => (0, { base := base, offset := 0, fd := os.openDev }, [.mmap base size])

/-- The size is rounded up as it was for the allocation. -/
def freePmemBuffer (size base : UInt32) : List Call := [.munmap base (clp2 size)]

end PmemKernelAllocator

end Twm.Gralloc
