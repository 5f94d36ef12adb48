import Mathlib.Logic.Function.Basic
import Mathlib.Algebra.Group.Nat.Defs
import Mathlib.Algebra.Group.Int.Defs

/-!
# The sub-allocator of the pmem heap (`libgralloc/allocator.h`, `allocator.cpp`)

`SimpleBestFitAllocator` hands out ranges of a heap. It counts in units of `kMemoryAlign` bytes
and keeps a doubly linked list of chunks (`LinkedList<chunk_t>`), free and allocated.

* The chunks are nodes in a memory (`mem`) at the addresses that `new` returned; a null pointer
  is `none`. `delete` leaves the node where it is: the addresses are not used again, and no
  pointer to a deleted chunk is read (`Gralloc/AllocatorLists.lean`).
* `size_t` has `wordBits` bits (`Platform`), `chunk_t::size` has 28, and arithmetic wraps.
* A loop over the list has the number of chunks ever made as fuel; that is enough for every list
  (`Gralloc/AllocatorLists.lean`).
* `LOG_FATAL_IF` ends the process in a debug build and is empty in a release build: `fatal` says
  which, and an operation that the log ended is `none`.
-/

namespace Twm.Gralloc

/-- What the code asks of the platform: the width of `size_t`, and `getpagesize()`, a power of
two that holds at least one unit. -/
structure Platform where
  wordBits : Nat
  pageShift : Nat
  le_wordBits : 32 ≤ wordBits
  le_pageShift : 5 ≤ pageShift
  pageShift_lt : pageShift < 32

/-- The 32-bit device with 4 KiB pages. -/
def Platform.arm : Platform := ⟨32, 12, by decide, by decide, by decide⟩

namespace Platform

variable (P : Platform)

def getpagesize : Nat := 2 ^ P.pageShift

/-- A value stored to a `size_t`. -/
def word (x : Nat) : Nat := x % 2 ^ P.wordBits

/-- A `size_t` read as a `ssize_t`. -/
def signed (x : Nat) : Int := if x < 2 ^ (P.wordBits - 1) then x else x - 2 ^ P.wordBits

end Platform

def ENOENT : Int := 2
def ENOMEM : Int := 12
def EINVAL : Int := 22

/-- Align all the memory blocks on a cache-line boundary. -/
def kMemoryAlign : Nat := 32

/-- A value stored to the 28-bit field `chunk_t::size`. -/
def bits28 (x : Nat) : Nat := x % 2 ^ 28

structure Chunk where
  start : Nat
  size : Nat
  free : Bool := true
  prev : Option Nat := none
  next : Option Nat := none
  deriving DecidableEq, Repr

structure SimpleBestFitAllocator where
  /-- The chunks, by address. -/
  mem : Nat → Chunk
  /-- The address that the next `new` returns. -/
  top : Nat
  mFirst : Option Nat
  mLast : Option Nat
  mHeapSize : Nat

namespace SimpleBestFitAllocator

/-- The allocator before `setSize`. -/
def init : SimpleBestFitAllocator where
  mem _ := { start := 0, size := 0 }
  top := 0
  mFirst := none
  mLast := none
  mHeapSize := 0

/-- A write to the chunk at `a`. -/
def modify (s : SimpleBestFitAllocator) (a : Nat) (f : Chunk → Chunk) : SimpleBestFitAllocator :=
  { s with mem := Function.update s.mem a (f (s.mem a)) }

/-- `new chunk_t(start, size)`. -/
def newChunk (s : SimpleBestFitAllocator) (start size : Nat) : Nat × SimpleBestFitAllocator :=
  (s.top, { s with
    mem := Function.update s.mem s.top { start := start, size := bits28 size }
    top := s.top + 1 })

/-! ## `LinkedList`

The operations write through a pointer, or to `mFirst`/`mLast` when it is null: the list object is
the neighbour of the first and of the last chunk. -/

/-- `if (o == 0) mFirst = v; else o->next = v;` -/
def setNext (s : SimpleBestFitAllocator) (o v : Option Nat) : SimpleBestFitAllocator :=
  match o with
  | none => { s with mFirst := v }
  | some a => s.modify a fun c => { c with next := v }

/-- `if (o == 0) mLast = v; else o->prev = v;` -/
def setPrev (s : SimpleBestFitAllocator) (o v : Option Nat) : SimpleBestFitAllocator :=
  match o with
  | none => { s with mLast := v }
  | some a => s.modify a fun c => { c with prev := v }

def insertAfter (s : SimpleBestFitAllocator) (node newNode : Nat) : SimpleBestFitAllocator :=
  let s := s.setPrev (some newNode) (some node)
  let s := s.setNext (some newNode) (s.mem node).next
  let s := s.setPrev (s.mem node).next (some newNode)
  s.setNext (some node) (some newNode)

def insertBefore (s : SimpleBestFitAllocator) (node newNode : Nat) : SimpleBestFitAllocator :=
  let s := s.setPrev (some newNode) (s.mem node).prev
  let s := s.setNext (some newNode) (some node)
  let s := s.setNext (s.mem node).prev (some newNode)
  s.setPrev (some node) (some newNode)

def insertHead (s : SimpleBestFitAllocator) (newNode : Nat) : SimpleBestFitAllocator :=
  match s.mFirst with
  | none =>
    let s := { s with mFirst := some newNode, mLast := some newNode }
    let s := s.setNext (some newNode) none
    s.setPrev (some newNode) none
  | some first =>
    let s := s.setPrev (some newNode) none
    let s := s.setNext (some newNode) (some first)
    let s := s.setPrev (some first) (some newNode)
    { s with mFirst := some newNode }

def remove (s : SimpleBestFitAllocator) (node : Nat) : SimpleBestFitAllocator :=
  let s := s.setNext (s.mem node).prev (s.mem node).next
  s.setPrev (s.mem node).next (s.mem node).prev

/-! ## `alloc` -/

/-- The units from `start` to the next page boundary:
`-start & ((pagesize/kMemoryAlign)-1)`. -/
def extra (P : Platform) (start : Nat) : Nat :=
  P.word (2 ^ P.wordBits - P.word start) &&& (P.getpagesize / kMemoryAlign - 1)

/-- The search loop of `alloc`: the best chunk so far is `best`. -/
def findFit (P : Platform) (s : SimpleBestFitAllocator) (size : Nat) :
    Nat → Option Nat → Option Nat → Option Nat
  | 0, _, best => best
  | _ + 1, none, best => best
  | fuel + 1, some cur, best =>
    let c := s.mem cur
    if c.free ∧ P.word (size + extra P c.start) ≤ c.size then
      -- best fit
      let best := match best with
        | none => some cur
        | some b => if c.size < (s.mem b).size then some cur else some b
      if c.size = size then best else findFit P s size fuel c.next best
    else findFit P s size fuel c.next best

/-- The units before the page boundary in `f` become a free chunk before it. -/
def splitBefore (P : Platform) (s : SimpleBestFitAllocator) (f extra : Nat) :
    SimpleBestFitAllocator :=
  let (split, s) := s.newChunk (s.mem f).start extra
  let s := s.modify f fun c => { c with start := P.word (c.start + extra) }
  s.insertBefore f split

/-- The `tailFree` units after the allocation `f` become a free chunk after it. -/
def splitAfter (P : Platform) (s : SimpleBestFitAllocator) (f tailFree : Nat) :
    SimpleBestFitAllocator :=
  let (split, s) := s.newChunk (P.word ((s.mem f).start + (s.mem f).size)) tailFree
  s.insertAfter f split

/-- `alloc` once it has found `f`: the allocation is the chunk `f`, and what is left before and
after it becomes free chunks. -/
def carve (P : Platform) (s : SimpleBestFitAllocator) (f size : Nat) : SimpleBestFitAllocator :=
  let freeSize := (s.mem f).size
  let s := s.modify f fun c => { c with free := false, size := bits28 size }
  if size < freeSize then
    let extra := extra P (s.mem f).start
    let s := if extra = 0 then s else splitBefore P s f extra
    let tailFree := P.signed (P.word (freeSize + 2 ^ P.wordBits - P.word (size + extra)))
    if 0 < tailFree then splitAfter P s f tailFree.toNat else s
  else s

def alloc (P : Platform) (s : SimpleBestFitAllocator) (size : Nat) :
    Int × SimpleBestFitAllocator :=
  if size = 0 then (0, s)
  else
    let size := P.word (size + kMemoryAlign - 1) / kMemoryAlign
    match findFit P s size (s.top + 1) s.mFirst none with
    | none => (-ENOMEM, s)
    | some f =>
      let s := carve P s f size
      (P.signed (P.word ((s.mem f).start * kMemoryAlign)), s)

/-! ## `dealloc` -/

/-- The search loop of `dealloc`. -/
def findStart (s : SimpleBestFitAllocator) (start : Nat) : Nat → Option Nat → Option Nat
  | 0, _ => none
  | _ + 1, none => none
  | fuel + 1, some cur =>
    if (s.mem cur).start = start then some cur else findStart s start fuel (s.mem cur).next

/-- The body of the merge loop of `dealloc`: a chunk after a free one (or an empty chunk) joins
its predecessor. -/
def mergePrev (s : SimpleBestFitAllocator) (cur freed : Nat) : Nat × SimpleBestFitAllocator :=
  match (s.mem cur).prev with
  | none => (freed, s)
  | some p =>
    if (s.mem p).free ∨ (s.mem cur).size = 0 then
      let s := s.modify p fun c => { c with size := bits28 (c.size + (s.mem cur).size) }
      (p, s.remove cur)
    else (freed, s)

/-- The merge loop of `dealloc`: `do … while (cur && cur->free)`. -/
def mergeFrom : Nat → Nat → Nat → SimpleBestFitAllocator → Nat × SimpleBestFitAllocator
  | 0, _, freed, s => (freed, s)
  | fuel + 1, cur, freed, s =>
    let n := (s.mem cur).next
    let (freed, s) := mergePrev s cur freed
    match n with
    | none => (freed, s)
    | some n => if (s.mem n).free then mergeFrom fuel n freed s else (freed, s)

/-- `dealloc`; `none`: the log ended the process. -/
def dealloc (fatal : Bool) (s : SimpleBestFitAllocator) (start : Nat) :
    Option (Option Nat × SimpleBestFitAllocator) :=
  let start := start / kMemoryAlign
  match findStart s start (s.top + 1) s.mFirst with
  | none => some (none, s)
  | some cur =>
    -- `LOG_FATAL_IF(cur->free, …)`: already freed
    if fatal ∧ (s.mem cur).free then none
    else
      let s := s.modify cur fun c => { c with free := true }
      let (freed, s) := mergeFrom (s.top + 1) cur cur s
      -- `LOG_FATAL_IF(!freed->free, …)`: the freed block is not free
      if fatal ∧ ¬ (s.mem freed).free then none
      else some (some freed, s)

/-! ## The interface -/

def setSize (P : Platform) (s : SimpleBestFitAllocator) (size : Nat) :
    Int × SimpleBestFitAllocator :=
  if s.mHeapSize ≠ 0 then (-EINVAL, s)
  else
    -- `(size + pagesize-1) & ~(pagesize-1)`
    let heapSize := P.word (size + P.getpagesize - 1) &&& (2 ^ P.wordBits - P.getpagesize)
    let s := { s with mHeapSize := heapSize }
    let (node, s) := s.newChunk 0 (heapSize / kMemoryAlign)
    (P.signed size, s.insertHead node)

def allocate (P : Platform) (s : SimpleBestFitAllocator) (size : Nat) :
    Int × SimpleBestFitAllocator :=
  if s.mHeapSize = 0 then (-EINVAL, s) else alloc P s size

/-- `deallocate`; `none`: the log ended the process. -/
def deallocate (fatal : Bool) (s : SimpleBestFitAllocator) (offset : Nat) :
    Option (Int × SimpleBestFitAllocator) :=
  if s.mHeapSize = 0 then some (-EINVAL, s)
  else
    match dealloc fatal s offset with
    | none => none
    | some (some _, s) => some (0, s)
    | some (none, s) => some (-ENOENT, s)

/-- The chunks from `cur` on, as a walk along `next` reads them. -/
def walk (s : SimpleBestFitAllocator) : Nat → Option Nat → List Nat
  | 0, _ => []
  | _ + 1, none => []
  | fuel + 1, some cur => cur :: walk s fuel (s.mem cur).next

/-- The chunk list, head to tail. -/
def chunkList (s : SimpleBestFitAllocator) : List Nat := s.walk (s.top + 1) s.mFirst

end SimpleBestFitAllocator

end Twm.Gralloc
