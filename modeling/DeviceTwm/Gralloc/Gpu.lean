import DeviceTwm.Gralloc.Pmem
import DeviceTwm.Gralloc.Mapper

/-!
# Allocating and freeing a buffer (`libgralloc/gpu.cpp`)

`alloc_impl` chooses where a buffer comes from: the framebuffer, the pmem heap, the pmem of the ADSP
or ashmem. `free_impl` goes by the flags of the handle, and leaves the rest to `terminateBuffer` of
`mapper.cpp`.

`Build` is what does not change while the process runs: whether the module was built with
`USE_ASHMEM`, and `getpid()`.
-/

namespace Twm.Gralloc

structure Build where
  useAshmem : Bool
  pid : Nat

/-- The tests on `usage`. -/
structure AllocUsage where
  hwTexture : Bool := false
  hw2d : Bool := false
  hwFb : Bool := false
  /-- The other bits of `GRALLOC_USAGE_HW_MASK`. -/
  hwOther : Bool := false
  /-- `GRALLOC_USAGE_PRIVATE_PMEM`. -/
  pmem : Bool := false
  /-- `GRALLOC_USAGE_PRIVATE_PMEM_ADSP`. -/
  pmemAdsp : Bool := false
  deriving DecidableEq

/-- `usage & GRALLOC_USAGE_HW_MASK`. -/
def AllocUsage.hwMask (u : AllocUsage) : Bool := u.hwTexture || u.hw2d || u.hwFb || u.hwOther

/-- `PRIV_FLAGS_…`. -/
structure Flags where
  framebuffer : Bool := false
  usesPmem : Bool := false
  usesPmemAdsp : Bool := false
  needsFlush : Bool := false
  usesAshmem : Bool := false
  deriving DecidableEq

/-- `private_handle_t`. -/
structure PrivateHandle where
  fd : Int
  flags : Flags
  size : UInt32
  offset : Int := 0
  base : UInt32 := 0
  lockState : UInt32 := 0
  writeOwner : Nat := 0
  pid : Nat
  deriving DecidableEq

/-- What `private_module_t` has of the framebuffer, and the allocator of the pmem heap. -/
structure Module (α : Type) where
  pmem : PmemUserspaceAllocator α
  /-- `framebuffer->base`. -/
  framebuffer : Option UInt32
  fbFd : Int
  numBuffers : UInt32
  bufferMask : UInt32
  /-- `finfo.line_length`. -/
  lineLength : UInt32
  /-- `info.yres`. -/
  yres : UInt32

/-- What the framebuffer device reports. -/
structure FbInfo where
  fd : Int
  lineLength : UInt32
  yres : UInt32
  yresVirtual : UInt32

/-- The calls of an allocation, those for the framebuffer included. -/
structure GpuOs extends Os where
  /-- The calls of `mapFrameBufferLocked` before it maps; one that fails is `none`. -/
  fbProbe : Option FbInfo
  fbMmap : Option UInt32
  dup : Int

/-- What an allocation returns, and the calls it made. -/
structure Allocated (α : Type) where
  err : Int
  handle : Option PrivateHandle
  module : Module α
  calls : List Call

def roundUpToPageSize (x : UInt32) : UInt32 := (x + (4096 - 1)) &&& ~~~(4096 - 1)

/-! ## `mapper.cpp` -/

/-- `gralloc_unmap`. -/
def grallocUnmap (hnd : PrivateHandle) : PrivateHandle × List Call :=
  let calls :=
    if hnd.flags.framebuffer then []
    else
      -- `PMEM_HACK`
      let offset := UInt32.ofInt hnd.offset
      [.munmap (hnd.base - offset) (hnd.size + offset)]
  ({ hnd with base := 0 }, calls)

/-- `terminateBuffer`. -/
def terminateBuffer (B : Build) (hnd : PrivateHandle) : PrivateHandle × List Call :=
  if Mapper.isMapped hnd.lockState then
    if hnd.flags.usesPmem ∨ hnd.flags.usesAshmem then
      -- a "master" pmem buffer is mapped in the process it's been allocated
      if hnd.pid ≠ B.pid then grallocUnmap hnd else (hnd, [])
    else grallocUnmap hnd
  else (hnd, [])

/-! ## `gralloc_alloc_buffer` -/

/-- `alloc_ashmem_buffer`. -/
def allocAshmemBuffer (os : Os) (size : UInt32) : Int × Area × List Call :=
  if os.ashmem < 0 then (-os.errno.val, {}, [])
  else if os.setProt < 0 then (-os.errno.val, {}, [])
  else
    match os.mmap with
    | none => (-os.errno.val, {}, [])
    | some base => (0, { base := base, offset := 0, fd := os.ashmem }, [.mmap base size])

section

variable {α : Type} (A : SubAllocator α) (B : Build) (os : GpuOs) (m : Module α)

/-- The flags that `usage` asks for. -/
def pmemFlags (u : AllocUsage) : Flags :=
  let pmem := if B.useAshmem then u.pmem else u.hwTexture || u.hw2d
  { usesPmem := pmem && !u.pmemAdsp, usesPmemAdsp := u.pmemAdsp }

/-- The end of `gralloc_alloc_buffer`. -/
def newHandle (size : UInt32) (err : Int) (area : Area) (flags : Flags) (lockState : UInt32)
    (m : Module α) (calls : List Call) : Allocated α :=
  if err = 0 then
    { err := 0
      handle := some
        { fd := area.fd, flags := flags, size := size, offset := area.offset,
          base := area.base + UInt32.ofInt area.offset, lockState := lockState, pid := B.pid }
      module := m
      calls := calls }
  else { err := err, handle := none, module := m, calls := calls }

/-- The label `try_ashmem`: a region that is not mapped. -/
def tryAshmem (size : UInt32) (flags : Flags) (lockState : UInt32) (m : Module α)
    (calls : List Call) : Allocated α :=
  newHandle B size (if os.ashmem < 0 then -os.errno.val else 0) { fd := os.ashmem } flags lockState m
    calls

def grallocAllocBuffer (size : UInt32) (u : AllocUsage) : Allocated α :=
  let size := roundUpToPageSize size
  let flags := pmemFlags B u
  if flags.usesPmem then
    -- PMEM buffers are always mmapped
    let lockState := Mapper.LOCK_STATE_MAPPED
    let (err, area, pmem, calls) := m.pmem.allocPmemBuffer A os.toOs size
    let m := { m with pmem := pmem }
    if err < 0 ∧ u.hwMask = false ∧ u.pmemAdsp = false then
      -- the caller didn't request PMEM, so we can try something else
      tryAshmem B os size { flags with usesPmem := false } lockState m calls
    else newHandle B size err area flags lockState m calls
  else if flags.usesPmemAdsp then
    let lockState := Mapper.LOCK_STATE_MAPPED
    let (err, area, calls) := PmemKernelAllocator.allocPmemBuffer os.toOs size
    if err < 0 ∧ u.hwMask = false ∧ u.pmemAdsp = false then
      tryAshmem B os size flags lockState m calls
    else newHandle B size err area flags lockState m calls
  else
    let (err, area, calls) := allocAshmemBuffer os.toOs size
    let lockState := if 0 ≤ err then Mapper.LOCK_STATE_MAPPED else 0
    newHandle B size err area { flags with usesAshmem := true } lockState m calls

/-! ## The framebuffer -/

/-- `mapFrameBufferLocked`, when there is no framebuffer yet. -/
def mapFrameBufferLocked : Int × Module α × List Call :=
  match os.fbProbe with
  | none => (-os.errno.val, m, [])
  | some i =>
    let fbSize := roundUpToPageSize (i.lineLength * i.yresVirtual)
    -- the handle is there, with a null base, before the mapping
    let m := { m with
      framebuffer := some 0, fbFd := i.fd, numBuffers := i.yresVirtual / i.yres, bufferMask := 0
      lineLength := i.lineLength, yres := i.yres }
    match os.fbMmap with
    | none => (-os.errno.val, m, [])
    | some base => (0, { m with framebuffer := some base }, [.mmap base fbSize])

/-- `m->finfo.line_length * m->info.yres`. -/
def Module.bufferSize : UInt32 := m.lineLength * m.yres

/-- The loop that finds a free slot, from slot `i` at `vaddr` on. -/
def findSlot (mask bufferSize : UInt32) : Nat → UInt32 → UInt32 → UInt32 × UInt32
  | 0, _, vaddr => (mask, vaddr)
  | n + 1, i, vaddr =>
    if mask &&& (1 <<< i) = 0 then (mask ||| (1 <<< i), vaddr)
    else findSlot mask bufferSize n (i + 1) (vaddr + bufferSize)

/-- `gralloc_alloc_framebuffer_locked` once the framebuffer is there; `calls` mapped it. -/
def allocSlot (u : AllocUsage) (base : UInt32) (calls : List Call) : Allocated α :=
  if m.numBuffers = 1 then
    -- If we have only one buffer, we never use page-flipping.
    let r := grallocAllocBuffer A B os m m.bufferSize { u with hwFb := false, hw2d := true }
    { r with calls := calls ++ r.calls }
  else if (1 <<< m.numBuffers) - 1 ≤ m.bufferMask then
    { err := -ENOMEM, handle := none, module := m, calls := calls }
  else
    let (mask, vaddr) := findSlot m.bufferMask m.bufferSize m.numBuffers.toNat 0 base
    { err := 0
      handle := some
        { fd := os.dup, flags := { usesPmem := true, framebuffer := true }, size := m.bufferSize,
          offset := (vaddr - base).toNat, base := vaddr, pid := B.pid }
      module := { m with bufferMask := mask }
      calls := calls }

def grallocAllocFramebuffer (u : AllocUsage) : Allocated α :=
  -- we don't support allocations with both the FB and PMEM_ADSP flags
  if u.pmemAdsp then { err := -EINVAL, handle := none, module := m, calls := [] }
  else
    match m.framebuffer with
    | some base => allocSlot A B os m u base []
    | none =>
      -- the framebuffer is mapped once and forever
      let (err, m, calls) := mapFrameBufferLocked os m
      if err < 0 then { err := err, handle := none, module := m, calls := calls }
      else allocSlot A B os m u (m.framebuffer.getD 0) calls

/-! ## `alloc_impl` and `free_impl` -/

/-- The formats that `alloc_impl` knows, and any other. -/
inductive PixelFormat
  | RGBA_8888 | RGBX_8888 | BGRA_8888 | RGB_888 | RGB_565 | RGBA_5551 | RGBA_4444
  | YCrCb_420_SP_ADRENO | YCbCr_420_SP_TILED | YV12 | other
  deriving DecidableEq

/-- `ALIGN`. -/
def ALIGN (x align : UInt32) : UInt32 := (x + align - 1) &&& ~~~(align - 1)

/-- The size and the stride of a buffer; `none`: `-EINVAL`. -/
def sizeAndStride (w h : Int32) (format : PixelFormat) : Option (UInt32 × UInt32) :=
  let alignedw := ALIGN w.toUInt32 32
  let alignedh := ALIGN h.toUInt32 32
  match format with
  | .RGBA_8888 | .RGBX_8888 | .BGRA_8888 => some (alignedw * alignedh * 4, alignedw)
  | .RGB_888 => some (alignedw * alignedh * 3, alignedw)
  | .RGB_565 | .RGBA_5551 | .RGBA_4444 => some (alignedw * alignedh * 2, alignedw)
  | .YCrCb_420_SP_ADRENO =>
    some (ALIGN (alignedw * alignedh) 4096 +
      ALIGN (2 * ALIGN (w / 2).toUInt32 32 * ALIGN (h / 2).toUInt32 32) 4096, alignedw)
  | .YCbCr_420_SP_TILED =>
    -- The GPU needs 4K alignment, but the video decoder needs 8K
    let alignedw := ALIGN w.toUInt32 128
    some (ALIGN (alignedw * alignedh) 8192 + ALIGN (alignedw * ALIGN (h / 2).toUInt32 32) 4096,
      alignedw)
  | .YV12 =>
    if w &&& 1 ≠ 0 ∨ h &&& 1 ≠ 0 then none
    else
      let alignedw := ALIGN w.toUInt32 16
      let alignedh := h.toUInt32
      some (alignedw * alignedh + ALIGN (alignedw / 2) 16 * (alignedh / 2) * 2, alignedw)
  | .other => none

/-- What a client asks of `alloc_impl`. -/
structure Request where
  w : Int32
  h : Int32
  format : PixelFormat
  usage : AllocUsage

/-- The size of the buffer that is asked for, if `alloc_impl` accepts it. -/
def Request.size (q : Request) : Option UInt32 :=
  match sizeAndStride q.w q.h q.format with
  | none => none
  | some (size, _) => if size.toInt32 ≤ 0 then none else some size

/-- `alloc_impl`; the stride it reports is in `sizeAndStride`. -/
def allocImpl (q : Request) : Allocated α :=
  match q.size with
  | none => { err := -EINVAL, handle := none, module := m, calls := [] }
  | some size =>
    if q.usage.hwFb then grallocAllocFramebuffer A B os m q.usage
    else grallocAllocBuffer A B os m size q.usage

/-- `free_impl`; `unmapErr` is what `unmapPmem` returns. -/
def freeImpl (unmapErr : Int) (hnd : PrivateHandle) : Module α × List Call :=
  if hnd.flags.framebuffer then
    let index := (hnd.base - m.framebuffer.getD 0) / m.bufferSize
    ({ m with bufferMask := m.bufferMask &&& ~~~(1 <<< index) }, [])
  else if hnd.flags.usesPmem then
    ({ m with pmem := m.pmem.freePmemBuffer A unmapErr hnd.offset hnd.fd },
      (terminateBuffer B hnd).2)
  else if hnd.flags.usesPmemAdsp then
    (m, PmemKernelAllocator.freePmemBuffer hnd.size hnd.base ++ (terminateBuffer B hnd).2)
  else if hnd.flags.usesAshmem then
    let calls := if 0 ≤ hnd.fd ∧ hnd.base ≠ 0 then [.munmap hnd.base hnd.size] else []
    (m, calls ++ (terminateBuffer B hnd).2)
  else (m, (terminateBuffer B hnd).2)

end

end Twm.Gralloc
