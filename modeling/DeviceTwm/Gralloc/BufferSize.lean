import Mathlib.Algebra.Order.Ring.Int
import DeviceTwm.Gralloc.Gpu
import DeviceTwm.Lib.Align

/-!
# The size of a buffer (`libgralloc/gpu.cpp`)

`alloc_impl` computes the size of a buffer with 32-bit words, and refuses it when it is not positive
as an `ssize_t`. `Request.planes` are the planes over all integers; the size that is asked for is
their sum modulo `2 ^ 32`.

* `sizeAndStride_eq`: the words follow the integers, whatever their signs.
* `sizesHold_iff`: a sum that wraps, and lands below `2 ^ 31`, is not noticed. Two negative
  dimensions are enough, and so are two large ones.
-/

namespace Twm.Gralloc

open Lib

/-! ## Signed words -/

theorem toInt_toInt32 (x : UInt32) :
    x.toInt32.toInt = if x.toNat < 2 ^ 31 then (x.toNat : Int) else x.toNat - 2 ^ 32 := by
  have h := BitVec.toInt_eq_toNat_cond x.toBitVec
  rw [show x.toInt32.toInt = x.toBitVec.toInt from rfl, h, UInt32.toNat_toBitVec]
  split <;> split <;> omega

theorem toUInt32_eq_ofInt (x : Int32) : x.toUInt32 = UInt32.ofInt x.toInt := by
  apply UInt32.toNat_inj.mp
  have h := toNat_ofInt x.toInt
  have hx := toInt_toInt32 x.toUInt32
  rw [show x.toUInt32.toInt32 = x from rfl] at hx
  have hlt := x.toUInt32.toNat_lt
  split at hx <;> omega

theorem half_eq_ofInt (x : Int32) : (x / 2).toUInt32 = UInt32.ofInt (x.toInt.tdiv 2) := by
  rw [toUInt32_eq_ofInt, Int32.toInt_div_of_ne_right x 2 (by decide)]
  rfl

theorem odd_iff (x : Int32) : x &&& 1 ≠ 0 ↔ ¬ 2 ∣ x.toInt := by
  have hnat : (x &&& 1).toUInt32.toNat = x.toUInt32.toNat % 2 := by
    rw [show (x &&& 1).toUInt32 = x.toUInt32 &&& 1 from rfl, UInt32.toNat_and]
    exact Nat.and_one_is_mod _
  have hzero : x &&& 1 = 0 ↔ x.toUInt32.toNat % 2 = 0 := by
    rw [← hnat]
    constructor
    · intro h
      rw [h]
      rfl
    · intro h
      exact congrArg UInt32.toInt32 (UInt32.toNat_inj.mp h : (x &&& 1).toUInt32 = 0)
  have hint := toNat_ofInt x.toInt
  rw [← toUInt32_eq_ofInt] at hint
  rw [ne_eq, hzero]
  omega

/-! ## The planes -/

/-- A row starts at a multiple of so many pixels. -/
def PixelFormat.granule : PixelFormat → Int
  | .YCbCr_420_SP_TILED => 128
  | .YV12 => 16
  | _ => 32

/-- The stride, over all integers. -/
def Request.stride (q : Request) : Int := alignUp q.w.toInt q.format.granule

/-- The sizes of the planes of a buffer with that stride, over all integers. -/
def Request.planes (q : Request) (stride : Int) : List Int :=
  let h := q.h.toInt
  let rows := alignUp h 32
  match q.format with
  | .RGBA_8888 | .RGBX_8888 | .BGRA_8888 => [stride * rows * 4]
  | .RGB_888 => [stride * rows * 3]
  | .RGB_565 | .RGBA_5551 | .RGBA_4444 => [stride * rows * 2]
  | .YCrCb_420_SP_ADRENO =>
    [alignUp (stride * rows) 4096,
      alignUp (2 * alignUp (q.w.toInt.tdiv 2) 32 * alignUp (h.tdiv 2) 32) 4096]
  | .YCbCr_420_SP_TILED =>
    [alignUp (stride * rows) 8192, alignUp (stride * alignUp (h.tdiv 2) 32) 4096]
  | .YV12 =>
    let chroma := alignUp (stride / 2) 16 * (h / 2)
    [stride * h, chroma, chroma]
  | .other => []

/-- The size of a buffer, over all integers. -/
def Request.trueSize (q : Request) : Int := (q.planes q.stride).sum

/-- The formats and dimensions that `alloc_impl` does not know. -/
def Request.Refused (q : Request) : Prop :=
  q.format = .other ∨ q.format = .YV12 ∧ (¬ 2 ∣ q.w.toInt ∨ ¬ 2 ∣ q.h.toInt)

instance (q : Request) : Decidable q.Refused := inferInstanceAs (Decidable (_ ∨ _))

/-! ## The words follow the integers -/

theorem ALIGN_ofInt (X : Int) {g : UInt32} {k : Nat} (hk : k < 32) (hg : g.toNat = 2 ^ k) :
    ALIGN (UInt32.ofInt X) g = UInt32.ofInt (alignUp X (2 ^ k)) := ofInt_align X hk hg

/-- The same with the mask written out. -/
theorem mask_eq_ALIGN (x g : UInt32) : (x + (g - 1)) &&& ~~~(g - 1) = ALIGN x g := by
  unfold ALIGN
  rw [UInt32.sub_eq_add_neg (x + g), UInt32.add_assoc, ← UInt32.sub_eq_add_neg]

@[simp] theorem ALIGN_16 (X : Int) : ALIGN (UInt32.ofInt X) 16 = UInt32.ofInt (alignUp X 16) :=
  ALIGN_ofInt X (k := 4) (by decide) rfl

@[simp] theorem ALIGN_32 (X : Int) : ALIGN (UInt32.ofInt X) 32 = UInt32.ofInt (alignUp X 32) :=
  ALIGN_ofInt X (k := 5) (by decide) rfl

@[simp] theorem ALIGN_128 (X : Int) : ALIGN (UInt32.ofInt X) 128 = UInt32.ofInt (alignUp X 128) :=
  ALIGN_ofInt X (k := 7) (by decide) rfl

@[simp] theorem ALIGN_4096 (X : Int) :
    ALIGN (UInt32.ofInt X) 4096 = UInt32.ofInt (alignUp X 4096) :=
  ALIGN_ofInt X (k := 12) (by decide) rfl

@[simp] theorem ALIGN_8192 (X : Int) :
    ALIGN (UInt32.ofInt X) 8192 = UInt32.ofInt (alignUp X 8192) :=
  ALIGN_ofInt X (k := 13) (by decide) rfl

/-- Half of an even word: as an integer, but for the top bit when that is negative. -/
theorem half_ofInt {X : Int} (hlow : -2 ^ 32 ≤ X) (hup : X < 2 ^ 32) :
    UInt32.ofInt X / 2 = UInt32.ofInt (X / 2 + if X < 0 then 2 ^ 31 else 0) := by
  apply UInt32.toNat_inj.mp
  have hX := toNat_ofInt X
  rw [UInt32.toNat_div]
  simp only [UInt32.reduceToNat]
  split
  · have hhalf := toNat_ofInt (X / 2 + 2 ^ 31)
    omega
  · have hhalf := toNat_ofInt (X / 2 + 0)
    omega

/-- The chroma planes of a `YV12` buffer. A height that is even makes up for the top bit of half a
negative stride. -/
theorem chroma_ofInt {A H : Int} (hlow : -2 ^ 32 ≤ A) (hup : A < 2 ^ 32) (hH : 2 ∣ H)
    (hHlow : -2 ^ 32 ≤ H) (hHup : H < 2 ^ 32) :
    ALIGN (UInt32.ofInt A / 2) 16 * (UInt32.ofInt H / 2) * 2 =
      UInt32.ofInt (alignUp (A / 2) 16 * (H / 2) + alignUp (A / 2) 16 * (H / 2)) := by
  obtain ⟨n, rfl⟩ := hH
  rw [half_ofInt hlow hup, half_ofInt hHlow hHup, ALIGN_16, show (2 : UInt32) = UInt32.ofInt 2 from rfl,
    ← UInt32.ofInt_mul, ← UInt32.ofInt_mul]
  apply ofInt_congr
  have hsplit : alignUp (A / 2 + if A < 0 then 2 ^ 31 else 0) 16 =
      alignUp (A / 2) 16 + if A < 0 then 2 ^ 31 else 0 := by
    rw [Int.add_comm, alignUp_add (by decide) (by split <;> decide), Int.add_comm]
  rw [hsplit, Int.mul_ediv_cancel_left n (by decide)]
  generalize alignUp (A / 2) 16 = C
  -- What the top bits add is a multiple of `2 ^ 32`.
  have hmul : ∃ k, (C + if A < 0 then 2 ^ 31 else 0) * (n + if 2 * n < 0 then 2 ^ 31 else 0) * 2 =
      C * n + C * n + 2 ^ 32 * k := by
    split <;> split
    · exact ⟨C + n + 2 ^ 31, by ring⟩
    · exact ⟨n, by ring⟩
    · exact ⟨C, by ring⟩
    · exact ⟨0, by ring⟩
  obtain ⟨k, hk⟩ := hmul
  rw [hk, Int.add_mul_emod_self_left]

/-- Every word of `alloc_impl` is an integer modulo `2 ^ 32`. -/
theorem sizeAndStride_eq (q : Request) :
    sizeAndStride q.w q.h q.format =
      if q.Refused then none else some (UInt32.ofInt q.trueSize, UInt32.ofInt q.stride) := by
  obtain ⟨w, h, format, usage⟩ := q
  have htwo : (2 : UInt32) = UInt32.ofInt 2 := rfl
  have hthree : (3 : UInt32) = UInt32.ofInt 3 := rfl
  have hfour : (4 : UInt32) = UInt32.ofInt 4 := rfl
  cases format with
  | other => simp [sizeAndStride, Request.Refused]
  | YV12 =>
    have hrefused : Request.Refused ⟨w, h, .YV12, usage⟩ ↔ w &&& 1 ≠ 0 ∨ h &&& 1 ≠ 0 := by
      simp only [Request.Refused, odd_iff]
      simp
    by_cases hodd : w &&& 1 ≠ 0 ∨ h &&& 1 ≠ 0
    · rw [if_pos (hrefused.mpr hodd)]
      exact if_pos hodd
    · rw [if_neg (mt hrefused.mp hodd)]
      rw [odd_iff, odd_iff, not_or, not_not, not_not] at hodd
      have hw := w.toInt_lt
      have hw' := w.le_toInt
      have hh := h.toInt_lt
      have hh' := h.le_toInt
      have hle := le_alignUp w.toInt (show (0 : Int) < 16 by decide)
      have hlt := alignUp_lt w.toInt (show (0 : Int) < 16 by decide)
      have hchroma := chroma_ofInt (A := alignUp w.toInt 16) (H := h.toInt) (by omega) (by omega)
        hodd.2 (by omega) (by omega)
      simp only [sizeAndStride, odd_iff, hodd.1, hodd.2, not_true_eq_false, or_self, if_false,
        toUInt32_eq_ofInt, ALIGN_16, hchroma, ← UInt32.ofInt_mul, ← UInt32.ofInt_add,
        Request.trueSize, Request.planes, Request.stride, PixelFormat.granule, List.sum_cons,
        List.sum_nil, Int.add_zero]
  | _ =>
    rw [if_neg (by simp [Request.Refused])]
    simp only [sizeAndStride, half_eq_ofInt]
    simp only [toUInt32_eq_ofInt, htwo, hthree, hfour, ALIGN_32, ALIGN_128, ALIGN_4096, ALIGN_8192,
      ← UInt32.ofInt_mul, ← UInt32.ofInt_add, Request.trueSize, Request.planes, Request.stride,
      PixelFormat.granule, List.sum_cons, List.sum_nil, Int.add_zero]

/-! ## What an accepted size says -/

variable {q : Request}

theorem granule_pos (format : PixelFormat) : 0 < format.granule := by
  cases format <;> decide

theorem Request.le_stride (q : Request) : q.w.toInt ≤ q.stride :=
  le_alignUp _ (granule_pos _)

/-- A positive width has its own stride for a word. -/
theorem toNat_stride (hw : 0 < q.w.toInt) : ((UInt32.ofInt q.stride).toNat : Int) = q.stride := by
  have hlt := alignUp_lt q.w.toInt (granule_pos q.format)
  have hle := q.le_stride
  have hmax := q.w.toInt_lt
  have hgranule : q.format.granule ≤ 128 := by cases q.format <;> decide
  have h := toNat_ofInt q.stride
  unfold Request.stride at *
  rw [Int.emod_eq_of_lt (by omega) (by omega)] at h
  exact h

/-- The rows of a buffer are there. -/
theorem stride_le_trueSize (hw : 0 < q.w.toInt) (hh : 0 < q.h.toInt) (hr : ¬ q.Refused) :
    q.stride ≤ q.trueSize := by
  obtain ⟨w, h, format, usage⟩ := q
  simp only at hw hh
  have hstride : 0 < Request.stride ⟨w, h, format, usage⟩ := Int.lt_of_lt_of_le hw (Request.le_stride _)
  have hrows := alignUp_pos (show (0 : Int) < 32 by decide) hh
  have hhalf (x : Int) (hx : 0 < x) : 0 ≤ alignUp (x.tdiv 2) 32 :=
    alignUp_nonneg (by decide) (Int.tdiv_nonneg (Int.le_of_lt hx) (by decide))
  unfold Request.trueSize
  generalize Request.stride ⟨w, h, format, usage⟩ = s at hstride ⊢
  have hplane : s ≤ s * alignUp h.toInt 32 := le_mul_of_one_le_right (by omega) hrows
  cases format with
  | other => exact absurd (.inl rfl) hr
  | YV12 =>
    have hluma : s ≤ s * h.toInt := le_mul_of_one_le_right (by omega) hh
    have hchroma : 0 ≤ alignUp (s / 2) 16 * (h.toInt / 2) :=
      Int.mul_nonneg (alignUp_nonneg (by decide) (by omega)) (by omega)
    simp only [Request.planes, List.sum_cons, List.sum_nil]
    omega
  | YCrCb_420_SP_ADRENO =>
    have hluma := le_alignUp (s * alignUp h.toInt 32) (show (0 : Int) < 4096 by decide)
    have hchroma : 0 ≤ 2 * alignUp (w.toInt.tdiv 2) 32 * alignUp (h.toInt.tdiv 2) 32 :=
      Int.mul_nonneg (Int.mul_nonneg (by decide) (hhalf _ hw)) (hhalf _ hh)
    have hround := alignUp_nonneg (show (0 : Int) < 4096 by decide) hchroma
    simp only [Request.planes, List.sum_cons, List.sum_nil]
    omega
  | YCbCr_420_SP_TILED =>
    have hluma := le_alignUp (s * alignUp h.toInt 32) (show (0 : Int) < 8192 by decide)
    have hchroma : 0 ≤ s * alignUp (h.toInt.tdiv 2) 32 :=
      Int.mul_nonneg (Int.le_of_lt hstride) (hhalf _ hh)
    have hround := alignUp_nonneg (show (0 : Int) < 4096 by decide) hchroma
    simp only [Request.planes, List.sum_cons, List.sum_nil]
    omega
  | _ =>
    simp only [Request.planes, List.sum_cons, List.sum_nil]
    omega

theorem Request.size_eq (q : Request) : q.size =
    if q.Refused ∨ (UInt32.ofInt q.trueSize).toInt32 ≤ 0 then none
    else some (UInt32.ofInt q.trueSize) := by
  unfold Request.size
  rw [sizeAndStride_eq]
  by_cases hr : q.Refused <;> simp [hr]

/-- As an `ssize_t`, a size is positive if it is below `2 ^ 31` as it wraps. -/
theorem ssize_pos (X : Int) :
    ¬ (UInt32.ofInt X).toInt32 ≤ 0 ↔ 0 < X % 2 ^ 32 ∧ X % 2 ^ 32 < 2 ^ 31 := by
  have h := toInt_toInt32 (UInt32.ofInt X)
  have hX := toNat_ofInt X
  have hlt := (UInt32.ofInt X).toNat_lt
  rw [Int32.le_iff_toInt_le, h]
  simp only [Int32.toInt_zero]
  split <;> omega

theorem toNat_roundUpToPageSize (X : Int) :
    ((roundUpToPageSize (UInt32.ofInt X)).toNat : Int) = alignUp X 4096 % 2 ^ 32 := by
  unfold roundUpToPageSize
  rw [mask_eq_ALIGN, ALIGN_4096, toNat_ofInt]

/-! ## What an allocation of that size returns -/

section

variable {α : Type} (A : SubAllocator α) (B : Build) (os : GpuOs) (m : Module α)

theorem newHandle_size {size : UInt32} {err : Int} {area : Area} {flags : Flags} {lockState : UInt32}
    {calls : List Call} {hnd : PrivateHandle}
    (h : (newHandle B size err area flags lockState m calls).handle = some hnd) : hnd.size = size := by
  unfold newHandle at h
  split at h
  · injection h with h
    rw [← h]
  · cases h

/-- The size of a handle is what was asked of the allocator. -/
theorem grallocAllocBuffer_size {size : UInt32} {u : AllocUsage} {hnd : PrivateHandle}
    (h : (grallocAllocBuffer A B os m size u).handle = some hnd) :
    hnd.size = roundUpToPageSize size := by
  unfold grallocAllocBuffer at h
  simp only at h
  split at h
  · split at h
    · exact newHandle_size B _ h
    · exact newHandle_size B _ h
  · split at h
    · split at h
      · exact newHandle_size B _ h
      · exact newHandle_size B _ h
    · exact newHandle_size B _ h

end

/-- What the caller of an allocation of that size and stride relies on. -/
structure HoldsPlanes (q : Request) (size stride : UInt32) : Prop where
  width : 0 < q.w
  height : 0 < q.h
  row : q.w ≤ stride.toInt32
  bytes : (q.planes stride.toNat).sum ≤ (roundUpToPageSize size).toNat

/-- An allocation that returns 0 asked the allocator for the planes. `alloc_impl` returns 0 unless
the allocator's result is negative. -/
def SizesHold (q : Request) : Prop :=
  ∀ (α : Type) (A : SubAllocator α) (B : Build) (os : GpuOs) (m : Module α),
    0 ≤ (allocImpl A B os m q).err →
      ∃ size stride, sizeAndStride q.w q.h q.format = some (size, stride) ∧ HoldsPlanes q size stride ∧
        ∀ hnd, (allocImpl A B os m q).handle = some hnd → hnd.size = roundUpToPageSize size

/-- The size wraps to a value that is refused, or does not wrap. -/
def Request.Safe (q : Request) : Prop :=
  q.Refused ∨ q.trueSize % 2 ^ 32 = 0 ∨ 2 ^ 31 ≤ q.trueSize % 2 ^ 32 ∨
    0 < q.w ∧ 0 < q.h ∧ q.trueSize < 2 ^ 31

instance (q : Request) : Decidable q.Safe := inferInstanceAs (Decidable (_ ∨ _))

/-- Sizes below `2 ^ 31` of positive dimensions are right. -/
theorem holdsPlanes_of_lt (hw : 0 < q.w) (hh : 0 < q.h) (hr : ¬ q.Refused) (hsize : q.trueSize < 2 ^ 31) :
    HoldsPlanes q (UInt32.ofInt q.trueSize) (UInt32.ofInt q.stride) where
  width := hw
  height := hh
  row := by
    have hw' : 0 < q.w.toInt := Int32.lt_iff_toInt_lt.mp hw
    have hstride := toNat_stride hw'
    have hle := stride_le_trueSize hw' (Int32.lt_iff_toInt_lt.mp hh) hr
    have hws := q.le_stride
    rw [Int32.le_iff_toInt_le, toInt_toInt32, if_pos (by omega)]
    omega
  bytes := by
    have hw' : 0 < q.w.toInt := Int32.lt_iff_toInt_lt.mp hw
    have hle := stride_le_trueSize hw' (Int32.lt_iff_toInt_lt.mp hh) hr
    have hws := q.le_stride
    have hup := le_alignUp q.trueSize (show (0 : Int) < 4096 by decide)
    have hlt := alignUp_lt q.trueSize (show (0 : Int) < 4096 by decide)
    rw [toNat_roundUpToPageSize, toNat_stride hw', Int.emod_eq_of_lt (by omega) (by omega)]
    exact hup

/-- What is accepted fits only if the size did not wrap. -/
theorem HoldsPlanes.lt (h : HoldsPlanes q (UInt32.ofInt q.trueSize) (UInt32.ofInt q.stride)) (hr : ¬ q.Refused)
    (hlt : q.trueSize % 2 ^ 32 < 2 ^ 31) : q.trueSize < 2 ^ 31 := by
  have hw : 0 < q.w.toInt := Int32.lt_iff_toInt_lt.mp h.width
  have hle := stride_le_trueSize hw (Int32.lt_iff_toInt_lt.mp h.height) hr
  have hws := q.le_stride
  have hbytes := h.bytes
  rw [toNat_stride hw] at hbytes
  have hpage : ((roundUpToPageSize (UInt32.ofInt q.trueSize)).toNat : Int) ≤ 2 ^ 31 := by
    rw [← ofInt_congr (Int.emod_emod_of_dvd q.trueSize (Int.dvd_refl (2 ^ 32))),
      toNat_roundUpToPageSize]
    have hup := alignUp_lt (q.trueSize % 2 ^ 32) (show (0 : Int) < 4096 by decide)
    have hdvd := dvd_alignUp (q.trueSize % 2 ^ 32) 4096
    have hnn := alignUp_nonneg (x := q.trueSize % 2 ^ 32) (show (0 : Int) < 4096 by decide) (by omega)
    omega
  have hsize : q.trueSize ≤ 2 ^ 31 := Int.le_trans hbytes hpage
  omega

/-! ## An allocation that is granted -/

/-- A kernel that grants every call. -/
def grants : GpuOs where
  masterOpen := 3
  totalSize := 0
  masterMmap := some 0x40000000
  openDev := 4
  connectPmem := 0
  mapPmem := 0
  mmap := some 0x50000000
  ashmem := 5
  setProt := 0
  errno := .noMemory
  masterMmap_ne := heap_ne_null
  mmap_ne := buffer_ne_null
  fbProbe := none
  fbMmap := none
  dup := 6

/-- A sub-allocator that always has room at the start of the heap. -/
def roomy : SubAllocator Unit where
  setSize := fun _ _ => (0, ())
  allocate := fun _ _ => (0, ())
  deallocate := fun _ _ => (0, ())

def fresh : Module Unit where
  pmem := { masterFd := MASTER_FD_INIT, masterBase := 0, allocator := () }
  framebuffer := none
  fbFd := -1
  numBuffers := 0
  bufferMask := 0
  lineLength := 0
  yres := 0

theorem granted (size : UInt32) (u : AllocUsage) :
    (grallocAllocBuffer roomy ⟨false, 1⟩ grants fresh size u).err = 0 := by
  unfold grallocAllocBuffer
  simp only
  split
  · rfl
  · split
    · rfl
    · rfl

/-- The buffers of the framebuffer apart, an allocation asks for the planes just when their size is
refused as it wraps, or does not wrap. -/
theorem sizesHold_iff (q : Request) (hfb : q.usage.hwFb = false) : SizesHold q ↔ q.Safe := by
  constructor
  · intro h
    by_contra hsafe
    simp only [Request.Safe, not_or, not_and, not_le, not_lt] at hsafe
    obtain ⟨hr, hzero, hlt, hwrap⟩ := hsafe
    have hnn := Int.emod_nonneg q.trueSize (show (2 : Int) ^ 32 ≠ 0 by decide)
    have hpos := (ssize_pos q.trueSize).mpr ⟨by omega, hlt⟩
    have hq : q.size = some (UInt32.ofInt q.trueSize) := by
      rw [Request.size_eq, if_neg (not_or.mpr ⟨hr, hpos⟩)]
    have herr : (allocImpl roomy ⟨false, 1⟩ grants fresh q).err = 0 := by
      unfold allocImpl
      simp only [hq, hfb]
      exact granted _ _
    obtain ⟨size, stride, hsome, hplanes, -⟩ := h Unit roomy ⟨false, 1⟩ grants fresh (by omega)
    rw [sizeAndStride_eq, if_neg hr, Option.some.injEq, Prod.mk.injEq] at hsome
    obtain ⟨rfl, rfl⟩ := hsome
    have hsize := hplanes.lt hr hlt
    have := hwrap hplanes.width hplanes.height
    omega
  · intro hsafe α A B os m herr
    have haccept : q.size ≠ none := by
      intro hnone
      unfold allocImpl at herr
      simp only [hnone] at herr
      exact absurd herr (by decide)
    rw [Request.size_eq] at haccept
    simp only [ne_eq, ite_eq_left_iff, reduceCtorEq, imp_false, not_not] at haccept
    obtain ⟨hr, hpos⟩ := not_or.mp haccept
    obtain ⟨hlow, hlt⟩ := (ssize_pos q.trueSize).mp hpos
    obtain ⟨hw, hh, hsize⟩ : 0 < q.w ∧ 0 < q.h ∧ q.trueSize < 2 ^ 31 := by
      rcases hsafe with h | h | h | h
      · exact absurd h hr
      · omega
      · omega
      · exact h
    refine ⟨_, _, by rw [sizeAndStride_eq, if_neg hr], holdsPlanes_of_lt hw hh hr hsize, ?_⟩
    intro hnd hhnd
    unfold allocImpl at hhnd
    simp only [Request.size_eq, if_neg haccept, hfb] at hhnd
    exact grallocAllocBuffer_size A B os m hhnd

/-- A buffer the size of the screen. -/
theorem sizesHold_screen : SizesHold ⟨800, 480, .RGBA_8888, {}⟩ :=
  (sizesHold_iff ⟨800, 480, .RGBA_8888, {}⟩ rfl).mpr (by decide)

/-- 4 MB are asked for, and the pixels take 4 GB more. -/
theorem size_wraps : ¬ SizesHold ⟨32768, 32800, .RGBA_8888, {}⟩ := by
  intro h
  obtain ⟨size, stride, hsome, hplanes, -⟩ :=
    h Unit roomy ⟨false, 1⟩ grants fresh (by decide +kernel)
  have hvalue : sizeAndStride 32768 32800 .RGBA_8888 = some (0x400000, 0x8000) := by decide
  rw [hvalue, Option.some.injEq, Prod.mk.injEq] at hsome
  obtain ⟨rfl, rfl⟩ := hsome
  exact absurd hplanes.bytes (by decide)

end Twm.Gralloc
