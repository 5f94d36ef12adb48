import DeviceTwm.Gralloc.BufferSize

/-!
# The size of a push buffer (`libgralloc/mapper.cpp`)

`calculateBufferSize` tells the clients that push buffers of video how large a buffer is. It lays out
again two formats that `alloc_impl` lays out, and rounds up the running total where `alloc_impl`
rounds up each plane.

* `calculateBufferSize_eq`: the size that is reported, over all integers.
* `reportFits_iff`: for a tiled buffer it is more than what was allocated when the chroma plane ends
  in the middle of 8 KB.
-/

namespace Twm.Gralloc

open Lib

/-- The formats that `calculateBufferSize` knows, and any other. -/
inductive PushFormat
  | YCbCr_420_SP_TILED | YCrCb_420_SP_ADRENO | YCrCb_420_SP | YCbCr_420_SP | other
  deriving DecidableEq

def calculateBufferSize (width height : Int32) (format : PushFormat) : UInt32 :=
  if width = 0 ∨ height = 0 then 0
  else
    match format with
    | .YCbCr_420_SP_TILED =>
      let alignedHeight := (height + 31) &&& ~~~31
      let pitch := (width + 127) &&& ~~~127
      let size := (pitch * alignedHeight).toUInt32
      let size := (size + 8191) &&& ~~~8191
      let alignedHeight := ((height >>> 1) + 31) &&& ~~~31
      let size := size + (pitch * alignedHeight).toUInt32
      (size + 8191) &&& ~~~8191
    | .YCrCb_420_SP_ADRENO =>
      let alignedHeight := (height + 31) &&& ~~~31
      let pitch := (width + 31) &&& ~~~31
      let size := (pitch * alignedHeight).toUInt32
      let size := (size + 4095) &&& ~~~4095
      let pitch := (2 : Int32) * (((width >>> 1) + 31) &&& ~~~31)
      let alignedHeight := ((height >>> 1) + 31) &&& ~~~31
      let size := size + (pitch * alignedHeight).toUInt32
      (size + 4095) &&& ~~~4095
    | .YCrCb_420_SP | .YCbCr_420_SP =>
      let alignedWidth := (width + 15) &&& ~~~15
      let alignedChromaWidth := ((width / 2) + 15) &&& ~~~15
      ((alignedWidth * height) + ((alignedChromaWidth * height / 2) * 2)).toUInt32
    | .other => 0

/-- The formats that `alloc_impl` knows too. -/
def PushFormat.pixelFormat : PushFormat → Option PixelFormat
  | .YCbCr_420_SP_TILED => some .YCbCr_420_SP_TILED
  | .YCrCb_420_SP_ADRENO => some .YCrCb_420_SP_ADRENO
  | _ => none

/-- What `calculateBufferSize` reports of these, over all integers. -/
def Request.pushSize (q : Request) : Int :=
  let w := q.w.toInt
  let h := q.h.toInt
  match q.format with
  | .YCbCr_420_SP_TILED =>
    alignUp (alignUp (alignUp w 128 * alignUp h 32) 8192 + alignUp w 128 * alignUp (h / 2) 32) 8192
  | .YCrCb_420_SP_ADRENO =>
    alignUp (alignUp (alignUp w 32 * alignUp h 32) 4096 +
      2 * alignUp (w / 2) 32 * alignUp (h / 2) 32) 4096
  | _ => 0

theorem toInt_shiftRight_one (x : Int32) : (x >>> 1).toInt = x.toInt / 2 := by
  have h := BitVec.toInt_sshiftRight (x := x.toBitVec) (n := 1)
  rw [Int.shiftRight_eq_div_pow] at h
  exact h

/-- The same rounding as `ALIGN`, on `int`s. -/
theorem mask_ofInt (x : Int32) {g : Int32} {k : Nat} (hk : k < 32) (hg : g.toUInt32.toNat = 2 ^ k) :
    ((x + (g - 1)) &&& ~~~(g - 1)).toUInt32 = UInt32.ofInt (alignUp x.toInt (2 ^ k)) := by
  have hword : ((x + (g - 1)) &&& ~~~(g - 1)).toUInt32 =
      (x.toUInt32 + (g.toUInt32 - 1)) &&& ~~~(g.toUInt32 - 1) := rfl
  rw [hword, mask_eq_ALIGN, toUInt32_eq_ofInt, ALIGN_ofInt _ hk hg]

/-- The rounding of a word once more. -/
theorem mask_add_ofInt (X : Int) {g : UInt32} {k : Nat} (hk : k < 32) (hg : g.toNat = 2 ^ k) :
    (UInt32.ofInt X + (g - 1)) &&& ~~~(g - 1) = UInt32.ofInt (alignUp X (2 ^ k)) := by
  rw [mask_eq_ALIGN, ALIGN_ofInt X hk hg]

/-- The reported size follows the integers too. -/
theorem calculateBufferSize_eq {q : Request} {f : PushFormat} (hf : f.pixelFormat = some q.format)
    (hw : 0 < q.w) (hh : 0 < q.h) : calculateBufferSize q.w q.h f = UInt32.ofInt q.pushSize := by
  obtain ⟨w, h, format, usage⟩ := q
  simp only at hf hw hh ⊢
  have hnonzero : ¬ (w = 0 ∨ h = 0) := by
    rintro (rfl | rfl)
    · exact absurd hw (by decide)
    · exact absurd hh (by decide)
  have h32 (x : Int32) : ((x + 31) &&& ~~~31).toUInt32 = UInt32.ofInt (alignUp x.toInt 32) :=
    mask_ofInt x (g := 32) (k := 5) (by decide) rfl
  have h128 (x : Int32) : ((x + 127) &&& ~~~127).toUInt32 = UInt32.ofInt (alignUp x.toInt 128) :=
    mask_ofInt x (g := 128) (k := 7) (by decide) rfl
  have h4096 (X : Int) : (UInt32.ofInt X + 4095) &&& ~~~4095 = UInt32.ofInt (alignUp X 4096) :=
    mask_add_ofInt X (g := 4096) (k := 12) (by decide) rfl
  have h8192 (X : Int) : (UInt32.ofInt X + 8191) &&& ~~~8191 = UInt32.ofInt (alignUp X 8192) :=
    mask_add_ofInt X (g := 8192) (k := 13) (by decide) rfl
  have htwo : (2 : Int32).toUInt32 = UInt32.ofInt 2 := rfl
  cases f with
  | YCbCr_420_SP_TILED =>
    injection hf with hf
    subst hf
    simp only [calculateBufferSize, if_neg hnonzero, Int32.toUInt32_mul, h32, h128, h8192,
      toInt_shiftRight_one, ← UInt32.ofInt_mul, ← UInt32.ofInt_add, Request.pushSize]
  | YCrCb_420_SP_ADRENO =>
    injection hf with hf
    subst hf
    simp only [calculateBufferSize, if_neg hnonzero, Int32.toUInt32_mul, h32, h4096, htwo,
      toInt_shiftRight_one, ← UInt32.ofInt_mul, ← UInt32.ofInt_add, Request.pushSize]
  | _ => cases hf

/-- What is reported of a buffer stays inside what `alloc_impl` asks for, in whole pages. -/
def ReportFits (q : Request) (f : PushFormat) : Prop :=
  ∀ size stride, sizeAndStride q.w q.h q.format = some (size, stride) →
    calculateBufferSize q.w q.h f ≤ roundUpToPageSize size

/-- Both are whole pages. -/
theorem reportFits_iff_le {q : Request} {f : PushFormat} (hf : f.pixelFormat = some q.format)
    (hw : 0 < q.w) (hh : 0 < q.h) (hsize : q.trueSize < 2 ^ 32) (hpush : q.pushSize < 2 ^ 32)
    (hnn : 0 ≤ q.pushSize) (hpage : 4096 ∣ q.trueSize) (hr : ¬ q.Refused) :
    ReportFits q f ↔ q.pushSize ≤ q.trueSize := by
  have hle := stride_le_trueSize (Int32.lt_iff_toInt_lt.mp hw) (Int32.lt_iff_toInt_lt.mp hh) hr
  have hws := q.le_stride
  have hw' : 0 < q.w.toInt := Int32.lt_iff_toInt_lt.mp hw
  have hpush' := toNat_ofInt q.pushSize
  have hround := toNat_roundUpToPageSize q.trueSize
  rw [Int.emod_eq_of_lt hnn hpush] at hpush'
  rw [alignUp_of_dvd (by decide) hpage, Int.emod_eq_of_lt (by omega) hsize] at hround
  unfold ReportFits
  rw [sizeAndStride_eq, if_neg hr, calculateBufferSize_eq hf hw hh]
  constructor
  · intro h
    have hword := UInt32.le_iff_toNat_le.mp (h _ _ rfl)
    omega
  · rintro h size stride hsome
    injection hsome with hsome
    injection hsome with hsome _
    subst hsome
    exact UInt32.le_iff_toNat_le.mpr (by omega)

/-- The bytes of the second plane of a tiled buffer. -/
def Request.chroma (q : Request) : Int := q.stride * alignUp (q.h.toInt / 2) 32

/-- `alloc_impl` rounds the second plane up to 4 KB, `calculateBufferSize` to 8 KB. -/
theorem tiled_sizes {q : Request} (hformat : q.format = .YCbCr_420_SP_TILED) (hh : 0 < q.h) :
    4096 ∣ q.trueSize ∧ q.pushSize = q.trueSize + (alignUp q.chroma 8192 - q.chroma) := by
  have hhalf : q.h.toInt.tdiv 2 = q.h.toInt / 2 :=
    Int.tdiv_eq_ediv_of_nonneg (Int.le_of_lt (Int32.lt_iff_toInt_lt.mp hh))
  obtain ⟨s, hs⟩ : (128 : Int) ∣ q.stride := by
    unfold Request.stride
    rw [hformat]
    exact dvd_alignUp _ _
  obtain ⟨r, hrows⟩ := dvd_alignUp (q.h.toInt / 2) 32
  have hpage : 4096 ∣ q.chroma := by
    refine ⟨s * r, ?_⟩
    unfold Request.chroma
    rw [hs, hrows]
    ring
  have hluma := dvd_alignUp (q.stride * alignUp q.h.toInt 32) 8192
  have htrue : q.trueSize = alignUp (q.stride * alignUp q.h.toInt 32) 8192 + q.chroma := by
    unfold Request.trueSize Request.planes
    simp only [hformat, List.sum_cons, List.sum_nil, Int.add_zero, hhalf]
    rw [show q.stride * alignUp (q.h.toInt / 2) 32 = q.chroma from rfl,
      alignUp_of_dvd (by decide) hpage]
  have hpush : q.pushSize =
      alignUp (q.stride * alignUp q.h.toInt 32) 8192 + alignUp q.chroma 8192 := by
    rw [← alignUp_add (by decide) hluma]
    unfold Request.pushSize Request.chroma Request.stride
    simp only [hformat, PixelFormat.granule]
  refine ⟨?_, by rw [hpush, htrue]; ring⟩
  rw [htrue]
  exact Int.dvd_add (Int.dvd_trans (by decide) hluma) hpage

/-- Both round the planes of the other format up to 4 KB. -/
theorem adreno_sizes {q : Request} (hformat : q.format = .YCrCb_420_SP_ADRENO) (hw : 0 < q.w)
    (hh : 0 < q.h) : 4096 ∣ q.trueSize ∧ q.pushSize = q.trueSize := by
  have hhalf (x : Int32) (hx : 0 < x) : x.toInt.tdiv 2 = x.toInt / 2 :=
    Int.tdiv_eq_ediv_of_nonneg (Int.le_of_lt (Int32.lt_iff_toInt_lt.mp hx))
  have hluma := dvd_alignUp (q.stride * alignUp q.h.toInt 32) 4096
  have htrue : q.trueSize = alignUp (q.stride * alignUp q.h.toInt 32) 4096 +
      alignUp (2 * alignUp (q.w.toInt / 2) 32 * alignUp (q.h.toInt / 2) 32) 4096 := by
    unfold Request.trueSize Request.planes
    simp only [hformat, List.sum_cons, List.sum_nil, Int.add_zero, hhalf q.w hw, hhalf q.h hh]
  refine ⟨?_, ?_⟩
  · rw [htrue]
    exact Int.dvd_add hluma (dvd_alignUp _ _)
  · rw [htrue, ← alignUp_add (by decide) hluma]
    unfold Request.pushSize Request.stride
    simp only [hformat, PixelFormat.granule]

/-- A size below 4 GB that is reported stays inside the buffer, unless the buffer is tiled and its
second plane ends in the middle of 8 KB. -/
theorem reportFits_iff (q : Request) (f : PushFormat) (hf : f.pixelFormat = some q.format)
    (hw : 0 < q.w) (hh : 0 < q.h) (hsize : q.trueSize < 2 ^ 32) (hpush : q.pushSize < 2 ^ 32) :
    ReportFits q f ↔ q.format = .YCrCb_420_SP_ADRENO ∨ 8192 ∣ q.chroma := by
  have hle (hr : ¬ q.Refused) : 0 ≤ q.trueSize := by
    have hws := q.le_stride
    have hw' : 0 < q.w.toInt := Int32.lt_iff_toInt_lt.mp hw
    have := stride_le_trueSize hw' (Int32.lt_iff_toInt_lt.mp hh) hr
    omega
  cases f with
  | YCbCr_420_SP_TILED =>
    have hformat : q.format = .YCbCr_420_SP_TILED := by
      injection hf with hf
      exact hf.symm
    have hr : ¬ q.Refused := by simp [Request.Refused, hformat]
    obtain ⟨hpage, hdiff⟩ := tiled_sizes hformat hh
    have hup := le_alignUp q.chroma (show (0 : Int) < 8192 by decide)
    have hnn := hle hr
    rw [reportFits_iff_le hf hw hh hsize hpush (by omega) hpage hr]
    constructor
    · intro h
      right
      have heq : alignUp q.chroma 8192 = q.chroma := by omega
      rw [← heq]
      exact dvd_alignUp _ _
    · rintro (h | h)
      · rw [hformat] at h
        cases h
      · rw [hdiff, alignUp_of_dvd (by decide) h]
        omega
  | YCrCb_420_SP_ADRENO =>
    have hformat : q.format = .YCrCb_420_SP_ADRENO := by
      injection hf with hf
      exact hf.symm
    have hr : ¬ q.Refused := by simp [Request.Refused, hformat]
    obtain ⟨hpage, heq⟩ := adreno_sizes hformat hw hh
    have hnn := hle hr
    rw [reportFits_iff_le hf hw hh hsize hpush (by omega) hpage hr]
    exact ⟨fun _ => .inl hformat, fun _ => Int.le_of_eq heq⟩
  | _ => cases hf

/-- A frame of 176 by 144. -/
theorem reportFits_qcif : ReportFits ⟨176, 144, .YCbCr_420_SP_TILED, {}⟩ .YCbCr_420_SP_TILED :=
  (reportFits_iff ⟨176, 144, .YCbCr_420_SP_TILED, {}⟩ .YCbCr_420_SP_TILED rfl (by decide) (by decide)
    (by decide) (by decide)).mpr (by decide)

/-- A frame of 128 by 64 is reported to have a page that it lacks. -/
theorem reported_past_end :
    ¬ ReportFits ⟨128, 64, .YCbCr_420_SP_TILED, {}⟩ .YCbCr_420_SP_TILED := by
  intro h
  exact absurd (h 12288 128 (by decide)) (by decide)

end Twm.Gralloc
