import DeviceTwm.BootImg.Format

/-!
# The boot image of `fastboot`

`mkbootimg` builds the image in memory. It rounds the sizes in words, so the buffer can be too
small for what is copied to it (`Trap.outOfBounds`).

* `mkbootimg_eq`: when the mask rounds the sizes and that of the image does not wrap, the image is one
  header page and the sections in whole pages, as `bootimg.h` documents.
-/

open Lib

namespace Twm.BootImg.Fastboot

/-- A value stored to an `unsigned`. -/
def word (x : Nat) : Nat := x % 2 ^ 32

theorem word_of_lt {x : Nat} (h : x < 2 ^ 32) : word x = x := by
  unfold word
  exact Nat.mod_eq_of_lt h

/-- A copy past the end of the buffer. -/
inductive Trap
  | outOfBounds
  deriving DecidableEq

/-- `memcpy` into the buffer. -/
def memcpy (buf : List UInt8) (off : Nat) (d : List UInt8) : Except Trap (List UInt8) :=
  match blit buf off d with
  | none => .error .outOfBounds
  | some buf => .ok buf

/-- A size rounded up to pages. -/
def actual (pageMask size : Nat) : Nat := word (size + pageMask) &&& (2 ^ 32 - 1 - pageMask)

/-- The header of the image; what is not set here is zero. -/
def header (kernel ramdisk second : List UInt8) (pageSize base : Nat) : BootImgHdr where
  kernelSize := kernel.length
  ramdiskSize := ramdisk.length
  secondSize := second.length
  kernelAddr := word (base + 0x00008000)
  ramdiskAddr := word (base + 0x01000000)
  secondAddr := word (base + 0x00F00000)
  tagsAddr := word (base + 0x00000100)
  pageSize := pageSize
  name := []
  cmdline := []
  id := []

/-- `mkbootimg`: the image, or `none` if `calloc` fails. -/
def mkbootimg (calloc : Nat → Bool) (kernel ramdisk second : List UInt8) (pageSize base : Nat) :
    Except Trap (Option (List UInt8)) := do
  let pageMask := word (pageSize + 2 ^ 32 - 1)
  let kernelActual := actual pageMask kernel.length
  let ramdiskActual := actual pageMask ramdisk.length
  let secondActual := actual pageMask second.length
  let bootimgSize := word (pageSize + kernelActual + ramdiskActual + secondActual)
  if ¬ calloc bootimgSize then .ok none
  else do
    let img ← memcpy (zeros bootimgSize) 0 (header kernel ramdisk second pageSize base).words
    let img ← memcpy img pageSize kernel
    let img ← memcpy img (pageSize + kernelActual) ramdisk
    let img ← memcpy img (pageSize + kernelActual + ramdiskActual) second
    .ok (some img)

/-- To mask with `p - 1` takes the rest by `p`. -/
def Rounds (p size : Nat) : Prop := (size + p - 1) &&& (p - 1) = (size + p - 1) % p

instance (p size : Nat) : Decidable (Rounds p size) := inferInstanceAs (Decidable (_ = _))

theorem rounds_two_pow (k size : Nat) : Rounds (2 ^ k) size := Nat.and_two_pow_sub_one_eq_mod _ k

theorem actual_eq_iff {p : Nat} (hp : 0 < p) (size : Nat) (h : size + p - 1 < 2 ^ 32) :
    actual (p - 1) size = p * blocks p size ↔ Rounds p size := by
  have hle : (size + p - 1) &&& (p - 1) ≤ size + p - 1 := Nat.and_le_left
  have hmod := Nat.mod_le (size + p - 1) p
  have hdiv := Nat.div_add_mod (size + p - 1) p
  unfold actual word blocks Rounds
  rw [show size + (p - 1) = size + p - 1 by omega, Nat.mod_eq_of_lt h, and_compl h (by omega)]
  omega

theorem memcpy_zeros {a d : List UInt8} {off n : Nat} (ho : off = a.length) (hn : d.length ≤ n) :
    memcpy (a ++ zeros n) off d = .ok (a ++ d ++ zeros (n - d.length)) := by
  rw [memcpy, blit_zeros ho hn, List.append_assoc]

/-- A section copied over zeros, up to the end of its last page. -/
theorem memcpy_section {a d : List UInt8} {off n p : Nat} (hp : 0 < p) (ho : off = a.length)
    (hn : p * blocks p d.length ≤ n) :
    memcpy (a ++ zeros n) off d = .ok (a ++ padTo p d ++ zeros (n - p * blocks p d.length)) := by
  have hle := le_mul_blocks hp d.length
  rw [memcpy_zeros ho (by omega)]
  congr 1
  rw [padTo, List.append_assoc, List.append_assoc, List.append_assoc, zeros_append, slack]
  congr 3
  omega

variable {kernel ramdisk second : List UInt8} {p : Nat} {calloc : Nat → Bool}

/-- The pages of the sections of the image. -/
def pages (p : Nat) (kernel ramdisk second : List UInt8) : Nat :=
  p * blocks p kernel.length + p * blocks p ramdisk.length + p * blocks p second.length

theorem word_mask (hp : 0 < p) (hlt : p < 2 ^ 32) : word (p + 2 ^ 32 - 1) = p - 1 := by
  unfold word
  rw [show p + 2 ^ 32 - 1 = (p - 1) + 2 ^ 32 by omega, Nat.add_mod_right, Nat.mod_eq_of_lt (by omega)]

/-- The sizes of the sections are rounded to pages. -/
structure RoundsAll (p : Nat) (kernel ramdisk second : List UInt8) : Prop where
  kernel : Rounds p kernel.length
  ramdisk : Rounds p ramdisk.length
  second : Rounds p second.length

theorem roundsAll_two_pow (k : Nat) (kernel ramdisk second : List UInt8) :
    RoundsAll (2 ^ k) kernel ramdisk second :=
  ⟨rounds_two_pow k _, rounds_two_pow k _, rounds_two_pow k _⟩

/-- The image, when the sizes are rounded to pages and that of the image does not wrap. -/
theorem mkbootimg_eq (calloc : Nat → Bool) (hp : 40 ≤ p) (base : Nat) (hr : RoundsAll p kernel ramdisk second)
    (hsize : p + pages p kernel ramdisk second < 2 ^ 32) :
    mkbootimg calloc kernel ramdisk second p base = .ok
      (if calloc (p + pages p kernel ramdisk second) then
        some ((header kernel ramdisk second p base).words ++ (zeros (p - 40) ++
          (padTo p kernel ++ (padTo p ramdisk ++ (second ++ zeros (slack p second.length))))))
      else none) := by
  have hpos : 0 < p := by omega
  have lk := le_mul_blocks hpos kernel.length
  have lr := le_mul_blocks hpos ramdisk.length
  have ls := le_mul_blocks hpos second.length
  unfold pages at hsize ⊢
  have ak := (actual_eq_iff hpos kernel.length (by omega)).mpr hr.kernel
  have ar := (actual_eq_iff hpos ramdisk.length (by omega)).mpr hr.ramdisk
  have as := (actual_eq_iff hpos second.length (by omega)).mpr hr.second
  generalize hK : p * blocks p kernel.length = K at *
  generalize hR : p * blocks p ramdisk.length = R at *
  generalize hS : p * blocks p second.length = S at *
  have hN := word_of_lt (x := p + K + R + S) (by omega)
  generalize hw : (header kernel ramdisk second p base).words = w
  have hlw : w.length = 40 := by
    rw [← hw]
    rfl
  -- The copies, one after the other, each over the zeros that are left.
  have h₁ : memcpy (zeros (p + K + R + S)) 0 w = .ok (w ++ zeros (p - 40) ++ zeros (K + R + S)) := by
    have := memcpy_zeros (a := []) (d := w) (n := p + K + R + S) (Eq.refl 0) (by omega)
    rw [List.nil_append, List.nil_append] at this
    rw [this, List.append_assoc, zeros_append, hlw,
      show p + K + R + S - 40 = p - 40 + (K + R + S) by omega]
  have hla : (w ++ zeros (p - 40)).length = p := by
    simp only [List.length_append, length_zeros, hlw]
    omega
  have h₂ := memcpy_section (d := kernel) (n := K + R + S) hpos hla.symm (by omega)
  have hlk : (w ++ zeros (p - 40) ++ padTo p kernel).length = p + K := by
    rw [List.length_append, hla, length_padTo hpos, hK]
  have h₃ := memcpy_section (d := ramdisk) (n := R + S) hpos hlk.symm (by omega)
  have hlr : (w ++ zeros (p - 40) ++ padTo p kernel ++ padTo p ramdisk).length = p + K + R := by
    rw [List.length_append, hlk, length_padTo hpos, hR]
  have h₄ := memcpy_section (d := second) (n := S) hpos hlr.symm (by omega)
  rw [hK, show K + R + S - K = R + S by omega] at h₂
  rw [hR, show R + S - R = S by omega] at h₃
  rw [hS, Nat.sub_self] at h₄
  unfold mkbootimg
  rw [word_mask hpos (by omega)]
  simp only []
  rw [ak, ar, as, hN, show p + (K + R + S) = p + K + R + S by omega]
  by_cases hc : calloc (p + K + R + S) = true
  · rw [if_neg (not_not_intro hc), if_pos hc, hw, h₁]
    show (memcpy _ _ _ >>= fun img => _) = _
    rw [h₂]
    show (memcpy _ _ _ >>= fun img => _) = _
    rw [h₃]
    show (memcpy _ _ _ >>= fun img => _) = _
    rw [h₄]
    show Except.ok _ = _
    simp only [List.append_assoc]
    rw [padTo_append p second, show zeros 0 = [] from rfl, List.append_nil]
  · rw [if_pos hc, if_neg hc]

/-- The image reads back as `bootimg.h` documents. -/
theorem documented_mkbootimg {img : List UInt8} (hp : 40 ≤ p) (base : Nat)
    (hr : RoundsAll p kernel ramdisk second) (hsize : p + pages p kernel ramdisk second < 2 ^ 32)
    (h : mkbootimg calloc kernel ramdisk second p base = .ok (some img)) :
    documented img = ⟨kernel, ramdisk, second⟩ ∧ img.length = p + pages p kernel ramdisk second := by
  have hpos : 0 < p := by omega
  have lk := le_mul_blocks hpos kernel.length
  have lr := le_mul_blocks hpos ramdisk.length
  have ls := le_mul_blocks hpos second.length
  rw [mkbootimg_eq calloc hp base hr hsize] at h
  unfold pages at hsize h ⊢
  split at h
  · cases h
    have hmod : (header kernel ramdisk second p base).pageSize % 2 ^ 32 = p :=
      Nat.mod_eq_of_lt (show p < 2 ^ 32 by omega)
    constructor
    · unfold documented
      rw [(hdrWord_words _ _).2.2.2, hmod]
      refine readLayout_of_blocks hpos _ ?_ rfl rfl rfl (by omega) (by omega) (by omega)
      simp only [List.length_append, BootImgHdr.length_words, length_zeros]
      omega
    · simp only [List.length_append, BootImgHdr.length_words, length_zeros, length_padTo hpos, slack]
      omega
  · cases h

end Twm.BootImg.Fastboot
