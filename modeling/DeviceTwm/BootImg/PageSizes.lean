import DeviceTwm.Lib.Strtoul
import DeviceTwm.BootImg.Fastboot

/-!
# The page sizes of `fastboot`

`-n` takes any number but zero. For which of them is the image of `mkbootimg` as `bootimg.h` documents
it (`Correct`)?

* The header has 608 bytes, and the kernel is copied to the end of the first page.
* The sizes are rounded up with the mask `page_size - 1`. That is right for every size exactly when the
  page size is a power of two (`rounds_all_iff`).
* The size of the image is a word.

`correct_iff` says that nothing else goes wrong. The copies are followed byte by byte (`Copies`): when
sections of distinct bytes are found where they should be, they were copied there.
-/

open Lib

namespace Twm.BootImg.Fastboot

/-- `-n`, when `unsigned long` has `w` bits. -/
def nOption (w : Nat) (arg : List UInt8) : Option Nat :=
  let pageSize := word (strtoul w 0 arg)
  if pageSize = 0 then none else some pageSize

/-- The image is one header page and the sections in whole pages, and reads back. -/
structure AsDocumented (p : Nat) (kernel ramdisk second img : List UInt8) : Prop where
  size : img.length = p + pages p kernel ramdisk second
  noWrap : img.length < 2 ^ 32
  header : 608 ≤ p
  sections : documented img = ⟨kernel, ramdisk, second⟩

/-- For all sections of these sizes `mkbootimg` returns such an image, if there is memory for it. -/
def Correct (p kernelSize ramdiskSize secondSize : Nat) : Prop :=
  ∀ kernel ramdisk second : List UInt8, kernel.length = kernelSize → ramdisk.length = ramdiskSize →
    second.length = secondSize → ∀ (calloc : Nat → Bool) (base : Nat),
      if calloc (p + pages p kernel ramdisk second) then
        ∃ img, mkbootimg calloc kernel ramdisk second p base = .ok (some img) ∧
          AsDocumented p kernel ramdisk second img
      else mkbootimg calloc kernel ramdisk second p base = .ok none

variable {p : Nat}

theorem nOption_pos {w : Nat} {arg : List UInt8} (h : nOption w arg = some p) :
    0 < p ∧ p < 2 ^ 32 := by
  simp only [nOption] at h
  split at h
  · cases h
  · cases h
    exact ⟨by omega, Nat.mod_lt _ (by decide)⟩

/-- The mask is right for every size exactly when the page size is a power of two. -/
theorem rounds_all_iff (hp : 0 < p) : (∀ n, Rounds p n) ↔ ∃ k, p = 2 ^ k := by
  constructor
  · intro h
    have hone : p &&& (p - 1) = 0 := by
      have := h 1
      rwa [Rounds, Nat.add_comm, Nat.add_sub_cancel, Nat.mod_self] at this
    exact (Nat.and_sub_one_eq_zero_iff_isPowerOfTwo (by omega)).mp hone
  · rintro ⟨k, rfl⟩ n
    exact rounds_two_pow k n

theorem rounds_zero (hp : 0 < p) : Rounds p 0 := by
  unfold Rounds
  rw [Nat.zero_add, Nat.and_self, Nat.mod_eq_of_lt (by omega)]

theorem blocks_zero (hp : 0 < p) : blocks p 0 = 0 := by
  unfold blocks
  rw [Nat.zero_add, Nat.div_eq_of_lt (by omega)]

/-! ## The copies -/

/-- What `mkbootimg` copies to which place, when the sizes are rounded to `ka`, `ra` and `sa`. -/
def Copies (kernel ramdisk second : List UInt8) (p base ka ra sa : Nat) (img : List UInt8) : Prop :=
  ∃ img₁ img₂ img₃,
    blit (zeros (word (p + ka + ra + sa))) 0 (header kernel ramdisk second p base).words = some img₁ ∧
    blit img₁ p kernel = some img₂ ∧ blit img₂ (p + ka) ramdisk = some img₃ ∧
    blit img₃ (p + ka + ra) second = some img

theorem blit_of_bind {buf d : List UInt8} {off : Nat} {f : List UInt8 → Except Trap (Option (List UInt8))}
    {r : Option (List UInt8)} (h : memcpy buf off d >>= f = .ok r) :
    ∃ buf', blit buf off d = some buf' ∧ f buf' = .ok r := by
  unfold memcpy at h
  cases hb : blit buf off d with
  | none =>
    rw [hb] at h
    cases h
  | some b =>
    rw [hb] at h
    exact ⟨b, rfl, h⟩

variable {kernel ramdisk second img : List UInt8} {base ka ra sa : Nat} {calloc : Nat → Bool}

theorem copies_of_ok (hp : 0 < p) (hlt : p < 2 ^ 32)
    (h : mkbootimg calloc kernel ramdisk second p base = .ok (some img)) :
    Copies kernel ramdisk second p base (actual (p - 1) kernel.length) (actual (p - 1) ramdisk.length)
      (actual (p - 1) second.length) img := by
  unfold mkbootimg at h
  rw [word_mask hp hlt] at h
  dsimp only at h
  split at h
  · cases h
  · obtain ⟨img₁, h₁, h⟩ := blit_of_bind h
    obtain ⟨img₂, h₂, h⟩ := blit_of_bind h
    obtain ⟨img₃, h₃, h⟩ := blit_of_bind h
    obtain ⟨img₄, h₄, h⟩ := blit_of_bind h
    cases h
    exact ⟨img₁, img₂, img₃, h₁, h₂, h₃, h₄⟩

namespace Copies

variable (h : Copies kernel ramdisk second p base ka ra sa img)

include h

theorem length : img.length = word (p + ka + ra + sa) := by
  obtain ⟨img₁, img₂, img₃, h₁, h₂, h₃, h₄⟩ := h
  rw [length_blit h₄, length_blit h₃, length_blit h₂, length_blit h₁, length_zeros]

/-- The header is not overwritten. -/
theorem words (hp : 40 ≤ p) : ∃ rest, img = (header kernel ramdisk second p base).words ++ rest := by
  obtain ⟨img₁, img₂, img₃, h₁, h₂, h₃, h₄⟩ := h
  have htake : img.take 40 = img₁.take 40 := by
    rw [take_blit h₄ (by omega), take_blit h₃ (by omega), take_blit h₂ hp]
  have hwords : img₁.take 40 = (header kernel ramdisk second p base).words := by
    unfold blit at h₁
    split at h₁
    · cases h₁
      rw [List.take_zero, List.nil_append]
      exact List.take_left' (BootImgHdr.length_words _)
    · cases h₁
  exact ⟨img.drop 40, by rw [← hwords, ← htake, List.take_append_drop]⟩

/-- The bytes after the header. -/
theorem getElem? {j : Nat} (hj : 40 ≤ j) : img[j]? =
    if p + ka + ra ≤ j ∧ j < p + ka + ra + second.length then second[j - (p + ka + ra)]?
    else if p + ka ≤ j ∧ j < p + ka + ramdisk.length then ramdisk[j - (p + ka)]?
    else if p ≤ j ∧ j < p + kernel.length then kernel[j - p]?
    else (zeros (word (p + ka + ra + sa)))[j]? := by
  obtain ⟨img₁, img₂, img₃, h₁, h₂, h₃, h₄⟩ := h
  have hw : ¬ (0 ≤ j ∧ j < 0 + (header kernel ramdisk second p base).words.length) := by
    rw [BootImgHdr.length_words]
    omega
  rw [getElem?_blit h₄, getElem?_blit h₃, getElem?_blit h₂, getElem?_blit h₁, if_neg hw]

end Copies

/-! ## Sections of distinct bytes -/

section Distinct

variable {kn rn sn : Nat}

/-- A byte after the header that is not zero was copied there. -/
theorem Copies.of_byte
    (h : Copies (List.replicate kn 1) (List.replicate rn 2) (List.replicate sn 3) p base ka ra sa img)
    {j : Nat} {c : UInt8} (hj : 40 ≤ j) (hc : img[j]? = some c) :
    c = 3 ∧ p + ka + ra ≤ j ∧ j < p + ka + ra + sn ∨ c = 2 ∧ p + ka ≤ j ∧ j < p + ka + rn ∨
      c = 1 ∨ c = 0 := by
  rw [h.getElem? hj, List.length_replicate, List.length_replicate, List.length_replicate] at hc
  split at hc
  · next hs =>
    rw [List.getElem?_replicate, if_pos (by omega)] at hc
    exact .inl ⟨(Option.some.inj hc).symm, hs⟩
  · split at hc
    · next hr =>
      rw [List.getElem?_replicate, if_pos (by omega)] at hc
      exact .inr (.inl ⟨(Option.some.inj hc).symm, hr⟩)
    · split at hc
      · rw [List.getElem?_replicate, if_pos (by omega)] at hc
        exact .inr (.inr (.inl (Option.some.inj hc).symm))
      · exact .inr (.inr (.inr (List.eq_of_mem_replicate (List.mem_of_getElem? hc))))

theorem Copies.of_two
    (h : Copies (List.replicate kn 1) (List.replicate rn 2) (List.replicate sn 3) p base ka ra sa img)
    {j : Nat} (hj : 40 ≤ j) (hc : img[j]? = some 2) : p + ka ≤ j ∧ j < p + ka + rn := by
  rcases h.of_byte hj hc with ⟨h3, -⟩ | ⟨-, hr⟩ | h1 | h0
  · cases h3
  · exact hr
  · cases h1
  · cases h0

theorem Copies.of_three
    (h : Copies (List.replicate kn 1) (List.replicate rn 2) (List.replicate sn 3) p base ka ra sa img)
    {j : Nat} (hj : 40 ≤ j) (hc : img[j]? = some 3) : p + ka + ra ≤ j ∧ j < p + ka + ra + sn := by
  rcases h.of_byte hj hc with ⟨-, hs⟩ | ⟨h2, -⟩ | h1 | h0
  · exact hs
  · cases h2
  · cases h1
  · cases h0

theorem getElem?_of_slice {off n : Nat} {c : UInt8} (h : slice img off n = List.replicate n c) {t : Nat}
    (ht : t < n) : img[off + t]? = some c := by
  have := congrArg (·[t]?) h
  simpa [slice, List.getElem?_take_of_lt ht, List.getElem?_replicate, ht] using this

/-- Where the sections are found, they were copied to. -/
theorem Copies.places
    (h : Copies (List.replicate kn 1) (List.replicate rn 2) (List.replicate sn 3) p base ka ra sa img)
    {K R : Nat} (hp : 40 ≤ p) (hr : slice img (p + K) rn = List.replicate rn 2)
    (hs : slice img (p + K + R) sn = List.replicate sn 3) :
    (0 < rn → ka = K) ∧ (0 < sn → ka + ra = K + R) := by
  constructor
  · intro hpos
    have hfirst := h.of_two (by omega) (getElem?_of_slice hr hpos)
    have hlast := h.of_two (by omega) (getElem?_of_slice hr (t := rn - 1) (by omega))
    omega
  · intro hpos
    have hfirst := h.of_three (by omega) (getElem?_of_slice hs hpos)
    have hlast := h.of_three (by omega) (getElem?_of_slice hs (t := sn - 1) (by omega))
    omega

end Distinct

/-- What has to be so for the image to be as documented. -/
structure Fits (p kernelSize ramdiskSize secondSize : Nat) : Prop where
  header : 608 ≤ p
  noWrap : p + p * blocks p kernelSize + p * blocks p ramdiskSize + p * blocks p secondSize < 2 ^ 32
  kernel : Rounds p kernelSize
  ramdisk : Rounds p ramdiskSize
  second : Rounds p secondSize

variable {kn rn sn : Nat}

theorem Fits.correct (h : Fits p kn rn sn) : Correct p kn rn sn := by
  rintro kernel ramdisk second rfl rfl rfl calloc base
  have h40 : 40 ≤ p := Nat.le_trans (by decide) h.header
  have hr : RoundsAll p kernel ramdisk second := ⟨h.kernel, h.ramdisk, h.second⟩
  have hsize : p + pages p kernel ramdisk second < 2 ^ 32 := by
    have := h.noWrap
    unfold pages
    omega
  have heq := mkbootimg_eq calloc h40 base hr hsize
  split
  · next hc =>
    rw [if_pos hc] at heq
    obtain ⟨hdoc, hlen⟩ := documented_mkbootimg h40 base hr hsize heq
    exact ⟨_, heq, hlen, hlen ▸ hsize, h.header, hdoc⟩
  · next hc =>
    rw [heq, if_neg hc]

theorem fits_of_correct (hp : 0 < p) (hlt : p < 2 ^ 32) (h : Correct p kn rn sn) : Fits p kn rn sn := by
  obtain ⟨img, himg, hdoc⟩ := h (List.replicate kn 1) (List.replicate rn 2) (List.replicate sn 3)
    List.length_replicate List.length_replicate List.length_replicate (fun _ => true) 0
  have hcopies := copies_of_ok hp hlt himg
  have h40 : 40 ≤ p := Nat.le_trans (by decide) hdoc.header
  have hsize := hdoc.size
  have hwrap := hdoc.noWrap
  have hword := hcopies.length
  simp only [pages, List.length_replicate] at hsize hword hcopies
  have lk := le_mul_blocks hp kn
  have lr := le_mul_blocks hp rn
  have ls := le_mul_blocks hp sn
  have ek := actual_eq_iff hp kn (by omega)
  have er := actual_eq_iff hp rn (by omega)
  have es := actual_eq_iff hp sn (by omega)
  -- The sections are read at the places that are documented.
  obtain ⟨rest, hrest⟩ := hcopies.words h40
  obtain ⟨w₁, w₂, w₃, w₄⟩ := hdrWord_words (header (List.replicate kn 1) (List.replicate rn 2)
    (List.replicate sn 3) p 0) rest
  have hread := hdoc.sections
  rw [documented, readLayout] at hread
  rw [← hrest] at w₁ w₂ w₃ w₄
  simp only [header, List.length_replicate] at w₁ w₂ w₃ w₄
  rw [Nat.mod_eq_of_lt (by omega)] at w₁ w₂ w₃ w₄
  rw [w₁, w₂, w₃, w₄] at hread
  obtain ⟨hr, hs⟩ := hcopies.places h40 (congrArg Sections.ramdisk hread) (congrArg Sections.second hread)
  have hr0 : rn = 0 → actual (p - 1) rn = p * blocks p rn ∧ p * blocks p rn = 0 := by
    rintro rfl
    exact ⟨er.mpr (rounds_zero hp), by rw [blocks_zero hp, Nat.mul_zero]⟩
  have hs0 : sn = 0 → actual (p - 1) sn = p * blocks p sn ∧ p * blocks p sn = 0 := by
    rintro rfl
    exact ⟨es.mpr (rounds_zero hp), by rw [blocks_zero hp, Nat.mul_zero]⟩
  have hklt : actual (p - 1) kn < 2 ^ 32 := Nat.lt_of_le_of_lt Nat.and_le_left (Nat.mod_lt _ (by decide))
  have hrlt : actual (p - 1) rn < 2 ^ 32 := Nat.lt_of_le_of_lt Nat.and_le_left (Nat.mod_lt _ (by decide))
  have hslt : actual (p - 1) sn < 2 ^ 32 := Nat.lt_of_le_of_lt Nat.and_le_left (Nat.mod_lt _ (by decide))
  unfold word at hword
  have hka : actual (p - 1) kn = p * blocks p kn := by omega
  have hra : actual (p - 1) rn = p * blocks p rn := by omega
  have hsa : actual (p - 1) sn = p * blocks p sn := by omega
  exact ⟨hdoc.header, by omega, ek.mp hka, er.mp hra, es.mp hsa⟩

/-- **The image of `mkbootimg` is as documented** for the page sizes from 608 on, while its size is a
word and the mask rounds the three sizes; that it does for all sizes for the powers of two only. -/
theorem correct_iff (w : Nat) (arg : List UInt8) (p : Nat) (harg : nOption w arg = some p) :
    (∀ kernelSize ramdiskSize secondSize,
      Correct p kernelSize ramdiskSize secondSize ↔ Fits p kernelSize ramdiskSize secondSize) ∧
    ((∀ n, Rounds p n) ↔ ∃ k, p = 2 ^ k) := by
  obtain ⟨hp, hlt⟩ := nOption_pos harg
  exact ⟨fun _ _ _ => ⟨fits_of_correct hp hlt, Fits.correct⟩, rounds_all_iff hp⟩

theorem correct_2048 : Correct 2048 1 5000 0 :=
  ((correct_iff 64 [50, 48, 52, 56] 2048 (by decide)).1 1 5000 0).mpr
    ⟨by decide, by decide, by decide, by decide, by decide⟩

/-- `-n 3000`: a kernel of one byte is rounded to 8 bytes. -/
theorem incorrect_3000 : nOption 64 [51, 48, 48, 48] = some 3000 ∧ ¬ Correct 3000 1 0 0 := by
  refine ⟨by decide, fun h => ?_⟩
  have hk := (fits_of_correct (by decide) (by decide) h).kernel
  exact absurd hk (by decide)

end Twm.BootImg.Fastboot
