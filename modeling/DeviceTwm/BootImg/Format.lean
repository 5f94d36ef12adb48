import DeviceTwm.Lib.Bytes

/-!
# The boot image

The header (`boot_img_hdr`) as bytes, and a reader of the image. The reader takes the sizes from
the header and finds each section at the next block after the section before it. `documented` is
the layout of `bootimg.h`, blocks of `hdr.page_size` bytes; `evenPages` reads with blocks of two
pages.

* `readLayout_of_blocks`: a header block followed by the sections, each filled up to whole blocks,
  reads back as these sections.
-/

open Lib

namespace Twm.BootImg

/-- `BOOT_MAGIC`: `ANDROID!`. -/
def BOOT_MAGIC : List UInt8 := [65, 78, 68, 82, 79, 73, 68, 33]

def BOOT_NAME_SIZE : Nat := 16
def BOOT_ARGS_SIZE : Nat := 512

/-- `boot_img_hdr`; `magic` is always `BOOT_MAGIC` and `unused` is zero. -/
structure BootImgHdr where
  kernelSize : Nat
  kernelAddr : Nat
  ramdiskSize : Nat
  ramdiskAddr : Nat
  secondSize : Nat
  secondAddr : Nat
  tagsAddr : Nat
  pageSize : Nat
  name : List UInt8
  cmdline : List UInt8
  id : List UInt8

namespace BootImgHdr

/-- The fields up to `page_size`, as bytes. -/
def words (h : BootImgHdr) : List UInt8 :=
  BOOT_MAGIC ++ (le32 h.kernelSize ++ (le32 h.kernelAddr ++ (le32 h.ramdiskSize ++
    (le32 h.ramdiskAddr ++ (le32 h.secondSize ++ (le32 h.secondAddr ++
      (le32 h.tagsAddr ++ le32 h.pageSize)))))))

@[simp] theorem length_words (h : BootImgHdr) : h.words.length = 40 := rfl

/-- An array field of `n` bytes in a header that was cleared before. -/
def field (n : Nat) (b : List UInt8) : List UInt8 := (b ++ zeros n).take n

@[simp] theorem length_field (n : Nat) (b : List UInt8) : (field n b).length = n := by
  simp [field]

/-- The header as bytes. -/
def encode (h : BootImgHdr) : List UInt8 :=
  h.words ++ (zeros 8 ++ (field BOOT_NAME_SIZE h.name ++ (field BOOT_ARGS_SIZE h.cmdline ++
    field 32 h.id)))

/-- `sizeof(boot_img_hdr)`. -/
@[simp] theorem length_encode (h : BootImgHdr) : h.encode.length = 608 := by
  simp [encode, BOOT_NAME_SIZE, BOOT_ARGS_SIZE]

end BootImgHdr

/-- The sections of an image. -/
structure Sections where
  kernel : List UInt8
  ramdisk : List UInt8
  second : List UInt8
  deriving DecidableEq

/-- The header field at byte `off` of an image. -/
def hdrWord (img : List UInt8) (off : Nat) : Nat := ofLe32 (img.drop off)

/-- The reader, with blocks of `block` bytes. -/
def readLayout (block : Nat) (img : List UInt8) : Sections :=
  let kernelSize := hdrWord img 8
  let ramdiskSize := hdrWord img 16
  let secondSize := hdrWord img 24
  let n := blocks block kernelSize
  let m := blocks block ramdiskSize
  { kernel := slice img block kernelSize
    ramdisk := slice img (block + block * n) ramdiskSize
    second := slice img (block + block * n + block * m) secondSize }

/-- The layout of `bootimg.h`. -/
def documented (img : List UInt8) : Sections := readLayout (hdrWord img 36) img

/-- The layout with every section in an even number of pages. -/
def evenPages (img : List UInt8) : Sections := readLayout (2 * hdrWord img 36) img

theorem hdrWord_words (h : BootImgHdr) (rest : List UInt8) :
    hdrWord (h.words ++ rest) 8 = h.kernelSize % 2 ^ 32 ∧
    hdrWord (h.words ++ rest) 16 = h.ramdiskSize % 2 ^ 32 ∧
    hdrWord (h.words ++ rest) 24 = h.secondSize % 2 ^ 32 ∧
    hdrWord (h.words ++ rest) 36 = h.pageSize % 2 ^ 32 :=
  ⟨ofLe32_le32 h.kernelSize _, ofLe32_le32 h.ramdiskSize _, ofLe32_le32 h.secondSize _,
    ofLe32_le32 h.pageSize _⟩

theorem hdrWord_encode (h : BootImgHdr) (rest : List UInt8) :
    hdrWord (h.encode ++ rest) 8 = h.kernelSize % 2 ^ 32 ∧
    hdrWord (h.encode ++ rest) 16 = h.ramdiskSize % 2 ^ 32 ∧
    hdrWord (h.encode ++ rest) 24 = h.secondSize % 2 ^ 32 ∧
    hdrWord (h.encode ++ rest) 36 = h.pageSize % 2 ^ 32 := by
  rw [BootImgHdr.encode, List.append_assoc]
  exact hdrWord_words h _

/-- The sections after a header block, each filled up to whole blocks, read back. -/
theorem readLayout_of_blocks {block : Nat} (hb : 0 < block) (h : BootImgHdr)
    {pad tail kernel ramdisk second : List UInt8} (hpad : (h.words ++ pad).length = block)
    (hk : h.kernelSize = kernel.length) (hr : h.ramdiskSize = ramdisk.length)
    (hs : h.secondSize = second.length) (hk32 : kernel.length < 2 ^ 32)
    (hr32 : ramdisk.length < 2 ^ 32) (hs32 : second.length < 2 ^ 32) :
    readLayout block (h.words ++ (pad ++ (padTo block kernel ++ (padTo block ramdisk ++
      (second ++ tail))))) = ⟨kernel, ramdisk, second⟩ := by
  obtain ⟨h₁, h₂, h₃, -⟩ := hdrWord_words h (pad ++ (padTo block kernel ++
    (padTo block ramdisk ++ (second ++ tail))))
  have hlk := length_padTo hb kernel
  have hlr := length_padTo hb ramdisk
  simp only [readLayout, h₁, h₂, h₃, hk, hr, hs, Nat.mod_eq_of_lt hk32, Nat.mod_eq_of_lt hr32,
    Nat.mod_eq_of_lt hs32, Sections.mk.injEq]
  refine ⟨?_, ?_, ?_⟩
  · rw [← List.append_assoc, padTo_append]
    exact slice_append _ hpad.symm rfl
  · rw [← List.append_assoc, ← List.append_assoc, padTo_append block ramdisk]
    refine slice_append _ ?_ rfl
    rw [List.length_append, hpad, hlk]
  · rw [← List.append_assoc, ← List.append_assoc, ← List.append_assoc]
    refine slice_append _ ?_ rfl
    rw [List.length_append, List.length_append, hpad, hlk, hlr]

end Twm.BootImg
