import DeviceTwm.Lib.CString
import DeviceTwm.BootImg.Fastboot

/-!
# The command line of `fastboot`

`-c` overrides the kernel command line: `load_bootable_image` copies it into the header of the image
that it has loaded or made. The copy is a `strcpy` into an array of 512 bytes, and nothing compares
its length with the array, or the array with the end of the image.

* `loadBootableImage_cmdline`: with a command line the function does the same as without, and then the
  copy.
* `overrides_iff`: when that is what it should be.
-/

open Lib

namespace Twm.BootImg.Fastboot

/-- Why `load_bootable_image` returns 0. -/
inductive Refusal
  | noImage
  | cannotLoad (fn : String)
  | bootAndRamdisk
  | failed

/-- What it prints on `stderr`. -/
def Refusal.message : Refusal → String
  | noImage => "no image specified"
  | cannotLoad fn => "cannot load '" ++ fn ++ "'"
  | bootAndRamdisk => "cannot boot a boot.img *and* ramdisk"
  | failed => "failed to create boot.img"

def BOOT_MAGIC_SIZE : Nat := 8

/-- Where `cmdline` is in the header. -/
def cmdlineOff : Nat := 64

/-- `bootimg_set_cmdline`. -/
def bootimgSetCmdline (h cmdline : List UInt8) : Except Trap (List UInt8) :=
  memcpy h cmdlineOff (cString cmdline ++ [0])

/-- `memcmp` with `BOOT_MAGIC`. It reads all the bytes that it is given the number of. -/
def isBootImage (kdata : List UInt8) : Except Trap Bool :=
  if kdata.length < BOOT_MAGIC_SIZE then .error .outOfBounds
  else .ok (kdata.take BOOT_MAGIC_SIZE = BOOT_MAGIC)

/-- `if(cmdline) bootimg_set_cmdline(..)`. -/
def setCmdline (img : List UInt8) : Option (List UInt8) → Except Trap (List UInt8)
  | none => .ok img
  | some cmdline => bootimgSetCmdline img cmdline

section

variable (loadFile : String → Option (List UInt8)) (calloc : Nat → Bool) (pageSize base : Nat)

/-- The part of `load_bootable_image` for a kernel. -/
def makeImage (kdata rdata : List UInt8) (cmdline : Option (List UInt8)) :
    Except Trap (Except Refusal (List UInt8)) := do
  match ← mkbootimg calloc kdata rdata [] pageSize base with
  | none => .ok (.error .failed)
  | some bdata => do
    let bdata ← setCmdline bdata cmdline
    .ok (.ok bdata)

/-- `load_bootable_image`; `loadFile` is what `load_file` returns. -/
def loadBootableImage (kernel ramdisk : Option String) (cmdline : Option (List UInt8)) :
    Except Trap (Except Refusal (List UInt8)) :=
  match kernel with
  | none => .ok (.error .noImage)
  | some kernel =>
    match loadFile kernel with
    | none => .ok (.error (.cannotLoad kernel))
    | some kdata => do
      -- is this actually a boot image?
      if ← isBootImage kdata then do
        let kdata ← setCmdline kdata cmdline
        if ramdisk.isSome then .ok (.error .bootAndRamdisk) else .ok (.ok kdata)
      else
        match ramdisk with
        | none => makeImage calloc pageSize base kdata [] cmdline
        | some ramdisk =>
          match loadFile ramdisk with
          | none => .ok (.error (.cannotLoad ramdisk))
          | some rdata => makeImage calloc pageSize base kdata rdata cmdline

end

/-- The images differ inside `cmdline` only, and there the second has the text. -/
structure OnlyCmdline (img img' text : List UInt8) : Prop where
  length : img'.length = img.length
  outside : ∀ j, j < cmdlineOff ∨ cmdlineOff + BOOT_ARGS_SIZE ≤ j → img'[j]? = img[j]?
  cmdline : slice img' cmdlineOff (text.length + 1) = text ++ [0]
  fits : text.length < BOOT_ARGS_SIZE

/-- A command line that fits is put into the image `img` that there is without it, and any other is
refused. -/
def Overrides (img cmdline : List UInt8) (r : Except Trap (Except Refusal (List UInt8))) : Prop :=
  if (cString cmdline).length < BOOT_ARGS_SIZE then
    ∃ img', r = .ok (.ok img') ∧ OnlyCmdline img img' (cString cmdline)
  else ∃ e, r = .ok (.error e)

variable {loadFile : String → Option (List UInt8)} {calloc : Nat → Bool} {pageSize base : Nat}
  {kernel ramdisk : Option String} {img cmdline : List UInt8}

theorem makeImage_cmdline {kdata rdata : List UInt8}
    (h : makeImage calloc pageSize base kdata rdata none = .ok (.ok img)) :
    makeImage calloc pageSize base kdata rdata (some cmdline) =
      (bootimgSetCmdline img cmdline).map .ok := by
  unfold makeImage at h ⊢
  cases hm : mkbootimg calloc kdata rdata [] pageSize base with
  | error e =>
    rw [hm] at h
    cases h
  | ok r =>
    rw [hm] at h
    cases r with
    | none => cases h
    | some bdata =>
      cases h
      rfl

/-- The copy is all that a command line adds. -/
theorem loadBootableImage_cmdline
    (h : loadBootableImage loadFile calloc pageSize base kernel ramdisk none = .ok (.ok img)) :
    loadBootableImage loadFile calloc pageSize base kernel ramdisk (some cmdline) =
      (bootimgSetCmdline img cmdline).map .ok := by
  unfold loadBootableImage at h ⊢
  cases kernel with
  | none => cases h
  | some kernel =>
    cases hk : loadFile kernel with
    | none =>
      simp only [hk] at h
      cases h
    | some kdata =>
      simp only [hk] at h ⊢
      cases hb : isBootImage kdata with
      | error e =>
        rw [hb] at h
        cases h
      | ok b =>
        rw [hb] at h
        cases b with
        | true =>
          cases ramdisk with
          | none =>
            cases h
            rfl
          | some ramdisk => cases h
        | false =>
          cases ramdisk with
          | none => exact makeImage_cmdline h
          | some ramdisk =>
            cases hr : loadFile ramdisk with
            | none =>
              simp only [hr] at h
              cases h
            | some rdata =>
              simp only [hr] at h ⊢
              exact makeImage_cmdline h

/-- The copy stays inside `cmdline` and inside the image. -/
theorem onlyCmdline_of_blit {text img' : List UInt8} (h : blit img cmdlineOff (text ++ [0]) = some img')
    (ht : text.length < BOOT_ARGS_SIZE) : OnlyCmdline img img' text where
  length := length_blit h
  outside j hj := by
    rw [getElem?_blit h, if_neg]
    rw [List.length_append, List.length_singleton]
    omega
  cmdline := by
    have := slice_blit h
    rwa [List.length_append, List.length_singleton] at this
  fits := ht

/-- **The command line touches only the command line** exactly when it is shorter than 512 bytes and
the image, as it is without it, reaches to the end of the copy. -/
theorem overrides_iff (loadFile : String → Option (List UInt8)) (calloc : Nat → Bool)
    (pageSize base : Nat) (kernel ramdisk : Option String) (img cmdline : List UInt8)
    (h : loadBootableImage loadFile calloc pageSize base kernel ramdisk none = .ok (.ok img)) :
    Overrides img cmdline
        (loadBootableImage loadFile calloc pageSize base kernel ramdisk (some cmdline)) ↔
      (cString cmdline).length < BOOT_ARGS_SIZE ∧
        cmdlineOff + (cString cmdline).length + 1 ≤ img.length := by
  rw [loadBootableImage_cmdline h, Overrides, bootimgSetCmdline, memcpy]
  cases hb : blit img cmdlineOff (cString cmdline ++ [0]) with
  | none =>
    -- The copy runs past the end of the image.
    have hshort : ¬ cmdlineOff + (cString cmdline).length + 1 ≤ img.length := by
      intro hle
      rw [blit, if_pos (by rw [List.length_append, List.length_singleton]; omega)] at hb
      cases hb
    refine iff_of_false ?_ fun hf => hshort hf.2
    split
    · rintro ⟨img', hr, -⟩
      cases hr
    · rintro ⟨e, hr⟩
      cases hr
  | some img' =>
    have hlong : cmdlineOff + (cString cmdline).length + 1 ≤ img.length := by
      unfold blit at hb
      split at hb
      · next hle =>
        rw [List.length_append, List.length_singleton] at hle
        omega
      · cases hb
    split
    · next ht => exact iff_of_true ⟨img', rfl, onlyCmdline_of_blit hb ht⟩ ⟨ht, hlong⟩
    · next ht =>
      refine iff_of_false ?_ fun hf => ht hf.1
      rintro ⟨e, hr⟩
      cases hr

/-- A file that starts with the magic. -/
theorem load_bootImage (rest : List UInt8) (calloc : Nat → Bool) (pageSize base : Nat) (fn : String) :
    loadBootableImage (fun _ => some (BOOT_MAGIC ++ rest)) calloc pageSize base (some fn) none none =
      .ok (.ok (BOOT_MAGIC ++ rest)) := by
  have hboot : isBootImage (BOOT_MAGIC ++ rest) = .ok true := by
    have hlen : ¬ (BOOT_MAGIC ++ rest).length < BOOT_MAGIC_SIZE := by
      rw [List.length_append]
      exact Nat.not_lt.mpr (Nat.le_add_right 8 rest.length)
    have htake : (BOOT_MAGIC ++ rest).take BOOT_MAGIC_SIZE = BOOT_MAGIC := List.take_left' rfl
    rw [isBootImage, if_neg hlen, htake, decide_eq_true rfl]
  simp only [loadBootableImage, hboot]
  rfl

/-- `-c a=1` on a boot image that is all zero after its magic. -/
theorem overrides_short : Overrides (BOOT_MAGIC ++ zeros 600) [97, 61, 49]
    (loadBootableImage (fun _ => some (BOOT_MAGIC ++ zeros 600)) (fun _ => true) 2048 0
      (some "boot.img") none (some [97, 61, 49])) :=
  (overrides_iff (fun _ => some (BOOT_MAGIC ++ zeros 600)) (fun _ => true) 2048 0 (some "boot.img") none
    (BOOT_MAGIC ++ zeros 600) [97, 61, 49] (load_bootImage (zeros 600) _ 2048 0 "boot.img")).mpr
    ⟨by decide, by rw [List.length_append, length_zeros]; decide⟩

/-- A command line of 512 bytes is not refused. -/
theorem longCmdline_copied :
    loadBootableImage (fun _ => some (BOOT_MAGIC ++ zeros 600)) (fun _ => true) 2048 0
      (some "boot.img") none none = .ok (.ok (BOOT_MAGIC ++ zeros 600)) ∧
    ¬ Overrides (BOOT_MAGIC ++ zeros 600) (List.replicate 512 97)
      (loadBootableImage (fun _ => some (BOOT_MAGIC ++ zeros 600)) (fun _ => true) 2048 0
        (some "boot.img") none (some (List.replicate 512 97))) := by
  have hload := load_bootImage (zeros 600) (fun _ => true) 2048 0 "boot.img"
  refine ⟨hload, ?_⟩
  have hstr : cString (List.replicate 512 97) = List.replicate 512 97 :=
    cString_of_notMem fun h => absurd (List.eq_of_mem_replicate h) (by decide)
  rw [loadBootableImage_cmdline hload, Overrides, hstr, if_neg (by rw [List.length_replicate]; decide)]
  rintro ⟨e, hr⟩
  cases hb : bootimgSetCmdline (BOOT_MAGIC ++ zeros 600) (List.replicate 512 97) with
  | error t =>
    rw [hb] at hr
    cases hr
  | ok img' =>
    rw [hb] at hr
    cases hr

end Twm.BootImg.Fastboot
