import DeviceTwm.BootImg.Tool
import DeviceTwm.BootImg.Fastboot

/-!
# The two builders of boot images

The tool fills every section up to an even number of pages, and `fastboot` to whole pages. Both
images give back the inputs, each by its own layout (`builders_agree`). The image of the tool read
as `bootimg.h` documents has zeros where the kernel should start (`documented_image_kernel`), so
it does not (`documented_fails_on_tool`).
-/

open Lib

namespace Twm.BootImg

/-- **Both builders keep the sections.** Read with two-page blocks the file of the tool gives back
the input files, and read as documented the image of `fastboot` with the same page size gives
them back too, while its size fits in a word. -/
theorem builders_agree (H : Tool.Host) (args : List String) (o : Tool.Options) (i : Tool.Inputs)
    (hargs : Tool.parseArgs args ⟨none, none, none, none, "", ""⟩ = .ok o)
    (hn : Tool.Names H o i)
    (hsum : i.kernel.length + i.ramdisk.length + i.secondData.length < 2 ^ 32) :
    (∀ file, Tool.main H args = .ok file → evenPages file = i.sections) ∧
    (H.Delivers → o.bootimg.isSome → (Tool.bytes o.board).length < BOOT_NAME_SIZE →
      (Tool.bytes o.cmdline).length < BOOT_ARGS_SIZE → i.kernel.length < 2 ^ 31 →
      i.ramdisk.length < 2 ^ 31 → i.secondData.length < 2 ^ 31 →
      ∃ file, Tool.main H args = .ok file) ∧
    (∀ calloc base, (∀ n, calloc n = true) →
      Tool.pagesize + Fastboot.pages Tool.pagesize i.kernel i.ramdisk i.secondData < 2 ^ 32 →
      ∃ img, Fastboot.mkbootimg calloc i.kernel i.ramdisk i.secondData Tool.pagesize base =
        .ok (some img) ∧ documented img = i.sections) := by
  refine ⟨fun file hmain => ?_, fun hd hb h₁ h₂ h₃ h₄ h₅ => ?_, fun calloc base hc hsize => ?_⟩
  · have hi : i.Small := ⟨by omega, by omega, by omega⟩
    rw [Tool.main_ok hargs hn hi hmain]
    exact Tool.evenPages_image _ i rfl rfl rfl rfl hi
  · exact Tool.main_succeeds hd hargs hn hb h₁ h₂ h₃ h₄ h₅
  · have hr : Fastboot.RoundsAll Tool.pagesize i.kernel i.ramdisk i.secondData :=
      Fastboot.roundsAll_two_pow 11 _ _ _
    have himg := Fastboot.mkbootimg_eq calloc (by decide) base hr hsize
    rw [if_pos (hc _)] at himg
    exact ⟨_, himg, (Fastboot.documented_mkbootimg (by decide) base hr hsize himg).1⟩

/-- A host with a kernel and a ramdisk of one byte. -/
def oneByteHost : Tool.Host where
  addrs := .generic
  file := fun fn => if fn = "kernel" then some [1] else if fn = "ramdisk" then some [2] else none
  malloc := fun _ => true
  read := fun _ n => n
  creat := fun _ => true
  write := fun _ n => n
  sha := fun _ => zeros 20

theorem oneByteHost_delivers : oneByteHost.Delivers :=
  ⟨fun _ => rfl, fun _ _ => rfl, fun _ => rfl, fun _ _ => rfl⟩

/-- The options of a run on these two files. -/
def oneByteArgs : List String := ["--kernel", "kernel", "--ramdisk", "ramdisk", "-o", "boot.img"]

def oneByteOptions : Tool.Options := ⟨some "boot.img", some "kernel", some "ramdisk", none, "", ""⟩

theorem parseArgs_oneByte :
    Tool.parseArgs oneByteArgs ⟨none, none, none, none, "", ""⟩ = .ok oneByteOptions := by
  simp [oneByteArgs, oneByteOptions, Tool.parseArgs]

theorem names_oneByte : Tool.Names oneByteHost oneByteOptions ⟨[1], [2], none⟩ :=
  ⟨⟨"kernel", rfl, by simp [oneByteHost]⟩, ⟨"ramdisk", rfl, by simp [oneByteHost]⟩, rfl⟩

theorem oneByte_small : Tool.Inputs.Small ⟨[1], [2], none⟩ := ⟨by decide, by decide, by decide⟩

theorem builders_agree_oneByte : ∃ file img,
    Tool.main oneByteHost oneByteArgs = .ok file ∧ evenPages file = ⟨[1], [2], []⟩ ∧
    Fastboot.mkbootimg (fun _ => true) [1] [2] [] 2048 0 = .ok (some img) ∧
    documented img = ⟨[1], [2], []⟩ := by
  obtain ⟨h₁, h₂, h₃⟩ := builders_agree oneByteHost oneByteArgs oneByteOptions ⟨[1], [2], none⟩
    parseArgs_oneByte names_oneByte (by decide)
  obtain ⟨file, hf⟩ := h₂ oneByteHost_delivers rfl (by decide) (by decide) (by decide)
    (by decide) (by decide)
  obtain ⟨img, hi, hd⟩ := h₃ (fun _ => true) 0 (fun _ => rfl) (by decide)
  exact ⟨file, img, hf, h₁ file hf, hi, hd⟩

/-- Read as documented, the kernel in the file of the tool starts with zeros: the second page of
the header block. -/
theorem documented_image_kernel (H : Tool.Host) (board cmdline : String) (i : Tool.Inputs)
    (hk : i.kernel.length ≤ Tool.pagesize) :
    (documented (Tool.image (Tool.header H board cmdline i) i)).kernel =
      zeros i.kernel.length := by
  have hl : (Tool.header H board cmdline i).kernelSize % 2 ^ 32 = i.kernel.length :=
    Nat.mod_eq_of_lt (Nat.lt_of_le_of_lt hk (by decide))
  have hp : (Tool.header H board cmdline i).pageSize % 2 ^ 32 = Tool.pagesize := rfl
  simp only [documented, readLayout, Tool.image, hdrWord_encode, hl, hp]
  rw [slice_append_right _ (by rw [BootImgHdr.length_encode]; decide), BootImgHdr.length_encode]
  refine slice_zeros _ ?_
  simp only [slack, blocks, Tool.pagesize] at hk ⊢
  omega

/-- The kernel `[1]` of the tool reads back as `[0]` by the documented layout. -/
theorem documented_fails_on_tool : ∃ file,
    Tool.main oneByteHost oneByteArgs = .ok file ∧ documented file ≠ ⟨[1], [2], []⟩ := by
  obtain ⟨file, hf⟩ := Tool.main_succeeds oneByteHost_delivers parseArgs_oneByte names_oneByte
    rfl (by decide) (by decide) (by decide) (by decide) (by decide)
  refine ⟨file, hf, fun h => ?_⟩
  have hk := congrArg Sections.kernel h
  rw [Tool.main_ok parseArgs_oneByte names_oneByte oneByte_small hf,
    documented_image_kernel _ _ _ _ (by decide)] at hk
  exact absurd hk (by decide)

end Twm.BootImg
