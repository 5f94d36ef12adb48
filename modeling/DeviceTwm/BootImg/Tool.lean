import DeviceTwm.BootImg.Format

/-!
# The `mkbootimg` tool

`main` reads the options, loads the input files and writes the image. Every section, the header
too, is followed by `write_padding` (up to a page) and by `write_page_padding` (one page more
after an odd number of pages), so it takes whole blocks of two pages.

* `writeItem_eq`: what the three writes of a section put in the file.
* `main_writes`: the file of a run that succeeds, and `main_ok` for files that are loaded in full.
* `main_succeeds`: when the host does all that it is asked, the run succeeds.
-/

open Lib

namespace Twm.BootImg.Tool

/-- The load addresses in the header. -/
structure Addrs where
  kernel : Nat
  ramdisk : Nat
  second : Nat
  tags : Nat

/-- The addresses of a build with `GENERIC`. -/
def Addrs.generic : Addrs := ⟨0x208000, 0x1200000, 0x1100000, 0x10000100⟩

/-- What the tool asks of its host. -/
structure Host where
  /-- The addresses of the build. -/
  addrs : Addrs
  /-- The content of a file that can be opened and seeked. -/
  file : String → Option (List UInt8)
  malloc : Nat → Bool
  /-- What `read` of so many bytes of a file returns. -/
  read : String → Nat → Int
  creat : String → Bool
  /-- What `write` of so many bytes at a position of the output returns. -/
  write : Nat → Nat → Int
  /-- `SHA` of the bytes given to `SHA_update`. -/
  sha : List UInt8 → List UInt8

/-- Why the tool returns 1. -/
inductive Failure
  | usage
  | noOutput
  | noKernel
  | noRamdisk
  | boardTooLarge
  | cmdlineTooLarge
  | loadKernel (fn : String)
  | loadRamdisk (fn : String)
  | loadSecond (fn : String)
  | create (fn : String)
  | writing (fn : String)

/-- What the tool prints on `stderr`; `usage` follows the errors of the command line. -/
def Failure.message : Failure → String
  | usage => ""
  | noOutput => "error: no output filename specified"
  | noKernel => "error: no kernel image specified"
  | noRamdisk => "error: no ramdisk image specified"
  | boardTooLarge => "error: board name too large"
  | cmdlineTooLarge => "error: kernel commandline too large"
  | loadKernel fn => "error: could not load kernel '" ++ fn ++ "'"
  | loadRamdisk fn => "error: could not load ramdisk '" ++ fn ++ "'"
  | loadSecond fn => "error: could not load secondstage '" ++ fn ++ "'"
  | create fn => "error: could not create '" ++ fn ++ "'"
  | writing fn => "error: failed writing '" ++ fn ++ "'"

/-- The options. The addresses that `--base` sets are overwritten by those of the build. -/
structure Options where
  bootimg : Option String
  kernelFn : Option String
  ramdiskFn : Option String
  secondFn : Option String
  cmdline : String
  board : String

/-- The option loop of `main`. -/
def parseArgs : List String → Options → Except Failure Options
  | [], o => .ok o
  | [_], _ => .error .usage
  | arg :: val :: rest, o =>
    if arg = "--output" ∨ arg = "-o" then parseArgs rest { o with bootimg := some val }
    else if arg = "--kernel" then parseArgs rest { o with kernelFn := some val }
    else if arg = "--ramdisk" then parseArgs rest { o with ramdiskFn := some val }
    else if arg = "--second" then parseArgs rest { o with secondFn := some val }
    else if arg = "--cmdline" then parseArgs rest { o with cmdline := val }
    else if arg = "--base" then parseArgs rest o
    else if arg = "--board" then parseArgs rest { o with board := val }
    else .error .usage

/-- The bytes of a C string. -/
def bytes (s : String) : List UInt8 := s.toUTF8.data.toList

/-- A file size stored to an `int`. -/
def int32 (n : Nat) : Int := Int.bmod n (2 ^ 32)

def loadFile (H : Host) (fn : String) : Option (List UInt8) :=
  match H.file fn with
  | none => none
  | some data =>
    let sz := int32 data.length
    if sz < 0 then none
    else if ¬ H.malloc sz.toNat then none
    else if H.read fn sz.toNat ≠ sz then none
    else some (data.take sz.toNat)

/-- One `write` to the output; `none`: the tool goes to `fail` and unlinks the file. -/
def write (H : Host) (file buf : List UInt8) : Option (List UInt8) :=
  if H.write file.length buf.length = buf.length then some (file ++ buf) else none

def writePadding (H : Host) (file : List UInt8) (pagesize itemsize : Nat) :
    Option (List UInt8) :=
  let pagemask := pagesize - 1
  if itemsize &&& pagemask = 0 then some file
  else write H file (zeros (pagesize - (itemsize &&& pagemask)))

def writePagePadding (H : Host) (file : List UInt8) (pagesize itemsize : Nat) :
    Option (List UInt8) :=
  let pagecount := itemsize / pagesize
  let pagecount := if itemsize % pagesize ≠ 0 then pagecount + 1 else pagecount
  if pagecount % 2 = 0 then some file else write H file (zeros pagesize)

/-- A section: its bytes, and the paddings for a size of `itemsize`. -/
def writeItem (H : Host) (pagesize : Nat) (item : List UInt8) (itemsize : Nat)
    (file : List UInt8) : Option (List UInt8) := do
  let file ← write H file item
  let file ← writePadding H file pagesize itemsize
  writePagePadding H file pagesize itemsize

def pagesize : Nat := 2048

/-- The inputs once they are loaded. -/
structure Inputs where
  kernel : List UInt8
  ramdisk : List UInt8
  second : Option (List UInt8)

/-- The part of `main` that loads the files. -/
def loadInputs (H : Host) (kernelFn ramdiskFn : String) (secondFn : Option String) :
    Except Failure Inputs :=
  match loadFile H kernelFn with
  | none => .error (.loadKernel kernelFn)
  | some kernel =>
    match if ramdiskFn = "NONE" then some [] else loadFile H ramdiskFn with
    | none => .error (.loadRamdisk ramdiskFn)
    | some ramdisk =>
      match secondFn with
      | none => .ok ⟨kernel, ramdisk, none⟩
      | some fn =>
        match loadFile H fn with
        | none => .error (.loadSecond fn)
        | some second => .ok ⟨kernel, ramdisk, some second⟩

/-- The second stage, empty if there is none. -/
def Inputs.secondData (i : Inputs) : List UInt8 := i.second.getD []

/-- The inputs as the sections of an image. -/
def Inputs.sections (i : Inputs) : Sections := ⟨i.kernel, i.ramdisk, i.secondData⟩

/-- What is given to `SHA_update`. -/
def shaData (i : Inputs) : List UInt8 :=
  i.kernel ++ (le32 i.kernel.length ++ (i.ramdisk ++ (le32 i.ramdisk.length ++
    (i.secondData ++ le32 i.secondData.length))))

def SHA_DIGEST_SIZE : Nat := 20

/-- The header that `main` fills in. -/
def header (H : Host) (board cmdline : String) (i : Inputs) : BootImgHdr where
  kernelSize := i.kernel.length
  kernelAddr := H.addrs.kernel
  ramdiskSize := i.ramdisk.length
  ramdiskAddr := H.addrs.ramdisk
  secondSize := i.secondData.length
  secondAddr := H.addrs.second
  tagsAddr := H.addrs.tags
  pageSize := pagesize
  name := bytes board
  cmdline := bytes cmdline
  id := (H.sha (shaData i)).take SHA_DIGEST_SIZE

/-- The part of `main` that writes the image. The second stage is followed by the paddings of the
ramdisk. -/
def writeImage (H : Host) (hdr : BootImgHdr) (i : Inputs) : Option (List UInt8) := do
  let file ← writeItem H pagesize hdr.encode 608 []
  let file ← writeItem H pagesize i.kernel hdr.kernelSize file
  let file ← writeItem H pagesize i.ramdisk hdr.ramdiskSize file
  match i.second with
  | none => some file
  | some second => writeItem H pagesize second hdr.ramdiskSize file

/-- `main`: the file it leaves. -/
def main (H : Host) (args : List String) : Except Failure (List UInt8) :=
  match parseArgs args ⟨none, none, none, none, "", ""⟩ with
  | .error e => .error e
  | .ok o =>
    match o.bootimg, o.kernelFn, o.ramdiskFn with
    | none, _, _ => .error .noOutput
    | some _, none, _ => .error .noKernel
    | some _, some _, none => .error .noRamdisk
    | some bootimg, some kernelFn, some ramdiskFn =>
      if BOOT_NAME_SIZE ≤ (bytes o.board).length then .error .boardTooLarge
      else if BOOT_ARGS_SIZE - 1 < (bytes o.cmdline).length then .error .cmdlineTooLarge
      else
        match loadInputs H kernelFn ramdiskFn o.secondFn with
        | .error e => .error e
        | .ok i =>
          if ¬ H.creat bootimg then .error (.create bootimg)
          else
            match writeImage H (header H o.board o.cmdline i) i with
            | none => .error (.writing bootimg)
            | some file => .ok file

/-! ## What is written -/

variable {H : Host} {file file' item : List UInt8}

theorem write_eq (h : write H file item = some file') : file' = file ++ item := by
  unfold write at h
  split at h
  · exact (Option.some.inj h).symm
  · cases h

theorem writePadding_eq {n : Nat} (h : writePadding H file pagesize n = some file') :
    file' = file ++ zeros (slack pagesize n) := by
  have hm : n &&& (pagesize - 1) = n % pagesize := Nat.and_two_pow_sub_one_eq_mod n 11
  have hs := slack_eq (n := pagesize) (by decide) n
  simp only [writePadding, hm] at h
  split at h
  · rename_i h0
    rw [if_pos h0] at hs
    rw [hs, ← Option.some.inj h]
    exact (List.append_nil _).symm
  · rename_i h0
    rw [if_neg h0] at hs
    rw [hs]
    exact write_eq h

/-- `write_page_padding` counts the pages of the section. -/
theorem pagecount_eq (n : Nat) :
    (if n % pagesize ≠ 0 then n / pagesize + 1 else n / pagesize) = blocks pagesize n := by
  by_cases h : n % pagesize = 0
  · rw [if_neg (not_not_intro h)]
    simp only [blocks, pagesize] at h ⊢
    omega
  · rw [if_pos h]
    simp only [blocks, pagesize] at h ⊢
    omega

theorem slack_le_even (n : Nat) : slack pagesize n ≤ slack (2 * pagesize) n := by
  simp only [slack, blocks, pagesize]
  omega

/-- An odd number of pages fills the last block of two pages half. -/
theorem slack_even_sub (n : Nat) : slack (2 * pagesize) n - slack pagesize n =
    if blocks pagesize n % 2 = 0 then 0 else pagesize := by
  by_cases h : blocks pagesize n % 2 = 0
  · rw [if_pos h]
    simp only [slack, blocks, pagesize] at h ⊢
    omega
  · rw [if_neg h]
    simp only [slack, blocks, pagesize] at h ⊢
    omega

theorem writePagePadding_eq {n : Nat} (h : writePagePadding H file pagesize n = some file') :
    file' = file ++ zeros (slack (2 * pagesize) n - slack pagesize n) := by
  simp only [writePagePadding, pagecount_eq] at h
  rw [slack_even_sub]
  split at h
  · rename_i h0
    rw [if_pos h0, ← Option.some.inj h]
    exact (List.append_nil _).symm
  · rename_i h0
    rw [if_neg h0]
    exact write_eq h

/-- A section takes whole blocks of two pages, by the size its paddings are given. -/
theorem writeItem_eq {n : Nat} (h : writeItem H pagesize item n file = some file') :
    file' = file ++ (item ++ zeros (slack (2 * pagesize) n)) := by
  obtain ⟨f₁, h₁, h⟩ := Option.bind_eq_some_iff.mp h
  obtain ⟨f₂, h₂, h₃⟩ := Option.bind_eq_some_iff.mp h
  rw [writePagePadding_eq h₃, writePadding_eq h₂, write_eq h₁, List.append_assoc,
    List.append_assoc, zeros_append, Nat.add_sub_cancel' (slack_le_even n)]

/-- The file of the image. -/
def image (hdr : BootImgHdr) (i : Inputs) : List UInt8 :=
  hdr.encode ++ (zeros (slack (2 * pagesize) 608) ++ (padTo (2 * pagesize) i.kernel ++
    (padTo (2 * pagesize) i.ramdisk ++ (i.secondData ++
      if i.second.isSome then zeros (slack (2 * pagesize) i.ramdisk.length) else []))))

theorem writeImage_eq {hdr : BootImgHdr} {i : Inputs} (hk : hdr.kernelSize = i.kernel.length)
    (hr : hdr.ramdiskSize = i.ramdisk.length) (h : writeImage H hdr i = some file) :
    file = image hdr i := by
  obtain ⟨f₁, h₁, h⟩ := Option.bind_eq_some_iff.mp h
  obtain ⟨f₂, h₂, h⟩ := Option.bind_eq_some_iff.mp h
  obtain ⟨f₃, h₃, h⟩ := Option.bind_eq_some_iff.mp h
  have e₁ := writeItem_eq h₁
  have e₂ := writeItem_eq h₂
  have e₃ := writeItem_eq h₃
  rw [hk] at e₂
  rw [hr] at e₃
  unfold image Inputs.secondData
  cases hs : i.second with
  | none =>
    simp only [hs] at h
    rw [← Option.some.inj h, e₃, e₂, e₁]
    simp [padTo]
  | some second =>
    simp only [hs, hr] at h
    rw [writeItem_eq h, e₃, e₂, e₁]
    simp [padTo]

/-! ## Runs of `main` -/

/-- The input files that the options name. -/
structure Names (H : Host) (o : Options) (i : Inputs) : Prop where
  kernel : ∃ fn, o.kernelFn = some fn ∧ H.file fn = some i.kernel
  ramdisk : ∃ fn, o.ramdiskFn = some fn ∧
    (if fn = "NONE" then some [] else H.file fn) = some i.ramdisk
  second : o.secondFn.map H.file = i.second.map some

/-- What is loaded of a file: its size is stored to an `int`. -/
def cut (data : List UInt8) : List UInt8 := data.take (data.length % 2 ^ 32)

theorem cut_of_lt {data : List UInt8} (h : data.length < 2 ^ 32) : cut data = data := by
  rw [cut, Nat.mod_eq_of_lt h, List.take_length]

@[simp] theorem length_cut (data : List UInt8) : (cut data).length = data.length % 2 ^ 32 := by
  rw [cut, List.length_take, Nat.min_eq_left (Nat.mod_le _ _)]

def Inputs.cut (i : Inputs) : Inputs := ⟨Tool.cut i.kernel, Tool.cut i.ramdisk, i.second.map Tool.cut⟩

/-- All the files are small enough to be loaded in full. -/
structure Inputs.Small (i : Inputs) : Prop where
  kernel : i.kernel.length < 2 ^ 32
  ramdisk : i.ramdisk.length < 2 ^ 32
  second : i.secondData.length < 2 ^ 32

theorem Inputs.Small.cut {i : Inputs} (h : i.Small) : i.cut = i := by
  obtain ⟨kernel, ramdisk, second⟩ := i
  have hk := cut_of_lt h.kernel
  have hr := cut_of_lt h.ramdisk
  cases second with
  | none => simp only [Inputs.cut, hk, hr, Option.map_none]
  | some s =>
    have hs : Tool.cut s = s := cut_of_lt h.second
    simp only [Inputs.cut, hk, hr, hs, Option.map_some]

/-- What is loaded is small. -/
theorem Inputs.cut_small (i : Inputs) : i.cut.Small := by
  obtain ⟨kernel, ramdisk, second⟩ := i
  have hlt (data : List UInt8) : (Tool.cut data).length < 2 ^ 32 := by
    rw [length_cut]
    exact Nat.mod_lt _ (Nat.two_pow_pos 32)
  refine ⟨hlt kernel, hlt ramdisk, ?_⟩
  cases second with
  | none => exact Nat.two_pow_pos 32
  | some s => exact hlt s

theorem loadFile_eq {fn : String} {d data : List UInt8} (h : loadFile H fn = some d)
    (hf : H.file fn = some data) : d = cut data := by
  simp only [loadFile, hf] at h
  split at h
  · cases h
  · rename_i h0
    have hsz : (int32 data.length).toNat = data.length % 2 ^ 32 := by
      unfold int32 at h0 ⊢
      rw [Int.bmod_def] at h0 ⊢
      omega
    rw [hsz] at h
    split at h
    · cases h
    · split at h
      · cases h
      · exact (Option.some.inj h).symm

/-- A file below `2^31` bytes is loaded if the host reads it. -/
theorem loadFile_some {fn : String} {data : List UInt8} (hf : H.file fn = some data)
    (hlt : data.length < 2 ^ 31) (hm : ∀ n, H.malloc n = true) (hr : ∀ fn n, H.read fn n = n) :
    loadFile H fn = some data := by
  have hsz : int32 data.length = data.length := by
    unfold int32
    rw [Int.bmod_def]
    omega
  simp only [loadFile, hf, hsz]
  rw [if_neg (by omega), if_neg (by simp [hm]), if_neg (by simp [hr])]
  simp

theorem loadInputs_eq {o : Options} {i j : Inputs} {kernelFn ramdiskFn : String}
    (hk : o.kernelFn = some kernelFn) (hr : o.ramdiskFn = some ramdiskFn) (hn : Names H o i)
    (h : loadInputs H kernelFn ramdiskFn o.secondFn = .ok j) : j = i.cut := by
  obtain ⟨kernel, ramdisk, second⟩ := i
  obtain ⟨⟨_, hk', hkf⟩, ⟨_, hr', hrf⟩, hs⟩ := hn
  cases hk.symm.trans hk'
  cases hr.symm.trans hr'
  unfold loadInputs at h
  split at h
  · cases h
  rename_i k hk
  have ek := loadFile_eq hk hkf
  split at h
  · cases h
  rename_i r hr
  have er : r = cut ramdisk := by
    split at hr
    · rename_i hnone
      rw [if_pos hnone] at hrf
      obtain rfl : [] = r := Option.some.inj hr
      obtain rfl : [] = ramdisk := Option.some.inj hrf
      rfl
    · rename_i hnone
      rw [if_neg hnone] at hrf
      exact loadFile_eq hr hrf
  subst ek er
  cases hf : o.secondFn with
  | none =>
    rw [hf] at hs h
    cases second with
    | none => exact (Except.ok.inj h).symm
    | some s => cases hs
  | some fn =>
    rw [hf] at hs h
    cases second with
    | none => cases hs
    | some s =>
      have hsf : H.file fn = some s := Option.some.inj hs
      simp only at h
      split at h
      · cases h
      · rename_i d hd
        rw [loadFile_eq hd hsf] at h
        exact (Except.ok.inj h).symm

/-- The file of a run that succeeds. -/
theorem main_writes {args : List String} {o : Options} {i : Inputs}
    (hargs : parseArgs args ⟨none, none, none, none, "", ""⟩ = .ok o) (hn : Names H o i)
    (h : main H args = .ok file) : file = image (header H o.board o.cmdline i.cut) i.cut := by
  obtain ⟨kernelFn, hk, -⟩ := hn.kernel
  obtain ⟨ramdiskFn, hr, -⟩ := hn.ramdisk
  simp only [main, hargs, hk, hr] at h
  cases hb : o.bootimg with
  | none => simp [hb] at h
  | some bootimg =>
    simp only [hb] at h
    split at h
    · cases h
    split at h
    · cases h
    split at h
    · cases h
    rename_i j hj
    obtain rfl := loadInputs_eq hk hr hn hj
    split at h
    · cases h
    split at h
    · cases h
    · rename_i f hf
      rw [← Except.ok.inj h]
      exact writeImage_eq rfl rfl hf

theorem main_ok {args : List String} {o : Options} {i : Inputs}
    (hargs : parseArgs args ⟨none, none, none, none, "", ""⟩ = .ok o) (hn : Names H o i)
    (hi : i.Small) (h : main H args = .ok file) : file = image (header H o.board o.cmdline i) i := by
  rw [main_writes hargs hn h, hi.cut]

/-- A host that does all it is asked. -/
structure Host.Delivers (H : Host) : Prop where
  malloc : ∀ n, H.malloc n = true
  read : ∀ fn n, H.read fn n = n
  creat : ∀ fn, H.creat fn = true
  write : ∀ pos n, H.write pos n = n

theorem write_some (hd : H.Delivers) (file buf : List UInt8) :
    write H file buf = some (file ++ buf) := if_pos (hd.write _ _)

theorem writeItem_isSome (hd : H.Delivers) (item file : List UInt8) (n : Nat) :
    ∃ file', writeItem H pagesize item n file = some file' := by
  have hp : ∀ f, ∃ f', writePadding H f pagesize n = some f' := by
    intro f
    simp only [writePadding, write_some hd]
    split
    · exact ⟨_, rfl⟩
    · exact ⟨_, rfl⟩
  have hpp : ∀ f, ∃ f', writePagePadding H f pagesize n = some f' := by
    intro f
    simp only [writePagePadding, pagecount_eq, write_some hd]
    split
    · exact ⟨_, rfl⟩
    · exact ⟨_, rfl⟩
  obtain ⟨f₂, h₂⟩ := hp (file ++ item)
  obtain ⟨f₃, h₃⟩ := hpp f₂
  exact ⟨f₃, by simp [writeItem, write_some hd, h₂, h₃]⟩

theorem writeImage_isSome (hd : H.Delivers) (hdr : BootImgHdr) (i : Inputs) :
    ∃ file, writeImage H hdr i = some file := by
  obtain ⟨f₁, h₁⟩ := writeItem_isSome hd hdr.encode [] 608
  obtain ⟨f₂, h₂⟩ := writeItem_isSome hd i.kernel f₁ hdr.kernelSize
  obtain ⟨f₃, h₃⟩ := writeItem_isSome hd i.ramdisk f₂ hdr.ramdiskSize
  cases hs : i.second with
  | none => exact ⟨f₃, by simp [writeImage, h₁, h₂, h₃, hs]⟩
  | some second =>
    obtain ⟨f₄, h₄⟩ := writeItem_isSome hd second f₃ hdr.ramdiskSize
    exact ⟨f₄, by simp [writeImage, h₁, h₂, h₃, hs, h₄]⟩

theorem loadInputs_ok {o : Options} {i : Inputs} {kernelFn ramdiskFn : String} (hd : H.Delivers)
    (hk : o.kernelFn = some kernelFn) (hr : o.ramdiskFn = some ramdiskFn) (hn : Names H o i)
    (hk31 : i.kernel.length < 2 ^ 31) (hr31 : i.ramdisk.length < 2 ^ 31)
    (hs31 : i.secondData.length < 2 ^ 31) :
    loadInputs H kernelFn ramdiskFn o.secondFn = .ok i := by
  obtain ⟨kernel, ramdisk, second⟩ := i
  obtain ⟨⟨_, hk', hkf⟩, ⟨_, hr', hrf⟩, hs⟩ := hn
  cases hk.symm.trans hk'
  cases hr.symm.trans hr'
  have lk := loadFile_some hkf hk31 hd.malloc hd.read
  have lr : (if ramdiskFn = "NONE" then some [] else loadFile H ramdiskFn) = some ramdisk := by
    split at hrf
    · rename_i hnone
      rw [if_pos hnone]
      exact hrf
    · rename_i hnone
      rw [if_neg hnone]
      exact loadFile_some hrf hr31 hd.malloc hd.read
  simp only [loadInputs, lk, lr]
  cases hf : o.secondFn with
  | none =>
    rw [hf] at hs
    cases second with
    | none => rfl
    | some s => cases hs
  | some fn =>
    rw [hf] at hs
    cases second with
    | none => cases hs
    | some s =>
      have hsf : H.file fn = some s := Option.some.inj hs
      simp only [loadFile_some hsf hs31 hd.malloc hd.read]

/-- On a host that does all it is asked, a run on inputs below `2^31` bytes succeeds. -/
theorem main_succeeds {args : List String} {o : Options} {i : Inputs} (hd : H.Delivers)
    (hargs : parseArgs args ⟨none, none, none, none, "", ""⟩ = .ok o) (hn : Names H o i)
    (hout : o.bootimg.isSome) (hboard : (bytes o.board).length < BOOT_NAME_SIZE)
    (hcmd : (bytes o.cmdline).length < BOOT_ARGS_SIZE) (hk31 : i.kernel.length < 2 ^ 31)
    (hr31 : i.ramdisk.length < 2 ^ 31) (hs31 : i.secondData.length < 2 ^ 31) :
    ∃ file, main H args = .ok file := by
  obtain ⟨kernelFn, hk, -⟩ := hn.kernel
  obtain ⟨ramdiskFn, hr, -⟩ := hn.ramdisk
  obtain ⟨bootimg, hb⟩ := Option.isSome_iff_exists.mp hout
  obtain ⟨file, hf⟩ := writeImage_isSome hd (header H o.board o.cmdline i) i
  refine ⟨file, ?_⟩
  simp only [main, hargs, hk, hr, hb, loadInputs_ok hd hk hr hn hk31 hr31 hs31, hf, hd.creat]
  rw [if_neg (by omega), if_neg (by omega), if_neg (by simp)]

/-- The file of a run reads back, with blocks of two pages. -/
theorem evenPages_image (hdr : BootImgHdr) (i : Inputs) (hk : hdr.kernelSize = i.kernel.length)
    (hr : hdr.ramdiskSize = i.ramdisk.length) (hs : hdr.secondSize = i.secondData.length)
    (hp : hdr.pageSize = pagesize) (hi : i.Small) : evenPages (image hdr i) = i.sections := by
  unfold evenPages image
  rw [(hdrWord_encode hdr _).2.2.2, hp, BootImgHdr.encode, List.append_assoc hdr.words,
    ← List.append_assoc _ (zeros _)]
  refine readLayout_of_blocks (by decide) hdr ?_ hk hr hs hi.kernel hi.ramdisk hi.second
  simp only [List.length_append, BootImgHdr.length_words, BootImgHdr.length_field, length_zeros]
  decide

end Twm.BootImg.Tool
