import DeviceTwm.BootImg.Builders

/-!
# Sections in even numbers of pages

Where the tool puts the sections in the file. Each should start at an even page and be filled up with
zeros to the next one, with its bytes as they were given (`Layout`).

The header, the kernel and the ramdisk always are. The second stage is followed by the paddings of the
ramdisk, so it is filled up only when the two sizes leave the same rest (`layout_iff`). A file of
`2 ^ 32` bytes or more loses all but the rest of its size.
-/

open Lib

namespace Twm.BootImg

/-- A section is at `start`, a multiple of `block`, and zeros follow it up to the next one. -/
structure Placed (block : Nat) (file s : List UInt8) (start : Nat) : Prop where
  aligned : block ∣ start
  bytes : slice file start s.length = s
  padding : slice file (start + s.length) (slack block s.length) = zeros (slack block s.length)

/-- The sections one after the other from `start` on, up to the end of the file. -/
def Layout (block : Nat) (file : List UInt8) : Nat → List (List UInt8) → Prop
  | start, [] => file.length = start
  | start, s :: ss =>
    Placed block file s start ∧ Layout block file (start + s.length + slack block s.length) ss

/-- The sections with the zeros after them. -/
def inBlocks (block : Nat) (ss : List (List UInt8)) : List UInt8 := ss.flatMap (padTo block)

theorem inBlocks_cons (block : Nat) (s : List UInt8) (ss : List (List UInt8)) :
    inBlocks block (s :: ss) = padTo block s ++ inBlocks block ss := List.flatMap_cons

variable {block : Nat} {file : List UInt8}

theorem placed_padTo (pre s rest : List UInt8) (h : block ∣ pre.length) :
    Placed block (pre ++ (padTo block s ++ rest)) s pre.length where
  aligned := h
  bytes := by
    rw [padTo_append]
    exact slice_append _ rfl rfl
  padding := by
    rw [padTo_append, ← List.append_assoc, ← List.length_append]
    exact slice_append _ rfl (length_zeros _).symm

/-- The file of the sections has their layout. -/
theorem layout_inBlocks (hb : 0 < block) (ss : List (List UInt8)) (pre : List UInt8)
    (h : block ∣ pre.length) : Layout block (pre ++ inBlocks block ss) pre.length ss := by
  induction ss generalizing pre with
  | nil => exact congrArg List.length (List.append_nil pre)
  | cons s ss ih =>
    rw [inBlocks_cons]
    refine ⟨placed_padTo pre s _ h, ?_⟩
    have hlen : (pre ++ padTo block s).length = pre.length + s.length + slack block s.length := by
      rw [List.length_append, padTo, List.length_append, length_zeros, Nat.add_assoc]
    have hdvd : block ∣ (pre ++ padTo block s).length := by
      rw [List.length_append, length_padTo hb]
      exact Nat.dvd_add h (Nat.dvd_mul_right _ _)
    have := ih (pre ++ padTo block s) hdvd
    rwa [hlen, List.append_assoc] at this

/-- The layout says how long the file is. -/
theorem Layout.length {start : Nat} {ss : List (List UInt8)} (h : Layout block file start ss) :
    file.length = start + (inBlocks block ss).length := by
  induction ss generalizing start with
  | nil => exact h
  | cons s ss ih =>
    rw [ih h.2, inBlocks_cons, List.length_append, padTo, List.length_append, length_zeros]
    omega

namespace Tool

/-- What the file should consist of. -/
def Inputs.parts (i : Inputs) (hdr : BootImgHdr) : List (List UInt8) :=
  [hdr.encode, i.kernel, i.ramdisk] ++ i.second.toList

/-- The paddings of the ramdisk are those of the second stage, if there is one. -/
def Inputs.SameRest (i : Inputs) : Prop :=
  ∀ s, i.second = some s → s.length % (2 * pagesize) = i.ramdisk.length % (2 * pagesize)

theorem image_eq {hdr : BootImgHdr} {i : Inputs} (h : i.SameRest) :
    image hdr i = inBlocks (2 * pagesize) (i.parts hdr) := by
  have hhdr : padTo (2 * pagesize) hdr.encode = hdr.encode ++ zeros (slack (2 * pagesize) 608) := by
    rw [padTo, BootImgHdr.length_encode]
  obtain ⟨kernel, ramdisk, second⟩ := i
  cases second with
  | none => simp [image, inBlocks, Inputs.parts, Inputs.secondData, hhdr]
  | some s =>
    have hslack : slack (2 * pagesize) ramdisk.length = slack (2 * pagesize) s.length := by
      rw [slack_eq (by decide), slack_eq (by decide), h s rfl]
    simp [image, inBlocks, Inputs.parts, Inputs.secondData, hslack, padTo]

theorem length_parts (i : Inputs) (hdr : BootImgHdr) :
    (inBlocks (2 * pagesize) (i.parts hdr)).length = 2 * pagesize * (1 +
      blocks (2 * pagesize) i.kernel.length + blocks (2 * pagesize) i.ramdisk.length +
        match i.second with | none => 0 | some s => blocks (2 * pagesize) s.length) := by
  obtain ⟨kernel, ramdisk, second⟩ := i
  have hpos : 0 < 2 * pagesize := by decide
  have hhdr : blocks (2 * pagesize) 608 = 1 := by decide
  cases second <;>
    simp [inBlocks, Inputs.parts, length_padTo hpos, hhdr, Nat.mul_add, Nat.add_assoc]

theorem length_image (i : Inputs) (hdr : BootImgHdr) :
    (image hdr i).length = 2 * pagesize * (1 + blocks (2 * pagesize) i.kernel.length +
      blocks (2 * pagesize) i.ramdisk.length) +
        match i.second with
        | none => 0
        | some s => s.length + slack (2 * pagesize) i.ramdisk.length := by
  obtain ⟨kernel, ramdisk, second⟩ := i
  have hpos : 0 < 2 * pagesize := by decide
  have hhdr (n : Nat) : 608 + (slack (2 * pagesize) 608 + n) = 2 * pagesize + n := by
    rw [← Nat.add_assoc]
    rfl
  cases second <;>
    simp [image, Inputs.secondData, length_padTo hpos, Nat.mul_add, hhdr, Nat.add_assoc]

/-- What is lost of a file are whole blocks. -/
theorem blocks_cut (n : Nat) :
    blocks (2 * pagesize) n = blocks (2 * pagesize) (n % 2 ^ 32) + 2 ^ 20 * (n / 2 ^ 32) := by
  simp only [blocks, pagesize]
  omega

/-- When the sections fill the file, nothing was lost of them and the second stage is filled up. -/
theorem small_of_length {hdr hdr' : BootImgHdr} {i : Inputs}
    (h : (image hdr' i.cut).length = (inBlocks (2 * pagesize) (i.parts hdr)).length) :
    i.Small ∧ i.SameRest := by
  rw [length_image, length_parts] at h
  obtain ⟨kernel, ramdisk, second⟩ := i
  have hk := blocks_cut kernel.length
  have hr := blocks_cut ramdisk.length
  cases second with
  | none =>
    simp only [Inputs.cut, length_cut, Option.map_none] at h
    have hle : kernel.length < 2 ^ 32 ∧ ramdisk.length < 2 ^ 32 := by
      simp only [pagesize] at *
      omega
    exact ⟨⟨hle.1, hle.2, Nat.two_pow_pos 32⟩, fun s hs => by cases hs⟩
  | some s =>
    have hs := blocks_cut s.length
    simp only [Inputs.cut, length_cut, Option.map_some] at h
    have hle : (kernel.length < 2 ^ 32 ∧ ramdisk.length < 2 ^ 32 ∧ s.length < 2 ^ 32) ∧
        s.length % (2 * pagesize) = ramdisk.length % (2 * pagesize) := by
      simp only [slack, blocks, pagesize] at *
      omega
    refine ⟨⟨hle.1.1, hle.1.2.1, hle.1.2.2⟩, fun s' hs' => ?_⟩
    cases hs'
    exact hle.2

theorem small_of_layout {H : Host} {args : List String} {o : Options} {i : Inputs}
    (hargs : parseArgs args ⟨none, none, none, none, "", ""⟩ = .ok o) (hn : Names H o i)
    (h : main H args = .ok file) {hdr : BootImgHdr}
    (hl : Layout (2 * pagesize) file 0 (i.parts hdr)) : i.Small ∧ i.SameRest := by
  have hlen := hl.length
  rw [main_writes hargs hn h, Nat.zero_add] at hlen
  exact small_of_length hlen

/-- **The sections are in even numbers of pages** exactly when every file is smaller than `2 ^ 32` bytes
and the second stage, if there is one, leaves the same rest as the ramdisk. -/
theorem layout_iff (H : Host) (args : List String) (o : Options) (i : Inputs) (file : List UInt8)
    (hargs : parseArgs args ⟨none, none, none, none, "", ""⟩ = .ok o) (hn : Names H o i)
    (h : main H args = .ok file) :
    Layout (2 * pagesize) file 0 (i.parts (header H o.board o.cmdline i)) ↔ i.Small ∧ i.SameRest := by
  refine ⟨small_of_layout hargs hn h, ?_⟩
  rintro ⟨hi, hrest⟩
  rw [main_ok hargs hn hi h, image_eq hrest]
  exact layout_inBlocks (show 0 < 2 * pagesize by decide) (i.parts _) [] (Nat.dvd_zero _)

theorem layout_iff_oneByte : ∃ file, main oneByteHost oneByteArgs = .ok file ∧
    Layout (2 * pagesize) file 0
      (Inputs.parts ⟨[1], [2], none⟩ (header oneByteHost "" "" ⟨[1], [2], none⟩)) := by
  obtain ⟨file, hf⟩ := main_succeeds oneByteHost_delivers parseArgs_oneByte names_oneByte rfl
    (by decide) (by decide) (by decide) (by decide) (by decide)
  refine ⟨file, hf, (layout_iff oneByteHost oneByteArgs oneByteOptions ⟨[1], [2], none⟩ file
    parseArgs_oneByte names_oneByte hf).mpr ⟨oneByte_small, ?_⟩⟩
  rintro s ⟨⟩

/-- A host that has a second stage of two bytes, too. -/
def secondHost : Host :=
  { oneByteHost with
    file := fun fn => if fn = "second" then some [3, 3] else oneByteHost.file fn }

def secondArgs : List String := "--second" :: "second" :: oneByteArgs

def secondOptions : Options := { oneByteOptions with secondFn := some "second" }

theorem parseArgs_second :
    parseArgs secondArgs ⟨none, none, none, none, "", ""⟩ = .ok secondOptions := by
  simp [secondArgs, oneByteArgs, secondOptions, oneByteOptions, parseArgs]

theorem names_second : Names secondHost secondOptions ⟨[1], [2], some [3, 3]⟩ :=
  ⟨⟨"kernel", rfl, by simp [secondHost, oneByteHost]⟩,
    ⟨"ramdisk", rfl, by simp [secondHost, oneByteHost]⟩, rfl⟩

/-- The zeros after the two bytes reach one byte into the next block. -/
theorem second_overfilled : ∃ file, main secondHost secondArgs = .ok file ∧
    ¬ Layout (2 * pagesize) file 0 (Inputs.parts ⟨[1], [2], some [3, 3]⟩
      (header secondHost "" "" ⟨[1], [2], some [3, 3]⟩)) := by
  obtain ⟨file, hf⟩ := main_succeeds
    (⟨fun _ => rfl, fun _ _ => rfl, fun _ => rfl, fun _ _ => rfl⟩ : secondHost.Delivers)
    parseArgs_second names_second rfl (by decide) (by decide) (by decide) (by decide) (by decide)
  refine ⟨file, hf, fun hl => ?_⟩
  have hrest := (small_of_layout parseArgs_second names_second hf hl).2 [3, 3] rfl
  exact absurd hrest (by decide)

end Tool

end Twm.BootImg
