import DeviceTwm.BootImg.Builders

/-!
# The id of an image

`hdr.id` is the digest of the sections, each with its size after it (`shaData`). The sizes stand at
fixed places only from the end: the last four bytes say how long the second stage before them is, and
so on (`shaData_inj`). So images with one id have the same sections, or what was hashed for the one and
what was hashed for the other are a collision of the digest.
-/

open Lib

namespace Twm.BootImg

/-- `hdr.id` of an image. -/
def imageId (img : List UInt8) : List UInt8 := slice img 576 32

theorem imageId_encode (h : BootImgHdr) (rest : List UInt8) :
    imageId (h.encode ++ rest) = BootImgHdr.field 32 h.id := by
  have happ : h.encode ++ rest = (h.words ++ zeros 8 ++ BootImgHdr.field BOOT_NAME_SIZE h.name ++
      BootImgHdr.field BOOT_ARGS_SIZE h.cmdline) ++ (BootImgHdr.field 32 h.id ++ rest) := by
    simp only [BootImgHdr.encode, List.append_assoc]
  rw [imageId, happ]
  refine slice_append rest ?_ (BootImgHdr.length_field 32 h.id).symm
  simp [BOOT_NAME_SIZE, BOOT_ARGS_SIZE]

namespace Tool

/-- `x` and `y` are a collision of `sha`. -/
def Collide (sha : List UInt8 → List UInt8) (x y : List UInt8) : Prop := x ≠ y ∧ sha x = sha y

theorem shaData_inj {i j : Inputs} (hi : i.Small) (hj : j.Small) (h : shaData i = shaData j) :
    i.sections = j.sections := by
  simp only [shaData, ← List.append_assoc] at h
  obtain ⟨h, hs⟩ := append_le32_length_inj hi.second hj.second h
  obtain ⟨h, hr⟩ := append_le32_length_inj hi.ramdisk hj.ramdisk h
  obtain ⟨-, hk⟩ := append_le32_length_inj (a := []) (b := []) hi.kernel hj.kernel h
  rw [Inputs.sections, Inputs.sections, hs, hr, hk]

/-- The id is the whole digest. -/
theorem take_imageId (H : Host) (board cmdline : String) (i : Inputs)
    (hd : (H.sha (shaData i)).length = SHA_DIGEST_SIZE) :
    (imageId (image (header H board cmdline i) i)).take SHA_DIGEST_SIZE = H.sha (shaData i) := by
  have hid : (header H board cmdline i).id = H.sha (shaData i) := by
    rw [header, ← hd, List.take_length]
  rw [image, imageId_encode, hid, BootImgHdr.field, List.take_take, ← hd, Nat.min_eq_left]
  · exact List.take_left
  · rw [hd]
    decide

/-- **The id covers the contents**: what is hashed says what the sections are, so that of two images
with one id the sections are the same, or what was hashed for them is a collision. -/
theorem id_covers_contents :
    (∀ i j : Inputs, i.Small → j.Small → shaData i = shaData j → i.sections = j.sections) ∧
    ∀ (H H' : Host) (args args' : List String) (o o' : Options) (i j : Inputs)
      (file file' : List UInt8), H.sha = H'.sha → (∀ x, (H.sha x).length = SHA_DIGEST_SIZE) →
      parseArgs args ⟨none, none, none, none, "", ""⟩ = .ok o → Names H o i → i.Small →
      parseArgs args' ⟨none, none, none, none, "", ""⟩ = .ok o' → Names H' o' j → j.Small →
      main H args = .ok file → main H' args' = .ok file' → imageId file = imageId file' →
      i.sections = j.sections ∨ Collide H.sha (shaData i) (shaData j) := by
  refine ⟨fun i j => shaData_inj, ?_⟩
  intro H H' args args' o o' i j file file' hsha hd hargs hn hi hargs' hn' hj hf hf' hid
  rw [main_ok hargs hn hi hf, main_ok hargs' hn' hj hf'] at hid
  have hdig := congrArg (List.take SHA_DIGEST_SIZE) hid
  rw [take_imageId H _ _ i (hd _), take_imageId H' _ _ j (hsha ▸ hd _), ← hsha] at hdig
  by_cases h : shaData i = shaData j
  · exact .inl (shaData_inj hi hj h)
  · exact .inr ⟨h, hdig⟩

/-- A host with another kernel, and the same digest of everything. -/
def otherHost : Host :=
  { oneByteHost with file := fun fn => if fn = "kernel" then some [5] else oneByteHost.file fn }

theorem names_other : Names otherHost oneByteOptions ⟨[5], [2], none⟩ :=
  ⟨⟨"kernel", rfl, by simp [otherHost]⟩, ⟨"ramdisk", rfl, by simp [otherHost, oneByteHost]⟩, rfl⟩

theorem id_covers_contents_twoKernels : ∃ file file',
    main oneByteHost oneByteArgs = .ok file ∧ main otherHost oneByteArgs = .ok file' ∧
      imageId file = imageId file' ∧
      Collide oneByteHost.sha (shaData ⟨[1], [2], none⟩) (shaData ⟨[5], [2], none⟩) := by
  obtain ⟨file, hf⟩ := main_succeeds oneByteHost_delivers parseArgs_oneByte names_oneByte rfl
    (by decide) (by decide) (by decide) (by decide) (by decide)
  obtain ⟨file', hf'⟩ := main_succeeds
    (⟨fun _ => rfl, fun _ _ => rfl, fun _ => rfl, fun _ _ => rfl⟩ : otherHost.Delivers)
    parseArgs_oneByte names_other rfl (by decide) (by decide) (by decide) (by decide) (by decide)
  have hsmall : Inputs.Small ⟨[5], [2], none⟩ := ⟨by decide, by decide, by decide⟩
  have hid : imageId file = imageId file' := by
    rw [main_ok parseArgs_oneByte names_oneByte oneByte_small hf,
      main_ok parseArgs_oneByte names_other hsmall hf', image, imageId_encode, image, imageId_encode]
    rfl
  have h := id_covers_contents.2 oneByteHost otherHost oneByteArgs oneByteArgs oneByteOptions
    oneByteOptions ⟨[1], [2], none⟩ ⟨[5], [2], none⟩ file file' rfl (fun _ => rfl) parseArgs_oneByte
    names_oneByte oneByte_small parseArgs_oneByte names_other hsmall hf hf' hid
  exact ⟨file, file', hf, hf', hid, h.resolve_left (by decide)⟩

end Tool

end Twm.BootImg
