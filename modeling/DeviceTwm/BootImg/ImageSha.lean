import DeviceTwm.BootImg.ImageId
import DeviceTwm.Mincrypt.Sha

/-!
# The id is a SHA-1

`main` feeds the sections and their sizes to one digest by six calls. With the digest of mincrypt in
place of the host's the id can be checked from the file alone: it is the SHA-1 of the sections that the
header says where to find (`imageId_recomputed`).
-/

open Lib Twm.Mincrypt

namespace Twm.BootImg

/-- What the id of an image is made of, read from its sections. -/
def Sections.hashed (s : Sections) : List UInt8 :=
  s.kernel ++ (le32 s.kernel.length ++ (s.ramdisk ++ (le32 s.ramdisk.length ++
    (s.second ++ le32 s.second.length))))

namespace Tool

/-- The calls of `main`, on a context that nothing has been written to. -/
def shaCalls (uninit : SHA_CTX) (i : Inputs) : List UInt8 :=
  let ctx := SHA_init uninit
  let ctx := SHA_update ctx i.kernel
  let ctx := SHA_update ctx (le32 i.kernel.length)
  let ctx := SHA_update ctx i.ramdisk
  let ctx := SHA_update ctx (le32 i.ramdisk.length)
  let ctx := SHA_update ctx i.secondData
  let ctx := SHA_update ctx (le32 i.secondData.length)
  (SHA_final ctx).buf.take Mincrypt.SHA_DIGEST_SIZE

/-- A host whose digest is that of mincrypt. -/
def Host.mincrypt (H : Host) (uninit : SHA_CTX) : Host := { H with sha := SHA uninit }

theorem Names.mincrypt {H : Host} {o : Options} {i : Inputs} (h : Names H o i) (uninit : SHA_CTX) :
    Names (H.mincrypt uninit) o i := ⟨h.kernel, h.ramdisk, h.second⟩

theorem shaCalls_eq (uninit : SHA_CTX) (i : Inputs) : shaCalls uninit i = Sha1.digest (shaData i) := by
  have h := foldl_update_absorbed (SHA_init_absorbed uninit) [i.kernel, le32 i.kernel.length,
    i.ramdisk, le32 i.ramdisk.length, i.secondData, le32 i.secondData.length]
  have hdata : [i.kernel, le32 i.kernel.length, i.ramdisk, le32 i.ramdisk.length, i.secondData,
      le32 i.secondData.length].flatten = shaData i := by
    simp only [List.flatten_cons, List.flatten_nil, List.append_nil, shaData]
  rw [List.nil_append, hdata] at h
  exact h.digest

theorem sha_eq (uninit : SHA_CTX) (data : List UInt8) : SHA uninit data = Sha1.digest data :=
  (SHA_update_absorbed (SHA_init_absorbed uninit) data).digest

/-- A field that is filled up with zeros. -/
theorem field_of_length {n : Nat} {b : List UInt8} (h : b.length ≤ n) :
    BootImgHdr.field n b = b ++ zeros (n - b.length) := by
  rw [BootImgHdr.field, List.take_append, List.take_of_length_le h, zeros, zeros, List.take_replicate,
    Nat.min_eq_left (Nat.sub_le _ _)]

/-- **The id can be recomputed**: in the file of every run that succeeds it is what the six calls on the
loaded sections left, filled up with zeros, and that is the SHA-1 of the sections read back from the
file, each with its size after it. -/
theorem imageId_recomputed (H : Host) (uninit : SHA_CTX) (args : List String) (o : Options)
    (i : Inputs) (file : List UInt8) (hargs : parseArgs args ⟨none, none, none, none, "", ""⟩ = .ok o)
    (hn : Names (H.mincrypt uninit) o i) (hf : main (H.mincrypt uninit) args = .ok file) :
    imageId file = shaCalls uninit i.cut ++ zeros 12 ∧
      shaCalls uninit i.cut = Sha1.digest (evenPages file).hashed := by
  have hlen : (shaCalls uninit i.cut).length = 20 := by
    rw [shaCalls_eq, Sha1.length_digest]
    rfl
  have hid : (header (H.mincrypt uninit) o.board o.cmdline i.cut).id = shaCalls uninit i.cut := by
    have hsha : (H.mincrypt uninit).sha (shaData i.cut) = shaCalls uninit i.cut := by
      rw [shaCalls_eq]
      exact sha_eq uninit _
    rw [header, hsha]
    exact List.take_of_length_le (Nat.le_of_eq hlen)
  rw [main_writes hargs hn hf, evenPages_image _ i.cut rfl rfl rfl rfl i.cut_small]
  refine ⟨?_, shaCalls_eq uninit i.cut⟩
  rw [image, imageId_encode, hid, field_of_length (by omega), hlen]

/-- A context as it is before anything is written to it. -/
def zeroCtx : SHA_CTX := ⟨0, zeros 64, ⟨0, 0, 0, 0, 0⟩, length_zeros 64⟩

theorem imageId_recomputed_oneByte : ∃ file,
    main (oneByteHost.mincrypt zeroCtx) oneByteArgs = .ok file ∧
      imageId file = shaCalls zeroCtx ⟨[1], [2], none⟩ ++ zeros 12 := by
  obtain ⟨file, hf⟩ := main_succeeds
    (⟨fun _ => rfl, fun _ _ => rfl, fun _ => rfl, fun _ _ => rfl⟩ :
      (oneByteHost.mincrypt zeroCtx).Delivers)
    parseArgs_oneByte (names_oneByte.mincrypt zeroCtx) rfl (by decide) (by decide) (by decide)
    (by decide) (by decide)
  refine ⟨file, hf, (imageId_recomputed oneByteHost zeroCtx oneByteArgs oneByteOptions
    ⟨[1], [2], none⟩ file parseArgs_oneByte (names_oneByte.mincrypt zeroCtx) hf).1⟩

end Tool

end Twm.BootImg
