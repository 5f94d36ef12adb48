import DeviceTwm.Adb.PushTree
import DeviceTwm.Adb.SyncReads
import Mathlib.Data.Nat.Bitwise

/-!
# Files that a sync does not send

`copy_local_dir_remote` with `checktimestamps` asks the server for each file of its list, and does not send
those that look the same. It takes the type macros of the two modes and-ed together.

* `current_iff_of_reg`, `current_iff_of_lnk`: what the macros say of that word. A local file is compared
  with all that has the bit of `S_IFREG`; so is a link with all that has not the second bit of `S_IFLNK`.
* `marksOf_getElem?`: the `i`-th file gets its flag from the `i`-th reply.
* `skips_same_iff`: only what is the same is left out, in just this case: no file of the list has a reply
  with its size and time and a type that it is mistaken for (`FileInfo.Mistaken`).
-/

open Lib

namespace Twm.Adb.PushDir

/-! ## Two modes and-ed together -/

theorem fileType_and (a b : Nat) : fileType (a &&& b) = fileType a &&& b := by
  unfold fileType
  rw [Nat.and_assoc, Nat.and_assoc, Nat.and_comm b]

/-- A type that has one bit of `S_IFMT` more or less. -/
theorem testBit_fileType (mode : Nat) {i : Nat} (h : Nat.testBit 0o170000 i = true) :
    (fileType mode).testBit i = mode.testBit i := by
  rw [fileType, Nat.testBit_and, h, Bool.and_true]

theorem bits_of_reg {mode : Nat} (h : S_ISREG mode) :
    mode.testBit 15 = true ∧ mode.testBit 13 = false := by
  rw [← testBit_fileType mode (i := 15) (by decide),
    ← testBit_fileType mode (i := 13) (by decide), show fileType mode = _ from h]
  decide

theorem bits_of_lnk {mode : Nat} (h : S_ISLNK mode) :
    mode.testBit 15 = true ∧ mode.testBit 13 = true := by
  rw [← testBit_fileType mode (i := 15) (by decide),
    ← testBit_fileType mode (i := 13) (by decide), show fileType mode = _ from h]
  decide

/-- What is left of a mode by `S_IFREG`, and by `S_IFLNK`. -/
theorem reg_and (mode : Nat) :
    0o100000 &&& mode = if mode.testBit 15 then 0o100000 else 0 := by
  have h := Nat.and_two_pow mode 15
  rw [Nat.and_comm, show (0o100000 : Nat) = 2 ^ 15 from rfl, h]
  cases mode.testBit 15 <;> rfl

theorem lnk_and (mode : Nat) : 0o120000 &&& mode =
    (if mode.testBit 15 then 0o100000 else 0) + (if mode.testBit 13 then 0o020000 else 0) := by
  have h₁ := Nat.and_two_pow mode 15
  have h₂ := Nat.and_two_pow mode 13
  rw [Nat.and_comm, show (0o120000 : Nat) = 2 ^ 15 ||| 2 ^ 13 from rfl, Nat.and_or_distrib_left, h₁, h₂]
  cases mode.testBit 15 <;> cases mode.testBit 13 <;> rfl

variable {ci : FileInfo} {st : Stat}

/-- A local file is taken for current against all that has the bit of `S_IFREG`. -/
theorem current_iff_of_reg (h : S_ISREG ci.mode) :
    ci.Current st ↔ st.size = ci.size ∧ st.mode.testBit 15 = true ∧ st.mtime = ci.time := by
  have htype : fileType (ci.mode &&& st.mode) = if st.mode.testBit 15 then 0o100000 else 0 := by
    rw [fileType_and, show fileType ci.mode = _ from h, reg_and]
  unfold FileInfo.Current S_ISREG S_ISLNK
  rw [htype]
  cases st.mode.testBit 15 <;> simp

/-- A link is compared as a file with what has the bit of `S_IFREG` and not the other bit of `S_IFLNK`. -/
theorem current_iff_of_lnk (h : S_ISLNK ci.mode) :
    ci.Current st ↔ st.size = ci.size ∧ st.mode.testBit 15 = true ∧
      if st.mode.testBit 13 then ci.time ≤ st.mtime else st.mtime = ci.time := by
  have htype : fileType (ci.mode &&& st.mode) = (if st.mode.testBit 15 then 0o100000 else 0) +
      (if st.mode.testBit 13 then 0o020000 else 0) := by
    rw [fileType_and, show fileType ci.mode = _ from h, lnk_and]
  unfold FileInfo.Current S_ISREG S_ISLNK
  rw [htype]
  cases st.mode.testBit 15 <;> cases st.mode.testBit 13 <;> simp

/-! ## What is the same, and what is mistaken for it -/

/-- The server has the same: a regular file of the same size and time, or a link of the same size that is
as recent. -/
def FileInfo.SameAs (ci : FileInfo) (st : Stat) : Prop :=
  st.size = ci.size ∧
    (S_ISREG ci.mode ∧ S_ISREG st.mode ∧ st.mtime = ci.time ∨
      S_ISLNK ci.mode ∧ S_ISLNK st.mode ∧ ci.time ≤ st.mtime)

/-- The server has something of another type, whose size and time are those of the file. For a regular
file it has the bit of `S_IFREG`: it is a link or a socket, if a type that there is. For a link it has this
bit and not the other one of `S_IFLNK`: it is a regular file or a socket, of the time of the link; or it
has both bits, and is not older. -/
def FileInfo.Mistaken (ci : FileInfo) (st : Stat) : Prop :=
  st.size = ci.size ∧ st.mode.testBit 15 = true ∧
    (S_ISREG ci.mode ∧ ¬ S_ISREG st.mode ∧ st.mtime = ci.time ∨
      S_ISLNK ci.mode ∧ ¬ S_ISLNK st.mode ∧
        if st.mode.testBit 13 then ci.time ≤ st.mtime else st.mtime = ci.time)

instance (ci : FileInfo) (st : Stat) : Decidable (ci.SameAs st) :=
  inferInstanceAs (Decidable (_ ∧ _))

instance (ci : FileInfo) (st : Stat) : Decidable (ci.Mistaken st) :=
  inferInstanceAs (Decidable (_ ∧ _))

theorem not_lnk_of_reg {mode : Nat} (h : S_ISREG mode) : ¬ S_ISLNK mode := by
  unfold S_ISREG at h
  unfold S_ISLNK
  omega

/-- What is taken for current is the same, or is mistaken for it. -/
theorem current_iff (h : S_ISREG ci.mode ∨ S_ISLNK ci.mode) :
    ci.Current st ↔ ci.SameAs st ∨ ci.Mistaken st := by
  rcases h with h | h
  · have hl := not_lnk_of_reg h
    rw [current_iff_of_reg h]
    by_cases hr : S_ISREG st.mode
    · have hbit := (bits_of_reg hr).1
      simp [FileInfo.SameAs, FileInfo.Mistaken, h, hl, hr, hbit]
    · simp [FileInfo.SameAs, FileInfo.Mistaken, h, hl, hr]
  · have hr : ¬ S_ISREG ci.mode := fun hr => not_lnk_of_reg hr h
    rw [current_iff_of_lnk h]
    by_cases hl : S_ISLNK st.mode
    · obtain ⟨h15, h13⟩ := bits_of_lnk hl
      simp [FileInfo.SameAs, FileInfo.Mistaken, h, hl, hr, h15, h13]
    · simp [FileInfo.SameAs, FileInfo.Mistaken, h, hl, hr]

theorem mistaken_not_same (hm : ci.Mistaken st) : ¬ ci.SameAs st := by
  rintro ⟨-, ⟨hr, hr', -⟩ | ⟨hl, hl', -⟩⟩
  · rcases hm.2.2 with ⟨-, hn, -⟩ | ⟨hl, -, -⟩
    · exact hn hr'
    · exact not_lnk_of_reg hr hl
  · rcases hm.2.2 with ⟨hr, -, -⟩ | ⟨-, hn, -⟩
    · exact not_lnk_of_reg hr hl
    · exact hn hl'

/-! ## The loop over the replies -/

/-- The `i`-th reply in what comes in. -/
def replyAt (inp : List UInt8) (i : Nat) : Stat :=
  let m := inp.drop (16 * i)
  ⟨word m 4, word m 12, word m 8⟩

/-- The loop gets to the `i`-th reply, and it is one. -/
def Replied (inp : List UInt8) (i : Nat) : Prop :=
  ∀ j ≤ i, 16 * (j + 1) ≤ inp.length ∧ word (inp.drop (16 * j)) 0 = ID_STAT

/-- The list with the flags, also when the loop does not get to its end. -/
def marksOf : List FileInfo → Conn → List FileInfo
  | [], _ => []
  | ci :: filelist, c =>
    match syncFinishReadtime c with
    | (none, _) => ci :: filelist
    | (some st, c) => { ci with flag := decide (ci.Current st) } :: marksOf filelist c

/-- The requests for the times are sent. -/
def Asked (p : PushCall) (filelist : List FileInfo) : Prop :=
  p.checktimestamps = true ∧ (syncStartReadtimes filelist p.conn).1 = true

instance (p : PushCall) (filelist : List FileInfo) : Decidable (Asked p filelist) :=
  inferInstanceAs (Decidable (_ ∧ _))

/-- The flags that `copy_local_dir_remote` sets. -/
def marks (p : PushCall) (filelist : List FileInfo) : List FileInfo :=
  if Asked p filelist then marksOf filelist (syncStartReadtimes filelist p.conn).2 else filelist

theorem syncStartReadtimes_inp (filelist : List FileInfo) (c : Conn) :
    (syncStartReadtimes filelist c).2.inp = c.inp := by
  induction filelist generalizing c with
  | nil => rfl
  | cons ci filelist ih =>
    unfold syncStartReadtimes Conn.andThen
    rcases h₁ : c.writex (msg ID_STAT ci.dst.length) with ⟨_ | _, c₁⟩
    · exact congrArg (fun r => r.2.inp) h₁.symm
    have hi₁ : c₁.inp = c.inp := congrArg (fun r => r.2.inp) h₁.symm
    dsimp only
    rcases h₂ : c₁.writex ci.dst with ⟨_ | _, c₂⟩
    · exact (congrArg (fun r => r.2.inp) h₂.symm).trans hi₁
    have hi₂ : c₂.inp = c₁.inp := congrArg (fun r => r.2.inp) h₂.symm
    exact (ih c₂).trans (hi₂.trans hi₁)

/-- A reply is taken, or there is none. -/
theorem syncFinishReadtime_cases (c : Conn) :
    (¬ Replied c.inp 0 ∧ ∃ c', syncFinishReadtime c = (none, c')) ∨
    Replied c.inp 0 ∧ ∃ c', syncFinishReadtime c = (some (replyAt c.inp 0), c') ∧
      c'.inp = c.inp.drop 16 := by
  rcases readx_msg 16 c with ⟨hshort, c₁, hread, -⟩ | ⟨m, t, hi, hm, c₁, hread, -, hi₁⟩
  · refine .inl ⟨fun h => ?_, c₁, by rw [syncFinishReadtime, hread]⟩
    have := (h 0 (Nat.le_refl 0)).1
    omega
  · have hw : ∀ off, off + 4 ≤ 16 → word c.inp off = word m off := by
      intro off hoff
      rw [hi]
      exact word_append (by omega)
    have hlen : 16 ≤ c.inp.length := by
      rw [hi, List.length_append]
      omega
    by_cases hid : word m 0 = ID_STAT
    · refine .inr ⟨fun j hj => ?_, c₁, ?_, ?_⟩
      · obtain rfl : j = 0 := Nat.le_zero.mp hj
        exact ⟨hlen, (hw 0 (by omega)).trans hid⟩
      · rw [syncFinishReadtime, hread]
        dsimp only
        rw [if_neg (not_not_intro hid)]
        simp only [replyAt, Nat.mul_zero, List.drop_zero, hw 4 (by omega), hw 12 (by omega),
          hw 8 (by omega)]
      · rw [hi₁, hi, ← hm, List.drop_left]
    · refine .inl ⟨fun h => hid ?_, c₁, ?_⟩
      · exact (hw 0 (by omega)).symm.trans (h 0 (Nat.le_refl 0)).2
      · rw [syncFinishReadtime, hread]
        exact if_pos hid

theorem replyAt_succ (inp : List UInt8) (i : Nat) : replyAt inp (i + 1) = replyAt (inp.drop 16) i := by
  unfold replyAt
  rw [List.drop_drop, show 16 + 16 * i = 16 * (i + 1) by omega]

theorem replied_succ (inp : List UInt8) (i : Nat) :
    Replied inp (i + 1) ↔ Replied inp 0 ∧ Replied (inp.drop 16) i := by
  have hdrop : ∀ j, (inp.drop 16).drop (16 * j) = inp.drop (16 * (j + 1)) := by
    intro j
    rw [List.drop_drop, show 16 + 16 * j = 16 * (j + 1) by omega]
  constructor
  · intro h
    refine ⟨fun j hj => h j (by omega), fun j hj => ?_⟩
    obtain ⟨hlen, hid⟩ := h (j + 1) (by omega)
    refine ⟨?_, by rw [hdrop, hid]⟩
    rw [List.length_drop]
    omega
  · rintro ⟨h0, h⟩ j hj
    obtain _ | j := j
    · exact h0 0 (Nat.le_refl 0)
    · obtain ⟨hlen, hid⟩ := h j (by omega)
      rw [List.length_drop] at hlen
      exact ⟨by omega, by rw [← hdrop, hid]⟩

open Classical in
/-- Each file gets its flag from its reply. -/
theorem marksOf_getElem? (filelist : List FileInfo) (c : Conn) (i : Nat) :
    (marksOf filelist c)[i]? = filelist[i]?.map fun ci =>
      if Replied c.inp i then { ci with flag := decide (ci.Current (replyAt c.inp i)) } else ci := by
  induction filelist generalizing c i with
  | nil => rfl
  | cons ci filelist ih =>
    rcases syncFinishReadtime_cases c with ⟨hno, c', hr⟩ | ⟨hyes, c', hr, hi⟩
    · have hnone : ¬ Replied c.inp i := fun h => hno fun j hj => h j (by omega)
      simp only [marksOf, hr, if_neg hnone, Option.map_id']
    · obtain _ | i := i
      · simp only [marksOf, hr, List.getElem?_cons_zero, Option.map_some, if_pos hyes]
      · simp only [marksOf, hr, List.getElem?_cons_succ, ih c' i, hi, replied_succ, replyAt_succ, hyes,
          true_and]

/-- A loop that gets to its end leaves these flags. -/
theorem syncFinishReadtimes_marks (filelist : List FileInfo) (c : Conn) :
    (∃ c', syncFinishReadtimes filelist c = (none, c')) ∨
      ∃ c', syncFinishReadtimes filelist c = (some (marksOf filelist c), c') := by
  induction filelist generalizing c with
  | nil => exact .inr ⟨c, rfl⟩
  | cons ci filelist ih =>
    rcases hr : syncFinishReadtime c with ⟨_ | st, c₁⟩
    · exact .inl ⟨c₁, by simp only [syncFinishReadtimes, hr]⟩
    · rcases ih c₁ with ⟨c₂, h⟩ | ⟨c₂, h⟩
      · exact .inl ⟨c₂, by simp only [syncFinishReadtimes, hr, h]⟩
      · exact .inr ⟨c₂, by simp only [syncFinishReadtimes, marksOf, hr, h]⟩

/-- `copy_local_dir_remote` ends before it sends a file, or it sends those without a flag. -/
theorem copyLocalDirRemote_marks (fs : FileSystem) (garbage : List UInt8 → Stat) (p : PushCall)
    {lpath rpath : List UInt8} {filelist : List FileInfo} (hne : ¬ (lpath = [] ∨ rpath = []))
    (hl : fileList fs garbage lpath rpath = (true, filelist)) :
    copyLocalDirRemote fs garbage p lpath rpath = 1 ∨ ∃ c, copyLocalDirRemote fs garbage p lpath rpath =
      if p.listonly then 0
      else if (syncSends p.width p.haveSymlinks p.zip fs (marks p filelist) c).1 then 0 else 1 := by
  unfold copyLocalDirRemote
  rw [if_neg hne, hl]
  dsimp only
  by_cases hp : p.checktimestamps = true
  · rw [if_pos hp]
    rcases hs : syncStartReadtimes filelist p.conn with ⟨_ | _, c⟩
    · exact .inl rfl
    · have hasked : Asked p filelist := ⟨hp, by rw [hs]⟩
      have hmarks : marks p filelist = marksOf filelist c := by rw [marks, if_pos hasked, hs]
      rw [hmarks]
      rcases syncFinishReadtimes_marks filelist c with ⟨c', h⟩ | ⟨c', h⟩
      · exact .inl (by simp only [h])
      · exact .inr ⟨c', by simp only [h]⟩
  · have hmarks : marks p filelist = filelist := if_neg fun hasked => hp hasked.1
    rw [if_neg hp, hmarks]
    exact .inr ⟨p.conn, rfl⟩

/-! ## What is left out -/

/-- `copy_local_dir_remote` leaves out only what the server has, in just this case: no file of the list
that is compared is mistaken for what the server has. -/
theorem skips_same_iff (fs : FileSystem) (garbage : List UInt8 → Stat) (p : PushCall)
    {lpath rpath : List UInt8} {filelist : List FileInfo}
    (hl : fileList fs garbage lpath rpath = (true, filelist)) :
    (∀ (i : Nat) ci, (marks p filelist)[i]? = some ci → ci.flag = true →
      ci.SameAs (replyAt p.conn.inp i)) ↔
      ∀ (i : Nat) ci, filelist[i]? = some ci → Asked p filelist → Replied p.conn.inp i →
        ¬ ci.Mistaken (replyAt p.conn.inp i) := by
  have hmem : ∀ (i : Nat) ci, filelist[i]? = some ci → ci ∈ newFiles fs garbage (PATH_MAX + 1)
      (withSlash lpath) (withSlash rpath) := by
    intro i ci hi
    have hlist : filelist = newFiles fs garbage (PATH_MAX + 1) (withSlash lpath) (withSlash rpath) :=
      (congrArg Prod.snd hl).symm
    rw [← hlist]
    exact List.mem_of_getElem? hi
  have htype : ∀ (i : Nat) ci, filelist[i]? = some ci → S_ISREG ci.mode ∨ S_ISLNK ci.mode :=
    fun i ci hi => newFiles_type (withSlash_slash lpath) (hmem i ci hi)
  have hflag : ∀ (i : Nat) ci, filelist[i]? = some ci → ci.flag = false := by
    intro i ci hi
    obtain ⟨d, r, before, name, after, st, -, -, rfl⟩ :=
      newFiles_of (withSlash_slash lpath) (hmem i ci hi)
    rfl
  have hinp := syncStartReadtimes_inp filelist p.conn
  constructor
  · intro h i ci hi hasked hreplied hmis
    have hcur : ci.Current (replyAt p.conn.inp i) := (current_iff (htype i ci hi)).mpr (.inr hmis)
    have hmark : (marks p filelist)[i]? = some { ci with flag := true } := by
      rw [marks, if_pos hasked, marksOf_getElem?, hi, hinp, Option.map_some, if_pos hreplied,
        decide_eq_true hcur]
    exact mistaken_not_same hmis (h i { ci with flag := true } hmark rfl)
  · intro h i ci hi hset
    have hasked : Asked p filelist := by
      by_contra hn
      rw [marks, if_neg hn] at hi
      rw [hflag i ci hi] at hset
      cases hset
    rw [marks, if_pos hasked, marksOf_getElem?, hinp, Option.map_eq_some_iff] at hi
    obtain ⟨ci', hi', rfl⟩ := hi
    split at hset
    · next hreplied =>
      rw [if_pos hreplied]
      have hcur : ci'.Current (replyAt p.conn.inp i) := of_decide_eq_true hset
      exact ((current_iff (htype i ci' hi')).mp hcur).resolve_right (h i ci' hi' hasked hreplied)
    · rw [hflag i ci' hi'] at hset
      cases hset

/-! ## A link in place of a file -/

/-- What `sync_finish_readtime` reads. -/
def statReply (st : Stat) : List UInt8 := [ID_STAT, st.mode, st.size, st.mtime].flatMap le32

/-- A push that compares the files with what the server answers, and lists them. -/
def comparing (replies : List Stat) : PushCall :=
  ⟨32, true, ⟨fun _ => false, fun _ => false⟩, ⟨replies.flatMap statReply, ⟨[], none⟩, []⟩, true, true⟩

/-- The file `f` and the link `l` of `linkFirst`, as they are listed. -/
def linkFirstList : List FileInfo :=
  [⟨⟨[115, 47, 102], [116, 47, 102]⟩, 2, 0o100644, 10, false⟩,
    ⟨⟨[115, 47, 108], [116, 47, 108]⟩, 3, 0o120777, 7, false⟩]

theorem fileList_linkFirst :
    fileList linkFirst (fun _ => ⟨0, 0, 0⟩) [115] [116] = (true, linkFirstList) := by
  decide +kernel

/-- The server has both. -/
theorem skips_same_both :
    Asked (comparing [⟨0o100644, 2, 10⟩, ⟨0o120777, 5, 7⟩]) linkFirstList ∧ ∀ (i : Nat) ci,
      (marks (comparing [⟨0o100644, 2, 10⟩, ⟨0o120777, 5, 7⟩]) linkFirstList)[i]? = some ci →
      ci.flag = true →
      ci.SameAs (replyAt (comparing [⟨0o100644, 2, 10⟩, ⟨0o120777, 5, 7⟩]).conn.inp i) := by
  refine ⟨by decide +kernel, (skips_same_iff linkFirst (fun _ => ⟨0, 0, 0⟩) _ fileList_linkFirst).mpr
    fun i ci hi _ _ hmis => ?_⟩
  match i with
  | 0 =>
    cases hi
    exact absurd hmis (by decide +kernel)
  | 1 =>
    cases hi
    exact absurd hmis (by decide +kernel)
  | i + 2 => cases hi

/-- The server has a link of the size and the time of `f`, and `f` is not sent. -/
theorem skips_file_for_link :
    fileList linkFirst (fun _ => ⟨0, 0, 0⟩) [115] [116] = (true, linkFirstList) ∧
    ¬ ∀ (i : Nat) ci, (marks (comparing [⟨0o120777, 2, 10⟩, ⟨0, 0, 0⟩]) linkFirstList)[i]? = some ci →
      ci.flag = true →
      ci.SameAs (replyAt (comparing [⟨0o120777, 2, 10⟩, ⟨0, 0, 0⟩]).conn.inp i) := by
  refine ⟨fileList_linkFirst, fun h => ?_⟩
  have hmark : (marks (comparing [⟨0o120777, 2, 10⟩, ⟨0, 0, 0⟩]) linkFirstList)[0]? =
      some ⟨⟨[115, 47, 102], [116, 47, 102]⟩, 2, 0o100644, 10, true⟩ := by decide +kernel
  exact absurd (h 0 _ hmark rfl) (by decide +kernel)

end Twm.Adb.PushDir
