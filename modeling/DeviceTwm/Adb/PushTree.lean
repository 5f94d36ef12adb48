import DeviceTwm.Adb.PushList
import Mathlib.Data.List.Nodup

/-!
# What a push of a directory sends

The tree of a directory is what `lstat` sees: its files and links, and those of the directories in it.
The list of `copy_local_dir_remote` is complete, and a directory that cannot be listed makes the push
fail, in just these cases (`pushed_iff`): the push fails at the top; or every directory of the tree can
be listed, and no link of it is taken for a directory.

* `TreeDir`, `Item`: the directories of the tree, and its files and links.
* `Complete.of_listed`: the list, when every directory is listed as it is.
-/

open Lib

namespace Twm.Adb.PushDir

/-! ## The tree -/

/-- A directory below `top`, or `top` itself. -/
inductive TreeDir (fs : FileSystem) : List UInt8 → List UInt8 → Prop
  | top (d : List UInt8) : TreeDir fs d d
  | sub {top d : List UInt8} {names : List (List UInt8)} {name : List UInt8} {st : Stat}
    (hopen : fs.opendir top = some names) (hn : name ∈ names) (hdots : ¬ IsDots name)
    (hl : fs.lstat (top ++ name) = some st) (hdir : S_ISDIR st.mode)
    (h : TreeDir fs (top ++ (name ++ [47])) d) : TreeDir fs top d

/-- A file or a link below `top`, by its path from there. -/
inductive Item (fs : FileSystem) : List UInt8 → List UInt8 → Stat → Prop
  | here {top : List UInt8} {names : List (List UInt8)} {name : List UInt8} {st : Stat}
    (hopen : fs.opendir top = some names) (hn : name ∈ names) (hdots : ¬ IsDots name)
    (hl : fs.lstat (top ++ name) = some st) (hfile : S_ISREG st.mode ∨ S_ISLNK st.mode) :
    Item fs top name st
  | inDir {top rel : List UInt8} {names : List (List UInt8)} {name : List UInt8} {st st' : Stat}
    (hopen : fs.opendir top = some names) (hn : name ∈ names) (hdots : ¬ IsDots name)
    (hl : fs.lstat (top ++ name) = some st') (hdir : S_ISDIR st'.mode)
    (h : Item fs (top ++ (name ++ [47])) rel st) : Item fs top (name ++ [47] ++ rel) st

/-- The directory can be read, and its entries can be looked at. -/
def Listable (fs : FileSystem) (d : List UInt8) : Prop :=
  ∃ names, fs.opendir d = some names ∧
    ∀ n ∈ names, ¬ IsDots n → fs.lstat (d ++ n) ≠ none

/-- The paths of the entries fit in `PATH_MAX`. -/
def FitsPath (fs : FileSystem) (d : List UInt8) : Prop :=
  ∀ names n, fs.opendir d = some names → n ∈ names → ¬ IsDots n → d.length + n.length + 1 ≤ PATH_MAX

/-- A link in the directory is taken for a directory. -/
def Misread (fs : FileSystem) (garbage : List UInt8 → Stat) (d : List UInt8) : Prop :=
  ∃ before name after st, fs.opendir d = some (before ++ name :: after) ∧ ¬ IsDots name ∧
    fs.lstat (d ++ name) = some st ∧ S_ISLNK st.mode ∧
    takenForDir fs garbage d before.reverse name = true

/-- The directory cannot be read; or an entry cannot be looked at, and is not taken for a directory. -/
def Refused (fs : FileSystem) (garbage : List UInt8 → Stat) (d : List UInt8) : Prop :=
  fs.opendir d = none ∨ ∃ before name after, fs.opendir d = some (before ++ name :: after) ∧
    ¬ IsDots name ∧ fs.lstat (d ++ name) = none ∧
    takenForDir fs garbage d before.reverse name = false

/-- The list has every file and link of the tree once, and nothing else. -/
structure Complete (fs : FileSystem) (lpath rpath : List UInt8) (filelist : List FileInfo) :
    Prop where
  mem : ∀ ci, ci ∈ filelist ↔ ∃ rel st, Item fs lpath rel st ∧ ci = FileInfo.of lpath rpath rel st
  once : (filelist.map (·.src)).Nodup

/-- What a push is to do: when it succeeds the list is complete, and when a directory of the tree
cannot be listed it does not succeed. -/
structure Pushed (fs : FileSystem) (garbage : List UInt8 → Stat) (p : PushCall)
    (lpath rpath : List UInt8) : Prop where
  complete : copyLocalDirRemote fs garbage p lpath rpath = 0 →
    Complete fs (withSlash lpath) (withSlash rpath) (fileList fs garbage lpath rpath).2
  listed : (∃ d, TreeDir fs (withSlash lpath) d ∧ ¬ Listable fs d) →
    copyLocalDirRemote fs garbage p lpath rpath ≠ 0

/-- The path from a directory in between. -/
theorem FileInfo.of_below (lpath rpath name rel : List UInt8) (st : Stat) :
    FileInfo.of (lpath ++ (name ++ [47])) (rpath ++ (name ++ [47])) rel st =
      FileInfo.of lpath rpath (name ++ [47] ++ rel) st := by
  simp [FileInfo.of, mkcopyinfo]

/-! ## A tree that is listed as it is -/

section Listed

variable {fs : FileSystem} {garbage : List UInt8 → Stat} {d name : List UInt8}
  {names pre post : List (List UInt8)} {st : Stat}

/-- The directory can be listed, its paths fit and no link in it is taken for a directory. -/
structure ListedAsIs (fs : FileSystem) (garbage : List UInt8 → Stat) (d : List UInt8) : Prop where
  listable : Listable fs d
  fits : FitsPath fs d
  read : ¬ Misread fs garbage d

namespace ListedAsIs

variable (h : ListedAsIs fs garbage d) (hopen : fs.opendir d = some (pre ++ name :: post))

include h hopen

theorem not_skipped (hdots : ¬ IsDots name) : ¬ Skipped d name := by
  rintro (hd | hl)
  · exact hdots hd
  · have := h.fits _ name hopen (by simp) hdots
    omega

theorem verdict_dir (hdots : ¬ IsDots name) (hl : fs.lstat (d ++ name) = some st)
    (hdir : S_ISDIR st.mode) : verdict fs garbage d pre.reverse name = .dir := by
  have htaken : takenForDir fs garbage d pre.reverse name = true := by
    simp [takenForDir, fs.follow _ _ hl (not_lnk_of_dir hdir), hdir]
  rw [verdict, if_neg (h.not_skipped hopen hdots), if_pos htaken]

/-- Only a directory is taken for one. -/
theorem not_taken (hdots : ¬ IsDots name) (hl : fs.lstat (d ++ name) = some st)
    (hdir : ¬ S_ISDIR st.mode) : ¬ takenForDir fs garbage d pre.reverse name = true := by
  intro htaken
  by_cases hlnk : S_ISLNK st.mode
  · exact h.read ⟨pre, name, post, st, hopen, hdots, hl, hlnk, htaken⟩
  · rw [takenForDir, fs.follow _ _ hl hlnk] at htaken
    exact hdir (by simpa using htaken)

/-- What the loop makes of an entry of which it knows what it is. -/
theorem verdict_eq (hdots : ¬ IsDots name) (hl : fs.lstat (d ++ name) = some st)
    (hdir : ¬ S_ISDIR st.mode) : verdict fs garbage d pre.reverse name =
      if ¬ S_ISREG st.mode ∧ ¬ S_ISLNK st.mode then .special else .file st := by
  rw [verdict, if_neg (h.not_skipped hopen hdots), if_neg (h.not_taken hopen hdots hl hdir), hl]

theorem verdict_file (hdots : ¬ IsDots name) (hl : fs.lstat (d ++ name) = some st)
    (hfile : S_ISREG st.mode ∨ S_ISLNK st.mode) :
    verdict fs garbage d pre.reverse name = .file st := by
  rw [h.verdict_eq hopen hdots hl fun hdir => not_file_of_dir hdir hfile, if_neg]
  exact fun hn => hfile.elim hn.1 hn.2

/-- The loop knows what each entry is. -/
theorem verdict_spec :
    (IsDots name ∧ verdict fs garbage d pre.reverse name = .skip) ∨
    ¬ IsDots name ∧ ∃ st, fs.lstat (d ++ name) = some st ∧
      (S_ISDIR st.mode ∧ verdict fs garbage d pre.reverse name = .dir ∨
        (S_ISREG st.mode ∨ S_ISLNK st.mode) ∧ verdict fs garbage d pre.reverse name = .file st ∨
        verdict fs garbage d pre.reverse name = .special) := by
  by_cases hdots : IsDots name
  · exact .inl ⟨hdots, if_pos (.inl hdots)⟩
  · refine .inr ⟨hdots, ?_⟩
    obtain ⟨names, hnames, hall⟩ := h.listable
    rw [hopen] at hnames
    cases hnames
    obtain ⟨st, hl⟩ := Option.ne_none_iff_exists'.mp (hall name (by simp) hdots)
    refine ⟨st, hl, ?_⟩
    by_cases hdir : S_ISDIR st.mode
    · exact .inl ⟨hdir, h.verdict_dir hopen hdots hl hdir⟩
    · by_cases hfile : S_ISREG st.mode ∨ S_ISLNK st.mode
      · exact .inr (.inl ⟨hfile, h.verdict_file hopen hdots hl hfile⟩)
      · rw [h.verdict_eq hopen hdots hl hdir]
        exact .inr (.inr (if_pos (not_or.mp hfile)))

end ListedAsIs

/-- The loop over such a directory gets to its end. -/
theorem ListedAsIs.ends (h : ListedAsIs fs garbage d) (hopen : fs.opendir d = some names) :
    ScanEnds (verdicts fs garbage d [] names) := by
  rw [scanEnds_iff]
  rintro pre name post rfl hgone
  rw [List.append_nil] at hgone
  have hspec := h.verdict_spec hopen
  rw [hgone] at hspec
  simp at hspec

/-- What the loop says of a name is what the file system says of it. -/
theorem ListedAsIs.mem_spec (h : ListedAsIs fs garbage d) (hopen : fs.opendir d = some names)
    {v : Verdict} (hmem : (name, v) ∈ verdicts fs garbage d [] names) :
    name ∈ names ∧ ((IsDots name ∧ v = .skip) ∨
      ¬ IsDots name ∧ ∃ st, fs.lstat (d ++ name) = some st ∧
        (S_ISDIR st.mode ∧ v = .dir ∨ (S_ISREG st.mode ∨ S_ISLNK st.mode) ∧ v = .file st ∨
          v = .special)) := by
  obtain ⟨pre, post, rfl, hv⟩ := mem_verdicts hmem
  rw [List.append_nil] at hv
  refine ⟨by simp, ?_⟩
  have hspec := h.verdict_spec hopen
  rwa [← hv] at hspec

/-- The directories that the loop finds. -/
theorem ListedAsIs.mem_dir (h : ListedAsIs fs garbage d) (hopen : fs.opendir d = some names) :
    (name, .dir) ∈ verdicts fs garbage d [] names ↔
      name ∈ names ∧ ¬ IsDots name ∧ ∃ st, fs.lstat (d ++ name) = some st ∧ S_ISDIR st.mode := by
  constructor
  · intro hmem
    obtain ⟨hn, hspec⟩ := h.mem_spec hopen hmem
    exact ⟨hn, by simpa using hspec⟩
  · rintro ⟨hn, hdots, st, hl, hdir⟩
    obtain ⟨pre, post, rfl⟩ := List.append_of_mem hn
    have hmem := verdicts_mem (h.ends hopen) rfl
    rwa [List.append_nil, h.verdict_dir hopen hdots hl hdir] at hmem

/-- The files and links that the loop finds. -/
theorem ListedAsIs.mem_file (h : ListedAsIs fs garbage d) (hopen : fs.opendir d = some names) :
    (name, .file st) ∈ verdicts fs garbage d [] names ↔
      name ∈ names ∧ ¬ IsDots name ∧ fs.lstat (d ++ name) = some st ∧
        (S_ISREG st.mode ∨ S_ISLNK st.mode) := by
  constructor
  · intro hmem
    obtain ⟨hn, hspec⟩ := h.mem_spec hopen hmem
    refine ⟨hn, ?_⟩
    simp only [reduceCtorEq, and_false, false_or, or_false, Verdict.file.injEq] at hspec
    obtain ⟨hdots, st', hl, hfile, rfl⟩ := hspec
    exact ⟨hdots, hl, hfile⟩
  · rintro ⟨hn, hdots, hl, hfile⟩
    obtain ⟨pre, post, rfl⟩ := List.append_of_mem hn
    have hmem := verdicts_mem (h.ends hopen) rfl
    rwa [List.append_nil, h.verdict_file hopen hdots hl hfile] at hmem

/-- A name ends where the first slash is. -/
theorem name_inj {n m x y : List UInt8} (hn : 47 ∉ n) (hm : 47 ∉ m)
    (h : n ++ [47] ++ x = m ++ [47] ++ y) : n = m := by
  have htake : ∀ k z : List UInt8, 47 ∉ k → (k ++ [47] ++ z).takeWhile (· ≠ 47) = k := by
    intro k z hk
    rw [List.append_assoc]
    exact takeWhile_ne_stop hk z
  rw [← htake n x hn, ← htake m y hm, h]

end Listed

/-! ## One directory, with the lists of those below -/

section Level

variable {fs : FileSystem} {garbage : List UInt8 → Stat} {fuel : Nat} {lpath rpath : List UInt8}
  {names : List (List UInt8)} (htop : ListedAsIs fs garbage lpath)
  (hopen : fs.opendir lpath = some names)
  (hbelow : ∀ n, (n, .dir) ∈ verdicts fs garbage lpath [] names →
    Complete fs (lpath ++ (n ++ [47])) (rpath ++ (n ++ [47]))
      (newFiles fs garbage fuel (lpath ++ (n ++ [47])) (rpath ++ (n ++ [47]))))
include htop hopen hbelow

theorem mem_level (ci : FileInfo) :
    ci ∈ filesBelow fs garbage fuel (verdicts fs garbage lpath [] names) lpath rpath ++
      filesHere (verdicts fs garbage lpath [] names) lpath rpath ↔
    ∃ rel st, Item fs lpath rel st ∧ ci = FileInfo.of lpath rpath rel st := by
  rw [List.mem_append, mem_filesBelow, mem_filesHere]
  constructor
  · rintro (⟨n, hn, hci⟩ | ⟨n, st, hn, rfl⟩)
    · obtain ⟨hmem, hdots, st', hl, hdir⟩ := (htop.mem_dir hopen).mp hn
      obtain ⟨rel, st, hitem, rfl⟩ := ((hbelow n hn).mem ci).mp hci
      exact ⟨_, st, .inDir hopen hmem hdots hl hdir hitem, FileInfo.of_below ..⟩
    · obtain ⟨hmem, hdots, hl, hfile⟩ := (htop.mem_file hopen).mp hn
      exact ⟨n, st, .here hopen hmem hdots hl hfile, rfl⟩
  · rintro ⟨rel, st, hitem, rfl⟩
    cases hitem with
    | here hopen' hn hdots hl hfile =>
      rw [hopen] at hopen'
      cases hopen'
      exact .inr ⟨rel, st, (htop.mem_file hopen).mpr ⟨hn, hdots, hl, hfile⟩, rfl⟩
    | inDir hopen' hn hdots hl hdir hitem =>
      rw [hopen] at hopen'
      cases hopen'
      have hv := (htop.mem_dir hopen).mpr ⟨hn, hdots, _, hl, hdir⟩
      exact .inl ⟨_, hv, ((hbelow _ hv).mem _).mpr ⟨_, st, hitem, (FileInfo.of_below ..).symm⟩⟩

/-- Every path is made once: the names of a directory differ, and a name has no slash. -/
theorem once_level :
    ((filesBelow fs garbage fuel (verdicts fs garbage lpath [] names) lpath rpath ++
      filesHere (verdicts fs garbage lpath [] names) lpath rpath).map (·.src)).Nodup := by
  have hnames := fs.nodup lpath names hopen
  have hslash : ∀ n, n ∈ names → 47 ∉ n := fun n => fs.name lpath names n hopen
  have hdirs : (dirsOf (verdicts fs garbage lpath [] names)).Nodup :=
    hnames.sublist ((dirsOf_sublist _).trans (verdicts_names []))
  have hfiles : ((filesOf (verdicts fs garbage lpath [] names)).map Prod.fst).Nodup :=
    hnames.sublist ((filesOf_sublist _).trans (verdicts_names []))
  have hsrc : ∀ n src, (n, .dir) ∈ verdicts fs garbage lpath [] names →
      src ∈ (newFiles fs garbage fuel (lpath ++ (n ++ [47])) (rpath ++ (n ++ [47]))).map (·.src) →
        ∃ rel, src = lpath ++ (n ++ [47] ++ rel) := by
    intro n src hn hmem
    obtain ⟨ci, hci, rfl⟩ := List.mem_map.mp hmem
    obtain ⟨rel, st, -, rfl⟩ := ((hbelow n hn).mem ci).mp hci
    exact ⟨rel, by simp [FileInfo.of_src]⟩
  rw [List.map_append, List.nodup_append]
  refine ⟨?_, ?_, ?_⟩
  · rw [filesBelow, List.map_flatMap, List.nodup_flatMap]
    refine ⟨fun n hn => (hbelow n (mem_dirsOf.mp hn)).once, ?_⟩
    refine hdirs.pairwise_of_forall_ne fun n hn m hm hne src hsn hsm => hne ?_
    obtain ⟨x, rfl⟩ := hsrc n src (mem_dirsOf.mp hn) hsn
    obtain ⟨y, hy⟩ := hsrc m _ (mem_dirsOf.mp hm) hsm
    exact name_inj (hslash n ((htop.mem_dir hopen).mp (mem_dirsOf.mp hn)).1)
      (hslash m ((htop.mem_dir hopen).mp (mem_dirsOf.mp hm)).1) (List.append_cancel_left hy)
  · rw [filesHere, List.map_reverse, List.nodup_reverse, List.map_map]
    have hmap := hfiles.map (List.append_right_injective lpath)
    rwa [List.map_map] at hmap
  · rintro src hb _ hh rfl
    rw [filesBelow, List.map_flatMap, List.mem_flatMap] at hb
    obtain ⟨n, hn, hsn⟩ := hb
    obtain ⟨x, rfl⟩ := hsrc n src (mem_dirsOf.mp hn) hsn
    obtain ⟨ci, hci, he⟩ := List.mem_map.mp hh
    obtain ⟨m, st, hm, rfl⟩ := mem_filesHere.mp hci
    have hm47 := hslash m ((htop.mem_file hopen).mp hm).1
    rw [FileInfo.of_src, List.append_cancel_left_eq] at he
    exact hm47 (by simp [he])

end Level

/-- **The list of a tree that is listed as it is.** -/
theorem Complete.of_listed {fs : FileSystem} {garbage : List UInt8 → Stat} (fuel : Nat)
    (lpath rpath : List UInt8) (hpos : 0 < fuel) (hfuel : PATH_MAX + 1 ≤ fuel + lpath.length)
    (h : ∀ d, TreeDir fs lpath d → ListedAsIs fs garbage d) :
    (localBuildList fs garbage fuel [] lpath rpath).1 = true ∧
      Complete fs lpath rpath (newFiles fs garbage fuel lpath rpath) := by
  induction fuel generalizing lpath rpath with
  | zero => omega
  | succ fuel ih =>
    have htop := h lpath (.top lpath)
    obtain ⟨names, hopen, -⟩ := htop.listable
    have hends := htop.ends hopen
    have hbelow : ∀ n, (n, .dir) ∈ verdicts fs garbage lpath [] names →
        Complete fs (lpath ++ (n ++ [47])) (rpath ++ (n ++ [47]))
          (newFiles fs garbage fuel (lpath ++ (n ++ [47])) (rpath ++ (n ++ [47]))) := by
      intro n hn
      obtain ⟨hmem, hdots, st, hl, hdir⟩ := (htop.mem_dir hopen).mp hn
      have hfit := htop.fits names n hopen hmem hdots
      refine (ih _ _ ?_ ?_ fun d hd => h d (.sub hopen hmem hdots hl hdir hd)).2
      · omega
      · rw [List.length_append, List.length_append, List.length_singleton]
        omega
    have hnew : newFiles fs garbage (fuel + 1) lpath rpath =
        filesBelow fs garbage fuel (verdicts fs garbage lpath [] names) lpath rpath ++
          filesHere (verdicts fs garbage lpath [] names) lpath rpath := by
      rw [newFiles, localBuildList_ends hopen hends]
    rw [hnew]
    exact ⟨by rw [localBuildList_ends hopen hends],
      mem_level htop hopen hbelow, once_level htop hopen hbelow⟩

/-! ## The push -/

section Push

variable {fs : FileSystem} {garbage : List UInt8 → Stat} {lpath rpath d name : List UInt8} {st : Stat}

theorem withSlash_slash (path : List UInt8) : ∃ d, withSlash path = d ++ [47] := by
  unfold withSlash
  split
  · next h =>
    obtain ⟨d, hd⟩ := List.getLast?_eq_some_iff.mp h
    exact ⟨d, hd⟩
  · exact ⟨path, rfl⟩

theorem TreeDir.slash {top : List UInt8} (h : TreeDir fs top d) (htop : ∃ x, top = x ++ [47]) :
    ∃ x, d = x ++ [47] := by
  induction h with
  | top d => exact htop
  | sub _ _ _ _ _ _ ih => exact ih ⟨_, (List.append_assoc ..).symm⟩

/-- A file or link in a directory of the tree. -/
theorem TreeDir.item {top : List UInt8} {names : List (List UInt8)} (h : TreeDir fs top d)
    (hopen : fs.opendir d = some names) (hn : name ∈ names) (hdots : ¬ IsDots name)
    (hl : fs.lstat (d ++ name) = some st) (hfile : S_ISREG st.mode ∨ S_ISLNK st.mode) :
    ∃ rel, Item fs top rel st ∧ top ++ rel = d ++ name := by
  induction h with
  | top d => exact ⟨name, .here hopen hn hdots hl hfile, rfl⟩
  | sub hopen' hn' hdots' hl' hdir _ ih =>
    obtain ⟨rel, hitem, hrel⟩ := ih hopen hl
    exact ⟨_, .inDir hopen' hn' hdots' hl' hdir hitem, by rw [← hrel]; simp⟩

theorem not_taken_of_file {before : List (List UInt8)}
    (h : verdict fs garbage d before name = .file st) :
    ¬ takenForDir fs garbage d before name = true := by
  intro htaken
  unfold verdict at h
  split at h
  · cases h
  · cases h

/-- A link that is taken for a directory is not put in the list. -/
theorem Misread.not_found {x : List UInt8} (hd : ∃ x, d = x ++ [47])
    {before after : List (List UInt8)} (hopen : fs.opendir d = some (before ++ name :: after))
    (htaken : takenForDir fs garbage d before.reverse name = true) :
    ¬ FoundIn fs garbage (x ++ [47]) (d ++ name) := by
  rintro ⟨before', name', after', st, hopen', hsrc, hv⟩
  obtain ⟨y, rfl⟩ := hd
  have hname : name = name' := by
    refine name_inj (n := name.reverse) (m := name'.reverse) (x := y.reverse) (y := x.reverse)
      ?_ ?_ ?_ |> List.reverse_injective
    · simpa using fs.name _ _ name hopen (by simp)
    · simpa using fs.name _ _ name' hopen' (by simp)
    · simpa using congrArg List.reverse hsrc
  subst hname
  obtain rfl : y = x := by simpa using List.append_cancel_right hsrc
  rw [hopen, Option.some.injEq] at hopen'
  have hnd := List.nodup_middle.mp (fs.nodup _ _ hopen)
  have hnot : name ∉ before ++ after := (List.nodup_cons.mp hnd).1
  obtain ⟨rfl, -, -⟩ := (List.append_cons_inj_of_notMem (fun h => hnot (List.mem_append_left _ h))
    (fun h => hnot (List.mem_append_right _ h))).mp hopen'
  exact not_taken_of_file hv htaken

theorem fileList_refused (hfits : FitsPath fs (withSlash lpath))
    (h : Refused fs garbage (withSlash lpath)) : (fileList fs garbage lpath rpath).1 = false := by
  unfold fileList
  rcases h with hnone | ⟨before, name, after, hopen, hdots, hl, htaken⟩
  · rw [localBuildList, hnone]
  · have hends : ¬ ScanEnds (verdicts fs garbage (withSlash lpath) [] (before ++ name :: after)) := by
      rw [scanEnds_iff]
      intro h
      refine h before name after rfl ?_
      have hskip : ¬ Skipped (withSlash lpath) name := by
        rintro (hd | hlong)
        · exact hdots hd
        · have := hfits _ name hopen (by simp) hdots
          omega
      rw [List.append_nil, verdict, if_neg hskip, if_neg (by simp [htaken]), hl]
    rw [localBuildList_stops hopen hends]

theorem fileList_goes_on (h : ¬ Refused fs garbage (withSlash lpath)) :
    (fileList fs garbage lpath rpath).1 = true := by
  obtain ⟨names, hopen⟩ := Option.ne_none_iff_exists'.mp fun hnone => h (.inl hnone)
  have hends : ScanEnds (verdicts fs garbage (withSlash lpath) [] names) := by
    rw [scanEnds_iff]
    rintro pre name post rfl hv
    rw [List.append_nil] at hv
    unfold verdict at hv
    split at hv
    · cases hv
    · next hskip =>
      split at hv
      · cases hv
      · next htaken =>
        refine h (.inr ⟨pre, name, post, hopen, fun hd => hskip (.inl hd), ?_, by simpa using htaken⟩)
        cases hl : fs.lstat (withSlash lpath ++ name) with
        | none => rfl
        | some st =>
          rw [hl] at hv
          dsimp only at hv
          split at hv <;> cases hv
  unfold fileList
  rw [localBuildList_ends hopen hends]

theorem copy_of_stopped (p : PushCall) (h : (fileList fs garbage lpath rpath).1 = false) :
    copyLocalDirRemote fs garbage p lpath rpath = -1 := by
  unfold copyLocalDirRemote
  split
  · rfl
  · rcases hf : fileList fs garbage lpath rpath with ⟨ok, filelist⟩
    rw [hf] at h
    cases h
    rfl

/-- A push that only lists the files. -/
def listOnly : PushCall :=
  ⟨32, true, ⟨fun _ => false, fun _ => false⟩, ⟨[], ⟨[], none⟩, []⟩, false, true⟩

theorem copy_listOnly (hl : lpath ≠ []) (hr : rpath ≠ [])
    (h : (fileList fs garbage lpath rpath).1 = true) :
    copyLocalDirRemote fs garbage listOnly lpath rpath = 0 := by
  unfold copyLocalDirRemote
  rw [if_neg (by simp [hl, hr])]
  rcases hf : fileList fs garbage lpath rpath with ⟨ok, filelist⟩
  rw [hf] at h
  cases h
  rfl

/-- **When a push of a directory is complete.** Paths that do not fit in `PATH_MAX` apart. -/
theorem pushed_iff (fs : FileSystem) (garbage : List UInt8 → Stat) (lpath rpath : List UInt8)
    (hfits : ∀ d, TreeDir fs (withSlash lpath) d → FitsPath fs d) :
    (∀ p, Pushed fs garbage p lpath rpath) ↔
      lpath = [] ∨ rpath = [] ∨ Refused fs garbage (withSlash lpath) ∨
        ∀ d, TreeDir fs (withSlash lpath) d → Listable fs d ∧ ¬ Misread fs garbage d := by
  constructor
  · intro h
    by_contra hnot
    simp only [not_or] at hnot
    obtain ⟨hl, hr, href, hbad⟩ := hnot
    have hon : (fileList fs garbage lpath rpath).1 = true := fileList_goes_on href
    have hzero := copy_listOnly hl hr hon
    refine hbad fun d hd => ?_
    have hlist : Listable fs d := by
      by_contra hn
      exact (h listOnly).listed ⟨d, hd, hn⟩ hzero
    refine ⟨hlist, ?_⟩
    rintro ⟨before, name, after, st, hopen, hdots, hlst, hlnk, htaken⟩
    have hmem : name ∈ before ++ name :: after := by simp
    obtain ⟨rel, hitem, hrel⟩ := hd.item hopen hmem hdots hlst (.inr hlnk)
    have hin := (((h listOnly).complete hzero).mem _).mpr ⟨rel, st, hitem, rfl⟩
    obtain ⟨x, hfound⟩ := newFiles_found (withSlash_slash lpath) hin
    rw [FileInfo.of_src, hrel] at hfound
    exact Misread.not_found (hd.slash (withSlash_slash lpath)) hopen htaken hfound
  · intro h p
    have hrefused : lpath = [] ∨ rpath = [] ∨ Refused fs garbage (withSlash lpath) →
        Pushed fs garbage p lpath rpath := by
      intro h
      have hfails : copyLocalDirRemote fs garbage p lpath rpath = -1 := by
        rcases h with rfl | rfl | h
        · exact if_pos (.inl rfl)
        · exact if_pos (.inr rfl)
        · exact copy_of_stopped p (fileList_refused (hfits _ (.top _)) h)
      exact ⟨fun hz => by omega, fun _ => by omega⟩
    rcases h with h | h | h | h
    · exact hrefused (.inl h)
    · exact hrefused (.inr (.inl h))
    · exact hrefused (.inr (.inr h))
    · have hlisted := Complete.of_listed (PATH_MAX + 1) (withSlash lpath) (withSlash rpath)
        (by omega) (by omega) fun d hd => ⟨(h d hd).1, hfits d hd, (h d hd).2⟩
      exact ⟨fun _ => hlisted.2, fun ⟨d, hd, hn⟩ => absurd (h d hd).1 hn⟩

end Push

/-! ## A directory, a file, and a link that leads nowhere -/

/-- A local file that cannot be opened. -/
def noFile : LocalFile where
  openOk := false
  reads := []
  link := none
  seekEnd := some 0
  rewindOk := false
  mallocOk := false
  amt := 0
  buffer := []
  file := []
  chunk := LocalFile.no_chunk
  target := LocalFile.no_target
  buffered := LocalFile.no_buffer

/-- `s` has the empty directory `d`, the file `f` and the link `l`, which `readdir` gives in this
order. -/
def smallFs (names : List (List UInt8)) (hnodup : names.Nodup) (hname : ∀ n ∈ names, 47 ∉ n) :
    FileSystem where
  opendir p := if p = [115, 47] then some names else if p = [115, 47, 100, 47] then some [] else none
  stat p :=
    if p = [115, 47, 100] then some ⟨0o040755, 1, 4096⟩
    else if p = [115, 47, 102] then some ⟨0o100644, 2, 10⟩
    else none
  lstat p :=
    if p = [115, 47, 100] then some ⟨0o040755, 1, 4096⟩
    else if p = [115, 47, 102] then some ⟨0o100644, 2, 10⟩
    else if p = [115, 47, 108] then some ⟨0o120777, 3, 7⟩
    else none
  file _ := noFile
  nodup d ns h := by
    split at h
    · cases h
      exact hnodup
    · split at h
      · cases h
        exact .nil
      · cases h
  name d ns n h hn := by
    split at h
    · cases h
      exact hname n hn
    · split at h
      · cases h
        cases hn
      · cases h
  follow p st h hlnk := by
    split at h
    · next hd => rw [if_pos hd, h]
    · next hd =>
      split at h
      · next hf => rw [if_neg hd, if_pos hf, h]
      · split at h
        · cases h
          exact absurd (by decide) hlnk
        · cases h
  exists_of_stat p h := by
    split at h
    · cases h
    · next hd =>
      split at h
      · cases h
      · next hf => rw [if_neg hd, if_neg hf]

/-- The link comes first. -/
def linkFirst : FileSystem := smallFs [[108], [100], [102]] (by decide) (by decide)

/-- The link comes after the directory. -/
def linkAfterDir : FileSystem := smallFs [[100], [108], [102]] (by decide) (by decide)

theorem linkFirst_dirs {d : List UInt8} (h : TreeDir linkFirst [115, 47] d) :
    d = [115, 47] ∨ d = [115, 47, 100, 47] := by
  cases h with
  | top => exact .inl rfl
  | sub hopen hn hdots hl hdir h =>
    cases hopen
    simp only [List.mem_cons, List.not_mem_nil, or_false] at hn
    rcases hn with rfl | rfl | rfl
    · cases hl
      exact absurd hdir (by decide)
    · cases h with
      | top => exact .inr rfl
      | sub hopen' hn' =>
        cases hopen'
        cases hn'
    · cases hl
      exact absurd hdir (by decide)

theorem pushed_linkFirst : Pushed linkFirst (fun _ => ⟨0, 0, 0⟩) listOnly [115] [116] := by
  refine (pushed_iff linkFirst (fun _ => ⟨0, 0, 0⟩) [115] [116] fun d hd ns n hopen hn _ => ?_).mpr
    (.inr (.inr (.inr fun d hd => ?_))) listOnly
  · rcases linkFirst_dirs hd with rfl | rfl
    · cases hopen
      simp only [List.mem_cons, List.not_mem_nil, or_false] at hn
      rcases hn with rfl | rfl | rfl <;> decide
    · cases hopen
      cases hn
  · rcases linkFirst_dirs hd with rfl | rfl
    · refine ⟨⟨_, rfl, by decide⟩, ?_⟩
      rintro ⟨before, name, after, st, hopen, -, hl, hlnk, htaken⟩
      have hnames : [[108], [100], [102]] = before ++ name :: after := Option.some.inj hopen
      rcases before with _ | ⟨x, _ | ⟨y, before⟩⟩
      · cases hnames
        exact absurd htaken (by decide)
      · cases hnames
        cases hl
        exact absurd hlnk (by decide)
      · have hlast : [[102]] = before ++ name :: after := by
          simpa using (List.cons.inj (List.cons.inj hnames).2).2
        rcases before with _ | ⟨z, before⟩
        · cases hlast
          cases hl
          exact absurd hlnk (by decide)
        · simp at hlast
    · refine ⟨⟨_, rfl, nofun⟩, ?_⟩
      rintro ⟨before, name, after, st, hopen, -⟩
      simp [linkFirst, smallFs] at hopen

/-- The link is taken for a directory, for the entry before it is one: it is left out. -/
theorem push_drops_link :
    copyLocalDirRemote linkAfterDir (fun _ => ⟨0, 0, 0⟩) listOnly [115] [116] = 0 ∧
    (fileList linkAfterDir (fun _ => ⟨0, 0, 0⟩) [115] [116]).2.map (·.src) = [[115, 47, 102]] ∧
    Item linkAfterDir [115, 47] [108] ⟨0o120777, 3, 7⟩ ∧
    ¬ Pushed linkAfterDir (fun _ => ⟨0, 0, 0⟩) listOnly [115] [116] := by
  have hlist : (fileList linkAfterDir (fun _ => ⟨0, 0, 0⟩) [115] [116]).2.map (·.src) =
      [[115, 47, 102]] := by decide +kernel
  have hzero : copyLocalDirRemote linkAfterDir (fun _ => ⟨0, 0, 0⟩) listOnly [115] [116] = 0 := by
    decide +kernel
  have hitem : Item linkAfterDir [115, 47] [108] ⟨0o120777, 3, 7⟩ :=
    .here rfl (by decide) (by decide) rfl (by decide)
  refine ⟨hzero, hlist, hitem, fun h => ?_⟩
  have hin := ((h.complete hzero).mem _).mpr ⟨_, _, hitem, rfl⟩
  have hsrc := List.mem_map_of_mem (f := (·.src)) hin
  rw [hlist] at hsrc
  exact absurd hsrc (by decide)

end Twm.Adb.PushDir
