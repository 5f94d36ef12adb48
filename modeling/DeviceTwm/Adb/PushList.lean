import DeviceTwm.Adb.PushDir
import Mathlib.Data.List.Basic

/-!
# The list of a directory

What `local_build_list` puts in its list. The loop decides about each entry by the entry and by the names
before it (`verdicts`), so the list of a directory is made of its own files and of the lists of what it
takes for directories (`localBuildList_ends`); a loop that stops leaves the files that it has
(`localBuildList_stops`).
-/

open Lib

namespace Twm.Adb.PushDir

theorem FileInfo.of_src (lpath rpath name : List UInt8) (st : Stat) :
    (FileInfo.of lpath rpath name st).src = lpath ++ name := rfl

theorem not_file_of_dir {mode : Nat} (h : S_ISDIR mode) : ¬ (S_ISREG mode ∨ S_ISLNK mode) := by
  unfold S_ISDIR at h
  unfold S_ISREG S_ISLNK
  omega

theorem not_lnk_of_dir {mode : Nat} (h : S_ISDIR mode) : ¬ S_ISLNK mode :=
  fun hl => not_file_of_dir h (.inr hl)

/-! ## The loop -/

section Scan

variable {fs : FileSystem} {garbage : List UInt8 → Stat} {lpath rpath : List UInt8}
  {before names : List (List UInt8)} {name : List UInt8} {v : Verdict} {st : Stat}

/-- The entries that are taken for directories. -/
def dirsOf (vs : List (List UInt8 × Verdict)) : List (List UInt8) :=
  vs.filterMap fun v => match v.2 with | .dir => some v.1 | _ => none

/-- The files and links that are put in the list. -/
def filesOf (vs : List (List UInt8 × Verdict)) : List (List UInt8 × Stat) :=
  vs.filterMap fun v => match v.2 with | .file st => some (v.1, st) | _ => none

/-- The loop gets to its end. -/
def ScanEnds (vs : List (List UInt8 × Verdict)) : Prop := ∀ v ∈ vs, v.2 ≠ .gone

instance (vs : List (List UInt8 × Verdict)) : Decidable (ScanEnds vs) :=
  inferInstanceAs (Decidable (∀ v ∈ vs, _))

theorem mem_dirsOf {vs : List (List UInt8 × Verdict)} : name ∈ dirsOf vs ↔ (name, .dir) ∈ vs := by
  simp only [dirsOf, List.mem_filterMap, Prod.exists]
  constructor
  · rintro ⟨n, v, hmem, hv⟩
    cases v <;> simp_all
  · intro h
    exact ⟨name, .dir, h, rfl⟩

theorem mem_filesOf {vs : List (List UInt8 × Verdict)} :
    (name, st) ∈ filesOf vs ↔ (name, .file st) ∈ vs := by
  simp only [filesOf, List.mem_filterMap, Prod.exists]
  constructor
  · rintro ⟨n, v, hmem, hv⟩
    cases v <;> simp_all
  · intro h
    exact ⟨name, .file st, h, rfl⟩

theorem dirsOf_sublist (vs : List (List UInt8 × Verdict)) :
    (dirsOf vs).Sublist (vs.map Prod.fst) := by
  induction vs with
  | nil => exact .slnil
  | cons v vs ih =>
    obtain ⟨n, v⟩ := v
    cases v with
    | dir => exact ih.cons_cons n
    | skip | file st | special | gone => exact ih.cons n

theorem filesOf_sublist (vs : List (List UInt8 × Verdict)) :
    ((filesOf vs).map Prod.fst).Sublist (vs.map Prod.fst) := by
  induction vs with
  | nil => exact .slnil
  | cons v vs ih =>
    obtain ⟨n, v⟩ := v
    cases v with
    | file st => exact ih.cons_cons n
    | skip | dir | special | gone => exact ih.cons n

theorem scanEnds_cons {vs : List (List UInt8 × Verdict)} (h : v ≠ .gone) :
    ScanEnds ((name, v) :: vs) ↔ ScanEnds vs := by
  simp [ScanEnds, h]

theorem verdicts_cons (hv : verdict fs garbage lpath before name = v) (h : v ≠ .gone) :
    verdicts fs garbage lpath before (name :: names) =
      (name, v) :: verdicts fs garbage lpath (name :: before) names := by
  simp only [verdicts, hv, if_neg h]

theorem verdicts_gone (hv : verdict fs garbage lpath before name = .gone) :
    verdicts fs garbage lpath before (name :: names) = [(name, .gone)] := by
  simp only [verdicts, hv, if_true]

/-- What the loop leaves, in terms of what it makes of each entry. -/
theorem scanNames_eq (before : List (List UInt8)) (st : Stat) (dirlist : List CopyInfo)
    (filelist : List FileInfo) (hst : afterDir fs garbage lpath before = decide (S_ISDIR st.mode)) :
    scanNames fs lpath rpath names st dirlist filelist =
      (decide (ScanEnds (verdicts fs garbage lpath before names)),
        ((dirsOf (verdicts fs garbage lpath before names)).map
          (mkcopyinfo lpath rpath · true)).reverse ++ dirlist,
        ((filesOf (verdicts fs garbage lpath before names)).map
          fun f => FileInfo.of lpath rpath f.1 f.2).reverse ++ filelist) := by
  induction names generalizing before st dirlist filelist with
  | nil => simp [scanNames, verdicts, ScanEnds, dirsOf, filesOf]
  | cons name names ih =>
    by_cases hskip : Skipped lpath name
    · have hv : verdict fs garbage lpath before name = .skip := if_pos hskip
      have hafter : afterDir fs garbage lpath (name :: before) = decide (S_ISDIR st.mode) := by
        rw [afterDir, if_pos hskip, hst]
      have hscan : scanNames fs lpath rpath (name :: names) st dirlist filelist =
          scanNames fs lpath rpath names st dirlist filelist := by
        rcases hskip with hd | hl
        · rw [scanNames, if_pos hd]
        · rw [scanNames, if_pos hl, ite_self]
      rw [hscan, ih (name :: before) st dirlist filelist hafter, verdicts_cons hv nofun]
      simp only [scanEnds_cons (v := .skip) nofun]
      rfl
    · have hd : ¬ IsDots name := fun h => hskip (.inl h)
      have hl : ¬ PATH_MAX < lpath.length + name.length + 1 := fun h => hskip (.inr h)
      rw [scanNames, if_neg hd, if_neg hl]
      dsimp only
      -- the `struct stat` after `stat`
      have htaken : takenForDir fs garbage lpath before name =
          decide (S_ISDIR ((fs.stat (lpath ++ name)).getD st).mode) := by
        unfold takenForDir
        cases fs.stat (lpath ++ name) with
        | none => exact hst
        | some st' => rfl
      have hafter : afterDir fs garbage lpath (name :: before) =
          takenForDir fs garbage lpath before name := by
        rw [afterDir, if_neg hskip]
        rfl
      by_cases hdir : S_ISDIR ((fs.stat (lpath ++ name)).getD st).mode
      · have hv : verdict fs garbage lpath before name = .dir := by
          rw [verdict, if_neg hskip, if_pos (by simpa [htaken] using hdir)]
        rw [if_pos hdir, ih (name :: before) _ _ _ (hafter.trans htaken), verdicts_cons hv nofun]
        simp only [scanEnds_cons (v := .dir) nofun]
        simp [dirsOf, filesOf]
      · have hnot : ¬ takenForDir fs garbage lpath before name = true := by
          simpa [htaken] using hdir
        rw [if_neg hdir]
        cases hls : fs.lstat (lpath ++ name) with
        | none =>
          have hv : verdict fs garbage lpath before name = .gone := by
            rw [verdict, if_neg hskip, if_neg hnot, hls]
          rw [verdicts_gone hv]
          simp [ScanEnds, dirsOf, filesOf]
        | some st' =>
          have hndir : ¬ S_ISDIR st'.mode := by
            intro hd'
            rw [fs.follow _ _ hls (not_lnk_of_dir hd')] at hdir
            exact hdir hd'
          have hafter' : afterDir fs garbage lpath (name :: before) =
              decide (S_ISDIR st'.mode) := by
            rw [hafter, htaken, decide_eq_false hdir, decide_eq_false hndir]
          dsimp only
          by_cases hfile : ¬ S_ISREG st'.mode ∧ ¬ S_ISLNK st'.mode
          · have hv : verdict fs garbage lpath before name = .special := by
              rw [verdict, if_neg hskip, if_neg hnot, hls]
              exact if_pos hfile
            rw [if_pos hfile, ih (name :: before) st' _ _ hafter', verdicts_cons hv nofun]
            simp only [scanEnds_cons (v := .special) nofun]
            rfl
          · have hv : verdict fs garbage lpath before name = .file st' := by
              rw [verdict, if_neg hskip, if_neg hnot, hls]
              exact if_neg hfile
            rw [if_neg hfile, ih (name :: before) st' _ _ hafter', verdicts_cons hv nofun]
            simp only [scanEnds_cons (v := .file st') nofun]
            simp [dirsOf, filesOf]

theorem verdicts_names (before : List (List UInt8)) :
    ((verdicts fs garbage lpath before names).map Prod.fst).Sublist names := by
  induction names generalizing before with
  | nil => exact .slnil
  | cons name names ih =>
    simp only [verdicts]
    split
    · exact (List.nil_sublist _).cons_cons name
    · exact (ih (name :: before)).cons_cons name

/-- What the loop makes of an entry is decided by the names before it. -/
theorem mem_verdicts (h : (name, v) ∈ verdicts fs garbage lpath before names) :
    ∃ pre post, names = pre ++ name :: post ∧
      v = verdict fs garbage lpath (pre.reverse ++ before) name := by
  induction names generalizing before with
  | nil => cases h
  | cons n names ih =>
    have hcases : (name, v) = (n, verdict fs garbage lpath before n) ∨
        (name, v) ∈ verdicts fs garbage lpath (n :: before) names := by
      simp only [verdicts] at h
      split at h
      · exact .inl (List.mem_singleton.mp h)
      · exact List.mem_cons.mp h
    rcases hcases with he | hrest
    · cases he
      exact ⟨[], names, rfl, rfl⟩
    · obtain ⟨pre, post, rfl, hv⟩ := ih hrest
      exact ⟨n :: pre, post, rfl, by simpa using hv⟩

/-- A loop that gets to its end looks at every entry. -/
theorem verdicts_mem (hends : ScanEnds (verdicts fs garbage lpath before names))
    {pre post : List (List UInt8)} (h : names = pre ++ name :: post) :
    (name, verdict fs garbage lpath (pre.reverse ++ before) name) ∈
      verdicts fs garbage lpath before names := by
  induction pre generalizing before names with
  | nil =>
    subst h
    simp only [List.nil_append, List.reverse_nil, verdicts]
    split <;> simp
  | cons n pre ih =>
    subst h
    simp only [List.cons_append, verdicts] at hends ⊢
    split at hends
    · next hg => exact absurd hg (hends (n, verdict fs garbage lpath before n) List.mem_cons_self)
    · next hg =>
      rw [if_neg hg]
      have hrest := ih (fun v hv => hends v (List.mem_cons_of_mem _ hv)) rfl
      exact List.mem_cons_of_mem _ (by simpa using hrest)

/-- The loop stops only at an entry that it cannot look at. -/
theorem scanEnds_iff : ScanEnds (verdicts fs garbage lpath before names) ↔
    ∀ pre name post, names = pre ++ name :: post →
      verdict fs garbage lpath (pre.reverse ++ before) name ≠ .gone := by
  constructor
  · intro h pre name post hn hg
    exact h _ (verdicts_mem h hn) hg
  · rintro h ⟨n, v⟩ hmem hg
    obtain ⟨pre, post, hn, hv⟩ := mem_verdicts hmem
    exact h pre n post hn (hv.symm.trans hg)

end Scan

/-! ## The recursion -/

section Build

variable {fs : FileSystem} {garbage : List UInt8 → Stat} {lpath rpath : List UInt8}
  {names : List (List UInt8)} {fuel : Nat}

/-- The files that `local_build_list` puts in the list. -/
def newFiles (fs : FileSystem) (garbage : List UInt8 → Stat) (fuel : Nat)
    (lpath rpath : List UInt8) : List FileInfo :=
  (localBuildList fs garbage fuel [] lpath rpath).2

/-- The files of the directory itself, and those of the directories in it. -/
def filesHere (vs : List (List UInt8 × Verdict)) (lpath rpath : List UInt8) : List FileInfo :=
  ((filesOf vs).map fun f => FileInfo.of lpath rpath f.1 f.2).reverse

def filesBelow (fs : FileSystem) (garbage : List UInt8 → Stat) (fuel : Nat)
    (vs : List (List UInt8 × Verdict)) (lpath rpath : List UInt8) : List FileInfo :=
  (dirsOf vs).flatMap fun n => newFiles fs garbage fuel (lpath ++ (n ++ [47])) (rpath ++ (n ++ [47]))

theorem foldl_reverse_append {α β : Type} (g : α → List β) (xs : List α) (acc : List β) :
    xs.reverse.foldl (fun ys x => g x ++ ys) acc = xs.flatMap g ++ acc := by
  rw [List.foldl_reverse]
  induction xs with
  | nil => rfl
  | cons x xs ih => rw [List.foldr_cons, ih, List.flatMap_cons, List.append_assoc]

/-- `local_build_list`, when the directory can be read. -/
theorem localBuildList_open (hopen : fs.opendir lpath = some names) (filelist : List FileInfo)
    (happend : ∀ filelist l r, (localBuildList fs garbage fuel filelist l r).2 =
      newFiles fs garbage fuel l r ++ filelist) :
    localBuildList fs garbage (fuel + 1) filelist lpath rpath =
      if ScanEnds (verdicts fs garbage lpath [] names) then
        (true, filesBelow fs garbage fuel (verdicts fs garbage lpath [] names) lpath rpath ++
          (filesHere (verdicts fs garbage lpath [] names) lpath rpath ++ filelist))
      else (false, filesHere (verdicts fs garbage lpath [] names) lpath rpath ++ filelist) := by
  have hfold : (fun filelist (d : CopyInfo) =>
      (localBuildList fs garbage fuel filelist d.src d.dst).2) =
        fun filelist d => newFiles fs garbage fuel d.src d.dst ++ filelist := by
    funext filelist d
    exact happend filelist d.src d.dst
  rw [localBuildList, hopen]
  dsimp only
  rw [scanNames_eq [] (garbage lpath) [] filelist rfl]
  by_cases hends : ScanEnds (verdicts fs garbage lpath [] names)
  · rw [if_pos hends, decide_eq_true hends]
    dsimp only
    rw [hfold, List.append_nil, foldl_reverse_append, List.flatMap_map]
    rfl
  · rw [if_neg hends, decide_eq_false hends]
    rfl

/-- The files come before those that are in the list already. -/
theorem localBuildList_append (fs : FileSystem) (garbage : List UInt8 → Stat) (fuel : Nat)
    (filelist : List FileInfo) (lpath rpath : List UInt8) :
    (localBuildList fs garbage fuel filelist lpath rpath).2 =
      newFiles fs garbage fuel lpath rpath ++ filelist := by
  induction fuel generalizing filelist lpath rpath with
  | zero => rfl
  | succ fuel ih =>
    unfold newFiles
    cases hopen : fs.opendir lpath with
    | none => simp [localBuildList, hopen]
    | some names =>
      rw [localBuildList_open hopen filelist ih, localBuildList_open hopen [] ih]
      split
      · simp
      · simp

theorem localBuildList_ends (hopen : fs.opendir lpath = some names)
    (hends : ScanEnds (verdicts fs garbage lpath [] names)) :
    localBuildList fs garbage (fuel + 1) [] lpath rpath =
      (true, filesBelow fs garbage fuel (verdicts fs garbage lpath [] names) lpath rpath ++
        filesHere (verdicts fs garbage lpath [] names) lpath rpath) := by
  rw [localBuildList_open hopen [] (localBuildList_append fs garbage fuel), if_pos hends,
    List.append_nil]

theorem localBuildList_stops (hopen : fs.opendir lpath = some names)
    (hends : ¬ ScanEnds (verdicts fs garbage lpath [] names)) :
    localBuildList fs garbage (fuel + 1) [] lpath rpath =
      (false, filesHere (verdicts fs garbage lpath [] names) lpath rpath) := by
  rw [localBuildList_open hopen [] (localBuildList_append fs garbage fuel), if_neg hends,
    List.append_nil]

theorem mem_filesHere {vs : List (List UInt8 × Verdict)} {ci : FileInfo} :
    ci ∈ filesHere vs lpath rpath ↔
      ∃ n st, (n, .file st) ∈ vs ∧ ci = FileInfo.of lpath rpath n st := by
  simp only [filesHere, List.mem_reverse, List.mem_map, Prod.exists, mem_filesOf, eq_comm]

theorem mem_filesBelow {vs : List (List UInt8 × Verdict)} {ci : FileInfo} :
    ci ∈ filesBelow fs garbage fuel vs lpath rpath ↔ ∃ n, (n, .dir) ∈ vs ∧
      ci ∈ newFiles fs garbage fuel (lpath ++ (n ++ [47])) (rpath ++ (n ++ [47])) := by
  simp only [filesBelow, List.mem_flatMap, mem_dirsOf]

/-- More fuel than the path leaves room for does not change the list. -/
theorem localBuildList_fuel (fuel : Nat) (lpath rpath : List UInt8) (hpos : 0 < fuel)
    (hfuel : PATH_MAX + 1 ≤ fuel + lpath.length) :
    localBuildList fs garbage (fuel + 1) [] lpath rpath =
      localBuildList fs garbage fuel [] lpath rpath := by
  induction fuel generalizing lpath rpath with
  | zero => omega
  | succ fuel ih =>
    cases hopen : fs.opendir lpath with
    | none => simp only [localBuildList, hopen]
    | some names =>
      by_cases hends : ScanEnds (verdicts fs garbage lpath [] names)
      · rw [localBuildList_ends hopen hends, localBuildList_ends hopen hends]
        congr 2
        refine List.flatMap_congr fun n hn => ?_
        obtain ⟨pre, post, -, hv⟩ := mem_verdicts (mem_dirsOf.mp hn)
        have hfit : ¬ Skipped lpath n := by
          intro hskip
          rw [verdict, if_pos hskip] at hv
          cases hv
        have hlen : lpath.length + n.length + 1 ≤ PATH_MAX :=
          Nat.not_lt.mp fun hlong => hfit (.inr hlong)
        unfold newFiles
        rw [ih]
        · omega
        · rw [List.length_append, List.length_append, List.length_singleton]
          omega
      · rw [localBuildList_stops hopen hends, localBuildList_stops hopen hends]

/-- The file was found in a directory, and not taken for a directory itself. -/
def FoundIn (fs : FileSystem) (garbage : List UInt8 → Stat) (d src : List UInt8) : Prop :=
  ∃ before name after st, fs.opendir d = some (before ++ name :: after) ∧ src = d ++ name ∧
    verdict fs garbage d before.reverse name = .file st

/-- Each file of the list is what the loop makes of an entry of a directory. -/
theorem newFiles_of {ci : FileInfo} (hslash : ∃ d, lpath = d ++ [47])
    (h : ci ∈ newFiles fs garbage fuel lpath rpath) :
    ∃ d r before name after st, fs.opendir (d ++ [47]) = some (before ++ name :: after) ∧
      verdict fs garbage (d ++ [47]) before.reverse name = .file st ∧
      ci = FileInfo.of (d ++ [47]) r name st := by
  induction fuel generalizing lpath rpath with
  | zero => cases h
  | succ fuel ih =>
    have hhere : ∀ names, fs.opendir lpath = some names →
        ci ∈ filesHere (verdicts fs garbage lpath [] names) lpath rpath →
          ∃ d r before name after st, fs.opendir (d ++ [47]) = some (before ++ name :: after) ∧
            verdict fs garbage (d ++ [47]) before.reverse name = .file st ∧
            ci = FileInfo.of (d ++ [47]) r name st := by
      intro names hopen hmem
      obtain ⟨n, st, hn, hci⟩ := mem_filesHere.mp hmem
      obtain ⟨pre, post, rfl, hv⟩ := mem_verdicts hn
      obtain ⟨d, rfl⟩ := hslash
      exact ⟨d, rpath, pre, n, post, st, hopen, by simpa using hv.symm, hci⟩
    unfold newFiles at h
    cases hopen : fs.opendir lpath with
    | none =>
      rw [localBuildList, hopen] at h
      cases h
    | some names =>
      by_cases hends : ScanEnds (verdicts fs garbage lpath [] names)
      · rw [localBuildList_ends hopen hends] at h
        rcases List.mem_append.mp h with hb | hh
        · obtain ⟨n, -, hn⟩ := mem_filesBelow.mp hb
          exact ih ⟨lpath ++ n, by simp⟩ hn
        · exact hhere names hopen hh
      · rw [localBuildList_stops hopen hends] at h
        exact hhere names hopen h

/-- Each file of the list was found in a directory. -/
theorem newFiles_found {ci : FileInfo} (hslash : ∃ d, lpath = d ++ [47])
    (h : ci ∈ newFiles fs garbage fuel lpath rpath) :
    ∃ d, FoundIn fs garbage (d ++ [47]) ci.src := by
  obtain ⟨d, r, before, name, after, st, hopen, hv, rfl⟩ := newFiles_of hslash h
  exact ⟨d, before, name, after, st, hopen, rfl, hv⟩

/-- Only regular files and links are in the list. -/
theorem newFiles_type {ci : FileInfo} (hslash : ∃ d, lpath = d ++ [47])
    (h : ci ∈ newFiles fs garbage fuel lpath rpath) : S_ISREG ci.mode ∨ S_ISLNK ci.mode := by
  obtain ⟨d, r, before, name, after, st, -, hv, rfl⟩ := newFiles_of hslash h
  show S_ISREG st.mode ∨ S_ISLNK st.mode
  unfold verdict at hv
  split at hv
  · cases hv
  · split at hv
    · cases hv
    · split at hv
      · cases hv
      · split at hv
        · cases hv
        · next hfile =>
          cases hv
          by_cases hr : S_ISREG st.mode
          · exact .inl hr
          · exact .inr (Classical.byContradiction fun hl => hfile ⟨hr, hl⟩)

end Build

end Twm.Adb.PushDir
