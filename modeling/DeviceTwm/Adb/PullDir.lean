import DeviceTwm.Adb.SyncClient

/-!
# Pulling a directory

`copy_remote_dir_local` of `file_sync_client.c`: `remote_build_list` asks the server for the
directories below `rpath` and makes a list of the files, and `sync_recv` fetches them one by one.

* `remoteBuildList`: the listing, over a connection.
* `copyFiles`: the files and directories that the pull makes; what the server replies to the requests
  and what the local file system does is a `Pull`.
* `listed`: the names on the way to each file, as the server lists them; `remoteBuildList_eq` says
  that the paths are made of these.
-/

open Lib

namespace Twm.Adb

def S_ISDIR (mode : Nat) : Prop := fileType mode = 0o040000

instance (mode : Nat) : Decidable (S_ISDIR mode) := inferInstanceAs (Decidable (_ = _))

/-- `copyinfo`: where a file comes from and where it goes. -/
structure CopyInfo where
  src : List UInt8
  dst : List UInt8
  deriving DecidableEq

def mkcopyinfo (spath dpath name : List UInt8) (isdir : Bool) : CopyInfo :=
  let tail : List UInt8 := if isdir then name ++ [47] else name
  ⟨spath ++ tail, dpath ++ tail⟩

/-- An entry that is listed or fetched: not `.` or `..`, and not a special file. -/
inductive Entry
  | dir (name : List UInt8)
  | file (name : List UInt8)
  | skip

/-- The cases of `sync_ls_build_list_cb`. -/
def Dent.entry (e : Dent) : Entry :=
  if S_ISDIR e.mode then
    -- Don't try recursing down "." or ".."
    if e.name = [46] ∨ e.name = [46, 46] then .skip else .dir e.name
  else if S_ISREG e.mode ∨ S_ISLNK e.mode then .file e.name
  else .skip

/-- `sync_ls_build_list_cb` on the lists of files and of directories. -/
def syncLsBuildListCb (rpath lpath : List UInt8) (lists : List CopyInfo × List CopyInfo) (e : Dent) :
    List CopyInfo × List CopyInfo :=
  match e.entry with
  | .dir name => (lists.1, mkcopyinfo rpath lpath name true :: lists.2)
  | .file name => (mkcopyinfo rpath lpath name false :: lists.1, lists.2)
  | .skip => lists

/-- The recursion of `remote_build_list` into the directories of `dirlist`. -/
def buildDirs (build : Conn → List CopyInfo → List UInt8 → List UInt8 → Option (List CopyInfo) × Conn) :
    List CopyInfo → Conn → List CopyInfo → Option (List CopyInfo) × Conn
  | [], c, filelist => (some filelist, c)
  | d :: dirlist, c, filelist =>
    match build c filelist d.src d.dst with
    | (none, c) => (none, c)
    | (some filelist, c) => buildDirs build dirlist c filelist

/-- `remote_build_list`; `none`: it returns 1. Every directory has a longer path than the one it is
in, and a path of more than 1024 bytes is not listed, so fuel of 1025 is enough
(`remoteBuildList_fuel`). -/
def remoteBuildList (w : Nat) :
    Nat → Conn → List CopyInfo → List UInt8 → List UInt8 → Option (List CopyInfo) × Conn
  | 0, c, _, _, _ => (none, c)
  | fuel + 1, c, filelist, rpath, lpath =>
    let r := syncLs w rpath c
    if r.ret ≠ 0 then (none, r.conn)
    else
      let lists := r.entries.foldl (syncLsBuildListCb rpath lpath) (filelist, [])
      buildDirs (remoteBuildList w fuel) lists.2 r.conn lists.1

/-! ## Fetching the files -/

/-- What `adb_mkdir` does. -/
inductive Mkdir
  | made
  /-- `EEXIST`. -/
  | existed
  | failed
  deriving DecidableEq

/-- The request for one file. -/
structure Fetch where
  /-- The reply starts with `DATA` or `DONE`. -/
  accepted : Bool
  /-- `adb_creat` succeeds. -/
  created : Bool
  /-- `sync_recv` returns 0. -/
  done : Bool

/-- What happens in a pull: the request for each file, and each `adb_mkdir`. -/
structure Pull where
  fetch : Nat → Fetch
  mkdir : Nat → List UInt8 → Mkdir

/-- `mkdirs`, at the byte after `before`: the directories that it makes. `adb_dirstart` looks for `/`
only, as on the Unix side of `sysdeps.h`. -/
def mkdirs (mkdir : List UInt8 → Mkdir) : List UInt8 → List UInt8 → List (List UInt8)
  | _, [] => []
  | before, b :: rest =>
    if b = 47 then
      match mkdir before with
      | .made => before :: mkdirs mkdir (before ++ [b]) rest
      | .existed => mkdirs mkdir (before ++ [b]) rest
      | .failed => []
    else mkdirs mkdir (before ++ [b]) rest

/-- What `sync_recv` opens or makes for one file, once the reply is there. -/
def openLocal (mkdir : List UInt8 → Mkdir) (created : Bool) (lpath : List UInt8) : List (List UInt8) :=
  mkdirs mkdir (lpath.take 1) (lpath.drop 1) ++ if created then [lpath] else []

/-- The loop of `copy_remote_dir_local` over the files, from number `n` on. -/
def copyFiles (p : Pull) : Nat → List CopyInfo → List (List UInt8)
  | _, [] => []
  | n, ci :: filelist =>
    if 1024 < ci.src.length then []
    else
      let f := p.fetch n
      let rest := copyFiles p (n + 1) filelist
      if f.accepted then
        openLocal (p.mkdir n) f.created ci.dst ++ if f.created ∧ f.done then rest else []
      else if f.done then rest
      else []

/-- The path, with a slash at its end. -/
def withSlash (path : List UInt8) : List UInt8 :=
  if path.getLast? = some 47 then path else path ++ [47]

/-- The paths that `copy_remote_dir_local` opens for writing or makes. -/
def copyRemoteDirLocal (w : Nat) (p : Pull) (c : Conn) (rpath lpath : List UInt8) :
    List (List UInt8) :=
  if rpath = [] ∨ lpath = [] then []
  else
    match (remoteBuildList w 1025 c [] (withSlash rpath) (withSlash lpath)).1 with
    | none => []
    | some filelist => copyFiles p 0 filelist

/-! ## What the server lists -/

/-- The names of the files of a listing, in the order in which they are fetched. -/
def fileNames (es : List Dent) : List (List UInt8) :=
  (es.filterMap fun e => match e.entry with | .file name => some name | _ => none).reverse

/-- The names of the directories of a listing, in the order in which they are listed. -/
def dirNames (es : List Dent) : List (List UInt8) :=
  (es.filterMap fun e => match e.entry with | .dir name => some name | _ => none).reverse

/-- The names on the way to the files below each directory. -/
def listedDirs (below : Conn → List UInt8 → Option (List (List (List UInt8))) × Conn)
    (rpath : List UInt8) : List (List UInt8) → Conn → List (List (List UInt8)) →
      Option (List (List (List UInt8))) × Conn
  | [], c, files => (some files, c)
  | d :: ds, c, files =>
    match below c (rpath ++ (d ++ [47])) with
    | (none, c) => (none, c)
    | (some sub, c) => listedDirs below rpath ds c (sub.map (d :: ·) ++ files)

/-- The names on the way to each file below `rpath`, in the order in which the files are fetched;
`none`: a listing failed. -/
def listed (w : Nat) : Nat → Conn → List UInt8 → Option (List (List (List UInt8))) × Conn
  | 0, c, _ => (none, c)
  | fuel + 1, c, rpath =>
    let r := syncLs w rpath c
    if r.ret ≠ 0 then (none, r.conn)
    else listedDirs (listed w fuel) rpath (dirNames r.entries) r.conn ((fileNames r.entries).map ([·]))

/-- The path of a file below a directory. -/
def joinNames (ns : List (List UInt8)) : List UInt8 := [47].intercalate ns

/-- The file that is reached by the names. -/
def CopyInfo.ofNames (rpath lpath : List UInt8) (ns : List (List UInt8)) : CopyInfo :=
  ⟨rpath ++ joinNames ns, lpath ++ joinNames ns⟩

theorem joinNames_cons {n : List UInt8} {ns : List (List UInt8)} (h : ns ≠ []) :
    joinNames (n :: ns) = n ++ [47] ++ joinNames ns := by
  obtain ⟨m, ms, rfl⟩ := List.exists_cons_of_ne_nil h
  simp [joinNames]

theorem ofNames_cons (rpath lpath d : List UInt8) {ns : List (List UInt8)} (h : ns ≠ []) :
    CopyInfo.ofNames (rpath ++ (d ++ [47])) (lpath ++ (d ++ [47])) ns =
      CopyInfo.ofNames rpath lpath (d :: ns) := by
  simp [CopyInfo.ofNames, joinNames_cons h]

/-- The lists that `sync_ls` leaves. -/
theorem foldl_syncLsBuildListCb (rpath lpath : List UInt8) (es : List Dent)
    (lists : List CopyInfo × List CopyInfo) :
    es.foldl (syncLsBuildListCb rpath lpath) lists =
      ((fileNames es).map (mkcopyinfo rpath lpath · false) ++ lists.1,
        (dirNames es).map (mkcopyinfo rpath lpath · true) ++ lists.2) := by
  induction es generalizing lists with
  | nil => rfl
  | cons e es ih =>
    rw [List.foldl_cons, ih]
    unfold syncLsBuildListCb fileNames dirNames
    cases he : e.entry <;> simp [he]

section

variable {build : Conn → List CopyInfo → List UInt8 → List UInt8 → Option (List CopyInfo) × Conn}
  {below : Conn → List UInt8 → Option (List (List (List UInt8))) × Conn}

/-- No file is reached by no names. -/
def Named (o : Option (List (List (List UInt8)))) : Prop := ∀ nss, o = some nss → [] ∉ nss

theorem listedDirs_named (rpath : List UInt8) (ds : List (List UInt8)) (c : Conn)
    {files : List (List (List UInt8))} (hfiles : [] ∉ files) :
    Named (listedDirs below rpath ds c files).1 := by
  induction ds generalizing c files with
  | nil =>
    intro nss h
    cases h
    exact hfiles
  | cons d ds ih =>
    unfold listedDirs
    rcases below c (rpath ++ (d ++ [47])) with ⟨o, c'⟩
    cases o with
    | none =>
      intro nss h
      cases h
    | some sub =>
      apply ih
      simp [hfiles]

/-- The recursion adds the files below the directories. -/
theorem buildDirs_eq (hbelow : ∀ c rpath, Named (below c rpath).1)
    (hbuild : ∀ c filelist rpath lpath, build c filelist rpath lpath =
      ((below c rpath).1.map fun nss => nss.map (CopyInfo.ofNames rpath lpath) ++ filelist,
        (below c rpath).2))
    (rpath lpath : List UInt8) (ds : List (List UInt8)) (c : Conn) (files : List (List (List UInt8)))
    (filelist : List CopyInfo) :
    buildDirs build (ds.map (mkcopyinfo rpath lpath · true)) c
        (files.map (CopyInfo.ofNames rpath lpath) ++ filelist) =
      ((listedDirs below rpath ds c files).1.map fun nss =>
          nss.map (CopyInfo.ofNames rpath lpath) ++ filelist,
        (listedDirs below rpath ds c files).2) := by
  induction ds generalizing c files with
  | nil => rfl
  | cons d ds ih =>
    have hnamed := hbelow c (rpath ++ (d ++ [47]))
    have hd := hbuild c (files.map (CopyInfo.ofNames rpath lpath) ++ filelist) (rpath ++ (d ++ [47]))
      (lpath ++ (d ++ [47]))
    unfold listedDirs
    rw [List.map_cons, buildDirs]
    simp only [mkcopyinfo, if_true]
    rw [hd]
    rcases hb : below c (rpath ++ (d ++ [47])) with ⟨o, c'⟩
    rw [hb] at hnamed
    cases o with
    | none => rfl
    | some sub =>
      have hsub : sub.map (CopyInfo.ofNames (rpath ++ (d ++ [47])) (lpath ++ (d ++ [47]))) =
          (sub.map (d :: ·)).map (CopyInfo.ofNames rpath lpath) := by
        rw [List.map_map]
        apply List.map_congr_left
        intro ns hns
        have hne : ns ≠ [] := by
          rintro rfl
          exact hnamed sub rfl hns
        exact ofNames_cons rpath lpath d hne
      have ih' := ih c' (sub.map (d :: ·) ++ files)
      rw [List.map_append, List.append_assoc, ← hsub] at ih'
      exact ih'

end

theorem listed_named (w fuel : Nat) (c : Conn) (rpath : List UInt8) :
    Named (listed w fuel c rpath).1 := by
  cases fuel with
  | zero =>
    intro nss h
    cases h
  | succ fuel =>
    unfold listed
    dsimp only
    split
    · intro nss h
      cases h
    · exact listedDirs_named rpath _ _ (by simp)

/-- The paths are made of the names that the server lists. -/
theorem remoteBuildList_eq (w fuel : Nat) (c : Conn) (filelist : List CopyInfo)
    (rpath lpath : List UInt8) :
    remoteBuildList w fuel c filelist rpath lpath =
      ((listed w fuel c rpath).1.map fun nss => nss.map (CopyInfo.ofNames rpath lpath) ++ filelist,
        (listed w fuel c rpath).2) := by
  induction fuel generalizing c filelist rpath lpath with
  | zero => rfl
  | succ fuel ih =>
    unfold remoteBuildList listed
    dsimp only
    split
    · rfl
    · rw [foldl_syncLsBuildListCb]
      dsimp only
      rw [List.append_nil]
      have hfiles : (fileNames (syncLs w rpath c).entries).map (mkcopyinfo rpath lpath · false) =
          ((fileNames (syncLs w rpath c).entries).map ([·])).map (CopyInfo.ofNames rpath lpath) := by
        simp [List.map_map, Function.comp_def, mkcopyinfo, CopyInfo.ofNames, joinNames]
      rw [hfiles]
      exact buildDirs_eq (listed_named w fuel) ih rpath lpath _ _ _ filelist

/-- A directory with a long path is not listed. -/
theorem listed_of_long (w fuel : Nat) (c : Conn) {rpath : List UInt8} (h : 1024 < rpath.length) :
    listed w fuel c rpath = (none, c) := by
  cases fuel with
  | zero => rfl
  | succ fuel => simp [listed, syncLs, h]

/-- More fuel than the path leaves room for does not change the listing. -/
theorem remoteBuildList_fuel (w fuel : Nat) (c : Conn) (filelist : List CopyInfo)
    (rpath lpath : List UInt8) (h : 1025 ≤ fuel + rpath.length) :
    remoteBuildList w (fuel + 1) c filelist rpath lpath =
      remoteBuildList w fuel c filelist rpath lpath := by
  rw [remoteBuildList_eq, remoteBuildList_eq]
  have hlisted : ∀ fuel c (rpath : List UInt8), 1025 ≤ fuel + rpath.length →
      listed w (fuel + 1) c rpath = listed w fuel c rpath := by
    intro fuel
    induction fuel with
    | zero =>
      intro c rpath h
      rw [listed_of_long w _ c (by omega), listed_of_long w _ c (by omega)]
    | succ fuel ih =>
      intro c rpath h
      have hdirs : ∀ ds c files, listedDirs (listed w (fuel + 1)) rpath ds c files =
          listedDirs (listed w fuel) rpath ds c files := by
        intro ds
        induction ds with
        | nil => intro c files; rfl
        | cons d ds ihd =>
          intro c files
          unfold listedDirs
          rw [ih c (rpath ++ (d ++ [47])) (by simp; omega)]
          split
          · rfl
          · exact ihd _ _
      conv => lhs; unfold listed
      conv => rhs; unfold listed
      dsimp only
      rw [hdirs]
  rw [hlisted fuel c rpath h]

end Twm.Adb
