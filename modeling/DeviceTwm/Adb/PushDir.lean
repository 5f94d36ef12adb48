import DeviceTwm.Adb.PullDir

/-!
# Pushing a directory

`copy_local_dir_remote` of `file_sync_client.c`: `local_build_list` makes a list of the files below
`lpath`, and `sync_send` sends those that the server does not have yet.

* `FileSystem`: what the local file system answers; it does not change during the push.
* `scanNames`: the loop of `local_build_list` over a directory. One `struct stat` is used for all the
  entries, and what `stat` returns is not looked at: when it fails, the entry before decides
  (`takenForDir`).
* `localBuildList`: the recursion. What the calls for the directories below return is dropped.

Memory does not run out.
-/

open Lib

namespace Twm.Adb.PushDir

/-- `struct stat`, as far as it is used. -/
structure Stat where
  mode : Nat
  mtime : Nat
  size : Nat
  deriving DecidableEq

/-- A local file system. -/
structure FileSystem where
  /-- The names that `readdir` gives; `none`: `opendir` fails. -/
  opendir : List UInt8 → Option (List (List UInt8))
  stat : List UInt8 → Option Stat
  lstat : List UInt8 → Option Stat
  /-- What `sync_send` reads. -/
  file : List UInt8 → LocalFile
  /-- The names in a directory differ. -/
  nodup : ∀ d ns, opendir d = some ns → ns.Nodup
  name : ∀ d ns n, opendir d = some ns → n ∈ ns → 47 ∉ n
  /-- Only a link makes a difference between `stat` and `lstat`. -/
  follow : ∀ p st, lstat p = some st → ¬ S_ISLNK st.mode → stat p = some st
  exists_of_stat : ∀ p, lstat p = none → stat p = none

def PATH_MAX : Nat := 4096

/-- A `copyinfo` of a file. -/
structure FileInfo extends CopyInfo where
  time : Nat
  mode : Nat
  size : Nat
  flag : Bool
  deriving DecidableEq

/-- The `copyinfo` of the file `name`. -/
def FileInfo.of (lpath rpath name : List UInt8) (st : Stat) : FileInfo :=
  ⟨mkcopyinfo lpath rpath name false, st.mtime % 2 ^ 32, st.mode, st.size % 2 ^ 32, false⟩

/-- `.` and `..`. -/
def IsDots (name : List UInt8) : Prop := name = [46] ∨ name = [46, 46]

instance (name : List UInt8) : Decidable (IsDots name) := inferInstanceAs (Decidable (_ ∨ _))

/-! ## The list of files -/

/-- The loop of `local_build_list` over the names, with the `struct stat` as the entries before left
it: whether it gets to the end, `dirlist` and `filelist`. -/
def scanNames (fs : FileSystem) (lpath rpath : List UInt8) :
    List (List UInt8) → Stat → List CopyInfo → List FileInfo → Bool × List CopyInfo × List FileInfo
  | [], _, dirlist, filelist => (true, dirlist, filelist)
  | name :: names, st, dirlist, filelist =>
    if IsDots name then scanNames fs lpath rpath names st dirlist filelist
    else if PATH_MAX < lpath.length + name.length + 1 then
      scanNames fs lpath rpath names st dirlist filelist
    else
      -- `stat` leaves `st` as it is when it fails
      let st := (fs.stat (lpath ++ name)).getD st
      if S_ISDIR st.mode then
        scanNames fs lpath rpath names st (mkcopyinfo lpath rpath name true :: dirlist) filelist
      else
        match fs.lstat (lpath ++ name) with
        | none => (false, dirlist, filelist)
        | some st =>
          if ¬ S_ISREG st.mode ∧ ¬ S_ISLNK st.mode then
            scanNames fs lpath rpath names st dirlist filelist
          else
            scanNames fs lpath rpath names st dirlist (FileInfo.of lpath rpath name st :: filelist)

/-- `local_build_list`, and whether it returns 0; `garbage` is what its `struct stat` holds at first.
Each directory has a longer path than the one it is in, and the path fits in `PATH_MAX`, so fuel of
`PATH_MAX + 1` is enough (`localBuildList_fuel`). -/
def localBuildList (fs : FileSystem) (garbage : List UInt8 → Stat) :
    Nat → List FileInfo → List UInt8 → List UInt8 → Bool × List FileInfo
  | 0, filelist, _, _ => (false, filelist)
  | fuel + 1, filelist, lpath, rpath =>
    match fs.opendir lpath with
    | none => (false, filelist)
    | some names =>
      match scanNames fs lpath rpath names (garbage lpath) [] filelist with
      | (false, _, filelist) => (false, filelist)
      | (true, dirlist, filelist) =>
        (true, dirlist.foldl
          (fun filelist d => (localBuildList fs garbage fuel filelist d.src d.dst).2) filelist)

/-- The list that `copy_local_dir_remote` makes, and whether it goes on. -/
def fileList (fs : FileSystem) (garbage : List UInt8 → Stat) (lpath rpath : List UInt8) :
    Bool × List FileInfo :=
  localBuildList fs garbage (PATH_MAX + 1) [] (withSlash lpath) (withSlash rpath)

/-! ## Sending the files -/

def ID_STAT : Nat := MKID 'S' 'T' 'A' 'T'

/-- The calls of `sync_start_readtime`, and whether they succeed. -/
def syncStartReadtimes : List FileInfo → Conn → Bool × Conn
  | [], c => (true, c)
  | ci :: filelist, c =>
    Conn.andThen (c.writex (msg ID_STAT ci.dst.length)) fun c =>
      Conn.andThen (c.writex ci.dst) fun c => syncStartReadtimes filelist c

/-- `sync_finish_readtime`: the reply, when it is one. -/
def syncFinishReadtime (c : Conn) : Option Stat × Conn :=
  match c.readx (.msg 16) 16 with
  | (none, c) => (none, c)
  | (some m, c) =>
    if word m 0 ≠ ID_STAT then (none, c) else (some ⟨word m 4, word m 12, word m 8⟩, c)

/-- The file that the server has is the same. -/
def FileInfo.Current (ci : FileInfo) (st : Stat) : Prop :=
  st.size = ci.size ∧
    (S_ISREG (ci.mode &&& st.mode) ∧ st.mtime = ci.time ∨
      -- for links, we cannot update the atime/mtime
      S_ISLNK (ci.mode &&& st.mode) ∧ ci.time ≤ st.mtime)

instance (ci : FileInfo) (st : Stat) : Decidable (ci.Current st) :=
  inferInstanceAs (Decidable (_ ∧ _))

/-- The calls of `sync_finish_readtime`: the list with the flags. -/
def syncFinishReadtimes : List FileInfo → Conn → Option (List FileInfo) × Conn
  | [], c => (some [], c)
  | ci :: filelist, c =>
    match syncFinishReadtime c with
    | (none, c) => (none, c)
    | (some st, c) =>
      match syncFinishReadtimes filelist c with
      | (none, c) => (none, c)
      | (some rest, c) => (some ({ ci with flag := decide (ci.Current st) } :: rest), c)

/-- The calls of `sync_send`. -/
def syncSends (w : Nat) (haveSymlinks : Bool) (z : Zipfile) (fs : FileSystem) :
    List FileInfo → Conn → Bool × Conn
  | [], c => (true, c)
  | ci :: filelist, c =>
    if ci.flag then syncSends w haveSymlinks z fs filelist c
    else
      match syncSend w haveSymlinks z (fs.file ci.src) ci.dst ci.time ci.mode false c with
      | (r, c) => if r ≠ 0 then (false, c) else syncSends w haveSymlinks z fs filelist c

/-- What `copy_local_dir_remote` is called with, and the world around it. -/
structure PushCall where
  /-- The width of `size_t`. -/
  width : Nat
  haveSymlinks : Bool
  zip : Zipfile
  conn : Conn
  checktimestamps : Bool
  listonly : Bool

/-- `copy_local_dir_remote`. -/
def copyLocalDirRemote (fs : FileSystem) (garbage : List UInt8 → Stat) (p : PushCall)
    (lpath rpath : List UInt8) : Int :=
  if lpath = [] ∨ rpath = [] then -1
  else
    match fileList fs garbage lpath rpath with
    | (false, _) => -1
    | (true, filelist) =>
      let flagged : Option (List FileInfo) × Conn :=
        if p.checktimestamps then
          match syncStartReadtimes filelist p.conn with
          | (false, c) => (none, c)
          | (true, c) => syncFinishReadtimes filelist c
        else (some filelist, p.conn)
      match flagged with
      | (none, _) => 1
      | (some filelist, c) =>
        if p.listonly then 0
        else if (syncSends p.width p.haveSymlinks p.zip fs filelist c).1 then 0 else 1

/-! ## What the loop makes of an entry -/

section

variable (fs : FileSystem) (garbage : List UInt8 → Stat) (lpath : List UInt8)

/-- The entry is left out. -/
def Skipped (name : List UInt8) : Prop :=
  IsDots name ∨ PATH_MAX < lpath.length + name.length + 1

instance (name : List UInt8) : Decidable (Skipped lpath name) := inferInstanceAs (Decidable (_ ∨ _))

/-- The `struct stat` is that of a directory after the names, the last one first. -/
def afterDir : List (List UInt8) → Bool
  | [] => S_ISDIR (garbage lpath).mode
  | name :: before =>
    if Skipped lpath name then afterDir before
    else
      match fs.stat (lpath ++ name) with
      | some st => S_ISDIR st.mode
      | none => afterDir before

/-- The entry is taken for a directory: it is one, or leads to one; or it leads nowhere, and of those
before it that lead somewhere the last one was. -/
def takenForDir (before : List (List UInt8)) (name : List UInt8) : Bool :=
  match fs.stat (lpath ++ name) with
  | some st => S_ISDIR st.mode
  | none => afterDir fs garbage lpath before

inductive Verdict
  | skip
  | dir
  | file (st : Stat)
  | special
  /-- `lstat` fails, and the loop stops. -/
  | gone
  deriving DecidableEq

def verdict (before : List (List UInt8)) (name : List UInt8) : Verdict :=
  if Skipped lpath name then .skip
  else if takenForDir fs garbage lpath before name then .dir
  else
    match fs.lstat (lpath ++ name) with
    | none => .gone
    | some st => if ¬ S_ISREG st.mode ∧ ¬ S_ISLNK st.mode then .special else .file st

/-- The names and what the loop makes of each, up to where it stops. -/
def verdicts : List (List UInt8) → List (List UInt8) → List (List UInt8 × Verdict)
  | _, [] => []
  | before, name :: names =>
    let v := verdict fs garbage lpath before name
    if v = .gone then [(name, v)] else (name, v) :: verdicts (name :: before) names

end

end Twm.Adb.PushDir
