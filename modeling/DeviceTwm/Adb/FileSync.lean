import DeviceTwm.Adb.PushDir
import DeviceTwm.Adb.SyncService
import DeviceTwm.Lib.Act

/-!
# The commands of a sync connection

`file_sync_service`: its loop over the commands, with the file system, the buffer and the array `name` that
all commands share. What is read from the connection goes to the buffer, and what is written to a file, sent
or passed to `symlink` comes from there.

* `Os`: the calls to the file system, on any type of its states and of open files.
* `World`: the state of the service; the bytes of the buffer are followed by what comes after it in
  memory.
* `command`: a round of the loop. It gives up when the service ends.
-/

open Lib

namespace Twm.Adb.FileSync

open PushDir (Stat ID_STAT IsDots)

def ID_QUIT : Nat := MKID 'Q' 'U' 'I' 'T'

/-- What one `adb_read` of a file gives. The end of the file comes after the list. -/
inductive ReadResult
  | data (b : List UInt8)
  | eintr
  | error (errno : Int)

/-- The file system: states `φ`, open files `δ`. A call that fails gives its `errno`. -/
structure Os (φ δ : Type) where
  strerror : Int → List UInt8
  lstat : φ → List UInt8 → Option Stat
  /-- `opendir`, and the names that `readdir` gives. -/
  readdir : φ → List UInt8 → Option (List (List UInt8))
  mkdir : List UInt8 → φ → Option Int × φ
  unlink : List UInt8 → φ → Option Int × φ
  /-- `O_WRONLY | O_CREAT | O_EXCL`. -/
  create : List UInt8 → Nat → φ → Except Int δ × φ
  /-- `O_WRONLY`. -/
  reopen : List UInt8 → Nat → φ → Except Int δ × φ
  writex : δ → List UInt8 → φ → Option Int × φ
  close : δ → φ → Option Int × φ
  utime : List UInt8 → Nat → φ → φ
  symlink : List UInt8 → List UInt8 → φ → Option Int × φ
  /-- `O_RDONLY`, and what the reads give. -/
  read : φ → List UInt8 → Except Int (List ReadResult)

structure World (φ : Type) where
  fs : φ
  buffer : List UInt8
  name : List UInt8
  conn : Conn

section

variable {φ δ : Type} (os : Os φ δ)

/-! ## The connection and the memory -/

/-- `readx` of bytes that are looked at as such. -/
def recv (buf : Buf) (n : Nat) : Act (World φ) (List UInt8) := fun w =>
  match w.conn.readx buf n with
  | (none, c) => (none, { w with conn := c })
  | (some b, c) => (some b, { w with conn := c })

/-- `writex` to the connection. -/
def send (b : List UInt8) : Act (World φ) Unit := fun w =>
  match w.conn.writex b with
  | (false, c) => (none, { w with conn := c })
  | (true, c) => (some (), { w with conn := c })

/-- Bytes are put at the start of the buffer. -/
def store (b : List UInt8) : Act (World φ) Unit :=
  .lift fun w => ((), { w with buffer := b ++ w.buffer.drop b.length })

/-- `readx` to the buffer. -/
def recvBuffer (n : Nat) : Act (World φ) Unit := do
  let b ← recv .data n
  store b

/-- The first bytes of the buffer. -/
def bufferBytes (n : Nat) : Act (World φ) (List UInt8) := .lift fun w => (w.buffer.take n, w)

/-- The buffer as a C string. -/
def bufferString : Act (World φ) (List UInt8) := .lift fun w => (cstr w.buffer, w)

/-- Bytes are put at the start of `name`, and a 0 after them. -/
def storeName (b : List UInt8) : Act (World φ) Unit :=
  .lift fun w => ((), { w with name := b ++ 0 :: w.name.drop (b.length + 1) })

/-- The C string in `name`, when bytes were put there. -/
def nameString (b : List UInt8) : Act (World φ) (List UInt8) := do
  storeName b
  .lift fun w => (cstr w.name, w)

/-- A call to the file system. -/
def sys {α : Type} (f : φ → α × φ) : Act (World φ) α :=
  .lift fun w => ((f w.fs).1, { w with fs := (f w.fs).2 })

def failMessage (text : List UInt8) : Act (World φ) Unit := do
  send (msg ID_FAIL text.length)
  send text

def failErrno (errno : Int) : Act (World φ) Unit := failMessage (os.strerror errno)

/-- `fail_message`, and the end of the service. -/
def refuse {α : Type} (text : String) : Act (World φ) α := do
  failMessage (reason text)
  .fail

/-! ## `STAT`, `LIST` and `RECV` -/

/-- The fields of a `syncmsg`. -/
def fields (ns : List Nat) : List UInt8 := ns.flatMap le32

def doStat (path : List UInt8) : Act (World φ) Unit :=
  .reading fun w =>
    match os.lstat w.fs path with
    | none => send (fields [ID_STAT, 0, 0, 0])
    | some st => send (fields [ID_STAT, st.mode, st.size, st.mtime])

def doList (path : List UInt8) : Act (World φ) Unit :=
  .reading fun w => do
    match os.readdir w.fs path with
    | none => pure ()
    | some names => names.forM fun name =>
        if 256 < name.length then pure ()
        else
          match os.lstat w.fs (path ++ 47 :: name) with
          | none => pure ()
          | some st => do
            send (fields [ID_DENT, st.mode, st.size, st.mtime, name.length])
            send name
    send (fields [ID_DONE, 0, 0, 0, 0])

/-- The loop of `do_recv`. -/
def recvFile : List ReadResult → Act (World φ) Unit
  | [] => send (msg ID_DONE 0)
  | .data b :: rs => do
    store b
    send (msg ID_DATA b.length)
    let out ← bufferBytes b.length
    send out
    recvFile rs
  | .eintr :: rs => recvFile rs
  | .error e :: _ => failErrno os e

def doRecv (path : List UInt8) : Act (World φ) Unit :=
  .reading fun w =>
    match os.read w.fs path with
    | .error e => failErrno os e
    | .ok rs => recvFile os rs

/-! ## `SEND` -/

/-- `mkdirs`, at the byte after `before`. -/
def mkdirsFrom : List UInt8 → List UInt8 → φ → φ
  | _, [], fs => fs
  | before, b :: rest, fs =>
    if b = 47 then
      match os.mkdir before fs with
      | (none, fs) => mkdirsFrom (before ++ [b]) rest fs
      | (some e, fs) => if e = EEXIST then mkdirsFrom (before ++ [b]) rest fs else fs
    else mkdirsFrom (before ++ [b]) rest fs

def mkdirs (path : List UInt8) (fs : φ) : φ :=
  if path.head? = some 47 then mkdirsFrom os [47] path.tail fs else fs

/-- The calls of `adb_open_mode` in `handle_send_file`. -/
def openFile (path : List UInt8) (mode : Nat) (fs : φ) : Except Int δ × φ :=
  let r :=
    match os.create path mode fs with
    | (.error e, fs) => if e = ENOENT then os.create path mode (mkdirs os path fs) else (.error e, fs)
    | r => r
  match r with
  | (.error e, fs) => if e = EEXIST then os.reopen path mode fs else (.error e, fs)
  | r => r

/-- The file is closed and unlinked: the `errno` that is left, if one of the calls fails. -/
def discard (fd : Option δ) (path : List UInt8) (fs : φ) : Option Int × φ :=
  let r := match fd with
    | none => (none, fs)
    | some d => os.close d fs
  let r' := os.unlink path r.2
  (r'.1.or r.1, r'.2)

/-- `fail` of `handle_send_file`. -/
def abandon {α : Type} (fd : Option δ) (path : List UInt8) : Act (World φ) α := do
  let _ ← sys (discard os fd path)
  .fail

/-- The loop of `handle_send_file`, up to `ID_DONE`: the file that is open then, and the time. Every round
takes a message from the input. -/
def receiveLoop (path : List UInt8) : Nat → Option δ → Act (World φ) (Option δ × Nat)
  | 0, fd => abandon os fd path
  | fuel + 1, fd => do
    let m ← (recv (.msg 8) 8).onFail (abandon (α := Unit) os fd path)
    if word m 0 ≠ ID_DATA then
      if word m 0 = ID_DONE then pure (fd, word m 4)
      else
        let _ ← (failMessage (reason "invalid data message")).attempt
        abandon os fd path
    else if SYNC_DATA_MAX < word m 4 then
      let _ ← (failMessage (reason "oversize data message")).attempt
      abandon os fd path
    else
      (recvBuffer (word m 4)).onFail (abandon (α := Unit) os fd path)
      match fd with
      | none => receiveLoop path fuel none
      | some d =>
        let b ← bufferBytes (word m 4)
        match ← sys (os.writex d b) with
        | none => receiveLoop path fuel (some d)
        | some e =>
          let e' ← sys (discard os (some d) path)
          failErrno os (e'.getD e)
          receiveLoop path fuel none

/-- The start of `handle_send_file`. A file that cannot be opened is reported, and its data is read. -/
def openRemote (path : List UInt8) (mode : Nat) : Act (World φ) (Option δ) := do
  match ← sys (openFile os path mode) with
  | .ok d => pure (some d)
  | .error e =>
    failErrno os e
    pure none

def handleSendFile (path : List UInt8) (mode : Nat) : Act (World φ) Unit := do
  let fd ← openRemote os path mode
  let (fd, timestamp) ← .reading fun w => receiveLoop os path (w.conn.inp.length + 1) fd
  match fd with
  | none => pure ()
  | some d =>
    let _ ← sys (os.close d)
    sys fun fs => ((), os.utime path timestamp fs)
    send (msg ID_OKAY 0)

/-- `symlink`, and once more after `mkdirs`. -/
def makeLink (target path : List UInt8) (fs : φ) : Option Int × φ :=
  match os.symlink target path fs with
  | (some e, fs) =>
    if e = ENOENT then os.symlink target path (mkdirs os path fs) else (some e, fs)
  | r => r

/-- The rest of `handle_send_link`, after `symlink`. -/
def finishLink : Option Int → Act (World φ) Unit
  | some e => do
    failErrno os e
    .fail
  | none => do
    let m ← recv (.msg 8) 8
    if word m 0 = ID_DONE then send (msg ID_OKAY 0)
    else refuse "invalid data message: expected ID_DONE"

def handleSendLink (path : List UInt8) : Act (World φ) Unit := do
  let m ← recv (.msg 8) 8
  if word m 0 ≠ ID_DATA then refuse "invalid data message: expected ID_DATA"
  else if SYNC_DATA_MAX < word m 4 then refuse "oversize data message"
  else
    recvBuffer (word m 4)
    let target ← bufferString
    let r ← sys (makeLink os target path)
    finishLink os r

/-- The path, the permissions and whether it is a link, from the name of a `SEND`. -/
def sendArgs (haveSymlinks : Bool) (name : List UInt8) : List UInt8 × Nat × Bool :=
  match strrchr name 44 with
  | none => (name, 0o644, false)
  | some (path, text) =>
    let (mode, err) := strtoul text
    if err then (path, 0o644, false)
    else (path, mode &&& 0o777, decide (haveSymlinks ∧ S_ISLNK mode))

/-- The permissions of the user are copied to the group and to others. -/
def copyBits (mode : Nat) : Nat :=
  let mode := mode ||| (mode >>> 3 &&& 0o070)
  mode ||| (mode >>> 3 &&& 0o007)

def doSend (haveSymlinks : Bool) (name : List UInt8) : Act (World φ) Unit := do
  let (path, mode, isLink) := sendArgs haveSymlinks name
  -- the comma is overwritten
  if path.length < name.length then storeName path
  let _ ← sys (os.unlink path)
  if isLink then handleSendLink os path else handleSendFile os path (copyBits mode)

/-! ## `file_sync_service` -/

/-- The `switch` of `file_sync_service`. -/
def dispatch (haveSymlinks : Bool) (id : Nat) (name : List UInt8) : Act (World φ) Unit :=
  if id = ID_STAT then doStat os name
  else if id = ID_LIST then doList os name
  else if id = ID_SEND then doSend os haveSymlinks name
  else if id = ID_RECV then doRecv os name
  else if id = ID_QUIT then .fail
  else refuse "unknown command"

/-- A round of the loop. -/
def command (haveSymlinks : Bool) : Act (World φ) Unit := do
  let m ← (recv (.msg 8) 8).onFail (failMessage (reason "command read failure"))
  if 1024 < word m 4 then refuse "invalid namelen"
  else
    let b ← (recv .path (word m 4)).onFail (failMessage (reason "filename read failure"))
    let name ← nameString b
    dispatch os haveSymlinks (word m 0) name

/-- The first rounds of the loop. -/
def commands (haveSymlinks : Bool) : Nat → Act (World φ) Unit
  | 0 => pure ()
  | n + 1 => do
    command os haveSymlinks
    commands haveSymlinks n

end

/-- The target of the path and whether it is a link are as in `doSend` of the service for one file. -/
theorem sendArgs_target (haveSymlinks : Bool) (name : List UInt8) :
    ((sendArgs haveSymlinks name).1, (sendArgs haveSymlinks name).2.2) =
      sendTarget haveSymlinks name := by
  unfold sendArgs sendTarget
  cases strrchr name 44 with
  | none => rfl
  | some r =>
    obtain ⟨path, text⟩ := r
    dsimp only
    cases (strtoul text).2 <;> simp

end Twm.Adb.FileSync
