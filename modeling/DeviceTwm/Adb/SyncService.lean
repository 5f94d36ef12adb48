import DeviceTwm.Adb.SyncClient

/-!
# The sync service

The device side of a push: `file_sync_service` reads a command, `do_send` takes the mode off the
name, and `handle_send_file` or `handle_send_link` receives the data. What the file system of the
device answers is a `Device`.
-/

open Lib

namespace Twm.Adb

def ENOENT : Int := 2
def EEXIST : Int := 17

/-- What the file system answers for one path, once `do_send` has tried to unlink it. An error is
its `errno`. -/
structure DevFile where
  /-- `O_WRONLY | O_CREAT | O_EXCL`. -/
  create : Except Int Unit
  /-- The same after `mkdirs`. -/
  createAgain : Except Int Unit
  /-- `O_WRONLY` on a file that exists: its content. -/
  reopen : Except Int (List UInt8)
  /-- The bytes that can be written to the file, if there is a limit. -/
  disk : Option Nat
  /-- The `errno` of a write that fails. -/
  writeErrno : Int
  symlink : Except Int Unit
  symlinkAgain : Except Int Unit

structure Device where
  file : List UInt8 → DevFile
  strerror : Int → List UInt8
  haveSymlinks : Bool

/-- What is at a path afterwards. -/
inductive Remote
  | file (content : List UInt8)
  | link (target : List UInt8)
  deriving DecidableEq

structure ServeResult where
  ret : Int
  /-- What the command put at its path, `none` if it left nothing there. -/
  remote : Option Remote
  conn : Conn

/-- `fail_message`: whether the message was sent. -/
def failMessage (c : Conn) (reason : List UInt8) : Bool × Conn :=
  Conn.andThen (c.writex (msg ID_FAIL reason.length)) fun c => c.writex reason

def failErrno (dev : Device) (c : Conn) (errno : Int) : Bool × Conn :=
  failMessage c (dev.strerror errno)

/-- The texts of the failures. -/
def reason (s : String) : List UInt8 := s.toUTF8.data.toList

/-! ## `handle_send_file` -/

/-- The three `adb_open_mode` calls: the content of the open file. -/
def openFile (d : DevFile) : Except Int (List UInt8) :=
  let r := match d.create with
    | .error e => if e = ENOENT then d.createAgain else .error e
    | .ok () => .ok ()
  match r with
  | .ok () => .ok []
  | .error e => if e = EEXIST then d.reopen else .error e

/-- An open file: its content when it was opened, and what was written to it since. -/
structure RemoteFd where
  old : List UInt8
  sink : Sink

/-- Writes go over the old content from its start. -/
def RemoteFd.content (f : RemoteFd) : List UInt8 := f.sink.out ++ f.old.drop f.sink.out.length

/-- The end of `handle_send_file` after `ID_DONE`. -/
def finishFile (fd : Option RemoteFd) (c : Conn) : ServeResult :=
  match fd with
  | none => ⟨0, none, c⟩
  | some f =>
    match c.writex (msg ID_OKAY 0) with
    | (false, c) => ⟨-1, some (.file f.content), c⟩
    | (true, c) => ⟨0, some (.file f.content), c⟩

/-- The loop of `handle_send_file`. Every round but the last takes a message from the input. -/
def receiveLoop (dev : Device) (writeErrno : Int) : Nat → Option RemoteFd → Conn → ServeResult
  | 0, _, c => ⟨-1, none, c⟩
  | fuel + 1, fd, c =>
    match c.readx (.msg 8) 8 with
    | (none, c) => ⟨-1, none, c⟩
    | (some m, c) =>
      if word m 0 ≠ ID_DATA then
        if word m 0 = ID_DONE then finishFile fd c
        else ⟨-1, none, (failMessage c (reason "invalid data message")).2⟩
      else if SYNC_DATA_MAX < word m 4 then
        ⟨-1, none, (failMessage c (reason "oversize data message")).2⟩
      else
        match c.readx .data (word m 4) with
        | (none, c) => ⟨-1, none, c⟩
        | (some b, c) =>
          match fd with
          | none => receiveLoop dev writeErrno fuel none c
          | some f =>
            match f.sink.writex b with
            | (true, s) => receiveLoop dev writeErrno fuel (some ⟨f.old, s⟩) c
            | (false, _) =>
              match failErrno dev c writeErrno with
              | (false, c) => ⟨-1, none, c⟩
              | (true, c) => receiveLoop dev writeErrno fuel none c

def handleSendFile (dev : Device) (path : List UInt8) (c : Conn) : ServeResult :=
  let d := dev.file path
  match openFile d with
  | .ok old => receiveLoop dev d.writeErrno (c.inp.length + 1) (some ⟨old, ⟨[], d.disk⟩⟩) c
  | .error e =>
    match failErrno dev c e with
    | (false, c) => ⟨-1, none, c⟩
    | (true, c) => receiveLoop dev d.writeErrno (c.inp.length + 1) none c

/-! ## `handle_send_link` -/

/-- `symlink`, and once more after `mkdirs`. -/
def makeLink (d : DevFile) : Except Int Unit :=
  match d.symlink with
  | .error e => if e = ENOENT then d.symlinkAgain else .error e
  | .ok () => .ok ()

/-- `handle_send_link`; `buffer` is what the buffer held before. -/
def handleSendLink (dev : Device) (buffer path : List UInt8) (c : Conn) : ServeResult :=
  match c.readx (.msg 8) 8 with
  | (none, c) => ⟨-1, none, c⟩
  | (some m, c) =>
    if word m 0 ≠ ID_DATA then
      ⟨-1, none, (failMessage c (reason "invalid data message: expected ID_DATA")).2⟩
    else if SYNC_DATA_MAX < word m 4 then
      ⟨-1, none, (failMessage c (reason "oversize data message")).2⟩
    else
      match c.readx .data (word m 4) with
      | (none, c) => ⟨-1, none, c⟩
      | (some b, c) =>
        let target := cstr (b ++ buffer.drop b.length)
        match makeLink (dev.file path) with
        | .error e => ⟨-1, none, (failErrno dev c e).2⟩
        | .ok () =>
          match c.readx (.msg 8) 8 with
          | (none, c) => ⟨-1, some (.link target), c⟩
          | (some m, c) =>
            if word m 0 = ID_DONE then
              match c.writex (msg ID_OKAY 0) with
              | (false, c) => ⟨-1, some (.link target), c⟩
              | (true, c) => ⟨0, some (.link target), c⟩
            else
              ⟨-1, some (.link target),
                (failMessage c (reason "invalid data message: expected ID_DONE")).2⟩

/-! ## `do_send` -/

/-- `strrchr`: what is before and after the last `ch`. -/
def strrchr (s : List UInt8) (ch : UInt8) : Option (List UInt8 × List UInt8) :=
  let after := s.reverse.takeWhile (· ≠ ch)
  if after.length = s.length then none
  else some ((s.reverse.drop (after.length + 1)).reverse, after.reverse)

/-- The value of a digit of `strtoul`. -/
def digit (b : UInt8) : Option Nat :=
  if 48 ≤ b ∧ b ≤ 57 then some (b.toNat - 48)
  else if 97 ≤ b ∧ b ≤ 122 then some (b.toNat - 87)
  else if 65 ≤ b ∧ b ≤ 90 then some (b.toNat - 55)
  else none

/-- The number that the digits at the start of a string make. -/
def digits (base : Nat) : List UInt8 → Nat → Nat
  | [], n => n
  | b :: s, n =>
    match digit b with
    | none => n
    | some d => if d < base then digits base s (n * base + d) else n

/-- The digits after the sign, by the rules of base 0. -/
def unsignedPart : List UInt8 → Nat
  | 48 :: x :: s =>
    if x = 120 ∨ x = 88 then digits 16 s 0 else digits 8 (x :: s) 0
  | s => digits 10 s 0

/-- The sign at the start: whether it is a minus, and what follows. -/
def signPart : List UInt8 → Bool × List UInt8
  | 45 :: s => (true, s)
  | 43 :: s => (false, s)
  | s => (false, s)

/-- `strtoul` with base 0 on a `long` of 32 bits, and whether it sets `errno`. -/
def strtoul (s : List UInt8) : Nat × Bool :=
  let r := signPart (s.dropWhile fun b => b = 32 ∨ (9 ≤ b ∧ b ≤ 13))
  let n := unsignedPart r.2
  if 2 ^ 32 ≤ n then (2 ^ 32 - 1, true)
  else (if r.1 then (2 ^ 32 - n) % 2 ^ 32 else n, false)

/-- The path of a `SEND` name, and whether its mode is that of a link. -/
def sendTarget (haveSymlinks : Bool) (name : List UInt8) : List UInt8 × Bool :=
  match strrchr name 44 with
  | none => (name, false)
  | some (path, mode) =>
    let (mode, err) := strtoul mode
    (path, decide (haveSymlinks ∧ S_ISLNK mode ∧ err = false))

def doSend (dev : Device) (buffer name : List UInt8) (c : Conn) : ServeResult :=
  let (path, isLink) := sendTarget dev.haveSymlinks name
  if isLink then handleSendLink dev buffer path c else handleSendFile dev path c

/-! ## `file_sync_service` -/

/-- A round of `file_sync_service` up to its `switch`: the command and the name. -/
def readCommand (c : Conn) : Option (Nat × List UInt8) × Conn :=
  match c.readx (.msg 8) 8 with
  | (none, c) => (none, (failMessage c (reason "command read failure")).2)
  | (some m, c) =>
    if 1024 < word m 4 then (none, (failMessage c (reason "invalid namelen")).2)
    else
      match c.readx .path (word m 4) with
      | (none, c) => (none, (failMessage c (reason "filename read failure")).2)
      | (some name, c) => (some (word m 0, cstr name), c)

/-- A round of `file_sync_service` for a `SEND` command; other commands put nothing at a path. -/
def serveSend (dev : Device) (buffer : List UInt8) (c : Conn) : ServeResult :=
  match readCommand c with
  | (none, c) => ⟨-1, none, c⟩
  | (some (id, name), c) =>
    if id = ID_SEND then doSend dev buffer name c else ⟨0, none, c⟩

end Twm.Adb
