import DeviceTwm.Adb.SyncConn
import Mathlib.Data.Nat.Digits.Defs

/-!
# The sync client

`sync_ls`, `sync_recv` and `sync_send` of `file_sync_client.c`, over a connection (`Conn`) and what
the local file system answers. The width `w` is that of `size_t`: a length field is stored to an
`int` and passed to `readx` as a `size_t`.
-/

open Lib

namespace Twm.Adb

/-- A C string in a buffer. -/
def cstr (b : List UInt8) : List UInt8 := b.takeWhile (· ≠ 0)

/-! ## `sync_ls` -/

/-- What `sync_ls` passes to its callback. -/
structure Dent where
  mode : Nat
  size : Nat
  time : Nat
  name : List UInt8
  deriving DecidableEq

structure LsResult where
  ret : Int
  entries : List Dent
  conn : Conn

/-- The loop of `sync_ls`. Every round but the last takes a message from the input, so fuel of the
length of the input is enough. -/
def syncLsLoop (w : Nat) : Nat → Conn → List Dent → LsResult
  | 0, c, es => ⟨-1, es, c⟩
  | fuel + 1, c, es =>
    match c.readx (.msg 20) 20 with
    | (none, c) => ⟨-1, es, c⟩
    | (some m, c) =>
      if word m 0 = ID_DONE then ⟨0, es, c⟩
      else if word m 0 ≠ ID_DENT then ⟨-1, es, c⟩
      else
        let len := int (word m 16)
        if 256 < len then ⟨-1, es, c⟩
        else
          match c.readx .name (sizeT w len) with
          | (none, c) => ⟨-1, es, c⟩
          | (some name, c) =>
            syncLsLoop w fuel c (es ++ [⟨word m 4, word m 8, word m 12, cstr name⟩])

def syncLs (w : Nat) (path : List UInt8) (c : Conn) : LsResult :=
  if 1024 < path.length then ⟨-1, [], c⟩
  else
    match c.writex (msg ID_LIST path.length) with
    | (false, c) => ⟨-1, [], c⟩
    | (true, c) =>
      match c.writex path with
      | (false, c) => ⟨-1, [], c⟩
      | (true, c) => syncLsLoop w (c.inp.length + 1) c []

/-! ## `sync_recv` -/

structure RecvResult where
  ret : Int
  /-- The local file, if the call leaves one. -/
  file : Option (List UInt8)
  /-- The reason printed after `failed to copy`. -/
  reason : Option (List UInt8)
  conn : Conn

/-- `remote_error` of `sync_recv`, on the message `m`; the local file is unlinked. -/
def remoteError (w : Nat) (m : List UInt8) (c : Conn) : RecvResult :=
  if word m 0 = ID_FAIL then
    let len := int (word m 4)
    let len := if 256 < len then 256 else len
    match c.readx .message (sizeT w len) with
    | (none, c) => ⟨-1, none, none, c⟩
    | (some text, c) => ⟨0, none, some (cstr text), c⟩
  else ⟨0, none, some (cstr (m.take 4)), c⟩

/-- The loop of `sync_recv`, from `handle_data` on: `m` is the message just read. -/
def syncRecvLoop (w : Nat) : Nat → List UInt8 → Sink → Conn → RecvResult
  | 0, _, lfd, c => ⟨-1, some lfd.out, none, c⟩
  | fuel + 1, m, lfd, c =>
    let len := int (word m 4)
    if word m 0 = ID_DONE then ⟨0, some lfd.out, none, c⟩
    else if word m 0 ≠ ID_DATA then remoteError w m c
    else if SYNC_DATA_MAX < len then ⟨-1, some lfd.out, none, c⟩
    else
      match c.readx .data (sizeT w len) with
      | (none, c) => ⟨-1, some lfd.out, none, c⟩
      | (some b, c) =>
        match lfd.writex b with
        | (false, lfd) => ⟨-1, some lfd.out, none, c⟩
        | (true, lfd) =>
          match c.readx (.msg 8) 8 with
          | (none, c) => ⟨-1, some lfd.out, none, c⟩
          | (some m, c) => syncRecvLoop w fuel m lfd c

/-- `sync_recv`; `creat` is the new local file, if it can be created. -/
def syncRecv (w : Nat) (rpath : List UInt8) (creat : Option Sink) (c : Conn) : RecvResult :=
  if 1024 < rpath.length then ⟨-1, none, none, c⟩
  else
    match c.writex (msg ID_RECV rpath.length) with
    | (false, c) => ⟨-1, none, none, c⟩
    | (true, c) =>
      match c.writex rpath with
      | (false, c) => ⟨-1, none, none, c⟩
      | (true, c) =>
        match c.readx (.msg 8) 8 with
        | (none, c) => ⟨-1, none, none, c⟩
        | (some m, c) =>
          if word m 0 = ID_DATA ∨ word m 0 = ID_DONE then
            match creat with
            | none => ⟨-1, none, none, c⟩
            | some lfd => syncRecvLoop w (c.inp.length + 1) m lfd c
          else remoteError w m c

/-! ## `sync_send` -/

/-- What one `adb_read` of the local file gives. The end of the file comes after the list. -/
inductive ReadResult
  | data (b : List UInt8)
  | eintr
  | error
  deriving DecidableEq

/-- What the local file system answers for `lpath`. -/
structure LocalFile where
  openOk : Bool
  /-- The reads of `write_data_file`, up to the end of the file. -/
  reads : List ReadResult
  /-- What `readlink` gives. -/
  link : Option (List UInt8)
  /-- The results of the calls for `verifyApk`: `lseek` to the end, if it succeeds, and back, `malloc`,
  `adb_read` and what it put in the buffer. -/
  seekEnd : Option Nat
  rewindOk : Bool
  mallocOk : Bool
  amt : Int
  buffer : List UInt8
  /-- What the file holds when it is read into memory. -/
  file : List UInt8
  /-- A read gives some bytes, as many as it asked for at most. -/
  chunk : ∀ b, .data b ∈ reads → 0 < b.length ∧ b.length ≤ SYNC_DATA_MAX
  /-- A link target has no 0, and `readlink` cuts it to its buffer. -/
  target : ∀ t, link = some t → 0 ∉ t ∧ t.length < SYNC_DATA_MAX
  buffered : -1 ≤ amt ∧ buffer.length = amt.toNat ∧ buffer <+: file

/-- The `size` of `sync_send`: `adb_lseek` returns an `int`. -/
def LocalFile.size (l : LocalFile) : Int :=
  match l.seekEnd with
  | none => -1
  | some n => int n

/-! An empty file, with no reads, no link and no buffer. -/

theorem LocalFile.no_chunk (b : List UInt8) (h : .data b ∈ ([] : List ReadResult)) :
    0 < b.length ∧ b.length ≤ SYNC_DATA_MAX := nomatch h

theorem LocalFile.no_target (t : List UInt8) (h : none = some t) :
    0 ∉ t ∧ t.length < SYNC_DATA_MAX := nomatch h

theorem LocalFile.no_buffer :
    -1 ≤ (0 : Int) ∧ ([] : List UInt8).length = (0 : Int).toNat ∧ [] <+: ([] : List UInt8) :=
  ⟨by decide, rfl, List.nil_prefix⟩

/-- The `zipfile` library: whether the bytes are a zip file, and whether it has the entry
`AndroidManifest.xml`. -/
structure Zipfile where
  initZipfile : List UInt8 → Bool
  hasManifest : List UInt8 → Bool

/-- The read loop of `write_data_file`. A read that fails ends it without an error. -/
def writeDataReads : List ReadResult → Conn → Int × Conn
  | [], c => (0, c)
  | .eintr :: rs, c => writeDataReads rs c
  | .error :: _, c => (0, c)
  | .data b :: rs, c =>
    match c.writex (msg ID_DATA b.length ++ b) with
    | (false, c) => (-1, c)
    | (true, c) => writeDataReads rs c

def writeDataFile (l : LocalFile) (c : Conn) : Int × Conn :=
  if ¬ l.openOk then (-1, c) else writeDataReads l.reads c

/-- The loop of `write_data_buffer` over the bytes that are left. -/
def writeDataBuffer : Nat → List UInt8 → Conn → Int × Conn
  | 0, _, c => (0, c)
  | fuel + 1, b, c =>
    if b = [] then (0, c)
    else
      let chunk := b.take SYNC_DATA_MAX
      match c.writex (msg ID_DATA chunk.length ++ chunk) with
      | (false, c) => (-1, c)
      | (true, c) => writeDataBuffer fuel (b.drop SYNC_DATA_MAX) c

def writeDataLink (l : LocalFile) (c : Conn) : Int × Conn :=
  match l.link with
  | none => (-1, c)
  | some target =>
    match c.writex (msg ID_DATA (target.length + 1) ++ (target ++ [0])) with
    | (false, c) => (-1, c)
    | (true, c) => (0, c)

/-- The part of `sync_send` that reads the reply. -/
def syncSendReply (w : Nat) (c : Conn) : Int × Conn :=
  match c.readx (.msg 8) 8 with
  | (none, c) => (-1, c)
  | (some m, c) =>
    if word m 0 ≠ ID_OKAY then
      if word m 0 = ID_FAIL then
        let len := int (word m 4)
        let len := if 256 < len then 256 else len
        (-1, (c.readx .message (sizeT w len)).2)
      else (-1, c)
    else (0, c)

/-- The file type bits of a mode. -/
def fileType (mode : Nat) : Nat := mode &&& 0o170000

def S_ISREG (mode : Nat) : Prop := fileType mode = 0o100000
def S_ISLNK (mode : Nat) : Prop := fileType mode = 0o120000

instance (mode : Nat) : Decidable (S_ISREG mode) := inferInstanceAs (Decidable (_ = _))
instance (mode : Nat) : Decidable (S_ISLNK mode) := inferInstanceAs (Decidable (_ = _))

/-- `%d` of a number that is not negative. -/
def decimal (n : Nat) : List UInt8 :=
  if n = 0 then [48] else (Nat.digits 10 n).reverse.map fun d => UInt8.ofNat (48 + d)

/-- `%d` of an `unsigned`, which is taken for an `int`. -/
def decimalInt (n : Nat) : List UInt8 := if n < 2 ^ 31 then decimal n else 45 :: decimal (2 ^ 32 - n)

/-- The part of `sync_send` for `verifyApk`: the file in memory, or the code it returns. -/
def loadApk (z : Zipfile) (l : LocalFile) : Except Int (List UInt8) :=
  if ¬ l.openOk then .error (-1)
  else if l.size = -1 ∨ ¬ l.rewindOk then .error 1
  else if ¬ l.mallocOk then .error 1
  else if l.amt ≠ l.size then .error 1
  else if ¬ z.initZipfile l.buffer then .error 1
  else if ¬ z.hasManifest l.buffer then .error 1
  else .ok l.buffer

/-- The request of `sync_send`. -/
def sendRequest (rpath : List UInt8) (mode : Nat) (c : Conn) : Bool × Conn :=
  let tmp := (44 : UInt8) :: decimalInt mode
  Conn.andThen (c.writex (msg ID_SEND (rpath.length + tmp.length))) fun c =>
    Conn.andThen (c.writex rpath) fun c => c.writex tmp

/-- The data of `sync_send`, `none` where it goes to `fail`. What the writers return is dropped. -/
def sendData (haveSymlinks : Bool) (l : LocalFile) (mode : Nat) (apk : Option (List UInt8))
    (c : Conn) : Option Conn :=
  match apk with
  | some b => some (writeDataBuffer b.length b c).2
  | none =>
    if S_ISREG mode then some (writeDataFile l c).2
    else if haveSymlinks ∧ S_ISLNK mode then some (writeDataLink l c).2
    else none

/-- `sync_send` after the checks of `verifyApk`, up to the reply. -/
def sendAll (haveSymlinks : Bool) (l : LocalFile) (rpath : List UInt8) (mtime mode : Nat)
    (apk : Option (List UInt8)) (c : Conn) : Bool × Conn :=
  Conn.andThen (sendRequest rpath mode c) fun c =>
    match sendData haveSymlinks l mode apk c with
    | none => (false, c)
    | some c => c.writex (msg ID_DONE mtime)

def syncSend (w : Nat) (haveSymlinks : Bool) (z : Zipfile) (l : LocalFile) (rpath : List UInt8)
    (mtime mode : Nat) (verifyApk : Bool) (c : Conn) : Int × Conn :=
  if 1024 < rpath.length then (-1, c)
  else
    match if verifyApk then (loadApk z l).map some else .ok none with
    | .error e => (e, c)
    | .ok apk =>
      match sendAll haveSymlinks l rpath mtime mode apk c with
      | (false, c) => (-1, c)
      | (true, c) => syncSendReply w c

end Twm.Adb
