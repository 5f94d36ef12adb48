import DeviceTwm.Adb.SyncListing
import DeviceTwm.Lib.Logged

/-!
# The buffers of the sync service

`file_sync_service` and its handlers again, with each write to a buffer: `name`, the data buffer, and `tmp`
of `do_list`. What is done besides is as in `DeviceTwm.Adb.FileSync` (`command_follows`).

* `Write.InBounds`: the write stays in its buffer.
* `listLoop_inBounds`: `do_list` has a byte too few in `tmp`. A path of 1024 bytes and an entry of 256 do
  not fit with the slash and the final 0.
* `commands_inBounds_iff`: every write of a session stays in its buffer, in just this case: no `LIST` comes
  to such a path and entry (`Overruns`).
-/

open Lib

namespace Twm.Adb.FileSync.Buffers

open Act Logged
open PushDir (ID_STAT)

/-- The buffers that are written to. -/
inductive Buffer
  /-- `name` of `file_sync_service`. -/
  | name
  /-- `buffer` of `file_sync_service`. -/
  | data
  /-- `tmp` of `do_list`. -/
  | tmp
  deriving DecidableEq

/-- The bytes a buffer has. -/
def Buffer.size : Buffer → Nat
  | name => 1025
  | data => SYNC_DATA_MAX
  | tmp => 1024 + 256 + 1

/-- A write of `len` bytes from the byte `off` on. -/
structure Write where
  buffer : Buffer
  off : Nat
  len : Nat
  deriving DecidableEq

def Write.InBounds (x : Write) : Prop := x.off + x.len ≤ x.buffer.size

instance (x : Write) : Decidable x.InBounds := inferInstanceAs (Decidable (_ ≤ _))

/-- The service, and its writes. -/
abbrev Mem (φ : Type) : Type := Logged (World φ) Write

section

variable {φ δ : Type} (os : Os φ δ)

/-- A write. -/
def poke (buffer : Buffer) (off len : Nat) : Act (Mem φ) Unit := emit ⟨buffer, off, len⟩

/-! ## `LIST` and `RECV` -/

def doList (path : List UInt8) : Act (Mem φ) Unit := do
  poke .tmp 0 path.length
  poke .tmp path.length 1
  .reading fun s => do
    ((os.readdir s.state.fs path).getD []).forM fun name =>
      if 256 < name.length then pure ()
      else do
        -- `strcpy`, with the final 0
        poke .tmp (path.length + 1) (name.length + 1)
        quietly (listEntry os s.state.fs path name)
    quietly (send (fields [ID_DONE, 0, 0, 0, 0]))

/-- The loop of `do_recv`. -/
def recvFile : List ReadResult → Act (Mem φ) Unit
  | [] => quietly (send (msg ID_DONE 0))
  | .data b :: rs => do
    poke .data 0 b.length
    quietly (store b)
    quietly (send (msg ID_DATA b.length))
    let out ← quietly (bufferBytes b.length)
    quietly (send out)
    recvFile rs
  | .eintr :: rs => recvFile rs
  | .error e :: _ => quietly (failErrno os e)

def doRecv (path : List UInt8) : Act (Mem φ) Unit :=
  .reading fun s =>
    match os.read s.state.fs path with
    | .error e => quietly (failErrno os e)
    | .ok rs => recvFile os rs

/-! ## `SEND` -/

/-- `mkdirs`, at the byte after `before`: a slash is a 0 during `adb_mkdir`. -/
def mkdirsFrom : List UInt8 → List UInt8 → Act (Mem φ) Unit
  | _, [] => pure ()
  | before, b :: rest =>
    if b = 47 then do
      poke .name before.length 1
      let r ← quietly (sys (os.mkdir before))
      poke .name before.length 1
      match r with
      | none => mkdirsFrom (before ++ [b]) rest
      | some e => if e = EEXIST then mkdirsFrom (before ++ [b]) rest else pure ()
    else mkdirsFrom (before ++ [b]) rest

def mkdirs (path : List UInt8) : Act (Mem φ) Unit :=
  if path.head? = some 47 then mkdirsFrom os [47] path.tail else pure ()

/-- The calls of `adb_open_mode` with `O_EXCL`. -/
def openNew (path : List UInt8) (mode : Nat) : Act (Mem φ) (Except Int δ) := do
  match ← quietly (sys (os.create path mode)) with
  | .error e =>
    if e = ENOENT then do
      mkdirs os path
      quietly (sys (os.create path mode))
    else pure (.error e)
  | .ok d => pure (.ok d)

/-- The calls of `adb_open_mode` in `handle_send_file`. -/
def openFile (path : List UInt8) (mode : Nat) : Act (Mem φ) (Except Int δ) := do
  match ← openNew os path mode with
  | .error e => if e = EEXIST then quietly (sys (os.reopen path mode)) else pure (.error e)
  | .ok d => pure (.ok d)

/-- The loop of `handle_send_file`. -/
def receiveLoop (path : List UInt8) : Nat → Option δ → Act (Mem φ) (Option δ × Nat)
  | 0, fd => quietly (abandon os fd path)
  | fuel + 1, fd => do
    let m ← (quietly (recv (.msg 8) 8)).onFail (quietly (abandon (α := Unit) os fd path))
    if word m 0 ≠ ID_DATA then
      if word m 0 = ID_DONE then pure (fd, word m 4)
      else quietly do
        let _ ← (failMessage (reason "invalid data message")).attempt
        abandon os fd path
    else if SYNC_DATA_MAX < word m 4 then quietly do
      let _ ← (failMessage (reason "oversize data message")).attempt
      abandon os fd path
    else
      poke .data 0 (word m 4)
      (quietly (recvBuffer (word m 4))).onFail (quietly (abandon (α := Unit) os fd path))
      match fd with
      | none => receiveLoop path fuel none
      | some d =>
        let b ← quietly (bufferBytes (word m 4))
        match ← quietly (sys (os.writex d b)) with
        | none => receiveLoop path fuel (some d)
        | some e =>
          let e' ← quietly (sys (discard os (some d) path))
          quietly (failErrno os (e'.getD e))
          receiveLoop path fuel none

def openRemote (path : List UInt8) (mode : Nat) : Act (Mem φ) (Option δ) := do
  match ← openFile os path mode with
  | .ok d => pure (some d)
  | .error e =>
    quietly (failErrno os e)
    pure none

def handleSendFile (path : List UInt8) (mode : Nat) : Act (Mem φ) Unit := do
  let fd ← openRemote os path mode
  let (fd, timestamp) ← .reading fun s => receiveLoop os path (s.state.conn.inp.length + 1) fd
  match fd with
  | none => pure ()
  | some d => quietly do
    let _ ← sys (os.close d)
    sys fun fs => ((), os.utime path timestamp fs)
    send (msg ID_OKAY 0)

/-- `symlink`, and once more after `mkdirs`. -/
def makeLink (target path : List UInt8) : Act (Mem φ) (Option Int) := do
  match ← quietly (sys (os.symlink target path)) with
  | some e =>
    if e = ENOENT then do
      mkdirs os path
      quietly (sys (os.symlink target path))
    else pure (some e)
  | none => pure none

def handleSendLink (path : List UInt8) : Act (Mem φ) Unit := do
  let m ← quietly (recv (.msg 8) 8)
  if word m 0 ≠ ID_DATA then quietly (refuse "invalid data message: expected ID_DATA")
  else if SYNC_DATA_MAX < word m 4 then quietly (refuse "oversize data message")
  else
    poke .data 0 (word m 4)
    quietly (recvBuffer (word m 4))
    let target ← quietly bufferString
    let r ← makeLink os target path
    quietly (finishLink os r)

def doSend (haveSymlinks : Bool) (name : List UInt8) : Act (Mem φ) Unit := do
  let (path, mode, isLink) := sendArgs haveSymlinks name
  -- the comma is overwritten
  if path.length < name.length then do
    poke .name path.length 1
    quietly (storeName path)
  let _ ← quietly (sys (os.unlink path))
  if isLink then handleSendLink os path else handleSendFile os path (copyBits mode)

/-! ## `file_sync_service` -/

def dispatch (haveSymlinks : Bool) (id : Nat) (name : List UInt8) : Act (Mem φ) Unit :=
  if id = ID_STAT then quietly (doStat os name)
  else if id = ID_LIST then doList os name
  else if id = ID_SEND then doSend os haveSymlinks name
  else if id = ID_RECV then doRecv os name
  else if id = ID_QUIT then .fail
  else quietly (refuse "unknown command")

/-- A round of the loop. -/
def command (haveSymlinks : Bool) : Act (Mem φ) Unit := do
  let m ← (quietly (recv (.msg 8) 8)).onFail (quietly (failMessage (reason "command read failure")))
  if 1024 < word m 4 then quietly (refuse "invalid namelen")
  else
    poke .name 0 (word m 4)
    let b ← (quietly (recv .path (word m 4))).onFail
      (quietly (failMessage (reason "filename read failure")))
    -- `name[namelen] = 0`
    poke .name (word m 4) 1
    let name ← quietly (nameString b)
    dispatch os haveSymlinks (word m 0) name

/-- The first rounds of the loop. -/
def commands (haveSymlinks : Bool) : Nat → Act (Mem φ) Unit
  | 0 => pure ()
  | n + 1 => do
    command os haveSymlinks
    commands haveSymlinks n

end

/-! ## The same besides the writes -/

section

variable {φ δ : Type} (os : Os φ δ)

/-- The handler does what it does in `DeviceTwm.Adb.FileSync`, and its writes stay in their buffers. -/
abbrev Stays {α : Type} (m : Act (Mem φ) α) (m' : Act (World φ) α) : Prop :=
  Follows Write.InBounds (fun _ => True) m m'

theorem stays_quietly {α : Type} (m : Act (World φ) α) : Stays (quietly m) m :=
  .quietly fun _ _ _ => trivial

theorem inBounds_name {off len : Nat} (h : off + len ≤ 1025) : Write.InBounds ⟨.name, off, len⟩ := h

theorem inBounds_data {len : Nat} (h : len ≤ SYNC_DATA_MAX) : Write.InBounds ⟨.data, 0, len⟩ := by
  show 0 + len ≤ SYNC_DATA_MAX
  omega

theorem recv_length {buf : Buf} {n : Nat} {w : World φ} {b : List UInt8}
    (h : (recv buf n w).1 = some b) : b.length = n := by
  by_cases hle : n ≤ buf.capacity ∧ n ≤ w.conn.inp.length
  · rw [recv_some hle] at h
    cases h
    exact List.length_take_of_le hle.2
  · rw [recv_none hle] at h
    cases h

/-- A read of the file gives no more than it was asked for. -/
def BoundedReads : Prop :=
  ∀ fs path rs b, os.read fs path = .ok rs → .data b ∈ rs → b.length ≤ SYNC_DATA_MAX

variable {os}

theorem recvFile_stays (rs : List ReadResult) (h : ∀ b, .data b ∈ rs → b.length ≤ SYNC_DATA_MAX) :
    Stays (recvFile os rs) (FileSync.recvFile os rs) := by
  induction rs with
  | nil => exact stays_quietly _
  | cons r rs ih =>
    have hrest := ih fun b hb => h b (List.mem_cons_of_mem _ hb)
    cases r with
    | data b =>
      refine .emit (inBounds_data (h b (by simp))) ?_
      refine (stays_quietly _).bind fun _ _ => (stays_quietly _).bind fun _ _ => ?_
      exact (stays_quietly _).bind fun out _ => (stays_quietly _).bind fun _ _ => hrest
    | eintr => exact hrest
    | error e => exact stays_quietly _

theorem doRecv_stays (hreads : BoundedReads os) (path : List UInt8) :
    Stays (doRecv os path) (FileSync.doRecv os path) := by
  refine .reading fun s => ?_
  cases hr : os.read s.state.fs path with
  | error e => exact stays_quietly _
  | ok rs => exact recvFile_stays rs fun b hb => hreads _ _ _ _ hr hb

/-! ### `mkdirs` and `adb_open_mode` -/

/-- Calls to the file system one after the other. -/
theorem stays_sys {α β : Type} {m : Act (Mem φ) α} {k : α → Act (Mem φ) β} {f : φ → α × φ}
    {g : α → φ → β × φ} {h : φ → β × φ} (hm : Stays m (sys f)) (hk : ∀ a, Stays (k a) (sys (g a)))
    (heq : ∀ fs, h fs = g (f fs).1 (f fs).2) : Stays (m >>= k) (sys h) := by
  have hbind : sys h = sys f >>= fun a => sys (g a) := by
    rw [show h = fun fs => g (f fs).1 (f fs).2 from funext heq]
    rfl
  rw [hbind]
  exact hm.bind fun a _ => hk a

theorem stays_pure {α : Type} (a : α) : Stays (pure a : Act (Mem φ) α) (sys fun fs => (a, fs)) :=
  .pure trivial

theorem mkdirsFrom_stays (before rest : List UInt8) (h : before.length + rest.length ≤ 1025) :
    Stays (mkdirsFrom os before rest) (sys fun fs => ((), FileSync.mkdirsFrom os before rest fs)) := by
  induction rest generalizing before with
  | nil => exact stays_pure ()
  | cons b rest ih =>
    rw [List.length_cons] at h
    have hrest := ih (before ++ [b]) (by rw [List.length_append, List.length_singleton]; omega)
    by_cases hb : b = 47
    · subst hb
      rw [mkdirsFrom, if_pos rfl]
      refine .emit (inBounds_name (by omega)) ?_
      refine stays_sys (f := os.mkdir before) (g := fun r fs => match r with
        | none => ((), FileSync.mkdirsFrom os (before ++ [47]) rest fs)
        | some e => if e = EEXIST then ((), FileSync.mkdirsFrom os (before ++ [47]) rest fs)
          else ((), fs)) (stays_quietly _) (fun r => .emit (inBounds_name (by omega)) ?_) fun fs => ?_
      · cases r with
        | none => exact hrest
        | some e =>
          by_cases he : e = EEXIST
          · simp only [if_pos he]
            exact hrest
          · simp only [if_neg he]
            exact stays_pure ()
      · rw [FileSync.mkdirsFrom, if_pos rfl]
        rcases os.mkdir before fs with ⟨_ | e, fs⟩
        · rfl
        · dsimp only
          split <;> rfl
    · have hstep : (fun fs => ((), FileSync.mkdirsFrom os before (b :: rest) fs)) =
          fun fs => ((), FileSync.mkdirsFrom os (before ++ [b]) rest fs) := by
        funext fs
        rw [FileSync.mkdirsFrom, if_neg hb]
      rw [mkdirsFrom, if_neg hb, hstep]
      exact hrest

theorem mkdirs_stays {path : List UInt8} (h : path.length ≤ 1024) :
    Stays (mkdirs os path) (sys fun fs => ((), FileSync.mkdirs os path fs)) := by
  unfold mkdirs FileSync.mkdirs
  split
  · refine mkdirsFrom_stays _ _ ?_
    rw [List.length_singleton, List.length_tail]
    omega
  · exact stays_pure ()

/-- A call that is made once more after `mkdirs`. -/
theorem stays_again {α : Type} {path : List UInt8} (h : path.length ≤ 1024) (f : φ → α × φ) (e : Int)
    (a : α) :
    Stays (if e = ENOENT then do
        mkdirs os path
        quietly (sys f)
      else pure a)
      (sys fun fs => if e = ENOENT then f (FileSync.mkdirs os path fs) else (a, fs)) := by
  split
  · exact stays_sys (mkdirs_stays h) (fun _ => stays_quietly _) fun _ => rfl
  · exact stays_pure a

theorem openNew_stays {path : List UInt8} (h : path.length ≤ 1024) (mode : Nat) :
    Stays (openNew os path mode) (sys (FileSync.openNew os path mode)) := by
  refine stays_sys (f := os.create path mode) (g := fun r fs => match r with
    | .error e => if e = ENOENT then os.create path mode (FileSync.mkdirs os path fs) else (.error e, fs)
    | .ok d => (.ok d, fs)) (stays_quietly _) (fun r => ?_) fun fs => ?_
  · cases r with
    | error e => exact stays_again h _ e (Except.error e)
    | ok d => exact stays_pure _
  · rw [FileSync.openNew]
    rcases os.create path mode fs with ⟨e | d, fs⟩ <;> rfl

theorem openFile_stays {path : List UInt8} (h : path.length ≤ 1024) (mode : Nat) :
    Stays (openFile os path mode) (sys (FileSync.openFile os path mode)) := by
  refine stays_sys (f := FileSync.openNew os path mode) (g := fun r fs => match r with
    | .error e => if e = EEXIST then os.reopen path mode fs else (.error e, fs)
    | .ok d => (.ok d, fs)) (openNew_stays h mode) (fun r => ?_) fun fs => ?_
  · cases r with
    | error e =>
      by_cases he : e = EEXIST
      · simp only [if_pos he]
        exact stays_quietly _
      · simp only [if_neg he]
        exact stays_pure _
    | ok d => exact stays_pure _
  · rw [openFile_eq]
    rcases FileSync.openNew os path mode fs with ⟨e | d, fs⟩ <;> rfl

theorem makeLink_stays {path : List UInt8} (h : path.length ≤ 1024) (target : List UInt8) :
    Stays (makeLink os target path) (sys (FileSync.makeLink os target path)) := by
  refine stays_sys (f := os.symlink target path) (g := fun r fs => match r with
    | some e =>
      if e = ENOENT then os.symlink target path (FileSync.mkdirs os path fs) else (some e, fs)
    | none => (none, fs)) (stays_quietly _) (fun r => ?_) fun fs => ?_
  · cases r with
    | some e => exact stays_again h _ e (some e)
    | none => exact stays_pure _
  · rw [FileSync.makeLink]
    rcases os.symlink target path fs with ⟨_ | e, fs⟩ <;> rfl

/-! ### The handlers -/

theorem receiveLoop_stays (path : List UInt8) (fuel : Nat) (fd : Option δ) :
    Stays (receiveLoop os path fuel fd) (FileSync.receiveLoop os path fuel fd) := by
  induction fuel generalizing fd with
  | zero => exact stays_quietly _
  | succ fuel ih =>
    refine Follows.bind ((stays_quietly _).onFail (stays_quietly _)) fun m _ => ?_
    split
    · split
      · exact .pure trivial
      · exact stays_quietly _
    · split
      · exact stays_quietly _
      · next hmax =>
        refine .emit (inBounds_data (by omega)) ?_
        refine Follows.bind ((stays_quietly _).onFail (stays_quietly _)) fun _ _ => ?_
        cases fd with
        | none => exact ih none
        | some d =>
          refine (stays_quietly _).bind fun b _ => (stays_quietly _).bind fun r _ => ?_
          cases r with
          | none => exact ih (some d)
          | some e =>
            exact (stays_quietly _).bind fun e' _ => (stays_quietly _).bind fun _ _ => ih none

theorem handleSendFile_stays {path : List UInt8} (h : path.length ≤ 1024) (mode : Nat) :
    Stays (handleSendFile os path mode) (FileSync.handleSendFile os path mode) := by
  have hopen : Stays (openRemote os path mode) (FileSync.openRemote os path mode) := by
    refine (openFile_stays h mode).bind fun r _ => ?_
    cases r with
    | error e => exact (stays_quietly _).bind fun _ _ => .pure trivial
    | ok d => exact .pure trivial
  have hloop : ∀ fd, Stays (.reading fun s => receiveLoop os path (s.state.conn.inp.length + 1) fd)
      (.reading fun w => FileSync.receiveLoop os path (w.conn.inp.length + 1) fd) :=
    fun fd => .reading fun s => receiveLoop_stays path _ fd
  refine hopen.bind fun fd _ => (hloop fd).bind fun (fd, timestamp) _ => ?_
  cases fd with
  | none => exact .pure trivial
  | some d => exact stays_quietly _

theorem handleSendLink_stays {path : List UInt8} (h : path.length ≤ 1024) :
    Stays (handleSendLink os path) (FileSync.handleSendLink os path) := by
  refine (stays_quietly _).bind fun m _ => ?_
  split
  · exact stays_quietly _
  · split
    · exact stays_quietly _
    · next hmax =>
      refine .emit (inBounds_data (by omega)) ((stays_quietly _).bind fun _ _ => ?_)
      refine (stays_quietly _).bind fun target _ => (makeLink_stays h target).bind fun r _ => ?_
      exact stays_quietly _

/-- The path of a `SEND` is a part of its name. -/
theorem sendArgs_length (haveSymlinks : Bool) (name : List UInt8) :
    (sendArgs haveSymlinks name).1.length ≤ name.length := by
  unfold sendArgs strrchr
  dsimp only
  split
  · exact Nat.le_refl _
  · next path text hr =>
    split at hr
    · cases hr
    · cases hr
      split <;> simp

theorem doSend_stays (haveSymlinks : Bool) {name : List UInt8} (h : name.length ≤ 1024) :
    Stays (doSend os haveSymlinks name) (FileSync.doSend os haveSymlinks name) := by
  have hlen := sendArgs_length haveSymlinks name
  unfold doSend FileSync.doSend
  rcases hargs : sendArgs haveSymlinks name with ⟨path, mode, isLink⟩
  rw [hargs] at hlen
  dsimp only at hlen ⊢
  have hrest : Stays (do
      let _ ← quietly (sys (os.unlink path))
      if isLink then handleSendLink os path else handleSendFile os path (copyBits mode)) (do
      let _ ← sys (os.unlink path)
      if isLink then FileSync.handleSendLink os path
      else FileSync.handleSendFile os path (copyBits mode)) := by
    refine (stays_quietly _).bind fun _ _ => ?_
    cases isLink with
    | true => exact handleSendLink_stays (by omega)
    | false => exact handleSendFile_stays (by omega) _
  split
  · exact .emit (inBounds_name (by omega)) ((stays_quietly _).bind fun _ _ => hrest)
  · exact hrest

/-- `do_list` does the same as in `DeviceTwm.Adb.FileSync`, wherever its writes go. -/
theorem doList_follows (path : List UInt8) :
    Follows (fun _ => True) (fun _ => True) (doList os path) (FileSync.doList os path) := by
  have hlist : FileSync.doList os path = Act.reading (fun w => do
      ((os.readdir w.fs path).getD []).forM (listEntry os w.fs path)
      send (fields [ID_DONE, 0, 0, 0, 0])) := funext fun w => doList_eq os path w
  rw [hlist]
  refine .emit trivial (.emit trivial (.reading fun s => ?_))
  refine (Follows.forM fun name _ => ?_).bind fun _ _ => .quietly fun _ _ _ => trivial
  by_cases hlong : 256 < name.length
  · have hskip : listEntry os s.state.fs path name = pure () := if_pos hlong
    rw [if_pos hlong, hskip]
    exact .pure trivial
  · rw [if_neg hlong]
    exact .emit trivial (.quietly fun _ _ _ => trivial)

theorem dispatch_stays (hreads : BoundedReads os) (haveSymlinks : Bool) {id : Nat} {name : List UInt8}
    (h : name.length ≤ 1024) (hid : id ≠ ID_LIST) :
    Stays (dispatch os haveSymlinks id name) (FileSync.dispatch os haveSymlinks id name) := by
  unfold dispatch FileSync.dispatch
  split
  · exact stays_quietly _
  · split
    · exact doSend_stays haveSymlinks h
    · split
      · exact doRecv_stays hreads name
      · split
        · exact .fail
        · exact stays_quietly _

theorem dispatch_follows (hreads : BoundedReads os) (haveSymlinks : Bool) {id : Nat} {name : List UInt8}
    (h : name.length ≤ 1024) : Follows (fun _ => True) (fun _ => True)
      (dispatch os haveSymlinks id name) (FileSync.dispatch os haveSymlinks id name) := by
  by_cases hid : id = ID_LIST
  · subst hid
    have hstat : ID_LIST ≠ ID_STAT := by decide
    unfold dispatch FileSync.dispatch
    rw [if_neg hstat, if_pos rfl, if_neg hstat, if_pos rfl]
    exact doList_follows name
  · exact (dispatch_stays hreads haveSymlinks h hid).weaken fun _ => trivial

theorem length_cstr_le (b : List UInt8) : (cstr b).length ≤ b.length :=
  (List.takeWhile_sublist _).length_le

theorem command_follows (hreads : BoundedReads os) (haveSymlinks : Bool) :
    Follows (fun _ => True) (fun _ => True) (command os haveSymlinks)
      (FileSync.command os haveSymlinks) := by
  have hquiet : ∀ {α : Type} (m : Act (World φ) α), Follows (fun _ : Write => True) (fun _ => True)
      (quietly m) m := fun _ => .quietly fun _ _ _ => trivial
  refine Follows.bind ((hquiet _).onFail (hquiet _)) fun m _ => ?_
  split
  · exact hquiet _
  · refine .emit trivial (Follows.bind (Q := fun b => b.length = word m 4) ?_ fun b hb => ?_)
    · exact Follows.onFail (.quietly fun _ _ h => recv_length h) (hquiet _)
    · refine .emit trivial (Follows.bind (Q := fun name => name = cstr b) ?_ fun name hname => ?_)
      · exact .quietly fun w a ha => by
          rw [nameString_eq] at ha
          exact (Option.some.inj ha).symm
      · subst hname
        have hlen := length_cstr_le b
        exact dispatch_follows hreads haveSymlinks (by omega)

/-- Besides the writes the service is that of `DeviceTwm.Adb.FileSync`. -/
theorem commands_follow (hreads : BoundedReads os) (haveSymlinks : Bool) (n : Nat) :
    Follows (fun _ => True) (fun _ => True) (commands os haveSymlinks n)
      (FileSync.commands os haveSymlinks n) := by
  induction n with
  | zero => exact .pure trivial
  | succ n ih => exact (command_follows hreads haveSymlinks).bind fun _ _ => ih

/-! ## The writes of `do_list` -/

/-- The entry that `do_list` comes to has no room in `tmp`: the path, the slash, the name and the 0 are a
byte more than `tmp` has. -/
def LongEntry (os : Os φ δ) (fs : φ) (path : List UInt8) (names : List (List UInt8)) (sink : Sink) :
    Prop :=
  path.length = 1024 ∧ ∃ pre name post, names = pre ++ name :: post ∧ name.length = 256 ∧
    sink.Takes (pre.flatMap (entryBytes os fs path)).length

theorem longEntry_cons {fs : φ} {path name : List UInt8} {names : List (List UInt8)} {sink : Sink} :
    LongEntry os fs path (name :: names) sink ↔ path.length = 1024 ∧ (name.length = 256 ∨
      ∃ pre long post, names = pre ++ long :: post ∧ long.length = 256 ∧
        sink.Takes (entryBytes os fs path name ++ pre.flatMap (entryBytes os fs path)).length) := by
  constructor
  · rintro ⟨hp, pre, long, post, hnames, hlong, htakes⟩
    refine ⟨hp, ?_⟩
    obtain _ | ⟨x, pre⟩ := pre
    · cases hnames
      exact .inl hlong
    · cases hnames
      rw [List.flatMap_cons] at htakes
      exact .inr ⟨pre, long, post, rfl, hlong, htakes⟩
  · rintro ⟨hp, hlong | ⟨pre, long, post, rfl, hlong, htakes⟩⟩
    · exact ⟨hp, [], name, names, rfl, hlong, fun k _ => Nat.zero_le k⟩
    · refine ⟨hp, name :: pre, long, post, rfl, hlong, ?_⟩
      rwa [List.flatMap_cons]

/-- The loop of `do_list`. -/
def listLoop (os : Os φ δ) (fs : φ) (path : List UInt8) (names : List (List UInt8)) : Act (Mem φ) PUnit :=
  names.forM fun name =>
    if 256 < name.length then pure ()
    else do
      poke .tmp (path.length + 1) (name.length + 1)
      quietly (listEntry os fs path name)

/-- A round of the loop, and what it writes. -/
theorem listLoop_cons (os : Os φ δ) (fs : φ) {path : List UInt8} (hp : path.length ≤ 1024) (name : List UInt8)
    (names : List (List UInt8)) (s : Mem φ) : ∃ t : Mem φ,
      (All Write.InBounds t ↔ All Write.InBounds s ∧ ¬ (path.length = 1024 ∧ name.length = 256)) ∧
      t.state = (listEntry os fs path name s.state).2 ∧
      listLoop os fs path (name :: names) s =
        if (listEntry os fs path name s.state).1.isSome then listLoop os fs path names t
        else (none, t) := by
  by_cases hlong : 256 < name.length
  · have hskip : listEntry os fs path name = pure () := if_pos hlong
    refine ⟨s, ?_, by rw [hskip]; rfl, ?_⟩
    · rw [and_iff_left]
      omega
    · rw [hskip]
      show ((if 256 < name.length then pure () else _) >>= fun _ => listLoop os fs path names) s = _
      rw [if_pos hlong]
      rfl
  · have hfit : Write.InBounds ⟨.tmp, path.length + 1, name.length + 1⟩ ↔
        ¬ (path.length = 1024 ∧ name.length = 256) := by
      show path.length + 1 + (name.length + 1) ≤ 1024 + 256 + 1 ↔ _
      omega
    refine ⟨⟨(listEntry os fs path name s.state).2,
      ⟨.tmp, path.length + 1, name.length + 1⟩ :: s.log⟩, ?_, rfl, ?_⟩
    · rw [← hfit, and_comm]
      exact all_emit (s := ⟨_, s.log⟩)
    · show ((if 256 < name.length then pure () else (do
        poke .tmp (path.length + 1) (name.length + 1)
        quietly (listEntry os fs path name))) >>= fun _ => listLoop os fs path names) s = _
      rw [if_neg hlong]
      have hround : (do
          poke .tmp (path.length + 1) (name.length + 1)
          quietly (listEntry os fs path name) : Act (Mem φ) PUnit) s =
        ((listEntry os fs path name s.state).1, ⟨(listEntry os fs path name s.state).2,
          ⟨.tmp, path.length + 1, name.length + 1⟩ :: s.log⟩) := rfl
      cases hr : (listEntry os fs path name s.state).1 with
      | none =>
        rw [hr] at hround
        exact bind_none hround
      | some u =>
        rw [hr] at hround
        exact bind_some hround

/-- The writes of the loop stay in `tmp` unless it comes to an entry that is too long. -/
theorem listLoop_inBounds (os : Os φ δ) (fs : φ) {path : List UInt8} (hp : path.length ≤ 1024)
    (names : List (List UInt8)) (s : Mem φ) :
    All Write.InBounds (listLoop os fs path names s).2 ↔
      All Write.InBounds s ∧ ¬ LongEntry os fs path names s.state.conn.sink := by
  induction names generalizing s with
  | nil =>
    have hnone : ¬ LongEntry os fs path [] s.state.conn.sink := by
      rintro ⟨-, pre, name, post, hnames, -⟩
      simp at hnames
    rw [and_iff_left hnone]
    rfl
  | cons name names ih =>
    obtain ⟨t, hbounds, hstate, hround⟩ := listLoop_cons os fs hp name names s
    obtain ⟨hattempts, -⟩ := listEntry_puts os fs path name s.state
    rw [hround, longEntry_cons]
    by_cases hok : (listEntry os fs path name s.state).1.isSome = true
    · rw [if_pos hok, ih t, hbounds]
      have htakes : ∀ b : List UInt8, t.state.conn.sink.Takes b.length ↔
          s.state.conn.sink.Takes (entryBytes os fs path name ++ b).length := by
        intro b
        rw [hstate]
        exact hattempts.sends.takes (hattempts.ok.mp hok)
      unfold LongEntry
      simp only [htakes, and_or_left, not_or, and_assoc]
    · rw [if_neg hok, hbounds]
      have hbroken : ¬ s.state.conn.sink.Takes (entryBytes os fs path name).length :=
        fun h => hok (hattempts.ok.mpr h)
      have hno : ¬ ∃ pre long post, names = pre ++ long :: post ∧ long.length = 256 ∧
          s.state.conn.sink.Takes
            (entryBytes os fs path name ++ pre.flatMap (entryBytes os fs path)).length := by
        rintro ⟨pre, long, post, -, -, h⟩
        exact hbroken (Sink.takes_left h)
      rw [or_iff_left hno]

theorem doList_inBounds {path : List UInt8} (hp : path.length ≤ 1024) (s : Mem φ) :
    All Write.InBounds (doList os path s).2 ↔ All Write.InBounds s ∧
      ¬ LongEntry os s.state.fs path ((os.readdir s.state.fs path).getD []) s.state.conn.sink := by
  have hrun : doList os path s = (do
      listLoop os s.state.fs path ((os.readdir s.state.fs path).getD [])
      quietly (send (fields [ID_DONE, 0, 0, 0, 0])) : Act (Mem φ) Unit)
      ⟨s.state, ⟨.tmp, path.length, 1⟩ :: ⟨.tmp, 0, path.length⟩ :: s.log⟩ := rfl
  have hfit : All Write.InBounds
      ⟨s.state, ⟨.tmp, path.length, 1⟩ :: ⟨.tmp, 0, path.length⟩ :: s.log⟩ ↔ All Write.InBounds s := by
    have h₁ : Write.InBounds ⟨.tmp, path.length, 1⟩ := by
      show path.length + 1 ≤ 1024 + 256 + 1
      omega
    have h₂ : Write.InBounds ⟨.tmp, 0, path.length⟩ := by
      show 0 + path.length ≤ 1024 + 256 + 1
      omega
    simp [All, h₁, h₂]
  have hloop := listLoop_inBounds os s.state.fs hp ((os.readdir s.state.fs path).getD [])
    ⟨s.state, ⟨.tmp, path.length, 1⟩ :: ⟨.tmp, 0, path.length⟩ :: s.log⟩
  rw [hfit] at hloop
  rw [hrun, ← hloop]
  rcases hr : listLoop os s.state.fs path ((os.readdir s.state.fs path).getD [])
    ⟨s.state, ⟨.tmp, path.length, 1⟩ :: ⟨.tmp, 0, path.length⟩ :: s.log⟩ with ⟨_ | u, t⟩
  · rw [bind_none hr]
  · rw [bind_some hr]
    rfl

/-! ## A session -/

/-- A request that gets to the `switch`: the message and the name. -/
structure Request (inp m b rest : List UInt8) : Prop where
  bytes : inp = m ++ (b ++ rest)
  msg : m.length = 8
  len : word m 4 = b.length
  short : b.length ≤ 1024

theorem Request.unique {inp m b rest m' b' rest' : List UInt8} (h : Request inp m b rest)
    (h' : Request inp m' b' rest') : m = m' ∧ b = b' := by
  obtain ⟨hm, htail⟩ := List.append_inj (h.bytes.symm.trans h'.bytes) (h.msg.trans h'.msg.symm)
  subst hm
  exact ⟨rfl, (List.append_inj htail (h.len.symm.trans h'.len)).1⟩

/-- The next command is a `LIST` that comes to an entry that is too long. -/
def Overruns (os : Os φ δ) (w : World φ) : Prop :=
  ∃ m b rest, Request w.conn.inp m b rest ∧ word m 0 = ID_LIST ∧
    LongEntry os w.fs (cstr b) ((os.readdir w.fs (cstr b)).getD []) w.conn.sink

/-- A round of the loop reads a request, or has no request to read. -/
theorem command_cases (os : Os φ δ) (haveSymlinks : Bool) (s : Mem φ) :
    (¬ (∃ m b rest, Request s.state.conn.inp m b rest) ∧
      (All Write.InBounds (command os haveSymlinks s).2 ↔ All Write.InBounds s)) ∨
    ∃ m b rest, ∃ t : Mem φ, Request s.state.conn.inp m b rest ∧ t.state.fs = s.state.fs ∧
      t.state.conn.sink = s.state.conn.sink ∧ (All Write.InBounds t ↔ All Write.InBounds s) ∧
      command os haveSymlinks s = dispatch os haveSymlinks (word m 0) (cstr b) t := by
  by_cases h8 : 8 ≤ s.state.conn.inp.length
  swap
  · refine .inl ⟨?_, ?_⟩
    · rintro ⟨m, b, rest, h⟩
      have hlen := congrArg List.length h.bytes
      rw [List.length_append, h.msg] at hlen
      omega
    · obtain ⟨v, hrecv⟩ : ∃ v, quietly (recv (.msg 8) 8) s = (none, ⟨v, s.log⟩) :=
        ⟨_, by rw [quietly, recv_none (fun h => h8 h.2)]⟩
      rw [command, bind_none (onFail_none hrecv)]
      exact Iff.rfl
  obtain ⟨m, inp, hinp, hm⟩ : ∃ m inp, s.state.conn.inp = m ++ inp ∧ m.length = 8 :=
    ⟨_, _, (List.take_append_drop 8 _).symm, List.length_take_of_le h8⟩
  obtain ⟨c, hc, hs, hrecv⟩ := recv_append (.msg 8) s.state hm (Nat.le_refl 8) hinp
  have hread : quietly (recv (.msg 8) 8) s = (some m, ⟨{ s.state with conn := c }, s.log⟩) := by
    rw [quietly, hrecv]
  by_cases hmax : 1024 < word m 4
  · refine .inl ⟨?_, ?_⟩
    · rintro ⟨m', b, rest, h⟩
      obtain ⟨rfl, -⟩ := List.append_inj (hinp.symm.trans h.bytes) (hm.trans h.msg.symm)
      have := h.short
      have := h.len
      omega
    · rw [command, bind_some (onFail_some hread), if_pos hmax]
      exact Iff.rfl
  by_cases hlen : word m 4 ≤ inp.length
  · -- the name is there
    obtain ⟨b, rest, hb, hbl⟩ : ∃ b rest, inp = b ++ rest ∧ b.length = word m 4 :=
      ⟨_, _, (List.take_append_drop _ _).symm, List.length_take_of_le hlen⟩
    obtain ⟨c', -, hs', hrecv'⟩ := recv_append .path { s.state with conn := c } hbl
      (Nat.le_trans (Nat.not_lt.mp hmax) (by decide)) (hc.trans hb)
    refine .inr ⟨m, b, rest,
      ⟨{ s.state with conn := c', name := b ++ 0 :: s.state.name.drop (b.length + 1) },
        ⟨.name, word m 4, 1⟩ :: ⟨.name, 0, word m 4⟩ :: s.log⟩,
      ⟨by rw [hinp, hb], hm, hbl.symm, by omega⟩, rfl, hs'.trans hs, ?_, ?_⟩
    · have h₁ : Write.InBounds ⟨.name, word m 4, 1⟩ := inBounds_name (by omega)
      have h₂ : Write.InBounds ⟨.name, 0, word m 4⟩ := inBounds_name (by omega)
      simp [All, h₁, h₂]
    · have hread' : quietly (recv .path (word m 4))
            ⟨{ s.state with conn := c }, ⟨.name, 0, word m 4⟩ :: s.log⟩ =
          (some b, ⟨{ s.state with conn := c' }, ⟨.name, 0, word m 4⟩ :: s.log⟩) := by
        rw [quietly, hrecv']
      have hname : quietly (nameString b) ⟨{ s.state with conn := c' },
            ⟨.name, word m 4, 1⟩ :: ⟨.name, 0, word m 4⟩ :: s.log⟩ =
          (some (cstr b), ⟨{ s.state with
            conn := c', name := b ++ 0 :: s.state.name.drop (b.length + 1) },
            ⟨.name, word m 4, 1⟩ :: ⟨.name, 0, word m 4⟩ :: s.log⟩) := by
        rw [quietly, nameString_eq]
      rw [command, bind_some (onFail_some hread), if_neg hmax, poke, bind_some (emit_eq _ _),
        bind_some (onFail_some hread'), poke, bind_some (emit_eq _ _), bind_some hname]
  · refine .inl ⟨?_, ?_⟩
    · rintro ⟨m', b, rest, h⟩
      obtain ⟨rfl, htail⟩ := List.append_inj (hinp.symm.trans h.bytes) (hm.trans h.msg.symm)
      rw [htail, List.length_append, h.len] at hlen
      omega
    · have hshort : ¬ (word m 4 ≤ Buf.path.capacity ∧ word m 4 ≤ c.inp.length) := by
        rw [hc]
        exact fun h => hlen h.2
      obtain ⟨v, hread'⟩ : ∃ v, quietly (recv .path (word m 4))
          ⟨{ s.state with conn := c }, ⟨.name, 0, word m 4⟩ :: s.log⟩ =
            (none, ⟨v, ⟨.name, 0, word m 4⟩ :: s.log⟩) :=
        ⟨_, by rw [quietly, recv_none (w := { s.state with conn := c }) hshort]⟩
      have hfit : Write.InBounds ⟨.name, 0, word m 4⟩ := inBounds_name (by omega)
      rw [command, bind_some (onFail_some hread), if_neg hmax, poke, bind_some (emit_eq _ _),
        bind_none (onFail_none hread')]
      exact all_emit (s := ⟨_, s.log⟩) |>.trans (and_iff_right hfit)

/-- The writes of a command stay in their buffers, unless it overruns `tmp`. -/
theorem command_inBounds (hreads : BoundedReads os) (haveSymlinks : Bool) (s : Mem φ) :
    All Write.InBounds (command os haveSymlinks s).2 ↔
      All Write.InBounds s ∧ ¬ Overruns os s.state := by
  rcases command_cases os haveSymlinks s with
    ⟨hnone, hbounds⟩ | ⟨m, b, rest, t, hreq, hfs, hsink, ht, hrun⟩
  · have hno : ¬ Overruns os s.state := fun ⟨m, b, rest, hreq, _⟩ => hnone ⟨m, b, rest, hreq⟩
    rw [hbounds, and_iff_left hno]
  have hlen := length_cstr_le b
  have hshort := hreq.short
  by_cases hid : word m 0 = ID_LIST
  · have hover : Overruns os s.state ↔
        LongEntry os t.state.fs (cstr b) ((os.readdir t.state.fs (cstr b)).getD []) t.state.conn.sink := by
      rw [hfs, hsink]
      constructor
      · rintro ⟨m', b', rest', hreq', -, hlong⟩
        rwa [(hreq.unique hreq').2]
      · exact fun h => ⟨m, b, rest, hreq, hid, h⟩
    have hdisp : dispatch os haveSymlinks (word m 0) (cstr b) = doList os (cstr b) := by
      rw [hid, dispatch, if_neg (by decide), if_pos rfl]
    rw [hrun, hdisp, doList_inBounds (by omega), ht, hover]
  · have hno : ¬ Overruns os s.state := by
      rintro ⟨m', b', rest', hreq', hid', -⟩
      rw [(hreq.unique hreq').1] at hid
      exact hid hid'
    rw [hrun, (dispatch_stays hreads haveSymlinks (by omega) hid t).keeps, ht, and_iff_left hno]

/-- **The buffers.** Every write of a session stays in its buffer, in just this case: at no command of it
does the service list a path of 1024 bytes that has an entry of 256. -/
theorem commands_inBounds_iff (os : Os φ δ) (hreads : BoundedReads os) (haveSymlinks : Bool) (n : Nat)
    (w : World φ) :
    All Write.InBounds (commands os haveSymlinks n ⟨w, []⟩).2 ↔
      ∀ k < n, ∀ v, FileSync.commands os haveSymlinks k w = (some (), v) → ¬ Overruns os v := by
  suffices h : ∀ s : Mem φ, All Write.InBounds (commands os haveSymlinks n s).2 ↔ All Write.InBounds s ∧
      ∀ k < n, ∀ v, FileSync.commands os haveSymlinks k s.state = (some (), v) → ¬ Overruns os v by
    rw [h ⟨w, []⟩, and_iff_right]
    exact fun e he => absurd he List.not_mem_nil
  intro s
  induction n generalizing s with
  | zero => exact (and_iff_left fun k hk => absurd hk (Nat.not_lt_zero k)).symm
  | succ n ih =>
    have hcommand := command_inBounds hreads haveSymlinks s
    have hfollow := (command_follows hreads haveSymlinks s).run
    rcases hr : command os haveSymlinks s with ⟨_ | u, t⟩
    · -- the service ends
      rw [hr] at hcommand hfollow
      rw [commands, bind_none hr, hcommand, and_congr_right_iff]
      intro _
      constructor
      · intro h k hk v hv
        obtain _ | k := k
        · cases hv
          exact h
        · rw [FileSync.commands, bind_none hfollow] at hv
          cases hv
      · exact fun h => h 0 (by omega) _ rfl
    · rw [hr] at hcommand hfollow
      rw [commands, bind_some hr, ih t, hcommand, and_assoc, and_congr_right_iff]
      intro _
      constructor
      · rintro ⟨h, hrest⟩ k hk v hv
        obtain _ | k := k
        · cases hv
          exact h
        · rw [FileSync.commands, bind_some hfollow] at hv
          exact hrest k (by omega) v hv
      · intro h
        refine ⟨h 0 (by omega) _ rfl, fun k hk v hv => h (k + 1) (by omega) v ?_⟩
        rw [FileSync.commands, bind_some hfollow, hv]

end

/-! ## The longest path and the longest entry -/

/-- A directory with one entry. -/
def oneEntry (name : List UInt8) : Os Unit Unit where
  strerror _ := []
  lstat _ _ := none
  readdir _ _ := some [name]
  mkdir _ fs := (some EEXIST, fs)
  unlink _ fs := (some 13, fs)
  create _ _ fs := (.error 13, fs)
  reopen _ _ fs := (.error 13, fs)
  writex _ _ fs := (none, fs)
  close _ fs := (none, fs)
  utime _ _ fs := fs
  symlink _ _ fs := (some EEXIST, fs)
  read _ _ := .error 13

/-- The request for a path of `n` bytes. -/
def askLong (n : Nat) : World Unit :=
  ⟨(), [], [], ⟨msg ID_LIST n ++ (List.replicate n 47 ++ []), ⟨[], none⟩, []⟩⟩

theorem oneEntry_reads (name : List UInt8) : BoundedReads (oneEntry name) := nofun

/-- A path of 1024 bytes, and a name of 255. -/
theorem longest_name_inBounds :
    All Write.InBounds (commands (oneEntry (List.replicate 255 97)) true 1 ⟨askLong 1024, []⟩).2 ∧
    (List.replicate 255 (97 : UInt8)).length = 255 := by
  refine ⟨(commands_inBounds_iff _ (oneEntry_reads _) true 1 (askLong 1024)).mpr ?_, List.length_replicate⟩
  rintro k hk v hv ⟨m, b, rest, -, -, -, pre, name, post, hnames, hlong, -⟩
  have hmem : name ∈ [List.replicate 255 (97 : UInt8)] := by
    rw [show [List.replicate 255 (97 : UInt8)] = pre ++ name :: post from hnames]
    simp
  rw [List.mem_singleton.mp hmem, List.length_replicate] at hlong
  cases hlong

/-- A path of 1024 bytes, and a name of 256. -/
theorem longest_entry_overruns :
    ⟨.tmp, 1025, 257⟩ ∈ (commands (oneEntry (List.replicate 256 97)) true 1 ⟨askLong 1024, []⟩).2.log ∧
    ¬ All Write.InBounds (commands (oneEntry (List.replicate 256 97)) true 1 ⟨askLong 1024, []⟩).2 := by
  have hmem : ⟨.tmp, 1025, 257⟩ ∈
      (commands (oneEntry (List.replicate 256 97)) true 1 ⟨askLong 1024, []⟩).2.log := by
    decide +kernel
  exact ⟨hmem, fun h => absurd (h _ hmem) (by decide)⟩

end Twm.Adb.FileSync.Buffers
