import DeviceTwm.Adb.DeviceList
import DeviceTwm.Adb.FdeventPending

/-!
# Debuggable processes (`jdwp_service.c`)

A process that can be debugged connects to the control socket of `adbd` and writes its pid there. For a
debugger `adbd` makes a pair of sockets; it keeps one end and passes the other one to the process, with
`sendmsg` on the control socket. Until the control socket can be written, that end waits in `out_fds`.

* `JdwpProcess`, `jdwpProcessEvent` and `createJdwpConnectionFd`: the records and the functions of the
  source. The fdevent of a record is as in `DeviceTwm/Adb/Fdevent.lean`; how `fdevent_add` and
  `fdevent_del` change it is `call_fde` (`DeviceTwm/Adb/FdeventPending.lean`).
* `Act`: what `adbd` does with an end that is meant for a process. Nothing in the source keeps this log.
* `step`: one call; `none` when a system call of it does not return, or for a record that is not there.

What the trackers of the pid list are sent is left out: it changes no record.
-/

namespace Twm.Adb.Jdwp

open Select (Fdevent Word fdeRead fdeWrite fdeActive fdeDontClose)
open DeviceList (strtoul16)

def maxOutFds : Nat := 4

structure JdwpProcess where
  pid : Int
  socket : Nat
  fde : Fdevent
  /-- `in_buff`, up to `in_len`. -/
  inBuff : List UInt8
  outFds : Nat → Nat
  outCount : Nat

/-- What `adbd` does with an end of a pair that it makes for a process. -/
inductive Act
  | created (fd : Nat)
  | sent (fd : Nat)
  | closed (fd : Nat)
  deriving DecidableEq

/-- What `recv` returns; no bytes are the end of the stream. -/
inductive Recv
  | got (bytes : List UInt8)
  | eintr
  | eagain
  | failed

inductive Sendmsg
  | sent
  | eintr
  | failed

/-- Where `jdwp_process_event` goes from the part for `FDE_READ`: on, back to its caller, or to
`CloseProcess`. -/
inductive Exit
  | goOn
  | back
  | close
  deriving DecidableEq

/-- The loop that reads the pid into `in_buff`. -/
def recvPid (buf : List UInt8) (rs : List Recv) : Option (Exit × List UInt8) :=
  if 4 ≤ buf.length then some (.goOn, buf)
  else
    match rs with
    | [] => none
    | .eintr :: rs => recvPid buf rs
    | .eagain :: _ => some (.back, buf)
    | .failed :: _ => some (.close, buf)
    | .got bytes :: rs =>
      match bytes.take (4 - buf.length) with
      | [] => some (.close, buf)
      | b :: bs => recvPid (buf ++ b :: bs) rs

/-- The loop that waits for the end of the control socket. -/
def drain : List Recv → Option Exit
  | [] => none
  | .eintr :: rs => drain rs
  | .eagain :: _ => some .back
  | .failed :: _ => some .close
  | .got bytes :: rs => if bytes = [] then some .close else drain rs

/-- `sscanf(temp, "%04x", &proc->pid)`. -/
def scanPid (temp : List UInt8) : Option Int :=
  let digits := (signPart (temp.dropWhile fun b => b = 32 ∨ (9 ≤ b ∧ b ≤ 13))).2
  if (digits.head?.bind digit).any (· < 16) then
    let n := strtoul16 temp
    some (if n < 2 ^ 31 then (n : Int) else n - 2 ^ 32)
  else none

/-- `sendmsg`, until it is not interrupted: whether it sent. -/
def sendFd : List Sendmsg → Option Bool
  | [] => none
  | .sent :: _ => some true
  | .eintr :: rs => sendFd rs
  | .failed :: _ => some false

namespace JdwpProcess

variable (p : JdwpProcess)

def alloc (socket : Nat) : JdwpProcess where
  pid := -1
  socket := socket
  fde := Fdevent.rearms ⟨socket, fdeActive ||| fdeDontClose, 0⟩ [.add (fdeRead.setWidth 32)]
  inBuff := []
  outFds _ := 0
  outCount := 0

/-- What waits in `out_fds`, first to last. -/
def queued : List Nat := (List.range p.outCount).map p.outFds

/-- `jdwp_process_free`, for the descriptors in `out_fds`. -/
def free : List Act := p.queued.map .closed

/-- A new end goes to the tail of `out_fds`. -/
def push (fd : Nat) : JdwpProcess :=
  { p with
    outFds := Function.update p.outFds p.outCount fd
    outCount := p.outCount + 1
    fde := if p.outCount + 1 = 1 then p.fde.rearms [.add (fdeWrite.setWidth 32)] else p.fde }

/-- `for (n = 1; n < proc->out_count; n++) proc->out_fds[n-1] = proc->out_fds[n];` -/
def shifted (outFds : Nat → Nat) (outCount : Nat) : Nat → Nat :=
  (List.range' 1 (outCount - 1)).foldl (fun fds n => Function.update fds (n - 1) (fds n)) outFds

/-- The first end has been sent. -/
def pop : JdwpProcess :=
  { p with
    outFds := shifted p.outFds p.outCount
    outCount := p.outCount - 1
    fde := if p.outCount - 1 = 0 then p.fde.rearms [.del (fdeWrite.setWidth 32)] else p.fde }

/-- The part of `jdwp_process_event` for `FDE_READ`. -/
def readEvent (recvs : List Recv) : Option (Exit × JdwpProcess) :=
  if p.pid < 0 then
    match recvPid p.inBuff recvs with
    | none => none
    | some (.goOn, buf) =>
      match scanPid buf with
      | none => some (.close, { p with inBuff := buf })
      | some pid => some (.goOn, { p with inBuff := buf, pid := pid })
    | some (exit, buf) => some (exit, { p with inBuff := buf })
  else
    -- it has said its pid, so this is probably the end of the connection
    (drain recvs).map fun exit => (exit, p)

/-- The part for `FDE_WRITE`; the record is `none` once it is freed. -/
def writeEvent (sends : List Sendmsg) : Option (Option JdwpProcess × List Act) :=
  if 0 < p.outCount then
    match sendFd sends with
    | none => none
    | some false => some (none, p.free)
    | some true => some (some p.pop, [.sent (p.outFds 0)])
  else some (some p, [])

def jdwpProcessEvent (events : Word) (recvs : List Recv) (sends : List Sendmsg) :
    Option (Option JdwpProcess × List Act) :=
  match if events &&& fdeRead ≠ 0 then p.readEvent recvs else some (.goOn, p) with
  | none => none
  | some (.close, p) => some (none, p.free)
  | some (.back, p) => some (some p, [])
  | some (.goOn, p) => if events &&& fdeWrite ≠ 0 then p.writeEvent sends else some (some p, [])

end JdwpProcess

/-- `_jdwp_list`, with what was done for each record; and the same for the records that are freed. -/
structure Registry where
  list : List (JdwpProcess × List Act)
  gone : List (List Act)

def Registry.init : Registry := ⟨[], []⟩

/-- `create_jdwp_connection_fd` on a list; `pair` is what `adb_socketpair` makes. -/
def createJdwpConnectionFd (pid : Int) (pair : Option (Nat × Nat)) :
    List (JdwpProcess × List Act) → Int × List (JdwpProcess × List Act)
  | [] => (-1, [])
  | (p, log) :: rest =>
    if p.pid = pid then
      if maxOutFds ≤ p.outCount then (-1, (p, log) :: rest)
      else
        match pair with
        | none => (-1, (p, log) :: rest)
        | some (fd, fd') => (fd, (p.push fd', log ++ [.created fd']) :: rest)
    else
      let (r, rest) := createJdwpConnectionFd pid pair rest
      (r, (p, log) :: rest)

inductive Step
  /-- A process connects to the control socket. -/
  | accept (socket : Nat)
  /-- The callback of the record at this place of the list. -/
  | event (i : Nat) (events : Word) (recvs : List Recv) (sends : List Sendmsg)
  | create (pid : Int) (pair : Option (Nat × Nat))

def step (s : Registry) : Step → Option Registry
  | .accept socket => some { s with list := s.list ++ [(.alloc socket, [])] }
  | .create pid pair => some { s with list := (createJdwpConnectionFd pid pair s.list).2 }
  | .event i events recvs sends =>
    match s.list[i]? with
    | none => none
    | some (p, log) =>
      match p.jdwpProcessEvent events recvs sends with
      | none => none
      | some (some p', acts) => some { s with list := s.list.set i (p', log ++ acts) }
      | some (none, acts) => some { list := s.list.eraseIdx i, gone := s.gone ++ [log ++ acts] }

end Twm.Adb.Jdwp
