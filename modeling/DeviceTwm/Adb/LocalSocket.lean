import DeviceTwm.Adb.Packet
import DeviceTwm.Lib.Run

/-!
# A socket and its descriptor

One socket of `local_socket_list` or of the closing list: a local socket with a descriptor
(`sockets.c`), or one of the services `jdwp` and `track-jdwp` (`jdwp_service.c`). A step is what the
one thread of `adb` does with it at a time: a round of `select`, a call of its event function, a
packet that names it, a call of its peer, or a change of the list of processes.

* `Fde`: the events that are wanted, and those that were reported and wait on the pending list.
* `Peer`: a remote socket, a smart socket, or another socket of this process. What the last two do
  when they are given a packet is an input (`Enqueue`).
* `log`: the packets of the stream, in order. `owed`, `written` and `failed` are about a socket on
  the closing list: what was queued when it was put there, what was written since, and whether a write
  failed with an error since.
-/

namespace Twm.Adb.LocalSocket

/-! ## `fdevent` -/

structure Fde where
  /-- `state & FDE_EVENTMASK`. -/
  wantRead : Bool
  wantWrite : Bool
  /-- `state & FDE_PENDING`. -/
  pending : Bool
  /-- `events`. -/
  evRead : Bool
  evWrite : Bool
  deriving DecidableEq

namespace Fde

/-- `fdevent_install`. -/
def init : Fde := ⟨false, false, false, false, false⟩

variable (f : Fde)

/-- `fdevent_set`. Of the events that wait it drops those that are wanted. -/
def set (read write : Bool) : Fde :=
  if f.wantRead = read ∧ f.wantWrite = write then f
  else
    let f := { f with wantRead := read, wantWrite := write }
    if f.pending then
      let f := { f with evRead := f.evRead && !read, evWrite := f.evWrite && !write }
      { f with pending := f.evRead || f.evWrite }
    else f

def addRead : Fde := f.set true f.wantWrite
def addWrite : Fde := f.set f.wantRead true
def delRead : Fde := f.set false f.wantWrite
def delWrite : Fde := f.set f.wantRead false

/-- `fdevent_process`, when `select` reports these of the wanted events. -/
def process (read write : Bool) : Fde :=
  let read := read && f.wantRead
  let write := write && f.wantWrite
  if read || write then
    { f with evRead := f.evRead || read, evWrite := f.evWrite || write, pending := true }
  else f

/-- `fdevent_loop` takes it from the pending list. -/
def dequeue : Fde := { f with pending := false, evRead := false, evWrite := false }

end Fde

/-! ## The socket -/

inductive Kind
  | fd
  | jdwp (pass : Bool)
  | jdwpTracker (needUpdate : Bool)
  deriving DecidableEq

inductive Peer
  | none
  | remote
  | smart
  /-- A socket of this process. -/
  | other
  deriving DecidableEq

inductive Status
  | live
  | destroyed
  /-- A pointer was used that is null, or freed. -/
  | crashed
  deriving DecidableEq

/-- A packet of the stream; `gotOkay` is one from the transport of the stream. -/
inductive Event
  | sentOpen
  | sentOkay
  | sentWrte (data : List UInt8)
  | sentClse
  | gotOkay
  deriving DecidableEq

structure Sock where
  kind : Kind
  peer : Peer
  /-- `ready` and `close` are `local_socket_ready_notify` and `local_socket_close_notify`. -/
  notify : Bool
  queue : List APacket
  closing : Bool
  status : Status
  fde : Fde
  log : List Event
  owed : List UInt8
  written : List UInt8
  failed : Bool
  deriving DecidableEq

/-- What a smart socket, or a socket of this process, does with a packet. -/
inductive Enqueue
  /-- It returns 0. -/
  | takes
  /-- It returns 1. -/
  | backlog
  /-- A local socket fails to write, closes this one and returns 1. -/
  | closesUs
  /-- A smart socket opens a stream and returns 1. -/
  | opens
  /-- A smart socket connects this one to a service and returns 0. A device tracker at once sends the
  list of devices, which is written to this socket. -/
  | connects (devices : Option (List UInt8 × List WriteResult))
  /-- A smart socket, or a device tracker, closes this one and returns -1. -/
  | refuses
  deriving DecidableEq

/-- How the loop of `local_socket_enqueue` ends. -/
inductive Pushed
  | done
  | backlog (p : APacket)
  | failed

/-- How the loops of the `FDE_WRITE` part of `local_socket_event_func` end. -/
inductive Drained
  | empty
  | blocked
  /-- A write failed with an error, or wrote nothing. -/
  | failed (error : Bool)
  deriving DecidableEq

/-- What is queued for a descriptor. -/
def queued (q : List APacket) : List UInt8 := q.flatMap APacket.bytes

namespace Sock

variable (s : Sock)

def note (e : Event) : Sock := { s with log := s.log ++ [e] }

/-- `s->peer->close(s->peer)`, after `s->peer->peer` was cleared. -/
def closePeer : Sock :=
  match s.peer with
  | .remote => { s with peer := .none }.note .sentClse
  | _ => { s with peer := .none }

@[simp] theorem closePeer_kind : s.closePeer.kind = s.kind := by unfold closePeer; split <;> rfl
@[simp] theorem closePeer_peer : s.closePeer.peer = .none := by unfold closePeer; split <;> rfl
@[simp] theorem closePeer_queue : s.closePeer.queue = s.queue := by unfold closePeer; split <;> rfl
@[simp] theorem closePeer_closing : s.closePeer.closing = s.closing := by
  unfold closePeer; split <;> rfl
@[simp] theorem closePeer_status : s.closePeer.status = s.status := by
  unfold closePeer; split <;> rfl
@[simp] theorem closePeer_fde : s.closePeer.fde = s.fde := by unfold closePeer; split <;> rfl

/-- `local_socket_close_locked`. -/
def closeLocked : Sock :=
  let s := s.closePeer
  if s.closing ∨ s.queue = [] then { s with status := .destroyed }
  else
    { s with
      closing := true, fde := s.fde.delRead,
      owed := queued s.queue, written := [], failed := false }

/-- `s->close(s)`. -/
def close : Sock :=
  match s.kind with
  | .fd => { s with notify := false }.closeLocked
  | _ => { s.closePeer with status := .destroyed }

/-- The peer has closed, and closes this socket. -/
def peerCloses : Sock := { s with peer := .none }.close

/-! ## `enqueue` and `ready` -/

/-- The loop of `local_socket_enqueue`. When the results run out, the next one is `EAGAIN`. -/
def push : List WriteResult → APacket → Pushed
  | [], p => if p.len = 0 then .done else .backlog p
  | w :: ws, p =>
    if p.len = 0 then .done
    else
      match fastWrite p w with
      | .more p => push ws p
      | .block => .backlog p
      | .close => .failed

/-- The packet goes to the tail of the queue. -/
def queueTail (p : APacket) : Sock :=
  { s with queue := s.queue ++ [p], fde := s.fde.addWrite }

/-- `s->enqueue(s, p)`: whether it returns 0. -/
def enqueue (data : List UInt8) (ws : List WriteResult) : Bool × Sock :=
  match s.kind with
  | .fd =>
    if s.queue = [] then
      match push ws (.full data) with
      | .done => (true, s)
      | .backlog p => (false, s.queueTail p)
      | .failed => (false, s.close)
    else (false, s.queueTail (.full data))
  | _ =>
    -- you can't write to this socket: the peer is closed, which closes this socket
    (false, { s.closePeer with status := .destroyed })

/-- `s->ready(s)`; `list` is the list of processes. -/
def ready (list : List UInt8) : Sock :=
  match s.kind with
  | .fd => { s with notify := false, fde := s.fde.addRead }
  | .jdwp false => { s with kind := .jdwp true }.note (.sentWrte list)
  | .jdwp true => { s.closePeer with status := .destroyed }
  | .jdwpTracker true => { s with kind := .jdwpTracker false }.note (.sentWrte list)
  | .jdwpTracker false => s

/-! ## `local_socket_event_func` -/

/-- The loops of the `FDE_WRITE` part: the packets that are left, the bytes that were written, and how
they end. When the results run out, the next one is `EAGAIN`. -/
def drain : List WriteResult → List APacket → List APacket × List UInt8 × Drained
  | [], q =>
    match q.dropWhile (·.len = 0) with
    | [] => ([], [], .empty)
    | p :: q => (p :: q, [], .blocked)
  | w :: ws, q =>
    match q.dropWhile (·.len = 0) with
    | [] => ([], [], .empty)
    | p :: q =>
      match drainWrite p w with
      | .more p' =>
        let (q, out, d) := drain ws (p' :: q)
        (q, sent p w ++ out, d)
      | .block => (p :: q, [], .blocked)
      | .close => (p :: q, [], .failed (w = .fail))

/-- The `FDE_WRITE` part, and whether the function goes on to the `FDE_READ` part. -/
def writePart (ws : List WriteResult) : Bool × Sock :=
  let (q, out, d) := drain ws s.queue
  let s := { s with queue := q, written := s.written ++ out }
  match d with
  | .blocked => (false, s)
  | .failed error => (false, { s with failed := error }.close)
  | .empty =>
    if s.closing then (false, s.close)
    else
      let s := { s with fde := s.fde.delWrite }
      match s.peer with
      | .none => (false, { s with status := .crashed })
      | .remote => (true, s.note .sentOkay)
      | _ => (true, s)

/-- The loop over `adb_read`: the bytes of the packet, and whether the file has ended. -/
def fill : List FdRead → List UInt8 → List UInt8 × Bool
  | [], buf => (buf, false)
  | r :: rs, buf =>
    if maxPayload ≤ buf.length then (buf, false)
    else
      match r with
      | .got [] | .fail => (buf, true)
      | .got b => fill rs (buf ++ b.take (maxPayload - buf.length))
      | .again => (buf, false)
      | .intr => fill rs buf

/-- The packet is passed on. `none`: the function returns at once. -/
def pass (buf : List UInt8) (e : Enqueue) : Option Sock :=
  match s.peer, e with
  | .none, _ => some s
  | .remote, _ =>
    let s := s.note (.sentWrte buf)
    some { s with fde := s.fde.delRead }
  | .smart, .opens =>
    let s := { s with peer := .none, notify := true }.note .sentOpen
    some { s with fde := s.fde.delRead }
  | .smart, .connects none => some { s with peer := .other, notify := false }
  | .smart, .connects (some (data, ws)) =>
    some ({ s with peer := .other, notify := false }.enqueue data ws).2
  | .smart, .refuses | .other, .refuses => none
  | .other, .backlog => some { s with fde := s.fde.delRead }
  | .other, .closesUs =>
    let s := s.peerCloses
    -- the descriptor of the socket is used again, also when the socket is gone
    some (if s.status = .live then { s with fde := s.fde.delRead } else { s with status := .crashed })
  | _, _ => some s

/-- The end of the `FDE_READ` part, at the end of the file. -/
def endOfFile : Sock := if s.status = .live then s.close else { s with status := .crashed }

/-- The `FDE_READ` part. -/
def readPart (rs : List FdRead) (e : Enqueue) : Sock :=
  let (buf, eof) := fill rs []
  match if buf = [] then some s else s.pass buf e with
  | none => s.peerCloses
  | some s => if eof then s.endOfFile else s

/-- `local_socket_event_func`. -/
def eventFunc (write read : Bool) (ws : List WriteResult) (rs : List FdRead) (e : Enqueue) : Sock :=
  let (on, s) := if write then s.writePart ws else (true, s)
  if on ∧ read then s.readPart rs e else s

end Sock

/-! ## Steps -/

inductive Step
  /-- A round of `select` reports these events. -/
  | select (read write : Bool)
  /-- The event function is called; its reads, writes and packets end like this. -/
  | dispatch (ws : List WriteResult) (rs : List FdRead) (e : Enqueue)
  /-- `handle_packet` for packets that name the socket; `own`: from the transport of the stream. -/
  | okay (own : Bool) (list : List UInt8)
  | wrte (data : List UInt8) (ws : List WriteResult)
  | clse
  /-- The peer calls. -/
  | peerCloses
  | peerEnqueue (data : List UInt8) (ws : List WriteResult)
  | peerReady
  /-- `close_all_sockets`. -/
  | closeAll
  /-- `jdwp_process_list_updated`. -/
  | listUpdated (list : List UInt8)
  deriving DecidableEq

namespace Sock

variable (s : Sock)

/-- `find_local_socket` finds it. -/
def Listed : Prop := s.status = .live ∧ s.closing = false

instance : Decidable s.Listed := inferInstanceAs (Decidable (_ ∧ _))

/-- `A_OKAY` for the socket. -/
def handleOkay (own : Bool) (list : List UInt8) : Sock :=
  let s := if own ∨ s.peer = .none then s.note .gotOkay else s
  let s := if s.peer = .none then { s with peer := .remote } else s
  s.ready list

/-- `A_WRTE` for the socket. -/
def handleWrte (data : List UInt8) (ws : List WriteResult) : Sock :=
  let (taken, s) := s.enqueue data ws
  if taken then s.note .sentOkay else s

end Sock

def step (s : Sock) : Step → Option Sock
  | .select read write =>
    if s.status = .live ∧ s.kind = .fd then some { s with fde := s.fde.process read write } else none
  | .dispatch ws rs e =>
    if s.status = .live ∧ s.kind = .fd ∧ s.fde.pending then
      some ({ s with fde := s.fde.dequeue }.eventFunc s.fde.evWrite s.fde.evRead ws rs e)
    else none
  | .okay own list => if s.Listed then some (s.handleOkay own list) else none
  | .wrte data ws => if s.Listed then some (s.handleWrte data ws) else none
  | .clse => if s.Listed then some s.close else none
  | .peerCloses => if s.Listed ∧ s.peer ≠ .none then some s.peerCloses else none
  | .peerEnqueue data ws =>
    if s.Listed ∧ s.peer = .other then some (s.enqueue data ws).2 else none
  | .peerReady => if s.Listed ∧ s.peer = .other then some (s.ready []) else none
  | .closeAll => if s.Listed then some s.closeLocked else none
  | .listUpdated list =>
    match s.kind with
    | .jdwpTracker _ => if s.Listed then some (s.note (.sentWrte list)) else none
    | _ => none

/-- What a step needs, and what it makes of the socket. -/
def StepsTo (s : Sock) : Step → Sock → Prop
  | .select read write, s' =>
    (s.status = .live ∧ s.kind = .fd) ∧ { s with fde := s.fde.process read write } = s'
  | .dispatch ws rs e, s' =>
    (s.status = .live ∧ s.kind = .fd ∧ s.fde.pending) ∧
      { s with fde := s.fde.dequeue }.eventFunc s.fde.evWrite s.fde.evRead ws rs e = s'
  | .okay own list, s' => s.Listed ∧ s.handleOkay own list = s'
  | .wrte data ws, s' => s.Listed ∧ s.handleWrte data ws = s'
  | .clse, s' => s.Listed ∧ s.close = s'
  | .peerCloses, s' => (s.Listed ∧ s.peer ≠ .none) ∧ s.peerCloses = s'
  | .peerEnqueue data ws, s' => (s.Listed ∧ s.peer = .other) ∧ (s.enqueue data ws).2 = s'
  | .peerReady, s' => (s.Listed ∧ s.peer = .other) ∧ s.ready [] = s'
  | .closeAll, s' => s.Listed ∧ s.closeLocked = s'
  | .listUpdated list, s' =>
    (s.Listed ∧ ∃ needUpdate, s.kind = .jdwpTracker needUpdate) ∧ s.note (.sentWrte list) = s'

theorem step_stepsTo {s s' : Sock} {l : Step} (hs : step s l = some s') : StepsTo s l s' := by
  cases l with
  | listUpdated list =>
    simp only [step] at hs
    split at hs
    · next b hk =>
      obtain ⟨hl, hs⟩ := Option.ite_none_right_eq_some.mp hs
      exact ⟨⟨hl, b, hk⟩, Option.some.inj hs⟩
    · cases hs
  | _ =>
    obtain ⟨hl, hs⟩ := Option.ite_none_right_eq_some.mp hs
    exact ⟨hl, Option.some.inj hs⟩

/-- How a socket comes to be. -/
inductive Start
  /-- For a service that the other side opened. -/
  | service
  /-- For a client of the server. -/
  | client
  /-- For a connection that is forwarded; the stream is being opened. -/
  | forward
  /-- For a service of this process that a client asked for. -/
  | hostService
  | jdwp (list : List UInt8)
  | jdwpTracker (list : List UInt8)

/-- A new socket. -/
def Sock.new (kind : Kind) (peer : Peer) (log : List Event) : Sock :=
  { kind := kind, peer := peer, notify := false, queue := [], closing := false, status := .live,
    fde := Fde.init, log := log, owed := [], written := [], failed := false }

/-- `handle_packet` for `A_OPEN`, `connect_to_smartsocket`, `listener_event_func` and
`smart_socket_enqueue`, up to the first call of `ready`. -/
def Sock.init : Start → Sock
  | .service => (Sock.new .fd .remote [.sentOkay]).ready []
  | .client => (Sock.new .fd .smart []).ready []
  | .forward => Sock.new .fd .none [.sentOpen]
  | .hostService => (Sock.new .fd .other []).ready []
  | .jdwp list => (Sock.new (.jdwp false) .remote [.sentOkay]).ready list
  | .jdwpTracker list => (Sock.new (.jdwpTracker true) .remote [.sentOkay]).ready list

end Twm.Adb.LocalSocket
