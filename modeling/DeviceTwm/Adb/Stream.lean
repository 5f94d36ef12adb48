import DeviceTwm.Adb.Packet
import DeviceTwm.Lib.Run
import Mathlib.Logic.Function.Basic

/-!
# A stream between two local sockets

Two local sockets that are connected to each other: peers in one process (`direct`), or in two
processes with a remote socket as the peer of each (`remote`). One step is one call of `adb_read` or
`adb_write`, or what happens between two such calls. In a process one thread does all of this: it
handles a descriptor event (`local_socket_event_func`) or a packet (`handle_packet`).

The packets of the stream are delivered in order. What closes one of the two sockets ends the model:
`closed` is set and no step follows. So the transport is online in every step, since going offline
closes its sockets.
-/

open Lib

namespace Twm.Adb.Stream

/-- One of the two sockets. -/
abbrev Side := Bool

inductive Topology
  | direct
  | remote
  deriving DecidableEq

/-- The packets of a stream: `A_OKAY` and `A_WRTE`. -/
inductive Msg
  | okay (arg0 arg1 : Nat)
  | wrte (arg0 arg1 : Nat) (data : List UInt8)
  deriving DecidableEq

/-- What a packet carries for the other side. -/
def Msg.payload : Msg → List UInt8
  | .okay .. => []
  | .wrte _ _ data => data

/-- Who called `enqueue`: the event function of a socket, which has seen the end of the file or
not, or `handle_packet`, for a packet of this remote id. -/
inductive Caller
  | event (i : Side) (eof : Bool)
  | packet (rid : Nat)
  deriving DecidableEq

/-- Where a thread is. -/
inductive Pc
  | idle
  /-- In the `FDE_WRITE` part of the event function; `read` tells whether `FDE_READ` is set too. -/
  | drain (i : Side) (read : Bool)
  /-- In the loop over `adb_read`, with these bytes in the packet. -/
  | fill (i : Side) (buf : List UInt8)
  /-- In the loop of `local_socket_enqueue` on the socket `d`. -/
  | push (d : Side) (p : APacket) (caller : Caller)
  deriving DecidableEq

/-- A local socket. -/
structure Sock where
  id : Nat
  /-- The id of the remote socket that is its peer. -/
  remoteId : Nat
  /-- All that was read from its descriptor. -/
  read : List UInt8
  /-- All that was written to its descriptor. -/
  written : List UInt8
  /-- `pkt_first` and on. -/
  queue : List APacket
  /-- `FDE_READ` and `FDE_WRITE` are wanted. -/
  wantRead : Bool
  wantWrite : Bool

structure Pair where
  topology : Topology
  sock : Side → Sock
  /-- The thread of each process; with `direct` only that of `false` does anything. -/
  pc : Side → Pc
  /-- What each side has sent and the other has not handled yet. -/
  chan : Side → List Msg
  closed : Bool

/-- Two sockets that have just been connected. -/
def Pair.init (topology : Topology) (id : Side → Nat) : Pair where
  topology := topology
  sock := fun i => ⟨id i, id !i, [], [], [], true, false⟩
  pc := fun _ => .idle
  chan := fun _ => []
  closed := false

namespace Pair

variable (s : Pair)

/-- The thread that works on a socket. -/
def thread (i : Side) : Side :=
  match s.topology with
  | .direct => false
  | .remote => i

def setSock (i : Side) (k : Sock) : Pair := { s with sock := Function.update s.sock i k }

def setPc (t : Side) (pc : Pc) : Pair := { s with pc := Function.update s.pc t pc }

/-- `send_packet`. -/
def send (i : Side) (m : Msg) : Pair :=
  { s with chan := Function.update s.chan i (s.chan i ++ [m]) }

def close : Pair := { s with closed := true }

/-- Bytes that go to the descriptor of a socket. -/
def write (i : Side) (b : List UInt8) : Pair :=
  s.setSock i { s.sock i with written := (s.sock i).written ++ b }

def setQueue (i : Side) (q : List APacket) : Pair := s.setSock i { s.sock i with queue := q }

def wantRead (i : Side) (b : Bool) : Pair := s.setSock i { s.sock i with wantRead := b }

def wantWrite (i : Side) (b : Bool) : Pair := s.setSock i { s.sock i with wantWrite := b }

/-- `s->peer->ready(s->peer)`: `local_socket_ready` of the other socket, or
`remote_socket_ready`. -/
def peerReady (i : Side) : Pair :=
  match s.topology with
  | .direct => s.wantRead (!i) true
  | .remote => s.send i (.okay (s.sock i).id (s.sock i).remoteId)

/-- The end of `local_socket_enqueue`: the packet goes to the tail of the queue. -/
def queueTail (d : Side) (p : APacket) : Pair :=
  (s.setQueue d ((s.sock d).queue ++ [p])).wantWrite d true

/-- What the caller of `enqueue` does with its result. -/
def enqueued (t d : Side) (backlog : Bool) : Caller → Pair
  | .event i eof =>
    let s := if backlog then s.wantRead i false else s
    if eof then s.close else s.setPc t .idle
  | .packet rid =>
    let s := if backlog then s else s.send d (.okay (s.sock d).id rid)
    s.setPc t .idle

/-- `local_socket_enqueue` on the socket `d`, up to its first write. -/
def enqueue (t d : Side) (data : List UInt8) (caller : Caller) : Pair :=
  if (s.sock d).queue = [] then s.setPc t (.push d (.full data) caller)
  else (s.queueTail d (.full data)).enqueued t d true caller

/-- A round of the loop in `local_socket_enqueue`. -/
def pushStep (t d : Side) (p : APacket) (caller : Caller) (w : WriteResult) : Pair :=
  if p.len = 0 then s.enqueued t d false caller
  else
    let s := s.write d (sent p w)
    match fastWrite p w with
    | .more p => s.setPc t (.push d p caller)
    | .block => (s.queueTail d p).enqueued t d true caller
    | .close => s.close

/-- A round of the `FDE_WRITE` part of `local_socket_event_func`. -/
def drainStep (t i : Side) (read : Bool) (w : WriteResult) : Pair :=
  match (s.sock i).queue with
  | [] => ((s.wantWrite i false).peerReady i).setPc t (if read then .fill i [] else .idle)
  | p :: q =>
    if p.len = 0 then s.setQueue i q
    else
      let s := s.write i (sent p w)
      match drainWrite p w with
      | .more p => s.setQueue i (p :: q)
      | .block => s.setPc t .idle
      | .close => s.close

/-- The end of the `FDE_READ` part: the packet goes to the peer. -/
def readDone (t i : Side) (buf : List UInt8) (eof : Bool) : Pair :=
  if buf = [] then if eof then s.close else s.setPc t .idle
  else
    match s.topology with
    | .direct => s.enqueue t (!i) buf (.event i eof)
    | .remote =>
      -- `remote_socket_enqueue` always returns 1
      let s := s.send i (.wrte (s.sock i).id (s.sock i).remoteId buf)
      s.enqueued t i true (.event i eof)

/-- A round of the loop over `adb_read`. `none`: more bytes than were asked for. -/
def fillStep (t i : Side) (buf : List UInt8) (r : FdRead) : Option Pair :=
  if maxPayload ≤ buf.length then some (s.readDone t i buf false)
  else
    match r with
    | .got [] | .fail => some (s.readDone t i buf true)
    | .got b =>
      if b.length ≤ maxPayload - buf.length then
        some ((s.setSock i { s.sock i with read := (s.sock i).read ++ b }).setPc t
          (.fill i (buf ++ b)))
      else none
    | .again => some (s.readDone t i buf false)
    | .intr => some s

/-- `handle_packet` of the next packet for the socket `i`. -/
def handle (i : Side) : Option Pair :=
  match s.chan (!i) with
  | [] => none
  | m :: rest =>
    let s := { s with chan := Function.update s.chan (!i) rest }
    match m with
    | .okay _ arg1 => some (if arg1 = (s.sock i).id then s.wantRead i true else s)
    | .wrte arg0 arg1 data =>
      some (if arg1 = (s.sock i).id then s.enqueue i i data (.packet arg0) else s)

end Pair

/-! ## Steps -/

inductive SStep
  /-- `local_socket_event_func` is called with these events. -/
  | event (i : Side) (write read : Bool)
  /-- A packet is handled. -/
  | handle (i : Side)
  /-- The next round of what a thread does; `w` and `r` are what a write or a read returns. -/
  | thread (t : Side) (w : WriteResult) (r : FdRead)
  /-- One of the sockets is closed for another reason. -/
  | close
  deriving DecidableEq

/-- A write returns no more than it was given. -/
def fits (p : APacket) : WriteResult → Bool
  | .wrote n => n ≤ p.len
  | _ => true

def sstep (s : Pair) (l : SStep) : Option Pair :=
  if s.closed then none
  else
    match l with
    | .event i write read =>
      if s.pc (s.thread i) = .idle then
        some (s.setPc (s.thread i)
          (if write then .drain i read else if read then .fill i [] else .idle))
      else none
    | .handle i =>
      if s.topology = .remote ∧ s.pc i = .idle then s.handle i else none
    | .thread t w r =>
      match s.pc t with
      | .idle => none
      | .drain i read =>
        if (s.sock i).queue.head?.all (fits · w) then some (s.drainStep t i read w) else none
      | .fill i buf => s.fillStep t i buf r
      | .push d p caller => if fits p w then some (s.pushStep t d p caller w) else none
    | .close => some s.close

end Twm.Adb.Stream
