import DeviceTwm.Lib.Bytes
import DeviceTwm.Lib.Run

/-!
# Solicited responses

The command socket of `ril.cpp` and the responses written to it. The dispatch thread accepts a
connection, reads requests from it and closes it; vendor threads call `RIL_onRequestComplete` at
any time. One step is one section under a mutex, one access of `s_fdCommand`, or one system call.

A descriptor is a number: `fds` has the connection behind each number that `accept` gave out and
that is open. A request has the connection it came on (`origin`), which the source does not record.
The other descriptors of the process are left out, and so is the debug port.
-/

open Lib

namespace Twm.Ril

/-- `MAX_COMMAND_BYTES`. -/
def maxCommandBytes : Nat := 8 * 1024

/-- `RequestInfo`. -/
structure Request where
  /-- Its address, the `RIL_Token` of the vendor. -/
  id : Nat
  /-- The connection that it was read from; `none` for a local one. -/
  origin : Option Nat
  token : Nat
  cancelled : Bool
  /-- `local`. -/
  isLocal : Bool
  deriving DecidableEq

/-- What the vendor passes as `response`, as the request's `responseFunction` puts it in the
parcel, and what that function returns. -/
structure Payload where
  bytes : List UInt8
  ret : Nat
  deriving DecidableEq

/-- The parcel of a response. An error of `responseFunction` is written over `e`. -/
def solicited (token e : Nat) : Option Payload → List UInt8
  | none => le32 0 ++ le32 token ++ le32 e
  | some p => le32 0 ++ le32 token ++ le32 (if p.ret = 0 then e else p.ret) ++ p.bytes

/-- `htonl(dataSize)`. -/
def header (data : List UInt8) : List UInt8 := (le32 data.length).reverse

/-- Where a call of `RIL_onRequestComplete`, or another call of `sendResponse`, is. `req` is the
request that it answers. -/
inductive Call
  /-- The request is off the list. -/
  | dequeued (req : Request) (e : Nat) (response : Option Payload)
  /-- At `int fd = s_fdCommand`. -/
  | send (req : Option Request) (data : List UInt8)
  /-- At the tests of `s_fdCommand` and of the size. -/
  | test (req : Option Request) (data : List UInt8) (fd : Option Nat)
  | lock (req : Option Request) (data : List UInt8) (fd : Option Nat)
  /-- In `blockingWrite` of the header. -/
  | head (req : Option Request) (left data : List UInt8) (fd : Option Nat)
  /-- In `blockingWrite` of the data. -/
  | body (req : Option Request) (left : List UInt8) (fd : Option Nat)
  /-- A write failed: at `close(fd)`. -/
  | failed (req : Option Request) (fd : Option Nat)
  | unlock (req : Option Request)
  | done
  deriving DecidableEq

/-- The request that a call has not freed yet. -/
def Call.req : Call → Option Request
  | .dequeued req _ _ => some req
  | .send req _ | .test req _ _ | .lock req _ _ | .head req _ _ _ | .body req _ _ | .failed req _
  | .unlock req => req
  | .done => none

/-- Where the dispatch thread is. -/
inductive Dispatch
  /-- In the event loop. -/
  | ready
  /-- After `close(s_fdCommand)`. -/
  | closed
  /-- After `s_fdCommand = -1`. -/
  | cleared
  /-- In `listenCallback`, at the test of the peer's credentials. -/
  | admitting
  deriving DecidableEq

/-- One `write` of a solicited response. -/
structure Write where
  req : Request
  conn : Nat
  bytes : List UInt8
  deriving DecidableEq

structure State where
  fds : Nat → Option Nat
  /-- `s_fdCommand`; `none` is -1. -/
  fdCommand : Option Nat
  /-- `s_listen_event` is in the watch table. -/
  listening : Bool
  dispatch : Dispatch
  /-- `s_pendingRequests`. -/
  pending : List Request
  calls : List Call
  /-- The call that holds `s_writeMutex`. -/
  writer : Option Nat
  /-- How many connections were accepted. -/
  accepted : Nat
  written : List Write

/-- After `RIL_register`. -/
def State.init : State where
  fds := fun _ => none
  fdCommand := none
  listening := true
  dispatch := .ready
  pending := []
  calls := []
  writer := none
  accepted := 0
  written := []

namespace State

variable (s : State)

/-- The address of a request that is not freed. -/
def inUse (id : Nat) : Bool :=
  s.pending.any (·.id = id) || s.calls.any fun k => k.req.any (·.id = id)

/-- A call at a new place. -/
def setCall (v : Nat) (k : Call) : State := { s with calls := s.calls.set v k }

/-- `close(fd)`. -/
def close : Option Nat → State
  | none => s
  | some fd => { s with fds := Function.update s.fds fd none }

/-- Bytes that went out on a connection. -/
def log (conn : Nat) (bytes : List UInt8) : Option Request → State
  | none => s
  | some req => { s with written := s.written ++ [⟨req, conn, bytes⟩] }

/-- One `write` in `blockingWrite`: an error, or so many of the bytes that are left. A descriptor
that is not open gives an error. -/
def write (v : Nat) (req : Option Request) (fd : Option Nat) (left : List UInt8)
    (next : List UInt8 → Call) : Option Nat → Option State
  | none => some (s.setCall v (.failed req fd))
  | some n =>
    match fd.bind s.fds with
    | none => none
    | some conn =>
      if n ≤ left.length then some ((s.setCall v (next (left.drop n))).log conn (left.take n) req)
      else none

/-- The next step of a call; `out` is the result of a `write`. -/
def callStep (v : Nat) (out : Option Nat) : Option State :=
  match s.calls[v]? with
  | some (.dequeued req e response) =>
    if req.isLocal ∨ req.cancelled then some (s.setCall v .done)
    else some (s.setCall v (.send (some req) (solicited req.token e response)))
  | some (.send req data) => some (s.setCall v (.test req data s.fdCommand))
  | some (.test req data fd) =>
    if s.fdCommand = none ∨ maxCommandBytes < data.length then some (s.setCall v .done)
    else some (s.setCall v (.lock req data fd))
  | some (.lock req data fd) =>
    if s.writer = none then
      some { s.setCall v (.head req (header data) data fd) with writer := some v }
    else none
  | some (.head req left data fd) =>
    if left = [] then some (s.setCall v (.body req data fd))
    else s.write v req fd left (fun left => .head req left data fd) out
  | some (.body req left fd) =>
    if left = [] then some (s.setCall v (.unlock req))
    else s.write v req fd left (fun left => .body req left fd) out
  | some (.failed req fd) => some ((s.close fd).setCall v (.unlock req))
  | some (.unlock _) => some { s.setCall v .done with writer := none }
  | some .done | none => none

end State

/-! ## Steps -/

inductive RStep
  /-- `processCommandBuffer`: a request is read and put on the list. -/
  | receive (id token : Nat)
  /-- `issueLocalRequest`. -/
  | issueLocal (id : Nat)
  /-- `processCommandsCallback` at the end of the stream, or after an error. -/
  | hangUp
  /-- `s_fdCommand = -1`. -/
  | clear
  /-- `onCommandsSocketClosed`. -/
  | cancel
  /-- `listenCallback` gets this descriptor from `accept`. -/
  | accept (fd : Nat)
  /-- The peer is the phone process. -/
  | welcome
  | reject
  /-- `RIL_onRequestComplete` is called, up to `checkAndDequeueRequestInfo`. -/
  | complete (id e : Nat) (response : Option Payload)
  /-- Another response is sent, for no request. -/
  | unsolicited (data : List UInt8)
  /-- The next step of a call. -/
  | call (v : Nat) (out : Option Nat)
  deriving DecidableEq

def rstep (s : State) : RStep → Option State
  | .receive id token =>
    match s.fdCommand.bind s.fds with
    | none => none
    | some conn =>
      if s.dispatch = .ready ∧ s.inUse id = false then
        some { s with pending := ⟨id, some conn, token, false, false⟩ :: s.pending }
      else none
  | .issueLocal id =>
    if s.inUse id = false then
      some { s with pending := ⟨id, none, 0xffffffff, false, true⟩ :: s.pending }
    else none
  | .hangUp =>
    if s.dispatch = .ready ∧ s.fdCommand ≠ none then
      some { s.close s.fdCommand with dispatch := .closed }
    else none
  | .clear =>
    if s.dispatch = .closed then some { s with fdCommand := none, dispatch := .cleared } else none
  | .cancel =>
    if s.dispatch = .cleared then
      -- the listen event is back in the watch table by the time the callback returns
      some { s with
        pending := s.pending.map fun req => { req with cancelled := true }
        listening := true
        dispatch := .ready }
    else none
  | .accept fd =>
    -- `assert (s_fdCommand < 0)`
    if s.dispatch = .ready ∧ s.listening ∧ s.fdCommand = none ∧ s.fds fd = none then
      some { s with
        fds := Function.update s.fds fd (some s.accepted)
        fdCommand := some fd
        listening := false
        dispatch := .admitting
        accepted := s.accepted + 1 }
    else none
  | .welcome => if s.dispatch = .admitting then some { s with dispatch := .ready } else none
  | .reject =>
    if s.dispatch = .admitting then some { s.close s.fdCommand with dispatch := .closed } else none
  | .complete id e response =>
    match s.pending.find? (·.id = id) with
    | none => some s
    | some req =>
      some { s with
        pending := s.pending.eraseP (·.id = id)
        calls := s.calls ++ [.dequeued req e response] }
  | .unsolicited data => some { s with calls := s.calls ++ [.send none data] }
  | .call v out => s.callStep v out

end Twm.Ril
