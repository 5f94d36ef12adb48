import DeviceTwm.Adb.SocketFlow
import Mathlib.Algebra.Group.Nat.Defs

/-!
# The sockets of all transports

`local_socket_list` and the closing list of `sockets.c`, which all transports share, and
`handle_packet`. A socket is as in `LocalSocket`; here it also has the transports that it and its peer
belong to.

* `find`: `find_local_socket`. It looks at the id of a packet, and not at the transport.
* `handlePacket`: `handle_packet` on a transport.
* `step`: a packet on a transport; or what else happens to a socket, by `LocalSocket.step`; or a new
  connection of a client, or one that is forwarded.

Sockets are numbered in the order in which they are made; the id is that number modulo `2 ^ 32`. A
device tracker is not in the list, and its transport is null.
-/

namespace Twm.Adb.SocketTable

open LocalSocket

/-- The bytes of a text. -/
def text (s : String) : List UInt8 := s.toList.map fun c => c.toNat.toUInt8

structure Entry where
  sock : Sock
  /-- `s->transport`. -/
  transport : Option Nat
  /-- The transports of its remote sockets, the newest last. -/
  remotes : List Nat
  /-- The transport of its smart socket. -/
  smart : Option Nat
  /-- The socket of the list that is its peer. -/
  partner : Option Nat
  /-- Its peer is a device tracker. -/
  tracker : Bool
  /-- The packets that it was given to write. -/
  given : List (List UInt8)
  deriving DecidableEq

structure State where
  socks : Nat → Option Entry
  made : Nat
  /-- `connection_state != CS_OFFLINE`. -/
  online : Nat → Bool

def State.init : State := ⟨fun _ => none, 0, fun _ => false⟩

inductive Command
  | sync | cnxn | openStream | okay | clse | wrte | unknown
  deriving DecidableEq

structure Packet where
  command : Command
  arg0 : Nat
  arg1 : Nat
  data : List UInt8

/-- What `create_local_service_socket` makes. -/
inductive Service
  | fd | jdwp | trackJdwp

/-- What the rest of the system does while a packet is handled. -/
structure Env where
  service : Option Service
  /-- What the writes to the descriptor of each socket return. -/
  writes : Nat → List WriteResult
  processes : List UInt8
  devices : List UInt8

namespace Entry

variable (e : Entry) (t : Nat)

/-- The socket has a stream on the transport, or is opening one. -/
def Owns : Prop := e.transport = some t ∨ e.sock.peer = .remote ∧ e.remotes.getLast? = some t

/-- The socket or its peer has the transport. -/
def Bound : Prop := e.Owns t ∨ e.sock.peer = .smart ∧ e.smart = some t

instance : Decidable (e.Owns t) := inferInstanceAs (Decidable (_ ∨ _))
instance : Decidable (e.Bound t) := inferInstanceAs (Decidable (_ ∨ _))

/-- A socket that `handle_packet`, `connect_to_smartsocket` or `listener_event_func` makes. -/
def make (start : Start) (transport : Option Nat) (remotes : List Nat) (partner : Option Nat) :
    Entry :=
  ⟨Sock.init start, transport, remotes, none, partner, false, []⟩

/-- `s->enqueue(s, p)`, up to what it does. -/
def give (data : List UInt8) : Entry := { e with given := e.given ++ [data] }

end Entry

namespace State

variable (st : State)

/-- `s->id`. -/
def idOf (n : Nat) : Nat := (n + 1) % 2 ^ 32

/-- `find_local_socket`. -/
def find (id : Nat) : Option (Nat × Entry) :=
  (List.range st.made).findSome? fun n =>
    match st.socks n with
    | none => none
    | some e => if idOf n = id ∧ e.sock.Listed then some (n, e) else none

def put (n : Nat) (e : Option Entry) : State := { st with socks := Function.update st.socks n e }

/-- The socket closes its peer, when that is a socket of the list. -/
def closePartner (e : Entry) (s : Sock) : State :=
  if e.sock.peer = .other ∧ s.peer = .none then
    match e.partner with
    | none => st
    | some m => st.put m ((st.socks m).map fun x => { x with sock := x.sock.peerCloses })
  else st

/-- The socket `n` changes to `s`. -/
def act (n : Nat) (e : Entry) (s : Sock) : State :=
  (st.put n (some { e with sock := s })).closePartner e s

/-- A new socket. -/
def install (e : Option Entry) : State := { st.put st.made e with made := st.made + 1 }

/-! ## `handle_packet` -/

/-- All sockets change, each by itself. -/
def mapSocks (f : Nat → Entry → Entry) : State := { st with socks := fun n => (st.socks n).map (f n) }

/-- `handle_offline`: every remote socket of the transport closes its peer. -/
def handleOffline (t : Nat) : State :=
  { st.mapSocks fun _ e =>
      if e.sock.peer = .remote ∧ e.remotes.getLast? = some t then
        { e with sock := e.sock.peerCloses }
      else e with
    online := Function.update st.online t false }

/-- `update_transports`: the list of devices goes to the peer of every device tracker. -/
def updateTransports (env : Env) : State :=
  st.mapSocks fun n e =>
    if e.tracker = true ∧ e.sock.peer = .other then
      { e.give env.devices with sock := (e.sock.enqueue env.devices (env.writes n)).2 }
    else e

/-- The types of system for which `parse_banner` calls `update_transports`. -/
def announced : List (List UInt8) :=
  ["bootloader", "device", "recovery"].map text

/-- `parse_banner`. -/
def parseBanner (banner : List UInt8) (t : Nat) (env : Env) : State :=
  let st := { st with online := Function.update st.online t true }
  if banner.takeWhile (fun c => c ≠ 0 ∧ c ≠ 58) ∈ announced then st.updateTransports env else st

/-- `A_OPEN`, when there is such a service. -/
def openService (t : Nat) (env : Env) : Service → State
  | .fd => st.install (some (.make .service none [t] none))
  | .jdwp => st.install (some (.make (.jdwp env.processes) none [t] none))
  | .trackJdwp => st.install (some (.make (.jdwpTracker env.processes) none [t] none))

/-- `A_OKAY` for a socket. -/
def okay (t : Nat) (env : Env) (n : Nat) (e : Entry) : State :=
  let e := if e.sock.peer = .none then { e with remotes := e.remotes ++ [t] } else e
  st.act n e (e.sock.handleOkay (e.remotes.getLast? = some t) env.processes)

def handlePacket (t : Nat) (p : Packet) (env : Env) : State :=
  match p.command with
  | .sync => if p.arg0 = 0 then st.handleOffline t else st
  | .cnxn =>
    let st := if st.online t then st.handleOffline t else st
    st.parseBanner p.data t env
  | .openStream =>
    if st.online t then
      match env.service with
      | none => st
      | some service => st.openService t env service
    else st
  | .okay =>
    if st.online t then
      match st.find p.arg1 with
      | none => st
      | some (n, e) => st.okay t env n e
    else st
  | .clse =>
    if st.online t then
      match st.find p.arg1 with
      | none => st
      | some (n, e) => st.act n e e.sock.close
    else st
  | .wrte =>
    if st.online t then
      match st.find p.arg1 with
      | none => st
      | some (n, e) => st.act n (e.give p.data) (e.sock.handleWrte p.data (env.writes n))
    else st
  | .unknown => st

/-! ## Other steps -/

end State

/-- What happens to a socket other than by a packet. -/
def localStep (s : Sock) : Step → Option Sock
  | .okay .. | .wrte .. | .clse => none
  | l => LocalSocket.step s l

theorem localStep_stepsTo {s s' : Sock} {l : Step} (h : localStep s l = some s') :
    StepsTo s l s' := by
  cases l with
  | okay | wrte | clse => cases h
  | _ => exact step_stepsTo h

/-- The event function gives a packet to the smart socket. -/
def asks (s : Sock) (ws : List WriteResult) (rs : List FdRead) : Bool :=
  s.peer = .smart && s.fde.evRead && (!s.fde.evWrite || (s.writePart ws).1) && (Sock.fill rs []).1 ≠ []

/-- The smart socket of the socket connects it to a new socket. -/
def connectsTo (s : Sock) : Step → Bool
  | .dispatch ws rs (.connects none) => asks s ws rs
  | _ => false

/-- The packets that the socket is given in the step. -/
def givenIn (s : Sock) : Step → List (List UInt8)
  | .peerEnqueue data _ => [data]
  | .dispatch ws rs (.connects (some (data, _))) => if asks s ws rs then [data] else []
  | _ => []

/-- Its smart socket connects it to a device tracker. -/
def tracks (s s' : Sock) : Step → Bool
  | .dispatch _ _ (.connects (some _)) => s.peer = .smart && s'.peer = .other
  | _ => false

inductive Event
  | packet (t : Nat) (p : Packet) (env : Env)
  /-- `via` is the transport that the smart socket has then. -/
  | socket (n : Nat) (l : Step) (via : Option Nat)
  /-- `ss_listener_event_func`. -/
  | client
  /-- `listener_event_func`. -/
  | forward (t : Nat)

namespace State

/-- The entry of a socket after a step of its own; `made` is the number of the next socket. -/
def moved (e : Entry) (s : Sock) (l : Step) (via : Option Nat) (made : Nat) : Entry where
  sock := s
  transport :=
    if e.sock.peer = .smart ∧ s.peer = .none ∧ .sentOpen ∈ s.log then via else e.transport
  remotes := e.remotes
  smart := via
  partner := if connectsTo e.sock l then some made else e.partner
  tracker := e.tracker || tracks e.sock s l
  given := e.given ++ givenIn e.sock l

end State

def step (st : State) : Event → Option State
  | .packet t p env => some (st.handlePacket t p env)
  | .socket n l via =>
    match st.socks n with
    | none => none
    | some e =>
      match localStep e.sock l with
      | none => none
      | some s =>
        let st₁ := st.put n (some (State.moved e s l via st.made))
        if connectsTo e.sock l then
          -- a socket that is closed in the same call is gone
          some (st₁.install
            (if s.peer = .other then some (.make .hostService none [] (some n)) else none))
        else some (st₁.closePartner e s)
  | .client => some (st.install (some (.make .client none [] none)))
  | .forward t => some (st.install (some (.make .forward (some t) [] none)))

end Twm.Adb.SocketTable
