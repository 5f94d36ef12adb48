import DeviceTwm.Lib.Run
import DeviceTwm.Adb.SocketTable
import DeviceTwm.Adb.Wire

/-!
# The I/O pump of a transport (`transport.c`)

Each transport has two threads, and a pair of sockets between them and the main thread. The output
thread reads packets from the remote side and hands them to the main thread, which handles them
(`handle_packet`). The input thread takes what the main thread sends and writes it to the remote side,
while it is active. The threads tell each other by `A_SYNC` packets, through the main thread, when the
transport starts and ends; these take the same way as all packets.

* `Msg`: a packet with where it comes from. The code does not keep that.
* `Pump`: the threads of a transport; `World`: all transports, with their sockets and with the packets
  that were handled so far.
* `step`: one thread does one thing. The main thread may also send on a transport at any time, and the
  sockets change as in `SocketTable`.
-/

open Lib

namespace Twm.Adb.IoPump

open SocketTable (Packet Command State Env text)

/-! ## Packets -/

/-- The command in a header. -/
def commandOf (c : UInt32) : Command :=
  if c = 0x434e5953 then .sync
  else if c = 0x4e584e43 then .cnxn
  else if c = 0x4e45504f then .openStream
  else if c = 0x59414b4f then .okay
  else if c = 0x45534c43 then .clse
  else if c = 0x45545257 then .wrte
  else .unknown

/-- A packet for which `read_from_remote` returned 0. -/
structure Received where
  packet : Wire.Packet
  header : packet.checkHeader = true
  data : packet.checkData = true

def Received.toPacket (r : Received) : Packet where
  command := commandOf r.packet.msg.command
  arg0 := r.packet.msg.arg0.toNat
  arg1 := r.packet.msg.arg1.toNat
  data := r.packet.payload

inductive Origin
  | outputThread
  | mainThread
  | remote
  deriving DecidableEq

structure Msg where
  origin : Origin
  packet : Packet

/-- An `A_SYNC` of the output thread. -/
def Msg.sync (arg0 arg1 : Nat) : Msg := ⟨.outputThread, ⟨.sync, arg0, arg1, []⟩⟩

/-- `HOST`, and `adb_device_banner`. -/
structure Config where
  host : Bool
  deviceBanner : List UInt8

/-- The packet of `send_connect`. -/
def Config.connect (cfg : Config) : Msg where
  origin := .mainThread
  packet := ⟨.cnxn, 0x01000000, maxPayload,
    (if cfg.host then text "host" else cfg.deviceBanner) ++ text "::" ++ [0]⟩

/-! ## Threads -/

inductive Stage
  | starting
  | pumping
  | exited
  deriving DecidableEq

/-- The threads of a transport. `toMain` and `toInput` are what is in the socket pair. -/
structure Pump where
  output : Stage
  syncToken : UInt32
  toMain : List Msg
  toInput : List Msg
  active : Bool
  inputExited : Bool
  kicked : Bool
  /-- What `write_to_remote` was given. -/
  written : List Packet

/-- A transport that `init_usb_transport` or `init_socket_transport` has set up. -/
def Pump.init : Pump := ⟨.starting, 1, [], [], false, false, false, []⟩

structure World where
  table : State
  pump : Nat → Pump
  /-- The packets that were handled, with their transports, the last one last. -/
  handled : List (Nat × Msg)

def World.init : World := ⟨.init, fun _ => .init, []⟩

def World.setPump (w : World) (t : Nat) (u : Pump) : World :=
  { w with pump := Function.update w.pump t u }

namespace Pump

variable (u : Pump)

/-- The output thread writes a packet to the main thread; if it cannot, it exits. -/
def write (ok : Bool) (m : Msg) : Pump :=
  if ok then { u with toMain := u.toMain ++ [m] } else { u with output := .exited, kicked := true }

/-- The beginning of `output_thread`. -/
def start (ok : Bool) : Pump :=
  let u := { u with output := .pumping, syncToken := u.syncToken + 1 }
  u.write ok (.sync 1 u.syncToken.toNat)

/-- The end of `output_thread`, when `read_from_remote` failed. -/
def readFails (ok : Bool) : Pump :=
  { u.write ok (.sync 0 0) with output := .exited, kicked := true }

/-- `input_thread` with a packet that does not make it exit. -/
def take (m : Msg) : Pump :=
  if m.packet.command = .sync then
    if m.packet.arg1 = u.syncToken.toNat then { u with active := true } else u
  else if u.active then { u with written := u.written ++ [m.packet] }
  else u

end Pump

/-- What `handle_packet` sends by itself. An `A_SYNC` is sent on as it is. -/
def answers (cfg : Config) (m : Msg) : List Msg :=
  match m.packet.command with
  | .sync => m :: if m.packet.arg0 ≠ 0 ∧ cfg.host then [cfg.connect] else []
  | .cnxn => if cfg.host then [] else [cfg.connect]
  | _ => []

/-- `close_all_sockets`, in the order of the list. -/
def closeAllSockets (st : State) (t : Nat) : State :=
  (List.range st.made).foldl
    (fun st n =>
      match st.socks n with
      | none => st
      | some e =>
        if e.Bound t then (SocketTable.step st (.socket n .closeAll e.smart)).getD st else st)
    st

/-- The end of `input_thread`. -/
def World.inputExits (w : World) (t : Nat) (u : Pump) : World :=
  { w with table := closeAllSockets w.table t }.setPump t
    { u with inputExited := true, kicked := true }

inductive Event
  /-- The output thread starts. In this and the next two events, `ok`: the socket pair takes the
  packet. -/
  | start (t : Nat) (ok : Bool)
  | receive (t : Nat) (r : Received) (ok : Bool)
  | readFails (t : Nat) (ok : Bool)
  /-- `transport_socket_events`. -/
  | handle (t : Nat) (env : Env)
  /-- The input thread takes a packet. -/
  | input (t : Nat)
  | inputFails (t : Nat)
  /-- `kick_transport` from elsewhere. -/
  | kick (t : Nat)
  /-- The main thread sends a packet, as a reply or for a socket. -/
  | send (t : Nat) (p : Packet) (h : p.command ≠ .sync)
  /-- What else happens to the sockets. -/
  | socket (n : Nat) (l : LocalSocket.Step) (via : Option Nat)
  | client
  | forward (t : Nat)

def step (cfg : Config) (w : World) : Event → Option World
  | .start t ok =>
    if (w.pump t).output = .starting then some (w.setPump t ((w.pump t).start ok)) else none
  | .receive t r ok =>
    if (w.pump t).output = .pumping then
      some (w.setPump t ((w.pump t).write ok ⟨.remote, r.toPacket⟩))
    else none
  | .readFails t ok =>
    if (w.pump t).output = .pumping then some (w.setPump t ((w.pump t).readFails ok)) else none
  | .handle t env =>
    match (w.pump t).toMain with
    | [] => none
    | m :: rest =>
      let u := w.pump t
      some
        { table := w.table.handlePacket t m.packet env
          pump := Function.update w.pump t
            { u with toMain := rest, toInput := u.toInput ++ answers cfg m }
          handled := w.handled ++ [(t, m)] }
  | .input t =>
    match (w.pump t).toInput with
    | [] => none
    | m :: rest =>
      let u := { w.pump t with toInput := rest }
      if u.inputExited then none
      else if m.packet.command = .sync ∧ m.packet.arg0 = 0 then some (w.inputExits t u)
      else some (w.setPump t (u.take m))
  | .inputFails t =>
    if (w.pump t).inputExited then none else some (w.inputExits t (w.pump t))
  | .kick t => some (w.setPump t { w.pump t with kicked := true })
  | .send t p _ =>
    let u := w.pump t
    some (w.setPump t { u with toInput := u.toInput ++ [⟨.mainThread, p⟩] })
  | .socket n l via =>
    (SocketTable.step w.table (.socket n l via)).map fun st => { w with table := st }
  | .client => (SocketTable.step w.table .client).map fun st => { w with table := st }
  | .forward t => (SocketTable.step w.table (.forward t)).map fun st => { w with table := st }

end Twm.Adb.IoPump
