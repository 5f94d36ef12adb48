import Mathlib.Data.Finmap
import DeviceTwm.Lib.CString
import DeviceTwm.Lib.Rings
import DeviceTwm.Lib.Run

/-!
# Listeners

`listener_list` in `adb.c`, and the disconnect hooks of the transports in `transport.c`, which listeners
and remote sockets put there. Both are intrusive lists: `links` has the `next` and `prev` of the
listeners, `hooks` those of the `adisconnect`s.

A call stops with a fault where it follows a null pointer or one to freed memory. The file descriptor of a
listener and its `fde` are left out, and so is what a remote socket does to its peer when it ends.
-/

open Lib

namespace Twm.Adb.Listener

/-- `alistener *`: null, `&listener_list`, or a listener. -/
inductive Node
  | null
  | list
  | listener (l : Nat)
  deriving DecidableEq

/-- `adisconnect *`: null, `&t->disconnects`, or the `disconnect` of a listener or a remote socket. -/
inductive Hook
  | null
  | disconnects (t : Nat)
  | listener (l : Nat)
  | remote (r : Nat)
  deriving DecidableEq

structure AListener where
  localName : List UInt8
  connectTo : List UInt8
  transport : Option Nat
  deriving DecidableEq

structure Registry where
  /-- The listeners that are allocated. -/
  listeners : Finmap fun _ : Nat => AListener
  links : Links Node
  /-- The remote sockets that are allocated, each with its transport. -/
  remotes : Finmap fun _ : Nat => Nat
  hooks : Links Hook

/-- A call that does not return. -/
inductive Stop
  | fault
  /-- `fatal` ends the process. -/
  | fatal
  /-- A loop goes round more often than there are nodes. -/
  | stuck
  deriving DecidableEq

/-- What `install_listener` gets from outside. -/
structure Env where
  /-- What `calloc` returns; `none`: null. -/
  block : Option Nat
  /-- `strdup` finds memory. -/
  memory : Bool
  /-- What `local_name_to_fd` returns. -/
  fd : Int
  deriving DecidableEq

/-- `'*'`. -/
abbrev star : UInt8 := 42

namespace Registry

/-- No listener, and no hook in any transport. -/
def init : Registry where
  listeners := ∅
  links := ⟨fun x => if x = .list then .list else .null, fun x => if x = .list then .list else .null⟩
  remotes := ∅
  hooks :=
    { next := fun x => match x with
        | .disconnects t => .disconnects t
        | _ => .null
      prev := fun x => match x with
        | .disconnects t => .disconnects t
        | _ => .null }

variable (s : Registry)

/-- What may be followed. -/
def AllocatedNode : Node → Bool
  | .null => false
  | .list => true
  | .listener l => (s.listeners.lookup l).isSome

def Allocated : Hook → Bool
  | .null => false
  | .disconnects _ => true
  | .listener l => (s.listeners.lookup l).isSome
  | .remote r => (s.remotes.lookup r).isSome

/-! ## The hooks of a transport -/

/-- `add_transport_disconnect`. -/
def addTransportDisconnect (t : Option Nat) (dis : Hook) : Except Stop Registry :=
  match t with
  | none => .error .fault
  | some t =>
    let last := s.hooks.prev (.disconnects t)
    if s.Allocated last then
      .ok { s with hooks := (s.hooks.link last dis).link dis (.disconnects t) }
    else .error .fault

/-- `remove_transport_disconnect`; it does not look at the transport. -/
def removeTransportDisconnect (dis : Hook) : Except Stop Registry :=
  if s.Allocated (s.hooks.prev dis) ∧ s.Allocated (s.hooks.next dis) then
    .ok { s with hooks := (s.hooks.unlink dis).link dis dis }
  else .error .fault

/-! ## The end of a listener -/

/-- The first lines of `free_listener`. -/
def unlinkListener (l : Nat) : Except Stop Registry :=
  if s.links.next (.listener l) = .null then .ok s
  else if s.AllocatedNode (s.links.prev (.listener l)) ∧ s.AllocatedNode (s.links.next (.listener l)) then
    .ok { s with links := (s.links.unlink (.listener l)).link (.listener l) (.listener l) }
  else .error .fault

/-- `free_listener`. -/
def freeListener (l : Nat) : Except Stop Registry :=
  match s.listeners.lookup l with
  | none => .error .fault
  | some a => do
    let s ← s.unlinkListener l
    let s ← if a.transport = none then .ok s else s.removeTransportDisconnect (.listener l)
    .ok { s with listeners := s.listeners.erase l }

/-- The end of a remote socket, in `remote_socket_disconnect` and `remote_socket_close`. -/
def freeRemote (r : Nat) : Except Stop Registry :=
  match s.remotes.lookup r with
  | none => .error .fault
  | some _ => do
    let s ← s.removeTransportDisconnect (.remote r)
    .ok { s with remotes := s.remotes.erase r }

/-- `dis->func(dis->opaque, t)`: `listener_disconnect` or `remote_socket_disconnect`. -/
def func : Hook → Except Stop Registry
  | .listener l => s.freeListener l
  | .remote r => s.freeRemote r
  | _ => .error .fault

/-- The loop of `run_transport_disconnects` from `dis` on; the first argument bounds its rounds. -/
def runLoop (t : Nat) : Nat → Hook → Registry → Except Stop Registry
  | 0, dis, s => if dis = .disconnects t then .ok s else .error .stuck
  | n + 1, dis, s =>
    if dis = .disconnects t then .ok s
    else if s.Allocated dis then do
      let next := s.hooks.next dis
      let s ← s.func dis
      runLoop t n next s
    else .error .fault

/-- `run_transport_disconnects`. -/
def runTransportDisconnects (t : Nat) : Except Stop Registry :=
  runLoop t (s.listeners.keys.card + s.remotes.keys.card) (s.hooks.next (.disconnects t)) s

/-! ## Remote sockets -/

/-- `create_remote_socket`, with what `calloc` returns. -/
def createRemoteSocket (t : Nat) (block : Option Nat) : Except Stop Registry :=
  match block.filter fun r => (s.remotes.lookup r).isNone with
  | none => .error .fatal
  | some r => { s with remotes := s.remotes.insert r t }.addTransportDisconnect (some t) (.remote r)

/-! ## `install_listener` and `remove_listener` -/

/-- The first listener from a node on that satisfies `p`; the first argument bounds the rounds. -/
def findLoop (p : AListener → Bool) : Nat → Node → Except Stop (Option (Nat × AListener))
  | _, .list => .ok none
  | _, .null => .error .fault
  | 0, .listener _ => .error .stuck
  | n + 1, .listener l =>
    match s.listeners.lookup l with
    | none => .error .fault
    | some a => if p a then .ok (some (l, a)) else findLoop p n (s.links.next (.listener l))

def find (p : AListener → Bool) : Except Stop (Option (Nat × AListener)) :=
  s.findLoop p s.listeners.keys.card (s.links.next .list)

/-- `remove_listener`, with the value it returns. -/
def removeListener (localName connectTo : List UInt8) (transport : Option Nat) :
    Except Stop (Int × Registry) := do
  let found ← s.find fun a => a.localName = localName ∧ a.connectTo = connectTo ∧
    a.transport ≠ none ∧ a.transport = transport
  match found with
  | none => .ok (-1, s)
  | some (l, _) => do
    let s ← s.freeListener l
    .ok (0, s)

/-- Rebind a listener to another target, and to another transport. -/
def rebind (l : Nat) (a : AListener) (connectTo : List UInt8) (transport : Option Nat) :
    Except Stop Registry := do
  let s := { s with listeners := s.listeners.insert l { a with connectTo := connectTo } }
  if a.transport ≠ transport then do
    let s ← s.removeTransportDisconnect (.listener l)
    let s := { s with
      listeners := s.listeners.insert l { a with connectTo := connectTo, transport := transport } }
    s.addTransportDisconnect transport (.listener l)
  else .ok s

/-- Put a new listener at the end of the list. `calloc` has cleared its hook. -/
def linkListener (l : Nat) (a : AListener) : Except Stop Registry :=
  let last := s.links.prev .list
  if s.AllocatedNode last then
    let s := { s with
      listeners := s.listeners.insert l a
      links := (s.links.link last (.listener l)).link (.listener l) .list
      hooks := ⟨Function.update s.hooks.next (.listener l) .null,
        Function.update s.hooks.prev (.listener l) .null⟩ }
    if a.transport = none then .ok s else s.addTransportDisconnect a.transport (.listener l)
  else .error .fault

/-- `install_listener`, with the value it returns. -/
def installListener (localName connectTo : List UInt8) (transport : Option Nat) (env : Env) :
    Except Stop (Int × Registry) := do
  let found ← s.find fun a => a.localName = localName
  match found with
  | some (l, a) =>
    -- A smartsocket is not repurposed.
    if a.connectTo.head? = some star then .ok (-1, s)
    else if !env.memory then .ok (-1, s)
    else do
      let s ← s.rebind l a connectTo transport
      .ok (0, s)
  | none =>
    match env.block.filter fun l => (s.listeners.lookup l).isNone with
    | none => .error .fatal
    | some l =>
      if !env.memory then .error .fatal
      else if env.fd < 0 then .ok (-2, s)
      else do
        let s ← s.linkListener l ⟨localName, connectTo, transport⟩
        .ok (0, s)

end Registry

/-! ## Calls -/

inductive Call
  | install (localName connectTo : List UInt8) (transport : Option Nat) (env : Env)
  | remove (localName connectTo : List UInt8) (transport : Option Nat)
  /-- The transport goes offline or away. -/
  | disconnect (t : Nat)
  | createRemote (t : Nat) (block : Option Nat)
  | closeRemote (r : Nat)
  deriving DecidableEq

/-- A call, and the value it returns (0 where it returns none). -/
def Registry.call (s : Registry) : Call → Except Stop (Int × Registry)
  | .install localName connectTo transport env => s.installListener localName connectTo transport env
  | .remove localName connectTo transport => s.removeListener localName connectTo transport
  | .disconnect t => (s.runTransportDisconnects t).map (0, ·)
  | .createRemote t block => (s.createRemoteSocket t block).map (0, ·)
  | .closeRemote r => (s.freeRemote r).map (0, ·)

def step (s : Registry) (c : Call) : Option Registry := (s.call c).toOption.map (·.2)

/-- The calls as `adb_main` and `handle_forward_request` make them: the smartsocket, which has no
transport, before any other listener; and forwards to a target without a star, on a transport. A remote
socket is closed once. -/
def FromCallers (s : Registry) : Call → Prop
  | .install _ connectTo none _ => connectTo = str "*smartsocket*" ∧ s.links.next .list = .list
  | .install _ connectTo (some _) _ => connectTo.head? ≠ some star
  | .closeRemote r => (s.remotes.lookup r).isSome
  | _ => True

end Twm.Adb.Listener
