import DeviceTwm.Lib.Links
import DeviceTwm.Lib.Run

/-!
# Transports and their threads

The life of transports in `transport.c`: the registration messages, the list of transports, the
two threads of each transport, and the calls that kick or unregister one. One step is one section
under `transport_lock`, or what a thread does between two such sections.

Two references are counted, one for each thread. A thread that leaves its loop kicks the transport
(`kick_transport`: a test, a section that sets `kicked`, the call of `kick`) and drops its
reference. `unregister_transport` and `unregister_all_tcp_transports` drop one too.
-/

open Lib

namespace Twm.Adb

/-- A node of `transport_list`: its head, or a transport. -/
abbrev Node := Option Nat

/-- Where a transport is in its life. -/
inductive Phase
  | fresh
  | registered
  | started
  | freed
  deriving DecidableEq

/-- The fields of `atransport` that these functions use, and how often `kick`, `close` and
`remove_transport` were called. -/
structure Transport where
  phase : Phase
  /-- `type == kTransportLocal && adb_port == 0`. -/
  tcp : Bool
  /-- `connection_state == CS_NOPERM`: it gets no threads. -/
  noperm : Bool
  refCount : Int
  kicked : Bool
  kicks : Nat
  closes : Nat
  removes : Nat
  deriving DecidableEq

/-- Who works on a transport: its two threads, the main thread in `unregister_transport`, and other
threads in `kick_transport`. -/
inductive Agent
  | input
  | output
  | unregister
  | kicker (n : Nat)
  deriving DecidableEq

/-- Where an agent is. -/
inductive Pc
  /-- Not at work on the transport. -/
  | away
  /-- In the loop of its thread. -/
  | loop
  /-- At the test of `kicked` in `kick_transport`, before the lock. -/
  | kickTest
  | kickLock
  /-- About to call `kick`. -/
  | kickCall
  /-- About to call `transport_unref`. -/
  | unref
  /-- Done with the transport. -/
  | done
  deriving DecidableEq

/-- `tmsg`: a registration (action 1) or a removal (action 0). -/
inductive TMsg
  | register (t : Nat)
  | remove (t : Nat)
  deriving DecidableEq

structure Transports where
  links : Links Node
  tr : Nat → Transport
  pc : Nat → Agent → Pc
  /-- The messages written to `transport_registration_send` and not read yet. -/
  queue : List TMsg
  /-- The transport that the main thread is unregistering. -/
  main : Option Nat

/-- Nothing is registered. -/
def Transports.init : Transports where
  links := ⟨fun _ => none, fun _ => none⟩
  tr := fun _ => ⟨.fresh, false, false, 0, false, 0, 0, 0⟩
  pc := fun _ _ => .away
  queue := []
  main := none

/-! ## References -/

/-- `transport_unref_locked`. -/
def unrefLocked (tr : Transport) : Transport :=
  let tr := { tr with refCount := tr.refCount - 1 }
  if tr.refCount = 0 then
    let tr := if tr.kicked then tr else { tr with kicked := true, kicks := tr.kicks + 1 }
    { tr with closes := tr.closes + 1, removes := tr.removes + 1 }
  else tr

/-- The messages that dropping a reference writes. -/
def unrefMsgs (t : Nat) (tr : Transport) : List TMsg :=
  if tr.refCount - 1 = 0 then [.remove t] else []

namespace Transports

variable (s : Transports)

/-- A transport with new fields. -/
def setTr (t : Nat) (tr : Transport) : Transports := { s with tr := Function.update s.tr t tr }

/-- An agent at a new place. -/
def setPc (t : Nat) (a : Agent) (pc : Pc) : Transports :=
  { s with pc := Function.update s.pc t (Function.update (s.pc t) a pc) }

/-- `transport_unref` on `t`. -/
def unref (t : Nat) : Transports :=
  { s.setTr t (unrefLocked (s.tr t)) with queue := s.queue ++ unrefMsgs t (s.tr t) }

/-- `t->next->prev = t->prev; t->prev->next = t->next`. -/
def unlink (t : Nat) : Transports := { s with links := s.links.unlink (some t) }

/-- What an agent does after `kick_transport`. -/
def afterKick : Agent → Pc
  | .kicker _ => .done
  | _ => .unref

/-- The next step of an agent in `kick_transport` or `transport_unref`. -/
def agentStep (t : Nat) (a : Agent) : Option Transports :=
  let tr := s.tr t
  match s.pc t a with
  | .kickTest => some (s.setPc t a (if tr.kicked then afterKick a else .kickLock))
  | .kickLock =>
    if tr.kicked then some (s.setPc t a (afterKick a))
    else some ((s.setTr t { tr with kicked := true }).setPc t a .kickCall)
  | .kickCall => some ((s.setTr t { tr with kicks := tr.kicks + 1 }).setPc t a (afterKick a))
  | .unref => some ((s.unref t).setPc t a .done)
  | _ => none

/-! ## `transport_registration_func` -/

/-- Action 1: start the threads and put the transport at the end of the list. -/
def start (t : Nat) : Transports :=
  let s := if (s.tr t).noperm then s.setTr t { s.tr t with phase := .started }
    else ((s.setTr t { s.tr t with phase := .started, refCount := 2 }).setPc t .input
      .loop).setPc t .output .loop
  { s with links := (s.links.link (s.links.prev none) (some t)).link (some t) none }

/-- Action 0: take the transport off the list and free it. -/
def remove (t : Nat) : Transports := (s.unlink t).setTr t { s.tr t with phase := .freed }

/-- The next message of the registration socket. -/
def handle : Option Transports :=
  match s.queue with
  | [] => none
  | .register t :: q => some (start { s with queue := q } t)
  | .remove t :: q => some (remove { s with queue := q } t)

/-! ## `unregister_all_tcp_transports` -/

/-- The transports that the loop takes off the list from `node` on, and the list it leaves. `none`:
it does not get back to the head in `fuel` rounds. -/
def sweep : Nat → Links Node → Node → Option (List Nat × Links Node)
  | _, links, none => some ([], links)
  | 0, _, some _ => none
  | fuel + 1, links, some t =>
    let next := links.next (some t)
    if (s.tr t).tcp then
      -- `next` was read before the list changed
      let links := links.unlink (some t)
      (sweep fuel links next).map fun r => (t :: r.1, r.2)
    else sweep fuel links next

/-- The section of the loop for one transport it takes off: kick it and drop a reference. -/
def dropTcp (t : Nat) : Transports :=
  let tr := s.tr t
  (s.setTr t (if tr.kicked then tr else { tr with kicked := true, kicks := tr.kicks + 1 })).unref t

def unregisterAll (fuel : Nat) : Option Transports :=
  match s.sweep fuel s.links (s.links.next none) with
  | none => none
  | some (ts, links) => some (ts.foldl dropTcp { s with links := links })

end Transports

/-! ## Steps -/

inductive TStep
  /-- `register_transport` of a new transport. -/
  | register (t : Nat) (tcp noperm : Bool)
  /-- `transport_registration_func`. -/
  | handle
  /-- A thread leaves its loop. -/
  | leave (t : Nat) (a : Agent)
  /-- Another thread calls `kick_transport`. -/
  | kick (t n : Nat)
  /-- The next step of an agent. -/
  | agent (t : Nat) (a : Agent)
  /-- `unregister_transport` is called, up to `kick_transport`. -/
  | unregister (t : Nat)
  /-- `unregister_transport` returns. -/
  | unregistered
  /-- `unregister_all_tcp_transports`, in so many rounds at most. -/
  | unregisterAll (fuel : Nat)
  /-- `unregister_usb_transport` of a transport without threads. -/
  | unregisterUsb (t : Nat)
  deriving DecidableEq

def tstep (s : Transports) : TStep → Option Transports
  | .register t tcp noperm =>
    if (s.tr t).phase = .fresh then
      some { s.setTr t { s.tr t with phase := .registered, tcp := tcp, noperm := noperm } with
        queue := s.queue ++ [.register t] }
    else none
  | .handle => if s.main = none then s.handle else none
  | .leave t a =>
    if (a = .input ∨ a = .output) ∧ s.pc t a = .loop then some (s.setPc t a .kickTest) else none
  | .kick t n =>
    if s.pc t (.kicker n) = .away then some (s.setPc t (.kicker n) .kickTest) else none
  | .agent t a => s.agentStep t a
  | .unregister t =>
    if s.main = none ∧ (s.tr t).phase = .started then
      some { (s.unlink t).setPc t .unregister .kickTest with main := some t }
    else none
  | .unregistered =>
    match s.main with
    | none => none
    | some t => if s.pc t .unregister = .done then some { s with main := none } else none
  | .unregisterAll fuel => if s.main = none then s.unregisterAll fuel else none
  | .unregisterUsb t =>
    if (s.tr t).phase = .started ∧ (s.tr t).noperm then some (s.unlink t) else none

/-- What a step needs, and what it makes of the transports. -/
def TStepsTo (s : Transports) : TStep → Transports → Prop
  | .register t tcp noperm, s' => (s.tr t).phase = .fresh ∧
    { s.setTr t { s.tr t with phase := .registered, tcp := tcp, noperm := noperm } with
      queue := s.queue ++ [.register t] } = s'
  | .handle, s' => s.main = none ∧ ∃ t q,
    (s.queue = .register t :: q ∧ Transports.start { s with queue := q } t = s') ∨
    (s.queue = .remove t :: q ∧ Transports.remove { s with queue := q } t = s')
  | .leave t a, s' =>
    ((a = .input ∨ a = .output) ∧ s.pc t a = .loop) ∧ s.setPc t a .kickTest = s'
  | .kick t n, s' => s.pc t (.kicker n) = .away ∧ s.setPc t (.kicker n) .kickTest = s'
  | .agent t a, s' => s.agentStep t a = some s'
  | .unregister t, s' => (s.main = none ∧ (s.tr t).phase = .started) ∧
    { (s.unlink t).setPc t .unregister .kickTest with main := some t } = s'
  | .unregistered, s' => ∃ t, s.main = some t ∧ s.pc t .unregister = .done ∧
    { s with main := none } = s'
  | .unregisterAll fuel, s' => s.main = none ∧ ∃ ts links,
    s.sweep fuel s.links (s.links.next none) = some (ts, links) ∧
      ts.foldl Transports.dropTcp { s with links := links } = s'
  | .unregisterUsb t, s' => ((s.tr t).phase = .started ∧ (s.tr t).noperm) ∧ s.unlink t = s'

theorem tstep_stepsTo {s s' : Transports} {l : TStep} (hs : tstep s l = some s') :
    TStepsTo s l s' := by
  cases l with
  | handle =>
    obtain ⟨hm, hs⟩ := Option.ite_none_right_eq_some.mp hs
    refine ⟨hm, ?_⟩
    unfold Transports.handle at hs
    split at hs
    · cases hs
    · next t q hq => exact ⟨t, q, .inl ⟨hq, Option.some.inj hs⟩⟩
    · next t q hq => exact ⟨t, q, .inr ⟨hq, Option.some.inj hs⟩⟩
  | agent t a => exact hs
  | unregistered =>
    simp only [tstep] at hs
    split at hs
    · cases hs
    · next t hm =>
      obtain ⟨hd, hs⟩ := Option.ite_none_right_eq_some.mp hs
      exact ⟨t, hm, hd, Option.some.inj hs⟩
  | unregisterAll fuel =>
    obtain ⟨hm, hs⟩ := Option.ite_none_right_eq_some.mp hs
    refine ⟨hm, ?_⟩
    unfold Transports.unregisterAll at hs
    split at hs
    · cases hs
    · next ts links hsweep => exact ⟨ts, links, hsweep, Option.some.inj hs⟩
  | _ =>
    obtain ⟨hok, hs⟩ := Option.ite_none_right_eq_some.mp hs
    exact ⟨hok, Option.some.inj hs⟩

end Twm.Adb
