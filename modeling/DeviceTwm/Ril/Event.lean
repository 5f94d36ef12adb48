import DeviceTwm.Lib.Links
import DeviceTwm.Lib.Run
import Mathlib.Algebra.Group.Nat.Defs
import Mathlib.Algebra.Group.Int.Defs

/-!
# Events

The event loop of `ril_event.cpp`. An event is in the watch table, on the timer list or on the
pending list; the lists are linked through the events. A round of the loop moves the events that
are due to the pending list, and `firePending` runs through that list and calls the callbacks,
which may call `ril_event_add`, `ril_event_del`, `ril_timer_add` and `ril_timer_delete`.

What `select` reports is arbitrary here, so its descriptor set (`readFds`, `nfds`) is left out. A
dereference of a null pointer is a crash.
-/

open Lib

namespace Twm.Ril

/-- `MAX_FD_EVENTS`. -/
def maxFdEvents : Nat := 8

/-- An index of `watch_table`. -/
abbrev Slot := Fin maxFdEvents

/-- `struct timeval`. -/
structure Timeval where
  sec : Int
  usec : Int
  deriving DecidableEq

/-- A `time_t`, which has 32 bits. -/
def timeT (x : Int) : Int := x.bmod (2 ^ 32)

namespace Timeval

/-- `timeradd`. -/
def add (a b : Timeval) : Timeval :=
  let sec := timeT (a.sec + b.sec)
  let usec := a.usec + b.usec
  if 1000000 ≤ usec then ⟨timeT (sec + 1), usec - 1000000⟩ else ⟨sec, usec⟩

/-- `timersub`. -/
def sub (a b : Timeval) : Timeval :=
  let sec := timeT (a.sec - b.sec)
  let usec := a.usec - b.usec
  if usec < 0 then ⟨timeT (sec - 1), usec + 1000000⟩ else ⟨sec, usec⟩

/-- `timercmp(a, b, <)`. -/
def lt (a b : Timeval) : Bool := if a.sec = b.sec then a.usec < b.usec else a.sec < b.sec

end Timeval

/-- What a `struct ril_event *` points to. -/
inductive Node
  | null
  /-- `timer_list`. -/
  | timer
  /-- `pending_list`. -/
  | pending
  | ev (e : Nat)
  deriving DecidableEq

/-- Why a loop over a list does not end: a null pointer, or too few rounds to tell. -/
inductive Fault
  | crash
  | fuel
  deriving DecidableEq

/-! ## Lists -/

/-- `addToList`, write by write. -/
def addToList (L : Links Node) (ev list : Node) : Except Fault (Links Node) :=
  if ev = .null ∨ list = .null ∨ L.prev list = .null then .error .crash
  else
    let next := Function.update L.next ev list
    let prev := Function.update L.prev ev (L.prev list)
    let next := Function.update next (prev ev) ev
    let prev := Function.update prev list ev
    .ok ⟨next, prev⟩

/-- `ev->next = NULL; ev->prev = NULL`. -/
def clear (L : Links Node) (ev : Node) : Links Node :=
  ⟨Function.update L.next ev .null, Function.update L.prev ev .null⟩

/-- `removeFromList`, and whether the event was on a list. -/
def removeFromList (L : Links Node) (ev : Node) : Except Fault (Links Node × Bool) :=
  if ev = .null then .error .crash
  else if L.prev ev = .null ∨ L.next ev = .null then .ok (L, false)
  else .ok (clear (L.unlink ev) ev, true)

/-! ## The loop -/

/-- Where the dispatch thread is. -/
inductive Phase
  /-- In `select`. -/
  | waiting
  /-- At the test of the loop in `firePending`. -/
  | firing (ev : Node)
  /-- In the callback of an event; `next` was read before. -/
  | running (e : Nat) (next : Node)
  | crashed
  deriving DecidableEq

/-- What happened to an event. -/
inductive Entry
  /-- It was put in the watch table or on the timer list. -/
  | added (e : Nat)
  /-- `ril_timer_delete` returned true, or `ril_event_del` was called. -/
  | deleted (e : Nat)
  /-- It was put on the pending list. -/
  | moved (e : Nat)
  /-- Its callback was called. -/
  | invoked (e : Nat)
  deriving DecidableEq

structure Events where
  links : Links Node
  fd : Nat → Int
  /-- `none` is -1. -/
  index : Nat → Option Slot
  persist : Nat → Bool
  timeout : Nat → Timeval
  /-- `watch_table`. -/
  watch : Slot → Option Nat
  phase : Phase
  /-- The newest entry is first. -/
  trace : List Entry

/-- After `ril_event_init`, with no event on a list. -/
def Events.init : Events where
  links := ⟨fun n => if n = .timer ∨ n = .pending then n else .null,
    fun n => if n = .timer ∨ n = .pending then n else .null⟩
  fd := fun _ => -1
  index := fun _ => none
  persist := fun _ => false
  timeout := fun _ => ⟨0, 0⟩
  watch := fun _ => none
  phase := .waiting
  trace := []

namespace Events

variable (s : Events)

/-- The `timeout` behind a pointer; the list heads have zero. -/
def nodeTimeout : Node → Timeval
  | .ev e => s.timeout e
  | _ => ⟨0, 0⟩

def log (entry : Entry) : Events := { s with trace := entry :: s.trace }

/-- `removeWatch`. -/
def removeWatch (e : Nat) (i : Slot) : Events :=
  { s with watch := Function.update s.watch i none, index := Function.update s.index e none }

/-- The loop of `processTimeouts` from `tev` on: the lists after it, and what it moved. -/
def timeouts (now : Timeval) : Nat → Links Node → Node → Except Fault (Links Node × List Node)
  | 0, _, _ => .error .fuel
  | fuel + 1, L, tev =>
    if tev = .timer then .ok (L, [])
    else if tev = .null then .error .crash
    else if (s.nodeTimeout tev).lt now then do
      let next := L.next tev
      let r ← removeFromList L tev
      let L ← addToList r.1 tev .pending
      let r ← timeouts now fuel L next
      return (r.1, tev :: r.2)
    else .ok (L, [])

/-- The entry for a node that `processTimeouts` moves. -/
def logMoved : Events → Node → Events
  | s, .ev e => s.log (.moved e)
  | s, _ => s

def processTimeouts (now : Timeval) (fuel : Nat) : Except Fault Events := do
  let r ← s.timeouts now fuel s.links (s.links.next .timer)
  return r.2.foldl logMoved { s with links := r.1 }

/-- One round of `processReadReadies`, with `n` descriptors still to find. -/
def readReady (ready : List Int) (sn : Events × Nat) (i : Slot) : Except Fault (Events × Nat) :=
  let (s, n) := sn
  if n = 0 then .ok (s, n)
  else
    match s.watch i with
    | none => .ok (s, n)
    | some e =>
      if s.fd e ∈ ready then do
        let L ← addToList s.links (.ev e) .pending
        let s := { s with links := L }.log (.moved e)
        return (if s.persist e then s else s.removeWatch e i, n - 1)
      else .ok (s, n)

def processReadReadies (ready : List Int) : Except Fault Events := do
  let r ← (List.finRange maxFdEvents).foldlM (readReady ready) (s, ready.length)
  return r.1

/-- `calcNextTimeout`; `none` is -1. -/
def calcNextTimeout (now : Timeval) : Option Timeval :=
  let tev := s.links.next .timer
  if tev = .timer then none
  else if now.lt (s.nodeTimeout tev) then some ((s.nodeTimeout tev).sub now)
  else some ⟨0, 0⟩

/-- The loop of `ril_timer_add`: the first node from `list` on that is not earlier than `tv`. -/
def findLater (tv : Timeval) : Nat → Node → Except Fault Node
  | 0, _ => .error .fuel
  | fuel + 1, list =>
    if list = .null then .error .crash
    else if (s.nodeTimeout list).lt tv ∧ list ≠ .timer then findLater tv fuel (s.links.next list)
    else .ok list

/-! ## Calls -/

/-- `ril_event_set`. -/
def eventSet (e : Nat) (fd : Int) (persist : Bool) : Events :=
  { s with
    links := clear s.links (.ev e)
    fd := Function.update s.fd e fd
    index := Function.update s.index e none
    persist := Function.update s.persist e persist
    timeout := Function.update s.timeout e ⟨0, 0⟩ }

/-- `ril_event_add`. A full table is left as it is. -/
def eventAdd (e : Nat) : Events :=
  match (List.finRange maxFdEvents).find? (s.watch · = none) with
  | none => s
  | some i =>
    { s with
      watch := Function.update s.watch i (some e)
      index := Function.update s.index e (some i) }.log (.added e)

/-- `ril_event_del`. -/
def eventDel (e : Nat) : Events :=
  match s.index e with
  | none => s.log (.deleted e)
  | some i => (s.removeWatch e i).log (.deleted e)

/-- `ril_timer_add`. -/
def timerAdd (e : Nat) (now : Timeval) (fuel : Nat) : Option Timeval → Except Fault Events
  | none => .ok s
  | some tv => do
    let s := { s with
      fd := Function.update s.fd e (-1)
      timeout := Function.update s.timeout e (now.add tv) }
    let list ← s.findLater (s.timeout e) fuel (s.links.next .timer)
    let L ← addToList s.links (.ev e) list
    return { s with links := L }.log (.added e)

/-- `ril_timer_delete`. -/
def timerDelete (e : Nat) : Except Fault Events := do
  let r ← removeFromList s.links (.ev e)
  let s := { s with links := r.1 }
  return if r.2 then s.log (.deleted e) else s

/-- A round of the loop after `select`, up to the start of `firePending`. -/
def poll (now : Timeval) (fuel : Nat) (ready : List Int) : Except Fault Events := do
  let s ← s.processTimeouts now fuel
  let s ← s.processReadReadies ready
  return { s with phase := .firing (s.links.next .pending) }

/-- One round of `firePending`, up to the call of the callback. The list heads have no callback. -/
def fire : Node → Except Fault Events
  | .pending => .ok { s with phase := .waiting }
  | .ev e => do
    let next := s.links.next (.ev e)
    let r ← removeFromList s.links (.ev e)
    return { s with links := r.1, phase := .running e next }.log (.invoked e)
  | .null | .timer => .error .crash

/-- The state after a call that may crash. A call that has not ended is no step. -/
def after : Except Fault Events → Option Events
  | .ok s' => some s'
  | .error .crash => some { s with phase := .crashed }
  | .error .fuel => none

end Events

/-! ## Steps -/

inductive EStep
  | eventSet (e : Nat) (fd : Int) (persist : Bool)
  | eventAdd (e : Nat)
  | eventDel (e : Nat)
  | timerAdd (e : Nat) (now : Timeval) (fuel : Nat) (tv : Option Timeval)
  | timerDelete (e : Nat)
  /-- `select` reports these descriptors; what is due is moved, and `firePending` starts. -/
  | poll (now : Timeval) (fuel : Nat) (ready : List Int)
  | fire
  /-- The callback returns. -/
  | finish
  deriving DecidableEq

/-- Calls are made by callbacks, and between two rounds. -/
def Phase.calls : Phase → Bool
  | .waiting | .running .. => true
  | .firing _ | .crashed => false

def estep (s : Events) : EStep → Option Events
  | .eventSet e fd persist => if s.phase.calls then some (s.eventSet e fd persist) else none
  | .eventAdd e => if s.phase.calls then some (s.eventAdd e) else none
  | .eventDel e => if s.phase.calls then some (s.eventDel e) else none
  | .timerAdd e now fuel tv => if s.phase.calls then s.after (s.timerAdd e now fuel tv) else none
  | .timerDelete e => if s.phase.calls then s.after (s.timerDelete e) else none
  | .poll now fuel ready =>
    if s.phase = .waiting ∧ ready.Nodup then s.after (s.poll now fuel ready) else none
  | .fire =>
    match s.phase with
    | .firing ev => s.after (s.fire ev)
    | _ => none
  | .finish =>
    match s.phase with
    | .running _ next => some { s with phase := .firing next }
    | _ => none

end Twm.Ril
