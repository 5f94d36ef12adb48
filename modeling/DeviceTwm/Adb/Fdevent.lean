import Mathlib.Logic.Function.Basic
import DeviceTwm.Lib.Run

/-!
# Events on descriptors

`fdevent.c`, with `select`. An `fdevent` is registered for a descriptor and says which events it wants;
`fdevent_process` collects the events that happen, and `fdevent_loop` passes them to the callbacks, one
`fdevent` of the pending list at a time.

* `Fdevent`: what is wanted, the flags and what was collected are bits of two 16-bit words.
* `Fdevents`: the table from descriptors to fdevents, the three sets that `select` is given, and the
  pending list.
* `step`: a call of one of the functions, or a turn of the loop; `none` when the program gives up
  (`FATAL`), or touches a bit that is not in its set (`FD_SET` and `FD_CLR` from `FD_SETSIZE` on).
-/

namespace Twm.Adb.Select

abbrev Word := BitVec 16

def fdeRead : Word := 0x0001
def fdeWrite : Word := 0x0002
def fdeError : Word := 0x0004
def fdeDontClose : Word := 0x0080

def fdeEventMask : Word := 0x00ff
def fdeStateMask : Word := 0xff00

def fdeActive : Word := 0x0100
def fdePending : Word := 0x0200

structure Fdevent where
  fd : Nat
  state : Word
  events : Word
  deriving DecidableEq

/-- The value of `state` once these events are wanted. -/
def withWanted (state events : Word) : Word := (state &&& fdeStateMask) ||| events

namespace Fdevent

variable (f : Fdevent)

/-- `state & FDE_EVENTMASK`. -/
def wanted : Word := f.state &&& fdeEventMask

/-- `state & FDE_ACTIVE`: it is installed. -/
def Active : Prop := f.state &&& fdeActive ≠ 0

/-- `state & FDE_PENDING`. -/
def Pending : Prop := f.state &&& fdePending ≠ 0

instance : Decidable f.Active := inferInstanceAs (Decidable (_ ≠ _))
instance : Decidable f.Pending := inferInstanceAs (Decidable (_ ≠ _))

end Fdevent

/-- The width of a pointer. -/
inductive Host
  | bits32 | bits64
  deriving DecidableEq

/-- `sizeof(fdevent*)`. -/
def Host.pointer : Host → Nat
  | .bits32 => 4
  | .bits64 => 8

/-- `FD_SETSIZE`. -/
def fdSetSize : Nat := 1024

/-- The fdevents are known by their addresses. -/
structure Fdevents where
  fde : Nat → Fdevent
  /-- `none` is a null pointer. -/
  fdTable : Nat → Option Nat
  fdTableMax : Nat
  readFds : Nat → Bool
  writeFds : Nat → Bool
  errorFds : Nat → Bool
  selectN : Nat
  listPending : List Nat

namespace Fdevents

def init : Fdevents :=
  { fde := fun _ => ⟨0, 0, 0⟩, fdTable := fun _ => none, fdTableMax := 0,
    readFds := fun _ => false, writeFds := fun _ => false, errorFds := fun _ => false,
    selectN := 0, listPending := [] }

variable (s : Fdevents)

def setFde (x : Nat) (f : Fdevent) : Fdevents := { s with fde := Function.update s.fde x f }

/-! ## The sets -/

/-- `FD_SET`, or `FD_CLR`. -/
def fdPut (fds : Nat → Bool) (fd : Nat) (b : Bool) : Option (Nat → Bool) :=
  if fd < fdSetSize then some (Function.update fds fd b) else none

def fdeventConnect (x : Nat) : Fdevents :=
  if s.selectN ≤ (s.fde x).fd then { s with selectN := (s.fde x).fd + 1 } else s

/-- The loop of `fdevent_disconnect`. -/
def lastUsed (fdTable : Nat → Option Nat) (selectN : Nat) : Nat :=
  (List.range selectN).foldl (fun n i => if (fdTable i).isSome then i else n) 0

def fdeventDisconnect (x : Nat) : Option Fdevents := do
  let readFds ← fdPut s.readFds (s.fde x).fd false
  let writeFds ← fdPut s.writeFds (s.fde x).fd false
  let errorFds ← fdPut s.errorFds (s.fde x).fd false
  return { s with
    readFds := readFds, writeFds := writeFds, errorFds := errorFds
    selectN := lastUsed s.fdTable s.selectN + 1 }

def fdeventUpdate (x : Nat) (events : Word) : Option Fdevents := do
  let readFds ← fdPut s.readFds (s.fde x).fd (events &&& fdeRead ≠ 0)
  let writeFds ← fdPut s.writeFds (s.fde x).fd (events &&& fdeWrite ≠ 0)
  let errorFds ← fdPut s.errorFds (s.fde x).fd (events &&& fdeError ≠ 0)
  return { s with readFds := readFds, writeFds := writeFds, errorFds := errorFds }.setFde x
    { s.fde x with state := withWanted (s.fde x).state events }

/-! ## The table -/

/-- `while(fd_table_max <= fde->fd) fd_table_max *= 2`, at most so many times. -/
def doubled (fd : Nat) : Nat → Nat → Nat
  | 0, max => max
  | k + 1, max => if max ≤ fd then doubled fd k (max * 2) else max

/-- `memset(fd_table + oldmax, 0, sizeof(int) * (max - oldmax))` reaches the entry `i`. -/
def Cleared (host : Host) (oldmax max i : Nat) : Prop :=
  (i - oldmax + 1) * host.pointer ≤ 4 * (max - oldmax)

instance (host : Host) (oldmax max i : Nat) : Decidable (Cleared host oldmax max i) :=
  inferInstanceAs (Decidable (_ ≤ _))

/-- The table grows to `max` entries; `fresh` is what `realloc` finds in the new memory. -/
def grown (host : Host) (max : Nat) (fresh : Nat → Option Nat) : Fdevents :=
  { s with
    fdTableMax := max
    fdTable := fun i =>
      if i < s.fdTableMax then s.fdTable i
      else if Cleared host s.fdTableMax max i then none
      else fresh i }

/-- The size of the table once `fd` has its place in it. -/
def newMax (fd : Nat) : Nat := doubled fd (fd + 1) (if s.fdTableMax = 0 then 256 else s.fdTableMax)

/-- `fdevent_register`. The call of `fdevent_init` for the first table empties the sets. -/
def fdeventRegister (host : Host) (x : Nat) (fresh : Nat → Option Nat) : Option Fdevents :=
  let fd := (s.fde x).fd
  if s.fdTableMax ≤ fd then
    if 32000 < fd then none
    else
      let s' := if s.fdTableMax = 0 then
          { s with
            readFds := fun _ => false, writeFds := fun _ => false, errorFds := fun _ => false }
        else s
      let s' := s'.grown host (s.newMax fd) fresh
      some { s' with fdTable := Function.update s'.fdTable fd (some x) }
  else some { s with fdTable := Function.update s.fdTable fd (some x) }

/-- `fdevent_unregister`, up to the `close` of the descriptor. -/
def fdeventUnregister (x : Nat) : Option Fdevents :=
  let fd := (s.fde x).fd
  if s.fdTableMax ≤ fd then none
  else if s.fdTable fd ≠ some x then none
  else some { s with fdTable := Function.update s.fdTable fd none }

/-! ## The interface -/

def fdeventInstall (host : Host) (x fd : Nat) (fresh : Nat → Option Nat) : Option Fdevents := do
  let s := s.setFde x ⟨fd, fdeActive, 0⟩
  let s ← s.fdeventRegister host x fresh
  let s := s.fdeventConnect x
  return s.setFde x { s.fde x with state := (s.fde x).state ||| fdeActive }

def fdeventRemove (x : Nat) : Option Fdevents := do
  let s := if (s.fde x).Pending then { s with listPending := s.listPending.erase x } else s
  let s ← if (s.fde x).Active then s.fdeventDisconnect x >>= (·.fdeventUnregister x) else some s
  return s.setFde x { s.fde x with state := 0, events := 0 }

/-- The last part of `fdevent_set`. Of the events that wait it drops those that are wanted. -/
def dropEvents (x : Nat) (events : Word) : Fdevents :=
  let f := s.fde x
  if f.Pending then
    let f := { f with events := f.events &&& ~~~events }
    if f.events = 0 then
      { s with listPending := s.listPending.erase x }.setFde x
        { f with state := f.state &&& ~~~fdePending }
    else s.setFde x f
  else s

/-- `fdevent_set`; the caller's word is wider. -/
def fdeventSet (x : Nat) (events : BitVec 32) : Option Fdevents :=
  let events := events.setWidth 16 &&& fdeEventMask
  if (s.fde x).wanted = events then some s
  else do
    let s ← if (s.fde x).Active then s.fdeventUpdate x events else some s
    let s := s.setFde x { s.fde x with state := withWanted (s.fde x).state events }
    return s.dropEvents x events

def fdeventAdd (x : Nat) (events : BitVec 32) : Option Fdevents :=
  s.fdeventSet x ((s.fde x).wanted.setWidth 32 ||| (events &&& 0xff))

def fdeventDel (x : Nat) (events : BitVec 32) : Option Fdevents :=
  s.fdeventSet x ((s.fde x).wanted.setWidth 32 &&& ~~~(events &&& 0xff))

/-! ## The loop -/

/-- The descriptors that `select` finds ready, of those it is asked about. -/
structure Ready where
  read : Nat → Bool
  write : Nat → Bool
  error : Nat → Bool

/-- The events of a descriptor. -/
def eventsOf (r : Ready) (i : Nat) : Word :=
  (if s.readFds i && r.read i then fdeRead else 0) |||
    (if s.writeFds i && r.write i then fdeWrite else 0) |||
    (if s.errorFds i && r.error i then fdeError else 0)

/-- The events of a descriptor are noted, and its fdevent goes to the tail of the pending list. -/
def collect (i : Nat) (events : Word) : Option Fdevents := do
  let x ← s.fdTable i
  let s := s.setFde x { s.fde x with events := (s.fde x).events ||| events }
  if (s.fde x).Pending then return s
  else
    return { s with listPending := s.listPending ++ [x] }.setFde x
      { s.fde x with state := (s.fde x).state ||| fdePending }

/-- `fdevent_process`; `none`: `select` fails. The result of `select` counts events and the loop counts
descriptors, so the loop is not cut short. -/
def fdeventProcess (ready : Option Ready) : Option Fdevents :=
  match ready with
  | none => some s
  | some r =>
    (List.range s.selectN).foldlM
      (fun t i => if s.eventsOf r i = 0 then some t else t.collect i (s.eventsOf r i)) s

/-- `fdevent_loop` takes the first fdevent of the pending list; with the events that its callback gets. -/
def dequeue : Option ((Nat × Word) × Fdevents) :=
  match s.listPending with
  | [] => none
  | x :: rest =>
    let f := s.fde x
    some ((x, f.events), { s with listPending := rest }.setFde x
      { f with events := 0, state := f.state &&& ~~~fdePending })

end Fdevents

/-- A call that changes what an fdevent wants. -/
inductive Call
  | set (events : BitVec 32)
  | add (events : BitVec 32)
  | del (events : BitVec 32)

/-- The word that `fdevent_set` gets, when the events `w` are wanted. -/
def Call.word (w : Word) : Call → BitVec 32
  | .set events => events
  | .add events => w.setWidth 32 ||| (events &&& 0xff)
  | .del events => w.setWidth 32 &&& ~~~(events &&& 0xff)

def Fdevents.call (s : Fdevents) (x : Nat) : Call → Option Fdevents
  | .set events => s.fdeventSet x events
  | .add events => s.fdeventAdd x events
  | .del events => s.fdeventDel x events

theorem Fdevents.call_eq (s : Fdevents) (x : Nat) (c : Call) :
    s.call x c = s.fdeventSet x (c.word (s.fde x).wanted) := by
  cases c <;> rfl

inductive Op
  | install (x fd : Nat) (fresh : Nat → Option Nat)
  | call (x : Nat) (c : Call)
  | remove (x : Nat)
  | process (ready : Option Fdevents.Ready)
  | dequeue

def step (host : Host) (s : Fdevents) : Op → Option Fdevents
  | .install x fd fresh => s.fdeventInstall host x fd fresh
  | .call x c => s.call x c
  | .remove x => s.fdeventRemove x
  | .process ready => s.fdeventProcess ready
  | .dequeue => s.dequeue.map Prod.snd

/-- What the callers keep to. An fdevent is installed when it is not, for a descriptor that no other
one has and that is not beyond 32000. The loop collects events when the pending list is empty, and takes
one from it when it is not. -/
def Legal (s : Fdevents) : Op → Prop
  | .install x fd _ => ¬ (s.fde x).Active ∧ fd ≤ 32000 ∧ ∀ y, (s.fde y).Active → (s.fde y).fd ≠ fd
  | .process _ => s.listPending = []
  | .dequeue => s.listPending ≠ []
  | _ => True

/-! ## The bits of a word -/

section Bits

variable (w m : Word)

@[simp] theorem withWanted_wanted :
    withWanted w (m &&& fdeEventMask) &&& fdeEventMask = m &&& fdeEventMask := by
  simp [withWanted, BitVec.and_or_distrib_right, BitVec.and_assoc, fdeStateMask, fdeEventMask]

@[simp] theorem withWanted_active :
    withWanted w (m &&& fdeEventMask) &&& fdeActive = w &&& fdeActive := by
  simp [withWanted, BitVec.and_or_distrib_right, BitVec.and_assoc, fdeStateMask, fdeEventMask,
    fdeActive]

@[simp] theorem withWanted_pending :
    withWanted w (m &&& fdeEventMask) &&& fdePending = w &&& fdePending := by
  simp [withWanted, BitVec.and_or_distrib_right, BitVec.and_assoc, fdeStateMask, fdeEventMask,
    fdePending]

@[simp] theorem withWanted_withWanted :
    withWanted (withWanted w (m &&& fdeEventMask)) (m &&& fdeEventMask) =
      withWanted w (m &&& fdeEventMask) := by
  simp [withWanted, BitVec.and_or_distrib_right, BitVec.and_assoc, fdeStateMask, fdeEventMask]

@[simp] theorem or_pending_wanted : (w ||| fdePending) &&& fdeEventMask = w &&& fdeEventMask := by
  simp [BitVec.and_or_distrib_right, fdePending, fdeEventMask]

@[simp] theorem or_pending_active : (w ||| fdePending) &&& fdeActive = w &&& fdeActive := by
  simp [BitVec.and_or_distrib_right, fdePending, fdeActive]

@[simp] theorem or_pending_pending : (w ||| fdePending) &&& fdePending = fdePending := by
  apply BitVec.eq_of_getLsbD_eq
  intro i _
  simp only [BitVec.getLsbD_and, BitVec.getLsbD_or]
  cases w.getLsbD i <;> simp

@[simp] theorem clear_pending_wanted :
    (w &&& ~~~fdePending) &&& fdeEventMask = w &&& fdeEventMask := by
  simp [BitVec.and_assoc, fdePending, fdeEventMask]

@[simp] theorem clear_pending_active :
    (w &&& ~~~fdePending) &&& fdeActive = w &&& fdeActive := by
  simp [BitVec.and_assoc, fdePending, fdeActive]

@[simp] theorem clear_pending_pending : (w &&& ~~~fdePending) &&& fdePending = 0 := by
  simp [BitVec.and_assoc]

end Bits

/-! ## What a call does to an fdevent -/

/-- The events that a call asks for. -/
def mask (events : BitVec 32) : Word := events.setWidth 16 &&& fdeEventMask

/-- `fdevent_set`, for the fdevent alone. -/
def Fdevent.rearm (f : Fdevent) (m : Word) : Fdevent :=
  if f.wanted = m then f
  else if f.Pending then
    { fd := f.fd, events := f.events &&& ~~~m,
      state :=
        if f.events &&& ~~~m = 0 then withWanted f.state m &&& ~~~fdePending
        else withWanted f.state m }
  else { f with state := withWanted f.state m }

namespace Fdevent

variable (f : Fdevent) (e : BitVec 32)

@[simp] theorem rearm_fd (m : Word) : (f.rearm m).fd = f.fd := by
  unfold rearm
  split
  · rfl
  · split <;> rfl

@[simp] theorem rearm_wanted : (f.rearm (mask e)).wanted = mask e := by
  unfold rearm
  split
  · assumption
  · split
    · simp only [wanted]
      split <;> simp [mask]
    · simp [wanted, mask]

@[simp] theorem rearm_active : (f.rearm (mask e)).Active ↔ f.Active := by
  unfold rearm
  split
  · rfl
  · split
    · simp only [Active]
      split <;> simp [mask]
    · simp [Active, mask]

theorem rearm_pending (h : f.Pending ↔ f.events ≠ 0) :
    (f.rearm (mask e)).Pending ↔ (f.rearm (mask e)).events ≠ 0 := by
  unfold rearm
  split
  · exact h
  · split
    · rename_i hp
      simp only [Pending]
      split
      · rename_i hz
        simp [hz]
      · rename_i hz
        simp only [mask, withWanted_pending]
        exact iff_of_true hp hz
    · rename_i hp
      simp only [Pending, mask, withWanted_pending]
      exact iff_of_false hp (fun hne => hp (h.mpr hne))

end Fdevent

namespace Fdevents

variable (s : Fdevents) (x : Nat) (e : BitVec 32)

/-- The sets once the fdevent wants the events `m`. -/
def setFds (fd : Nat) (m : Word) : Fdevents :=
  { s with
    readFds := Function.update s.readFds fd (m &&& fdeRead ≠ 0)
    writeFds := Function.update s.writeFds fd (m &&& fdeWrite ≠ 0)
    errorFds := Function.update s.errorFds fd (m &&& fdeError ≠ 0) }

/-- The fdevent and the pending list once the fdevent wants the events `m`. -/
def rearmed (m : Word) : Fdevents :=
  { s with
    fde := Function.update s.fde x ((s.fde x).rearm m)
    listPending :=
      if (s.fde x).Pending ∧ (s.fde x).events &&& ~~~m = 0 then s.listPending.erase x
      else s.listPending }

theorem fdeventUpdate_eq (m : Word) :
    s.fdeventUpdate x m =
      if (s.fde x).fd < fdSetSize then
        some ((s.setFds (s.fde x).fd m).setFde x
          { s.fde x with state := withWanted (s.fde x).state m })
      else none := by
  unfold fdeventUpdate fdPut
  split <;> rfl

theorem dropEvents_eq (hw : (s.fde x).wanted ≠ mask e) :
    (s.setFde x { s.fde x with state := withWanted (s.fde x).state (mask e) }).dropEvents x (mask e) =
      s.rearmed x (mask e) := by
  have hpending : Fdevent.Pending { s.fde x with state := withWanted (s.fde x).state (mask e) } ↔
      (s.fde x).Pending := by simp [Fdevent.Pending, mask]
  unfold dropEvents rearmed Fdevent.rearm setFde
  simp only [Function.update_self, hpending, if_neg hw, Function.update_idem]
  by_cases hp : (s.fde x).Pending
  · by_cases hz : (s.fde x).events &&& ~~~mask e = 0
    · simp only [if_pos hp, if_pos hz, if_pos (And.intro hp hz)]
    · simp only [if_pos hp, if_neg hz, if_neg (fun h : _ ∧ _ => hz h.2)]
  · simp only [if_neg hp, if_neg (fun h : _ ∧ _ => hp h.1)]

/-- All that `fdevent_set` does. -/
theorem fdeventSet_eq :
    s.fdeventSet x e =
      if (s.fde x).wanted = mask e then some s
      else if (s.fde x).Active then
        if (s.fde x).fd < fdSetSize then some ((s.setFds (s.fde x).fd (mask e)).rearmed x (mask e))
        else none
      else some (s.rearmed x (mask e)) := by
  unfold fdeventSet
  rw [← mask]
  dsimp only
  split
  · rfl
  · rename_i hw
    split
    · rw [fdeventUpdate_eq]
      split
      · -- `state` is written once more, with the same value
        have hdrop := (s.setFds (s.fde x).fd (mask e)).dropEvents_eq x e hw
        rw [← hdrop]
        simp [setFde, setFds, mask]
      · rfl
    · exact congrArg some (s.dropEvents_eq x e hw)

end Fdevents

end Twm.Adb.Select
