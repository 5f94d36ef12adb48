import Mathlib.Data.Fintype.Card
import DeviceTwm.Ril.Responses
import DeviceTwm.Ril.EventDelivery

/-!
# The command socket

The dispatch thread has one client. While none is connected it watches the listening socket
(`s_listen_event`), and while one is connected it watches the client's (`s_commands_event`).

Four places close the client's socket. `processCommandsCallback` and `listenCallback` go back to
listening. `blockingWrite` closes the descriptor after a failed `write` and leaves `s_fdCommand` and
the events as they are; debug command 1 resets `s_fdCommand` and leaves the events as they are
(`socket_lost`).

* `Idle`, `Connected`: what the thread waits for.
* `Ok`: no write to the client fails, and no debug command 1 comes while a client is connected.
* `command_socket`: then the thread waits for one of the two, along every run.

A round of the event loop and a callback are one step each. `sendResponseRaw` reads `s_fdCommand` in
one step and writes in others, on any thread. The timers and the record stream are left out.
-/

open Lib

namespace Twm.Ril.CommandSocket

/-- `s_wakeupfd_event`. -/
def wakeupfdEvent : Nat := 0

/-- `s_listen_event`. -/
def listenEvent : Nat := 1

/-- `s_commands_event`. -/
def commandsEvent : Nat := 2

/-- `s_debug_event`. -/
def debugEvent : Nat := 3

/-- `PHONE_PROCESS`. -/
def phoneProcess : String := "radio"

structure State where
  ev : Events
  /-- `s_fdListen`. -/
  fdListen : Int
  /-- `s_fdCommand`. -/
  fdCommand : Int
  isOpen : Int → Bool
  /-- The descriptors that the calls of `sendResponseRaw` under way have read. -/
  sending : List Int

/-- After `RIL_register`. -/
def State.init (fdWakeupRead fdListen fdDebug : Int) : State where
  ev := (((((Events.init.eventSet wakeupfdEvent fdWakeupRead true).eventAdd wakeupfdEvent).eventSet
    listenEvent fdListen false).eventAdd listenEvent).eventSet debugEvent fdDebug true).eventAdd
    debugEvent
  fdListen := fdListen
  fdCommand := -1
  isOpen := fun fd => fd ∈ [fdWakeupRead, fdListen, fdDebug]
  sending := []

/-- What `record_stream_get_next` returns. -/
inductive GetNext
  | record
  | endOfStream
  /-- `again`: `errno` is `EAGAIN` or `EINTR`. -/
  | error (again : Bool)
  deriving DecidableEq

/-- The end of the loop of `processCommandsCallback`. -/
def lastResult : List GetNext → Option GetNext
  | [] => none
  | .record :: results => lastResult results
  | result :: _ => some result

/-- What `accept` gives `listenCallback`. -/
structure Peer where
  fd : Int
  /-- The name of the process; nothing if it is not known. -/
  pwName : Option String
  deriving DecidableEq

/-- What `accept` gives `debugCallback`. -/
structure DebugPeer where
  fd : Int
  /-- `atoi(args[0])`; nothing if the arguments were not received. -/
  option : Option Int
  deriving DecidableEq

namespace State

variable (s : State)

def opened (fd : Int) : State := { s with isOpen := Function.update s.isOpen fd true }

def close (fd : Int) : State := { s with isOpen := Function.update s.isOpen fd false }

/-- `listenCallback`. Nothing is returned when an assertion fails. -/
def listenCallback (accepted : Option Peer) : Option State :=
  if ¬ (s.fdCommand < 0 ∧ s.ev.fd listenEvent = s.fdListen) then none
  else
    match accepted with
    | none => some { s with fdCommand := -1, ev := s.ev.eventAdd listenEvent }
    | some peer =>
      let s := { s.opened peer.fd with fdCommand := peer.fd }
      if peer.pwName ≠ some phoneProcess then
        let s := { s.close s.fdCommand with fdCommand := -1 }
        some { s with ev := s.ev.eventAdd listenEvent }
      else
        some { s with
          ev := (s.ev.eventSet commandsEvent s.fdCommand true).eventAdd commandsEvent }

/-- `processCommandsCallback`. `result` is the last one of `record_stream_get_next`. -/
def processCommandsCallback (result : GetNext) : Option State :=
  if s.ev.fd commandsEvent ≠ s.fdCommand then none
  else if result = .error true then some s
  else
    let s := { s.close s.fdCommand with fdCommand := -1 }
    some { s with ev := (s.ev.eventDel commandsEvent).eventAdd listenEvent }

/-- `debugCallback`. -/
def debugCallback (accepted : Option DebugPeer) : State :=
  match accepted with
  | none => s
  | some ⟨acceptFD, none⟩ => s.opened acceptFD
  | some ⟨acceptFD, some option⟩ =>
    let s := s.opened acceptFD
    let s :=
      match option with
      | 1 => { s.close s.fdCommand with fdCommand := -1 }
      -- The other commands issue a request or a response.
      | _ => s
    s.close acceptFD

/-- The start of `sendResponseRaw`. -/
def sendResponseRaw (dataSize : Nat) : State :=
  if s.fdCommand < 0 then s
  else if maxCommandBytes < dataSize then s
  else { s with sending := s.fdCommand :: s.sending }

/-- A callback of the event `e` is called and returns. A failed assertion is a crash. -/
def callback (e : Nat) (result : Option State) : Option State :=
  match s.ev.phase with
  | .running e' next =>
    if e' = e then
      match result with
      | none => some { s with ev := { s.ev with phase := .crashed } }
      | some s' => some { s' with ev := { s'.ev with phase := .firing next } }
    else none
  | _ => none

end State

inductive Step
  | poll (now : Timeval) (fuel : Nat) (ready : List Int)
  | fire
  | processWakeupCallback
  | listenCallback (accepted : Option Peer)
  | processCommandsCallback (results : List GetNext)
  | debugCallback (accepted : Option DebugPeer)
  | sendResponseRaw (dataSize : Nat)
  /-- A call of `sendResponseRaw` that has read `fd` returns. -/
  | sent (fd : Int)
  /-- The `write` of such a call fails in `blockingWrite`. -/
  | writeError (fd : Int)
  deriving DecidableEq

/-- `accept` returns a descriptor that is not open. -/
def State.Fresh (s : State) (fd : Int) : Prop := 0 ≤ fd ∧ s.isOpen fd = false

instance (s : State) (fd : Int) : Decidable (s.Fresh fd) := inferInstanceAs (Decidable (_ ∧ _))

def step (s : State) : Step → Option State
  | .poll now fuel ready => (estep s.ev (.poll now fuel ready)).map fun ev => { s with ev := ev }
  | .fire => (estep s.ev .fire).map fun ev => { s with ev := ev }
  | .processWakeupCallback => s.callback wakeupfdEvent (some s)
  | .listenCallback accepted =>
    if ∀ peer ∈ accepted, s.Fresh peer.fd then
      s.callback listenEvent (s.listenCallback accepted)
    else none
  | .processCommandsCallback results =>
    (lastResult results).bind fun result =>
      s.callback commandsEvent (s.processCommandsCallback result)
  | .debugCallback accepted =>
    if ∀ peer ∈ accepted, s.Fresh peer.fd then
      s.callback debugEvent (some (s.debugCallback accepted))
    else none
  | .sendResponseRaw dataSize => some (s.sendResponseRaw dataSize)
  | .sent fd => if fd ∈ s.sending then some { s with sending := s.sending.erase fd } else none
  | .writeError fd =>
    if fd ∈ s.sending then some { s.close fd with sending := s.sending.erase fd } else none

/-- The event is in the watch table. -/
def State.Watched (s : State) (e : Nat) : Prop := ∃ i, s.ev.watch i = some e

instance (s : State) (e : Nat) : Decidable (s.Watched e) := inferInstanceAs (Decidable (∃ _, _))

/-- The thread waits for a client. -/
def Idle (s : State) : Prop :=
  s.fdCommand = -1 ∧ s.Watched listenEvent ∧ ¬ s.Watched commandsEvent

/-- The thread waits for the commands of a client. -/
def Connected (s : State) : Prop :=
  s.isOpen s.fdCommand = true ∧ s.Watched commandsEvent ∧ s.ev.fd commandsEvent = s.fdCommand ∧
    ¬ s.Watched listenEvent

instance (s : State) : Decidable (Idle s) := inferInstanceAs (Decidable (_ ∧ _ ∧ _))

instance (s : State) : Decidable (Connected s) := inferInstanceAs (Decidable (_ ∧ _ ∧ _ ∧ _))

/-- In a round, the loop takes `s_listen_event` out of the table before it calls the callback. -/
def Accepting (s : State) : Prop :=
  s.fdCommand = -1 ∧ ¬ s.Watched listenEvent ∧ ¬ s.Watched commandsEvent ∧
    (due listenEvent s.ev.trace = some true ∨ ∃ next, s.ev.phase = .running listenEvent next)

structure Consistent (s : State) : Prop where
  waiting : s.ev.phase = .waiting → Xor (Idle s) (Connected s)
  round : Xor (Idle s ∨ Accepting s) (Connected s)

/-- The write that fails is not on the client's socket, and debug command 1 comes while no client is
connected. -/
def Ok (s : State) : Step → Prop
  | .writeError fd => fd ≠ s.fdCommand
  | .debugCallback (some ⟨_, some option⟩) => option = 1 → s.fdCommand = -1
  | _ => True

instance (s : State) : (l : Step) → Decidable (Ok s l)
  | .writeError fd => inferInstanceAs (Decidable (fd ≠ s.fdCommand))
  | .debugCallback (some ⟨_, some option⟩) =>
    inferInstanceAs (Decidable (option = 1 → s.fdCommand = -1))
  | .debugCallback none | .debugCallback (some ⟨_, none⟩) => .isTrue trivial
  | .poll .. | .fire | .processWakeupCallback | .listenCallback _ | .processCommandsCallback _
  | .sendResponseRaw _ | .sent _ => .isTrue trivial

/-! ## The watch table -/

section Table

variable {ev : Events} {P : List Nat} {e : Nat}

/-- Four events leave a slot free. -/
theorem exists_free (h : ev.Inv P []) (hknown : ∀ e, ev.index e ≠ none → e < 4) :
    ∃ i, ev.watch i = none := by
  by_contra hfull
  simp only [not_exists] at hfull
  choose f hf using fun i => Option.ne_none_iff_exists'.mp (hfull i)
  have hlt : ∀ i, f i < 4 := fun i => hknown _ (by simp [(h.watch i _).mp (hf i)])
  have hinj : Function.Injective fun i => (⟨f i, hlt i⟩ : Fin 4) := by
    intro i j hij
    have hfij : f i = f j := congrArg Fin.val hij
    have hi := (h.watch i _).mp (hf i)
    rw [hfij, (h.watch j _).mp (hf j)] at hi
    exact (Option.some.inj hi).symm
  have hcard := Fintype.card_le_of_injective _ hinj
  simp [maxFdEvents] at hcard

theorem unlinked (h : ev.Inv P []) (he : e ∉ P) : ev.Unlinked e := by
  by_contra hlinked
  have := (h.not_unlinked_iff e).mp hlinked
  simp [he] at this

theorem known_update {index : Nat → Option Slot} (h : ∀ e, index e ≠ none → e < 4) {e : Nat}
    (he : e < 4) (i : Option Slot) : ∀ x, Function.update index e i x ≠ none → x < 4 := by
  intro x hx
  by_cases hxe : x = e
  · rw [hxe]
    exact he
  · rw [Function.update_of_ne hxe] at hx
    exact h x hx

theorem known_eventSet (h : ∀ x, ev.index x ≠ none → x < 4) (he : e < 4) (fd : Int)
    (persist : Bool) : ∀ x, (ev.eventSet e fd persist).index x ≠ none → x < 4 :=
  known_update h he none

theorem known_eventAdd (h : ∀ x, ev.index x ≠ none → x < 4) (he : e < 4) :
    ∀ x, (ev.eventAdd e).index x ≠ none → x < 4 := by
  unfold Events.eventAdd
  split
  · exact h
  · exact known_update h he _

theorem eventAdd_index (h : ∃ i, ev.watch i = none) (e : Nat) :
    ∃ i, (ev.eventAdd e).index = Function.update ev.index e (some i) := by
  unfold Events.eventAdd
  split
  next hfind =>
    obtain ⟨i, hi⟩ := h
    have := List.find?_eq_none.mp hfind i (List.mem_finRange i)
    simp [hi] at this
  next i _ => exact ⟨i, rfl⟩

@[simp]
theorem eventAdd_fd (ev : Events) (e : Nat) : (ev.eventAdd e).fd = ev.fd := by
  unfold Events.eventAdd
  split <;> rfl

@[simp]
theorem eventAdd_persist (ev : Events) (e : Nat) : (ev.eventAdd e).persist = ev.persist := by
  unfold Events.eventAdd
  split <;> rfl

theorem eventDel_index (ev : Events) (e : Nat) :
    (ev.eventDel e).index = Function.update ev.index e none := by
  unfold Events.eventDel
  split
  next hi => exact (Function.update_eq_self_iff.mpr hi.symm).symm
  · rfl

@[simp]
theorem eventDel_fd (ev : Events) (e : Nat) : (ev.eventDel e).fd = ev.fd := by
  unfold Events.eventDel
  split <;> rfl

@[simp]
theorem eventDel_persist (ev : Events) (e : Nat) : (ev.eventDel e).persist = ev.persist := by
  unfold Events.eventDel
  split <;> rfl

/-- What `firePending` does before it calls a callback. -/
theorem fire_table {ev' : Events} (h : ev.fire (.ev e) = .ok ev') :
    ev'.index = ev.index ∧ ev'.fd = ev.fd ∧ ev'.persist = ev.persist := by
  simp only [Events.fire] at h
  cases hr : removeFromList ev.links (.ev e) with
  | error f =>
    rw [hr] at h
    cases h
  | ok r =>
    rw [hr] at h
    cases h
    exact ⟨rfl, rfl, rfl⟩

end Table

/-! ## Every run -/

section

variable (s : State) (due : Nat → Prop)

/-- No client is connected. The listening socket is in the table unless its event is due. -/
def Closed : Prop :=
  s.fdCommand = -1 ∧ s.ev.index commandsEvent = none ∧ ¬ due commandsEvent ∧
    (s.ev.index listenEvent = none ↔ due listenEvent)

/-- A client is connected. -/
def Open : Prop :=
  (0 ≤ s.fdCommand ∧ s.isOpen s.fdCommand = true) ∧ s.ev.index commandsEvent ≠ none ∧
    (s.ev.fd commandsEvent = s.fdCommand ∧ s.ev.persist commandsEvent = true) ∧
    s.ev.index listenEvent = none ∧ ¬ due listenEvent

end

/-- `P` are the pending events, and `due` those whose callback has not returned. -/
structure Table (s : State) (P : List Nat) (due : Nat → Prop) : Prop where
  inv : s.ev.Inv P []
  known : ∀ e, s.ev.index e ≠ none → e < 4
  fdListen : s.ev.fd listenEvent = s.fdListen
  persist : s.ev.persist listenEvent = false
  socket : Closed s due ∨ Open s due

/-- The event is pending, or its callback is running. -/
def Due (ph : Phase) (P : List Nat) (e : Nat) : Prop := e ∈ P ∨ ∃ next, ph = .running e next

structure Inv (s : State) (P : List Nat) : Prop where
  table : Table s P (Due s.ev.phase P)
  goesOn : Events.GoesOn P s.ev.phase
  once : ∀ e next, s.ev.phase = .running e next → e ∉ P

namespace Table

variable {s : State} {P : List Nat} {due : Nat → Prop}

/-- The thread listens again. -/
theorem relisten {ev : Events} {fdListen : Int} (hinv : ev.Inv P [])
    (hknown : ∀ e, ev.index e ≠ none → e < 4) (hfd : ev.fd listenEvent = fdListen)
    (hpersist : ev.persist listenEvent = false) (hc : ev.index commandsEvent = none)
    (hcP : commandsEvent ∉ P) (hl : ev.index listenEvent = none) (hlP : listenEvent ∉ P)
    (isOpen : Int → Bool) (sending : List Int) :
    Table ⟨ev.eventAdd listenEvent, fdListen, -1, isOpen, sending⟩ P (· ∈ P) := by
  obtain ⟨i, hi⟩ := eventAdd_index (exists_free hinv hknown) listenEvent
  refine ⟨hinv.eventAdd hl (by simp), known_eventAdd hknown (by decide), by simpa using hfd,
    by simpa using hpersist, .inl ⟨rfl, ?_, hcP, ?_⟩⟩
  · rw [hi, Function.update_of_ne (by decide)]
    exact hc
  · simp [hi, hlP]

/-- A client is accepted. -/
theorem connect {ev : Events} {fdListen fd : Int} (hinv : ev.Inv P [])
    (hknown : ∀ e, ev.index e ≠ none → e < 4) (hfd : ev.fd listenEvent = fdListen)
    (hpersist : ev.persist listenEvent = false) (hc : ev.index commandsEvent = none)
    (hcP : commandsEvent ∉ P) (hl : ev.index listenEvent = none) (hlP : listenEvent ∉ P)
    (hpos : 0 ≤ fd) {isOpen : Int → Bool} (hopen : isOpen fd = true) (sending : List Int) :
    Table ⟨(ev.eventSet commandsEvent fd true).eventAdd commandsEvent, fdListen, fd, isOpen,
      sending⟩ P (· ∈ P) := by
  have hset := hinv.eventSet (unlinked hinv hcP) hc fd true
  -- `ril_event_set` writes the index that the event has.
  have hindex : (ev.eventSet commandsEvent fd true).index = ev.index :=
    Function.update_eq_self_iff.mpr hc.symm
  have hknown' := known_eventSet hknown (e := commandsEvent) (by decide) fd true
  obtain ⟨i, hi⟩ := eventAdd_index (exists_free hset hknown') commandsEvent
  rw [hindex] at hi
  refine ⟨hset.eventAdd (by rw [hindex]; exact hc) (by simp), known_eventAdd hknown' (by decide),
    ?_, ?_, .inr ⟨⟨hpos, hopen⟩, ?_, ⟨?_, ?_⟩, ?_, hlP⟩⟩
  · rw [eventAdd_fd]
    exact hfd
  · rw [eventAdd_persist]
    exact hpersist
  · simp [hi]
  · simp [Events.eventSet]
  · simp [Events.eventSet]
  · rw [hi, Function.update_of_ne (by decide)]
    exact hl

theorem listenCallback (h : Table s P fun e => e ∈ P ∨ e = listenEvent) (hP : listenEvent ∉ P)
    {accepted : Option Peer} (hfresh : ∀ peer ∈ accepted, s.Fresh peer.fd) :
    ∃ s', s.listenCallback accepted = some s' ∧ Table s' P (· ∈ P) := by
  obtain ⟨hfd, hc, hcP, hl⟩ := h.socket.resolve_right fun ho => ho.2.2.2.2 (.inr rfl)
  have hcP : commandsEvent ∉ P := fun hm => hcP (.inl hm)
  have hl : s.ev.index listenEvent = none := hl.mpr (.inr rfl)
  have hassert : s.fdCommand < 0 ∧ s.ev.fd listenEvent = s.fdListen := ⟨by omega, h.fdListen⟩
  unfold State.listenCallback
  rw [if_neg (not_not.mpr hassert)]
  cases accepted with
  | none =>
    exact ⟨_, rfl, relisten h.inv h.known h.fdListen h.persist hc hcP hl hP _ _⟩
  | some peer =>
    simp only
    split
    · exact ⟨_, rfl, relisten h.inv h.known h.fdListen h.persist hc hcP hl hP _ _⟩
    · have hpos := (hfresh peer rfl).1
      exact ⟨_, rfl, connect h.inv h.known h.fdListen h.persist hc hcP hl hP hpos
        (by simp [State.opened]) _⟩

theorem processCommandsCallback (h : Table s P fun e => e ∈ P ∨ e = commandsEvent)
    (hP : commandsEvent ∉ P) (result : GetNext) :
    ∃ s', s.processCommandsCallback result = some s' ∧ Table s' P (· ∈ P) := by
  obtain ⟨hopen, hc, ⟨hfd, hpersist⟩, hl, hlP⟩ :=
    h.socket.resolve_left fun hcl => hcl.2.2.1 (.inr rfl)
  have hlP : listenEvent ∉ P := fun hm => hlP (.inl hm)
  unfold State.processCommandsCallback
  rw [if_neg (not_not.mpr hfd)]
  split
  · exact ⟨s, rfl, h.inv, h.known, h.fdListen, h.persist,
      .inr ⟨hopen, hc, ⟨hfd, hpersist⟩, hl, hlP⟩⟩
  · have hdel := h.inv.eventDel (unlinked h.inv hP)
    refine ⟨_, rfl, relisten hdel ?_ (by rw [eventDel_fd]; exact h.fdListen)
      (by rw [eventDel_persist]; exact h.persist) ?_ hP ?_ hlP _ _⟩
    · rw [eventDel_index]
      exact known_update h.known (by decide) none
    · simp [eventDel_index]
    · rw [eventDel_index, Function.update_of_ne (by decide)]
      exact hl

theorem congr {due' : Nat → Prop} (h : Table s P due) (hc : due commandsEvent ↔ due' commandsEvent)
    (hl : due listenEvent ↔ due' listenEvent) : Table s P due' where
  inv := h.inv
  known := h.known
  fdListen := h.fdListen
  persist := h.persist
  socket := by simpa only [Closed, Open, hc, hl] using h.socket

/-- The client's socket stays open. -/
theorem keepOpen (h : Table s P due) {isOpen : Int → Bool}
    (ho : 0 ≤ s.fdCommand → s.isOpen s.fdCommand = true → isOpen s.fdCommand = true)
    (sending : List Int) : Table { s with isOpen := isOpen, sending := sending } P due where
  inv := h.inv
  known := h.known
  fdListen := h.fdListen
  persist := h.persist
  socket := h.socket.imp_right fun ⟨⟨hpos, hopen⟩, hrest⟩ => ⟨⟨hpos, ho hpos hopen⟩, hrest⟩

theorem setPhase (h : Table s P due) (ph : Phase) :
    Table { s with ev := { s.ev with phase := ph } } P due where
  inv := ⟨h.inv.lists, h.inv.watch, h.inv.timers, h.inv.due, h.inv.live, h.inv.punctual⟩
  known := h.known
  fdListen := h.fdListen
  persist := h.persist
  socket := h.socket

/-- A round takes the listening socket out of the table when it is ready. -/
theorem poll (h : Table s [] fun _ => False) {ev : Events} (hinv : ev.Inv P [])
    (hpolled : Events.Polled s.ev ev [] P) : Table { s with ev := ev } P (· ∈ P) := by
  have hkept : ∀ e, e ∉ P → ev.index e = s.ev.index e := fun e he => hpolled.kept e (.inr (.inl he))
  have hwatched : ∀ e, s.ev.index e = none → e ∉ P := by
    intro e he hm
    exact hpolled.watched e hm (by simp) he
  refine ⟨hinv, ?_, ?_, ?_, ?_⟩
  · intro e he
    by_cases hm : e ∈ P
    · exact h.known e (hpolled.watched e hm (by simp))
    · rw [hkept e hm] at he
      exact h.known e he
  · rw [hpolled.fd]
    exact h.fdListen
  · rw [hpolled.persist]
    exact h.persist
  · obtain ⟨hfd, hc, -, hl⟩ | ⟨hopen, hc, ⟨hfd, hpersist⟩, hl, -⟩ := h.socket
    · refine .inl ⟨hfd, ?_, hwatched _ hc, ?_⟩
      · rw [hkept _ (hwatched _ hc)]
        exact hc
      · by_cases hm : listenEvent ∈ P
        · simp only [hm, iff_true]
          exact hpolled.taken _ hm (by simp) h.persist
        · rw [hkept _ hm]
          simpa [hm] using hl
    · refine .inr ⟨hopen, ?_, ⟨?_, ?_⟩, ?_, hwatched _ hl⟩
      · rw [hpolled.kept _ (.inr (.inr hpersist))]
        exact hc
      · rw [hpolled.fd]
        exact hfd
      · rw [hpolled.persist]
        exact hpersist
      · rw [hkept _ (hwatched _ hl)]
        exact hl

end Table

/-- `debugCallback` leaves the client's socket open, but for command 1. -/
theorem debugCallback_eq {s : State} {accepted : Option DebugPeer}
    (hfresh : ∀ peer ∈ accepted, s.Fresh peer.fd) (hok : Ok s (.debugCallback accepted)) :
    ∃ isOpen, s.debugCallback accepted = { s with isOpen := isOpen } ∧
      (0 ≤ s.fdCommand → s.isOpen s.fdCommand = true → isOpen s.fdCommand = true) := by
  have hne : ∀ peer ∈ accepted, s.isOpen s.fdCommand = true → s.fdCommand ≠ peer.fd := by
    intro peer hp hopen heq
    rw [heq, (hfresh peer hp).2] at hopen
    cases hopen
  unfold State.debugCallback
  split
  · exact ⟨s.isOpen, rfl, fun _ h => h⟩
  next acceptFD =>
    refine ⟨_, rfl, fun _ hopen => ?_⟩
    rw [Function.update_of_ne (hne _ rfl hopen)]
    exact hopen
  next acceptFD option =>
    simp only
    split
    · have hfd : s.fdCommand = -1 := hok rfl
      refine ⟨_, by rw [← hfd]; rfl, fun hpos => ?_⟩
      omega
    · refine ⟨_, rfl, fun _ hopen => ?_⟩
      simp only [State.opened]
      rw [Function.update_of_ne (hne _ rfl hopen), Function.update_of_ne (hne _ rfl hopen)]
      exact hopen

namespace Inv

variable {s s' : State} {P : List Nat}

/-- A callback that keeps the table returns to the loop. -/
theorem callback (h : Inv s P) {e : Nat} {result : Option State}
    (hresult : e ∉ P → Table s P (fun x => x ∈ P ∨ x = e) →
      ∃ s₁, result = some s₁ ∧ Table s₁ P (· ∈ P))
    (hs : s.callback e result = some s') : Inv s' P := by
  unfold State.callback at hs
  split at hs
  next e' next hp =>
    split at hs
    next he =>
      subst he
      have hdue : ∀ x, Due s.ev.phase P x ↔ x ∈ P ∨ x = e' := by
        intro x
        simp [Due, hp, eq_comm]
      obtain ⟨s₁, rfl, ht⟩ := hresult (h.once e' next hp) (h.table.congr (hdue _) (hdue _))
      cases hs
      have hgo := h.goesOn
      rw [hp] at hgo
      exact ⟨(ht.setPhase _).congr (by simp [Due]) (by simp [Due]), hgo, fun _ _ hr => by cases hr⟩
    · cases hs
  · cases hs

theorem poll (h : Inv s P) {now : Timeval} {fuel : Nat} {ready : List Int}
    (hs : step s (.poll now fuel ready) = some s') : ∃ P', Inv s' P' := by
  simp only [step, estep] at hs
  split at hs
  next hg =>
    have hgo := h.goesOn
    rw [hg.1] at hgo
    obtain rfl : P = [] := hgo
    rcases h.table.inv.poll now fuel ready with
      ⟨hf, -⟩ | ⟨ev, P', T', hr, hinv, hp, P₁, hT, hpolled⟩
    · rw [hf] at hs
      cases hs
    · obtain ⟨rfl, rfl⟩ := List.append_eq_nil_iff.mp hT.symm
      rw [hr] at hs
      cases hs
      have ht : Table s [] fun _ => False :=
        h.table.congr (by simp [Due, hg.1]) (by simp [Due, hg.1])
      refine ⟨P', (ht.poll hinv hpolled).congr ?_ ?_, ?_, ?_⟩
      · simp [Due, hp]
      · simp [Due, hp]
      · rw [hp]
        rfl
      · intro e next hr
        rw [hp] at hr
        cases hr
  · cases hs

theorem fire (h : Inv s P) (hs : step s .fire = some s') : ∃ P', Inv s' P' := by
  simp only [step, estep] at hs
  split at hs
  next node hp =>
    have hgo := h.goesOn
    rw [hp] at hgo
    cases hgo
    cases P with
    | nil =>
      cases hs
      refine ⟨[], (h.table.setPhase .waiting).congr ?_ ?_, rfl, fun _ _ hr => by cases hr⟩
      · simp [Due, hp]
      · simp [Due, hp]
    | cons e P =>
      obtain ⟨ev, hr, hinv, hp'⟩ := h.table.inv.fire
      obtain ⟨hindex, hfd, hpersist⟩ := fire_table hr
      simp only [List.map_cons, List.headD_cons, hr] at hs
      cases hs
      have hdue : ∀ x, Due s.ev.phase (e :: P) x ↔ Due ev.phase P x := by
        intro x
        simp only [Due, hp, hp', List.mem_cons]
        simp [or_comm, eq_comm]
      have ht := h.table.congr (hdue commandsEvent) (hdue listenEvent)
      refine ⟨P, ⟨hinv, ?_, ?_, ?_, ?_⟩, ?_, ?_⟩
      · rw [hindex]
        exact ht.known
      · rw [hfd]
        exact ht.fdListen
      · rw [hpersist]
        exact ht.persist
      · simpa only [Closed, Open, hindex, hfd, hpersist] using ht.socket
      · rw [hp']
        rfl
      · intro e' next hr'
        rw [hp'] at hr'
        cases hr'
        exact (List.nodup_cons.mp h.table.inv.lists.pending_nodup).1
  · cases hs

/-- Every allowed step keeps the invariant. -/
theorem step {l : Step} (h : Inv s P) (hok : Ok s l) (hs : step s l = some s') :
    ∃ P', Inv s' P' := by
  cases l with
  | poll now fuel ready => exact h.poll hs
  | fire => exact h.fire hs
  | processWakeupCallback =>
    refine ⟨P, h.callback (fun _ ht => ⟨s, rfl, ht.congr ?_ ?_⟩) hs⟩
    · simp [commandsEvent, wakeupfdEvent]
    · simp [listenEvent, wakeupfdEvent]
  | listenCallback accepted =>
    simp only [CommandSocket.step] at hs
    split at hs
    next hfresh => exact ⟨P, h.callback (fun hP ht => ht.listenCallback hP hfresh) hs⟩
    · cases hs
  | processCommandsCallback results =>
    obtain ⟨result, -, hs⟩ := Option.bind_eq_some_iff.mp hs
    exact ⟨P, h.callback (fun hP ht => ht.processCommandsCallback hP result) hs⟩
  | debugCallback accepted =>
    simp only [CommandSocket.step] at hs
    split at hs
    next hfresh =>
      obtain ⟨isOpen, heq, ho⟩ := debugCallback_eq hfresh hok
      rw [heq] at hs
      refine ⟨P, h.callback (fun _ ht => ⟨_, rfl, (ht.keepOpen ho s.sending).congr ?_ ?_⟩) hs⟩
      · simp [commandsEvent, debugEvent]
      · simp [listenEvent, debugEvent]
    · cases hs
  | sendResponseRaw dataSize =>
    cases hs
    unfold State.sendResponseRaw
    split
    · exact ⟨P, h⟩
    · split
      · exact ⟨P, h⟩
      · exact ⟨P, h.table.keepOpen (fun _ ho => ho) _, h.goesOn, h.once⟩
  | sent fd =>
    simp only [CommandSocket.step] at hs
    split at hs
    · cases hs
      exact ⟨P, h.table.keepOpen (fun _ ho => ho) _, h.goesOn, h.once⟩
    · cases hs
  | writeError fd =>
    have hne : s.fdCommand ≠ fd := Ne.symm hok
    simp only [CommandSocket.step] at hs
    split at hs
    · cases hs
      refine ⟨P, h.table.keepOpen (fun _ ho => ?_) _, h.goesOn, h.once⟩
      simp only [State.close]
      rw [Function.update_of_ne hne]
      exact ho
    · cases hs

theorem init (fdWakeupRead fdListen fdDebug : Int) :
    Inv (.init fdWakeupRead fdListen fdDebug) [] := by
  have h₁ := (Events.Inv.init.eventSet (e := wakeupfdEvent) (.inl rfl) rfl fdWakeupRead
    true).eventAdd (e := wakeupfdEvent) rfl (by simp)
  have h₂ := (h₁.eventSet (e := listenEvent) (.inl rfl) rfl fdListen false).eventAdd
    (e := listenEvent) rfl (by simp)
  have h₃ := (h₂.eventSet (e := debugEvent) (.inl rfl) rfl fdDebug true).eventAdd
    (e := debugEvent) rfl (by simp)
  have hnot : ∀ e, ¬ Due (State.init fdWakeupRead fdListen fdDebug).ev.phase [] e := by
    rintro e (hm | ⟨next, hr⟩)
    · cases hm
    · cases hr
  refine ⟨⟨h₃, ?_, rfl, rfl, .inl ⟨rfl, rfl, hnot _, ?_⟩⟩, rfl, fun _ _ hr => by cases hr⟩
  · have hnone : ∀ e, Events.init.index e ≠ none → e < 4 := fun _ he => absurd rfl he
    have hwake := known_eventAdd (known_eventSet hnone (e := wakeupfdEvent) (by decide)
      fdWakeupRead true) (e := wakeupfdEvent) (by decide)
    have hlisten := known_eventAdd (known_eventSet hwake (e := listenEvent) (by decide)
      fdListen false) (e := listenEvent) (by decide)
    exact known_eventAdd (known_eventSet hlisten (e := debugEvent) (by decide) fdDebug true)
      (by decide)
  · refine ⟨fun hi => ?_, fun hd => absurd hd (hnot _)⟩
    cases hi

theorem watched_iff (h : Inv s P) (e : Nat) : s.Watched e ↔ s.ev.index e ≠ none := by
  rw [Option.ne_none_iff_exists']
  exact exists_congr fun i => h.table.inv.watch i e

theorem consistent (h : Inv s P) : Consistent s := by
  have hdue : ∀ e, Ril.due e s.ev.trace = some true ↔ e ∈ P := by simp [h.table.inv.due]
  obtain ⟨hfd, hc, -, hl⟩ | ⟨⟨-, hopen⟩, hc, ⟨hfd, -⟩, hl, -⟩ := h.table.socket
  · have hnc : ¬ s.Watched commandsEvent := by simp [h.watched_iff, hc]
    have hnot : ¬ Connected s := fun hcon => hnc hcon.2.1
    constructor
    · intro hw
      have hgo := h.goesOn
      rw [hw] at hgo hl
      refine .inl ⟨⟨hfd, (h.watched_iff _).mpr fun hnone => ?_, hnc⟩, hnot⟩
      have hd := hl.mp hnone
      simp [Due, show P = [] from hgo] at hd
    · refine .inl ⟨?_, hnot⟩
      by_cases hlw : s.Watched listenEvent
      · exact .inl ⟨hfd, hlw, hnc⟩
      · refine .inr ⟨hfd, hlw, hnc, ?_⟩
        rw [hdue]
        exact hl.mp (by simpa [h.watched_iff] using hlw)
  · have hcon : Connected s :=
      ⟨hopen, (h.watched_iff _).mpr hc, hfd, by simp [h.watched_iff, hl]⟩
    refine ⟨fun _ => .inr ⟨hcon, fun hidle => hidle.2.2 hcon.2.1⟩, .inr ⟨hcon, ?_⟩⟩
    rintro (hidle | haccept)
    · exact hidle.2.2 hcon.2.1
    · exact haccept.2.2.1 hcon.2.1

end Inv

/-- The thread waits for a client or for the commands of one, along every run in which no write to
the client fails and no debug command 1 comes while a client is connected. -/
theorem command_socket {fdWakeupRead fdListen fdDebug : Int} {ls : List Step} {s : State}
    (hok : RunOk step Ok (.init fdWakeupRead fdListen fdDebug) ls)
    (hrun : run step (.init fdWakeupRead fdListen fdDebug) ls = some s) : Consistent s := by
  have hinit : ∃ P, Inv (.init fdWakeupRead fdListen fdDebug) P := ⟨[], .init _ _ _⟩
  have hstep : ∀ s l s', (∃ P, Inv s P) → Ok s l → step s l = some s' → ∃ P, Inv s' P :=
    fun _ _ _ ⟨_, h⟩ hl hs => h.step hl hs
  obtain ⟨P, h⟩ := run_invariant hstep hinit hok hrun
  exact h.consistent

/-- A client is accepted, sends a command, gets a response and leaves; debug command 1 comes, and a
client is accepted again. -/
def reconnectRun : List Step :=
  [ .poll ⟨0, 0⟩ 1 [4], .fire, .listenCallback (some ⟨6, some "radio"⟩), .fire,
    .poll ⟨0, 0⟩ 1 [6], .fire, .processCommandsCallback [.record, .error true], .fire,
    .sendResponseRaw 12, .sent 6,
    .poll ⟨0, 0⟩ 1 [6], .fire, .processCommandsCallback [.endOfStream], .fire,
    .poll ⟨0, 0⟩ 1 [4, 5], .fire, .listenCallback (some ⟨6, some "shell"⟩), .fire,
    .debugCallback (some ⟨7, some 1⟩), .fire,
    .poll ⟨0, 0⟩ 1 [4], .fire, .listenCallback (some ⟨6, some "radio"⟩), .fire ]

theorem command_socket_reconnect :
    ∃ s, run step (.init 3 4 5) reconnectRun = some s ∧ s.fdCommand = 6 ∧ Consistent s := by
  have hrun : ((run step (.init 3 4 5) reconnectRun).any fun s => s.fdCommand = 6) = true := by
    decide +kernel
  obtain ⟨s, hs, hfd⟩ := (Option.any_eq_true ..).mp hrun
  exact ⟨s, hs, by simpa using hfd, command_socket (by decide +kernel) hs⟩

/-- A client is accepted. -/
def acceptRun : List Step :=
  [.poll ⟨0, 0⟩ 1 [4], .fire, .listenCallback (some ⟨6, some "radio"⟩), .fire]

/-- The write of a response fails. -/
def writeErrorRun : List Step := acceptRun ++ [.sendResponseRaw 12, .writeError 6]

/-- Debug command 1 comes. -/
def debugRun : List Step :=
  acceptRun ++ [.poll ⟨0, 0⟩ 1 [5], .fire, .debugCallback (some ⟨7, some 1⟩), .fire]

/-- The thread then waits neither for a client nor for the commands of one. -/
theorem socket_lost :
    (∃ s, run step (.init 3 4 5) writeErrorRun = some s ∧ s.ev.phase = .waiting ∧
      ¬ Xor (Idle s) (Connected s)) ∧
    ∃ s, run step (.init 3 4 5) debugRun = some s ∧ s.ev.phase = .waiting ∧
      ¬ Xor (Idle s) (Connected s) := by
  have hwrite : ((run step (.init 3 4 5) writeErrorRun).any fun s =>
      s.ev.phase = .waiting ∧ ¬ Xor (Idle s) (Connected s)) = true := by decide +kernel
  have hdebug : ((run step (.init 3 4 5) debugRun).any fun s =>
      s.ev.phase = .waiting ∧ ¬ Xor (Idle s) (Connected s)) = true := by decide +kernel
  simp only [Option.any_eq_true, decide_eq_true_eq] at hwrite hdebug
  exact ⟨hwrite, hdebug⟩

end Twm.Ril.CommandSocket
