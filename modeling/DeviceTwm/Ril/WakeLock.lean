import Mathlib.Data.List.Nodup
import DeviceTwm.Lib.Run

/-!
# The wake lock of unsolicited responses

`RIL_onUnsolicitedResponse` takes one wake lock for all responses that need it. A response that is
accepted starts a timer, which releases the lock after `TIMEVAL_WAKE_TIMEOUT`, and cancels the timer
of the response before through the pointer `s_last_wake_timeout_info`. A response whose payload is
rejected releases the lock at once.

The lock is not counted. `LongEnough` says that it is kept for the whole time after each accepted
response, and that one release is scheduled. This holds along every run in which no response is
rejected while the time of an accepted one is running (`wake_longEnough`); a response that is
rejected then takes the lock away from the accepted one (`rejected_releases`).

A call is one step, and so is a timer callback: none runs inside a call of `RIL_onUnsolicitedResponse`.
`timer_queue` says that a timer does not fire before its time.
-/

open Lib

namespace Twm.Ril.WakeLock

inductive WakeType
  | dontWake
  | wakePartial
  deriving DecidableEq

/-- `RIL_UNSOL_RESPONSE_BASE`. -/
def unsolResponseBase : Int := 1000

/-- The wake types of `s_unsolResponses`. -/
def wakeTypes : List WakeType :=
  [ -- from 1000 (`RIL_UNSOL_RESPONSE_RADIO_STATE_CHANGED`)
    .wakePartial, .wakePartial, .wakePartial, .wakePartial, .wakePartial, .wakePartial, .wakePartial,
    -- 1007 (`RIL_UNSOL_ON_USSD_REQUEST`)
    .dontWake, .wakePartial,
    -- 1009 (`RIL_UNSOL_SIGNAL_STRENGTH`)
    .dontWake, .wakePartial,
    -- from 1011 (`RIL_UNSOL_SUPP_SVC_NOTIFICATION`)
    .wakePartial, .wakePartial, .wakePartial, .wakePartial, .wakePartial, .wakePartial, .wakePartial,
    .wakePartial, .wakePartial, .wakePartial, .wakePartial, .wakePartial, .wakePartial, .wakePartial,
    .wakePartial, .wakePartial, .wakePartial, .wakePartial, .wakePartial, .wakePartial ]

/-- The wake type of a response; nothing for a code that is not supported. -/
def wakeType (unsolResponse : Int) : Option WakeType :=
  if unsolResponse - unsolResponseBase < 0 then none
  else wakeTypes[(unsolResponse - unsolResponseBase).toNat]?

/-- `TIMEVAL_WAKE_TIMEOUT`, in microseconds. -/
def wakeTimeout : Int := 1000000

/-- `UserCallbackInfo` of `wakeTimeoutCallback`. -/
structure Info where
  /-- Its address. -/
  addr : Nat
  due : Int
  /-- `userParam` is not null: the timer is cancelled. -/
  userParam : Bool
  deriving DecidableEq

/-- What happened to the lock, and when. -/
inductive Event
  /-- A response was accepted. -/
  | accepted (time : Int)
  /-- The lock was released by a timer. -/
  | timedOut (time : Int)
  /-- The lock was released for a response that was rejected. -/
  | rejected (time : Int)
  deriving DecidableEq

structure State where
  /-- `s_registerCalled`. -/
  registerCalled : Bool
  now : Int
  held : Bool
  /-- The timers that are waiting. -/
  infos : List Info
  /-- `s_last_wake_timeout_info`. -/
  lastWakeTimeoutInfo : Option Nat
  /-- The newest event is first. -/
  log : List Event

def State.init : State := ⟨false, 0, false, [], none, []⟩

namespace State

variable (s : State)

/-- `s_last_wake_timeout_info->userParam = (void *)1`. -/
def cancelLast : List Info :=
  s.infos.map fun i =>
    if s.lastWakeTimeoutInfo = some i.addr then { i with userParam := true } else i

/-- `RIL_onUnsolicitedResponse`. `ret` is what the response function returns, and `addr` what
`malloc` does. -/
def onUnsolicitedResponse (unsolResponse ret : Int) (addr : Nat) : State :=
  if s.registerCalled = false then s
  else
    match wakeType unsolResponse with
    | none => s
    | some .dontWake => s
    | some .wakePartial =>
      -- Problem with the response. Don't continue;
      if ret ≠ 0 then { s with held := false, log := .rejected s.now :: s.log }
      else
        { s with
          held := true
          infos := ⟨addr, s.now + wakeTimeout, false⟩ :: s.cancelLast
          lastWakeTimeoutInfo := some addr
          log := .accepted s.now :: s.log }

/-- `userTimerCallback` of the timer `i`. -/
def userTimerCallback (i : Info) : State :=
  -- We're using "param != NULL" as a cancellation mechanism
  let s := if i.userParam then s else { s with held := false, log := .timedOut s.now :: s.log }
  { s with
    infos := s.infos.erase i
    lastWakeTimeoutInfo :=
      if s.lastWakeTimeoutInfo = some i.addr then none else s.lastWakeTimeoutInfo }

end State

inductive Step
  /-- `RIL_register`. -/
  | register
  | response (unsolResponse ret : Int) (addr : Nat)
  | tick (micros : Nat)
  /-- The event loop calls a timer that is due. -/
  | fire (i : Info)
  deriving DecidableEq

/-- `malloc` returns the address of no block that is in use, and a timer fires after it is due. -/
def step (s : State) : Step → Option State
  | .register => some { s with registerCalled := true }
  | .response unsolResponse ret addr =>
    if addr ∈ s.infos.map Info.addr then none
    else some (s.onUnsolicitedResponse unsolResponse ret addr)
  | .tick micros => some { s with now := s.now + micros }
  | .fire i => if i ∈ s.infos ∧ i.due < s.now then some (s.userTimerCallback i) else none

/-- When the response was accepted whose timer has not fired yet. -/
def since : List Event → Option Int
  | [] => none
  | .accepted time :: _ => some time
  | .timedOut _ :: _ => none
  | .rejected _ :: log => since log

/-- The timers that will release the lock. -/
def State.releases (s : State) : List Info := s.infos.filter fun i => !i.userParam

def Event.releasedAt : Event → Option Int
  | .accepted _ => none
  | .timedOut time | .rejected time => some time

/-- The lock is not released before its time after a response that was accepted. -/
def Late (log : List Event) : Prop :=
  ∀ newer e older t t', log = newer ++ e :: older → e.releasedAt = some t →
    .accepted t' ∈ older → t' + wakeTimeout ≤ t

/-- What the lock is for. -/
structure LongEnough (s : State) : Prop where
  late : Late s.log
  /-- It is held until it is released. -/
  held : ∀ t log, s.log = .accepted t :: log → s.held = true
  /-- One release is scheduled, for the last response that was accepted. -/
  once : match since s.log with
    | none => s.releases = []
    | some t => ∃ addr, s.releases = [⟨addr, t + wakeTimeout, false⟩]

/-- No response is rejected while a release is scheduled for later. -/
def Ok (s : State) : Step → Prop
  | .response unsolResponse ret _ => s.registerCalled = true →
    wakeType unsolResponse = some .wakePartial → ret ≠ 0 → ∀ i ∈ s.releases, i.due ≤ s.now
  | _ => True

instance (s : State) : (l : Step) → Decidable (Ok s l)
  | .response .. => inferInstanceAs (Decidable (_ → _ → _ → _))
  | .register | .tick _ | .fire _ => .isTrue trivial

/-! ## Every run -/

variable {s s' : State} {log : List Event}

theorem Late.cons {e : Event} (h : Late log)
    (he : ∀ t t', e.releasedAt = some t → .accepted t' ∈ log → t' + wakeTimeout ≤ t) :
    Late (e :: log) := by
  intro newer e' older t t' hlog hr ha
  cases newer with
  | nil =>
    obtain ⟨rfl, rfl⟩ := List.cons.inj hlog
    exact he t t' hr ha
  | cons _ newer =>
    obtain ⟨-, hlog⟩ := List.cons.inj hlog
    exact h newer e' older t t' hlog hr ha

/-- No timer will release the lock, or only the one of the last response that was accepted. -/
def Scheduled (s : State) : Prop :=
  (since s.log = none ∧ s.lastWakeTimeoutInfo = none ∧ s.releases = [] ∧
    ∀ t, .accepted t ∈ s.log → t + wakeTimeout ≤ s.now) ∨
  ∃ time addr, since s.log = some time ∧ s.lastWakeTimeoutInfo = some addr ∧
    s.releases = [⟨addr, time + wakeTimeout, false⟩] ∧ ∀ t, .accepted t ∈ s.log → t ≤ time

structure Inv (s : State) : Prop where
  addrs : (s.infos.map Info.addr).Nodup
  past : ∀ t, .accepted t ∈ s.log → t ≤ s.now
  late : Late s.log
  held : ∀ t log, s.log = .accepted t :: log → s.held = true
  scheduled : Scheduled s

theorem Inv.init : Inv .init where
  addrs := List.nodup_nil
  past := fun _ h => by cases h
  late := fun newer _ _ _ _ h => by cases newer <;> cases h
  held := fun _ _ h => by cases h
  scheduled := .inl ⟨rfl, rfl, rfl, fun _ h => by cases h⟩

theorem mem_releases {i : Info} : i ∈ s.releases ↔ i ∈ s.infos ∧ i.userParam = false := by
  simp [State.releases]

/-- A timer that releases the lock is the one of the last response. -/
theorem Inv.last {i : Info} (h : Inv s) (hi : i ∈ s.releases) :
    s.lastWakeTimeoutInfo = some i.addr ∧ s.releases = [i] ∧
      ∀ t, .accepted t ∈ s.log → t + wakeTimeout ≤ i.due := by
  obtain ⟨-, -, hrel, -⟩ | ⟨time, addr, -, hlast, hrel, hle⟩ := h.scheduled
  · rw [hrel] at hi
    cases hi
  · rw [hrel, List.mem_singleton] at hi
    subst hi
    refine ⟨hlast, hrel, ?_⟩
    intro t ht
    have := hle t ht
    simp only
    omega

/-- When no release is scheduled for later, the time of every response has passed. -/
theorem Inv.passed (h : Inv s) (hdue : ∀ i ∈ s.releases, i.due ≤ s.now) :
    ∀ t, .accepted t ∈ s.log → t + wakeTimeout ≤ s.now := by
  obtain ⟨-, -, -, hle⟩ | ⟨time, addr, -, -, hrel, hle⟩ := h.scheduled
  · exact hle
  · have hi : ⟨addr, time + wakeTimeout, false⟩ ∈ s.releases := by simp [hrel]
    have htime := hdue _ hi
    intro t ht
    have := hle t ht
    simp only at htime
    omega

/-- The pointer is the one of a timer that is not cancelled. -/
theorem Inv.last_ne {i : Info} (h : Inv s) (hi : i ∈ s.infos) (hparam : i.userParam = true) :
    s.lastWakeTimeoutInfo ≠ some i.addr := by
  intro hl
  obtain ⟨-, hlast, -, -⟩ | ⟨time, addr, -, hlast, hrel, -⟩ := h.scheduled
  · rw [hlast] at hl
    cases hl
  · have hj : ⟨addr, time + wakeTimeout, false⟩ ∈ s.releases := by simp [hrel]
    have haddr : i.addr = addr := Option.some.inj (hl.symm.trans hlast)
    have heq := List.inj_on_of_nodup_map h.addrs hi (mem_releases.mp hj).1 haddr
    rw [heq] at hparam
    cases hparam

/-- The timer of the response before is cancelled. -/
theorem Inv.cancelLast (h : Inv s) : ∀ i ∈ s.cancelLast, i.userParam = true := by
  intro i hi
  obtain ⟨j, hj, rfl⟩ := List.mem_map.mp hi
  split
  · rfl
  next hne =>
    by_contra hf
    have hrel : j ∈ s.releases := mem_releases.mpr ⟨hj, by simpa using hf⟩
    exact hne (h.last hrel).1

theorem cancelLast_addr : s.cancelLast.map Info.addr = s.infos.map Info.addr := by
  rw [State.cancelLast, List.map_map]
  apply List.map_congr_left
  intro i _
  simp only [Function.comp]
  split <;> rfl

theorem Inv.accepted (h : Inv s) {addr : Nat} (haddr : addr ∉ s.infos.map Info.addr) :
    Inv { s with
      held := true
      infos := ⟨addr, s.now + wakeTimeout, false⟩ :: s.cancelLast
      lastWakeTimeoutInfo := some addr
      log := .accepted s.now :: s.log } := by
  have hpast : ∀ t, .accepted t ∈ Event.accepted s.now :: s.log → t ≤ s.now := by
    intro t ht
    obtain ⟨⟨⟩⟩ | ht := List.mem_cons.mp ht
    · exact Int.le_refl _
    · exact h.past t ht
  refine ⟨?_, hpast, h.late.cons (fun _ _ hr => by cases hr), fun _ _ _ => rfl,
    .inr ⟨s.now, addr, rfl, rfl, ?_, hpast⟩⟩
  · rw [List.map_cons, cancelLast_addr]
    exact List.nodup_cons.mpr ⟨haddr, h.addrs⟩
  · have hnone : s.cancelLast.filter (fun i => !i.userParam) = [] := by
      rw [List.filter_eq_nil_iff]
      intro i hi
      simp [h.cancelLast i hi]
    simp [State.releases, hnone]

theorem Inv.rejected (h : Inv s) (hdue : ∀ i ∈ s.releases, i.due ≤ s.now) :
    Inv { s with held := false, log := .rejected s.now :: s.log } where
  addrs := h.addrs
  past := by simpa using h.past
  late := by
    apply h.late.cons
    rintro _ t' ⟨⟩ ha
    exact h.passed hdue t' ha
  held := fun _ _ hlog => by cases hlog
  scheduled := by
    obtain ⟨hs, hlast, hrel, hle⟩ | ⟨time, addr, hs, hlast, hrel, hle⟩ := h.scheduled
    · exact .inl ⟨hs, hlast, hrel, by simpa using hle⟩
    · exact .inr ⟨time, addr, hs, hlast, hrel, by simpa using hle⟩

theorem Inv.onUnsolicitedResponse (h : Inv s) {unsolResponse ret : Int} {addr : Nat}
    (haddr : addr ∉ s.infos.map Info.addr) (hok : Ok s (.response unsolResponse ret addr)) :
    Inv (s.onUnsolicitedResponse unsolResponse ret addr) := by
  unfold State.onUnsolicitedResponse
  split
  · exact h
  next hreg =>
    split
    · exact h
    · exact h
    next hw =>
      split
      next hret => exact h.rejected (hok (by simpa using hreg) hw hret)
      · exact h.accepted haddr

theorem Inv.tick (h : Inv s) (micros : Nat) : Inv { s with now := s.now + micros } where
  addrs := h.addrs
  past := by
    intro t ht
    have := h.past t ht
    simp only
    omega
  late := h.late
  held := h.held
  scheduled := by
    obtain ⟨hs, hlast, hrel, hle⟩ | hsch := h.scheduled
    · refine .inl ⟨hs, hlast, hrel, ?_⟩
      intro t ht
      have := hle t ht
      simp only
      omega
    · exact .inr hsch

theorem releases_erase (i : Info) :
    (s.infos.erase i).filter (fun i => !i.userParam) = s.releases.erase i :=
  List.erase_filter.symm

theorem Inv.erase_addrs (h : Inv s) (i : Info) : ((s.infos.erase i).map Info.addr).Nodup :=
  h.addrs.sublist (List.erase_sublist.map _)

/-- The timer of the last response releases the lock after it is due. -/
theorem Inv.timedOut {i : Info} (h : Inv s) (hi : i ∈ s.releases) (hdue : i.due < s.now) :
    Inv (s.userTimerCallback i) := by
  obtain ⟨hlast, hrel, hle⟩ := h.last hi
  obtain ⟨-, hparam⟩ := mem_releases.mp hi
  have hpassed : ∀ t, .accepted t ∈ s.log → t + wakeTimeout ≤ s.now := fun t ht =>
    Int.le_trans (hle t ht) (Int.le_of_lt hdue)
  simp only [State.userTimerCallback, hparam, hlast, ↓reduceIte, Bool.false_eq_true]
  refine ⟨h.erase_addrs i, by simpa using h.past, ?_, (fun _ _ hlog => by cases hlog),
    .inl ⟨rfl, rfl, ?_, by simpa using hpassed⟩⟩
  · apply h.late.cons
    rintro _ t' ⟨⟩ ha
    exact hpassed t' ha
  · rw [State.releases, releases_erase, hrel]
    simp

/-- A timer that is cancelled does nothing. -/
theorem Inv.cancelled {i : Info} (h : Inv s) (hi : i ∈ s.infos) (hparam : i.userParam = true) :
    Inv (s.userTimerCallback i) := by
  have hrel : (s.infos.erase i).filter (fun i => !i.userParam) = s.releases := by
    rw [releases_erase]
    apply List.erase_of_not_mem
    intro hm
    rw [(mem_releases.mp hm).2] at hparam
    cases hparam
  simp only [State.userTimerCallback, hparam, h.last_ne hi hparam, ↓reduceIte]
  refine ⟨h.erase_addrs i, h.past, h.late, h.held, ?_⟩
  rw [Scheduled, State.releases, hrel]
  exact h.scheduled

theorem Inv.step {l : Step} (h : Inv s) (hok : Ok s l) (hstep : step s l = some s') : Inv s' := by
  cases l with
  | register =>
    cases hstep
    exact ⟨h.addrs, h.past, h.late, h.held, h.scheduled⟩
  | response unsolResponse ret addr =>
    simp only [WakeLock.step] at hstep
    split at hstep
    · cases hstep
    next haddr =>
      cases hstep
      exact h.onUnsolicitedResponse haddr hok
  | tick micros =>
    cases hstep
    exact h.tick micros
  | fire i =>
    simp only [WakeLock.step] at hstep
    split at hstep
    next hfire =>
      cases hstep
      cases hparam : i.userParam with
      | false => exact h.timedOut (mem_releases.mpr ⟨hfire.1, hparam⟩) hfire.2
      | true => exact h.cancelled hfire.1 hparam
    · cases hstep

theorem Inv.longEnough (h : Inv s) : LongEnough s where
  late := h.late
  held := h.held
  once := by
    obtain ⟨hs, -, hrel, -⟩ | ⟨time, addr, hs, -, hrel, -⟩ := h.scheduled
    · rw [hs]
      exact hrel
    · rw [hs]
      exact ⟨addr, hrel⟩

/-- The lock is held long enough along every run in which no response is rejected while a release
is scheduled for later. -/
theorem wake_longEnough {ls : List Step} (hok : RunOk step Ok .init ls)
    (hrun : run step .init ls = some s) : LongEnough s := by
  have hinv : Inv s := run_invariant (fun _ _ _ => Inv.step) Inv.init hok hrun
  exact hinv.longEnough

/-- Two responses of which the second restarts the time, and one that is rejected after it. -/
def restartedRun : List Step :=
  [ .register, .response 1003 0 1, .tick 600000, .response 1005 0 2, .tick 500000,
    .fire ⟨1, 1000000, true⟩, .tick 500001, .response 1005 (-1) 3, .fire ⟨2, 1600000, false⟩ ]

theorem wake_longEnough_restarted : ∃ s, run step .init restartedRun = some s ∧ LongEnough s ∧
    s.log = [.timedOut 1600001, .rejected 1600001, .accepted 600000, .accepted 0] := by
  have hrun : ((run step .init restartedRun).any fun s => s.log =
      [.timedOut 1600001, .rejected 1600001, .accepted 600000, .accepted 0]) = true := by
    decide +kernel
  obtain ⟨s, hs, hlog⟩ := (Option.any_eq_true ..).mp hrun
  exact ⟨s, hs, wake_longEnough (by decide +kernel) hs, by simpa using hlog⟩

/-- A list of integers whose data is missing is rejected half a second after a message. -/
def rejectedRun : List Step :=
  [.register, .response 1003 0 1, .tick 500000, .response 1005 (-1) 2]

/-- The lock of the message is released. -/
theorem rejected_releases :
    ¬ ∀ ls s, run step .init ls = some s → LongEnough s := by
  intro h
  have hrun : ((run step .init rejectedRun).any fun s =>
      s.log = [.rejected 500000, .accepted 0]) = true := by decide +kernel
  obtain ⟨s, hs, hlog⟩ := (Option.any_eq_true ..).mp hrun
  have hlate := (h _ s hs).late [] (.rejected 500000) [.accepted 0] 500000 0
    (by simpa using hlog) rfl (by simp)
  exact absurd hlate (by decide)

end Twm.Ril.WakeLock
