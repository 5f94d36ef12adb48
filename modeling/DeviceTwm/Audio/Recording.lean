import DeviceTwm.Audio.StreamIn
import DeviceTwm.Audio.AacFrames
import DeviceTwm.Lib.Run

/-!
# A recording (`libaudio/AudioHardware.cpp`)

A recording is opened by `set`. `read` opens it again when it is in standby, starts it, and reads.

* `standby`, `read`: the calls. `step`: one call.
* `Phase`: the stream is closed, or it is open and configured.
* `recording_good_iff`: the runs in which the state of the stream always tells whether the device is open.
-/

open Lib

namespace Twm.Audio.Recording

/-- What the drivers return in one `read`. -/
structure ReadAnswers where
  set : SetAnswers
  route : RouteAnswers
  start : Int
  /-- For the `standby` of a recording that cannot be started. -/
  stop : RouteAnswers
  data : List Capture.Answer

section

variable (B : Build) (F : InFormats)

/-- `clearCurDevice` and `doRouting(this)`. -/
def routeInput (a : RouteAnswers) (w : World) : Option World :=
  (doRouting B a (some w.stream.devices) { w.hw with curSndDevice := -1 }).map fun (_, hw) => { w with hw }

/-- The first part of `standby`. -/
def closeInput (w : World) : World :=
  if AUDIO_INPUT_CLOSED < w.stream.state then
    let w := if 0 ≤ w.stream.fd then w.closeFile else w
    { w with stream := { w.stream with state := AUDIO_INPUT_CLOSED } }
  else w

/-- `standby`. -/
def standby (a : RouteAnswers) (w : World) : Option (Status × World) :=
  let w := closeInput w
  if w.stream.hasHardware then (routeInput B a w).map fun w => (NO_ERROR, w) else some (-1, w)

/-- The part of `read` that starts the recording; `false`: it returns -1. -/
def startRecording (a : ReadAnswers) (w : World) : Option (Bool × World) :=
  if w.stream.state < AUDIO_INPUT_STARTED then
    let w := { w with stream := { w.stream with state := AUDIO_INPUT_STARTED } }
    -- force routing to input device
    (routeInput B a.route w).bind fun w =>
      if (w.files w.stream.fd).isNone ∨ a.start ≠ 0 then
        (standby B a.stop w).map fun (_, w) => (false, w)
      else some (true, w)
  else some (true, w)

/-- The part of `read` on a stream that is open. -/
def readOpened (buf : List UInt8) (a : ReadAnswers) (w : World) : Option (Int × World) :=
  (startRecording B a w).bind fun (started, w) =>
    if started then
      match Capture.readData (w.stream.format = F.AAC) w.stream.firstread w.stream.retryCount buf a.data with
      | some (.returns r c _) =>
        some (r,
          { w with stream := { w.stream with firstread := c.firstread, retryCount := c.retryCount } })
      | _ => none
    else some (-1, w)

/-- `read`. -/
def read (buf : List UInt8) (a : ReadAnswers) (w : World) : Option (Int × World) :=
  if w.stream.hasHardware then
    if w.stream.state < AUDIO_INPUT_OPENED then
      (set B F w.stream.devices .own a.set w).bind fun (status, _, w) =>
        if status ≠ NO_ERROR then some (-1, w)
        else readOpened B F buf a { w with stream := { w.stream with firstread := false } }
    else readOpened B F buf a w
  else some (-1, w)

inductive Call
  | set (devices : UInt32) (pFormat : Option Int) (pChannels pRate : Option UInt32) (a : SetAnswers)
  | read (buf : List UInt8) (a : ReadAnswers)
  | standby (a : RouteAnswers)

/-- One call; `none`: it does not return. -/
def step (w : World) : Call → Option World
  | .set devices pFormat pChannels pRate a =>
    (set B F devices (.caller pFormat pChannels pRate) a w).map fun (_, _, w) => w
  | .read buf a => (read B F buf a w).map (·.2)
  | .standby a => (standby B a w).map (·.2)

/-- What is wanted of one call: each `set` keeps its contract, also that inside `read`, and the state
tells whether the device is open. -/
def GoodCall (w : World) : Call → Prop
  | .set devices pFormat pChannels pRate a =>
    SetGood B F devices (.caller pFormat pChannels pRate) a w
  | .read buf a =>
    (w.stream.hasHardware → w.stream.state < AUDIO_INPUT_OPENED →
      SetGood B F w.stream.devices .own a.set w) ∧
    ∀ w', step B F w (.read buf a) = some w' → StateOk w'
  | .standby a => ∀ w', step B F w (.standby a) = some w' → StateOk w'

/-- Each `set` of the call is as in `SetOk`. -/
def CallOk (w : World) : Call → Prop
  | .set _ pFormat pChannels pRate a => SetOk B F (.caller pFormat pChannels pRate) a w
  | .read _ a =>
    w.stream.hasHardware → w.stream.state < AUDIO_INPUT_OPENED → SetOk B F .own a.set w
  | .standby _ => True

end

/-- A new stream. -/
def World.init (F : InFormats) (firstread : Bool) (hw : AudioHardware) : World :=
  ⟨StreamIn.init F firstread, fun _ => none, hw⟩

/-! ## Each call -/

/-- The stream is closed, or it is open and configured. -/
inductive Phase (w : World) : Prop
  | closed (h : Closed w)
  | ready (format : Int) (h : Ready w format) (hstate : AUDIO_INPUT_CLOSED < w.stream.state)

variable {B : Build} {F : InFormats} {w w' : World}

theorem Phase.stateOk (h : Phase w) : StateOk w := by
  cases h with
  | closed h => exact h.stateOk
  | ready format h hstate => exact h.stateOk hstate

theorem Phase.set_good_iff {devices : UInt32} {args : Args} {a : SetAnswers} (h : Phase w) :
    SetGood B F devices args a w ↔ SetOk B F args a w := by
  cases h with
  | closed h => exact h.set_good_iff
  | ready format h hstate => exact h.set_good_iff

theorem routeInput_keeps {a : RouteAnswers} (hr : routeInput B a w = some w') :
    w'.stream = w.stream ∧ w'.files = w.files := by
  obtain ⟨⟨_, hw⟩, -, rfl⟩ := Option.map_eq_some_iff.mp hr
  exact ⟨rfl, rfl⟩

theorem Closed.congr (h : Closed w) (hs : w'.stream = w.stream) (hf : w'.files = w.files) : Closed w' :=
  ⟨by rw [hs, h.fd], by rw [hs, h.state], by rw [hf]; exact h.files⟩

theorem Phase.closeInput (h : Phase w) : Closed (closeInput w) := by
  unfold Recording.closeInput
  cases h with
  | closed h =>
    rw [if_neg (by rw [h.state]; exact Nat.lt_irrefl _)]
    exact h
  | ready format h hstate =>
    rw [if_pos hstate, if_pos h.fd]
    refine ⟨rfl, rfl, fun fd => ?_⟩
    by_cases hfd : fd = w.stream.fd
    · subst hfd
      exact Function.update_self ..
    · exact (Function.update_of_ne hfd ..).trans (h.files fd hfd)

/-- Standby closes the stream. -/
theorem Phase.standby {a : RouteAnswers} {status : Status} (h : Phase w)
    (hs : standby B a w = some (status, w')) : Closed w' := by
  unfold Recording.standby at hs
  dsimp only at hs
  split at hs
  · obtain ⟨w₁, hr, heq⟩ := Option.map_eq_some_iff.mp hs
    cases heq
    obtain ⟨hstream, hfiles⟩ := routeInput_keeps hr
    exact h.closeInput.congr hstream hfiles
  · cases hs
    exact h.closeInput

/-- A recording that cannot be started is closed. -/
theorem startRecording_phase {a : ReadAnswers} {format : Int} {started : Bool} (h : Ready w format)
    (hstate : AUDIO_INPUT_CLOSED < w.stream.state)
    (hs : startRecording B a w = some (started, w')) : Phase w' := by
  unfold startRecording at hs
  split at hs
  · obtain ⟨w₁, hr, hs⟩ := Option.bind_eq_some_iff.mp hs
    obtain ⟨hstream, hfiles⟩ := routeInput_keeps hr
    have hready : Ready w₁ format :=
      ⟨by rw [hstream]; exact h.fd, by rw [hstream, hfiles]; exact h.file,
        by rw [hstream, hfiles]; exact h.files⟩
    have hphase : Phase w₁ := .ready format hready (by rw [hstream]; exact Nat.zero_lt_two)
    split at hs
    · obtain ⟨⟨status, w₂⟩, hstop, heq⟩ := Option.map_eq_some_iff.mp hs
      cases heq
      exact .closed (hphase.standby hstop)
    · cases hs
      exact hphase
  · cases hs
    exact .ready format h hstate

theorem readOpened_phase {buf : List UInt8} {a : ReadAnswers} {format r : Int} (h : Ready w format)
    (hstate : AUDIO_INPUT_CLOSED < w.stream.state) (hs : readOpened B F buf a w = some (r, w')) :
    Phase w' := by
  obtain ⟨⟨started, w₁⟩, hstart, hs⟩ := Option.bind_eq_some_iff.mp hs
  have hphase := startRecording_phase h hstate hstart
  dsimp only at hs
  split at hs
  · split at hs
    · cases hs
      cases hphase with
      | closed h => exact .closed (h.setStream rfl rfl)
      | ready format h hstate => exact .ready format ⟨h.fd, h.file, h.files⟩ hstate
    · cases hs
  · cases hs
    exact hphase

theorem read_phase {buf : List UInt8} {a : ReadAnswers} {r : Int} (h : Phase w)
    (hok : w.stream.hasHardware → w.stream.state < AUDIO_INPUT_OPENED → SetOk B F .own a.set w)
    (hs : read B F buf a w = some (r, w')) : Phase w' := by
  unfold read at hs
  split at hs
  · split at hs
    · rename_i hhw hstate
      obtain ⟨⟨status, args, w₁⟩, hset, hs⟩ := Option.bind_eq_some_iff.mp hs
      cases h with
      | closed h =>
        dsimp only at hs
        rcases h.set_cases (hok hhw hstate) hset with ⟨hne, hclosed⟩ | ⟨rfl, hopened, format, hready⟩
        · rw [if_pos hne] at hs
          cases hs
          exact .closed hclosed
        · rw [if_neg (not_not.mpr rfl)] at hs
          have hready' : Ready { w₁ with stream := { w₁.stream with firstread := false } } format :=
            ⟨hready.fd, hready.file, hready.files⟩
          refine readOpened_phase hready' ?_ hs
          rw [hopened]
          exact Nat.zero_lt_one
      | ready format h hopen =>
        exact absurd hstate (Nat.not_lt.mpr hopen)
    · cases h with
      | closed h =>
        rename_i hstate
        exact absurd (h.state ▸ Nat.zero_lt_one) hstate
      | ready format h hopen => exact readOpened_phase h hopen hs
  · cases hs
    exact h

/-! ## Runs -/

theorem init_phase (F : InFormats) (firstread : Bool) (hw : AudioHardware) :
    Phase (World.init F firstread hw) :=
  .closed ⟨rfl, rfl, fun _ => rfl⟩

theorem step_phase {c : Call} (h : Phase w) (hok : CallOk B F w c) (hs : step B F w c = some w') :
    Phase w' := by
  cases c with
  | set devices pFormat pChannels pRate a =>
    obtain ⟨⟨status, args, w₁⟩, hset, rfl⟩ := Option.map_eq_some_iff.mp hs
    cases h with
    | closed h =>
      rcases h.set_cases hok hset with ⟨-, hclosed⟩ | ⟨-, hopened, format, hready⟩
      · exact .closed hclosed
      · exact .ready format hready (by rw [hopened]; exact Nat.zero_lt_one)
    | ready format h hstate =>
      rw [h.set_eq_none hok] at hset
      cases hset
  | read buf a =>
    obtain ⟨⟨r, w₁⟩, hread, rfl⟩ := Option.map_eq_some_iff.mp hs
    exact read_phase h hok hread
  | standby a =>
    obtain ⟨⟨status, w₁⟩, hstop, rfl⟩ := Option.map_eq_some_iff.mp hs
    exact .closed (h.standby hstop)

theorem Phase.goodCall_iff {c : Call} (h : Phase w) : GoodCall B F w c ↔ CallOk B F w c := by
  cases c with
  | set devices pFormat pChannels pRate a => exact h.set_good_iff
  | read buf a =>
    constructor
    · intro hg hhw hstate
      exact h.set_good_iff.mp (hg.1 hhw hstate)
    · intro hok
      exact ⟨fun hhw hstate => h.set_good_iff.mpr (hok hhw hstate),
        fun w' hs => (step_phase h hok hs).stateOk⟩
  | standby a =>
    have hok : CallOk B F w (.standby a) := trivial
    exact iff_of_true (fun w' hs => (step_phase h hok hs).stateOk) hok

/-- The state of the stream tells whether its device is open, and each `set` keeps its contract, in a whole
run exactly when none of its calls of `set` takes an exit that does not clean up. -/
theorem recording_good_iff (B : Build) (F : InFormats) (firstread : Bool) (hw : AudioHardware)
    (calls : List Call) :
    StateOk (World.init F firstread hw) ∧
    (RunOk (step B F) (GoodCall B F) (World.init F firstread hw) calls ↔
      RunOk (step B F) (CallOk B F) (World.init F firstread hw) calls) := by
  refine ⟨(init_phase F firstread hw).stateOk, ?_, ?_⟩
  · exact RunOk.imp_of_invariant (fun w c w' h hg hs => step_phase h (h.goodCall_iff.mp hg) hs)
      (fun w c h hg => h.goodCall_iff.mp hg) (init_phase F firstread hw)
  · exact RunOk.imp_of_invariant (fun w c w' h hok hs => step_phase h hok hs)
      (fun w c h hok => h.goodCall_iff.mpr hok) (init_phase F firstread hw)

/-! ## A recording without pre-processing -/

def formats : InFormats := ⟨1, 0x01000000, 0x04000000, 0x10, 0xc⟩

/-- The filter file was read. -/
def filtered : Build := { phone with post := { withoutFilters with inited := true } }

/-- The recorder opens as 5 and can be configured; the pre-processing does not open. -/
def noPreproc : SetAnswers := ⟨5, 0, ⟨1, 8000, 2048⟩, 0, 0, ⟨1, 8000, 2048⟩, -1⟩

/-- `set` fails and leaves the device open. -/
theorem open_after_failure :
    ¬ ∀ (B : Build) (F : InFormats) (firstread : Bool) (hw : AudioHardware) (calls : List Call),
      RunOk (step B F) (GoodCall B F) (World.init F firstread hw) calls := by
  intro hall
  have hgood := (hall filtered formats false (AudioHardware.init TTY_OFF [] 3)
    [.set 0x40000 (some 1) (some 0x10) (some 8000) noPreproc]).1
  have hcontract := (hgood (-EPERM) _ _ rfl).1
  have hfd := (hcontract.failure (by decide)).1
  exact absurd hfd (by decide)

end Twm.Audio.Recording
