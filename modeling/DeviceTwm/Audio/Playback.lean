import DeviceTwm.Audio.Routing
import DeviceTwm.Lib.Run

/-!
# Playback (`libaudio/AudioHardware.cpp`)

There is at most one output stream. Its first `write` opens the driver, the second complete one starts
it, and `playback_in_progress` tells routing that the filters have to follow the device.

* `World`: the hardware with its output stream, the open descriptors, and what the stream has done since it
  left standby. The code does not keep the last.
* `step`: one call.
* `Inv`: what holds as long as no stream is closed while it plays. `Good` is what is wanted.
-/

open Lib

namespace Twm.Audio.Playback

/-! ## The calls -/

def AUDIO_HW_NUM_OUT_BUF : Nat := 2

/-- The format of all output. -/
structure OutFormat where
  format : Int
  channels : UInt32
  sampleRate : UInt32 := 44100

/-- What `::write` returns. -/
inductive Written
  | wrote (n : UInt32)
  | again
  | fails
  deriving DecidableEq

/-- What the driver returns in one `write`. -/
structure WriteAnswers where
  openFd : Int
  getConfig : Int
  setConfig : Int
  writes : List Written
  post : RouteAnswers

/-- What an output stream does out of standby. -/
inductive Mark
  | complete
  | start
  deriving DecidableEq

structure World where
  hw : AudioHardware
  isOpen : Int → Bool
  /-- The marks since the output stream left standby. -/
  session : Option (List Mark)
  /-- Those of earlier times, and of earlier streams. -/
  past : List (List Mark)

def World.init (hw : AudioHardware) (isOpen : Int → Bool) : World :=
  ⟨{ hw with output := none, playbackInProgress := false }, isOpen, none, []⟩

namespace World

variable (w : World)

def setOutput (out : StreamOut) : World := { w with hw := { w.hw with output := some out } }

def mark (m : Mark) : World := { w with session := w.session.map (· ++ [m]) }

/-- The stream is in standby, or gone. -/
def endSession : World := { w with session := none, past := w.past ++ w.session.toList }

end World

section

variable (B : Build) (C : OutFormat)

/-- The format asked for, with the defaults fixed up. -/
def OutFormat.fixUp (pFormat : Option Int) (pChannels pRate : Option UInt32) : OutFormat :=
  let lFormat := pFormat.getD 0
  let lChannels := pChannels.getD 0
  let lRate := pRate.getD 0
  ⟨if lFormat = 0 then C.format else lFormat, if lChannels = 0 then C.channels else lChannels,
    if lRate = 0 then C.sampleRate else lRate⟩

/-- `AudioStreamOutMSM72xx::set` of a new stream, with the values it stores for the caller. -/
def set (addr : Nat) (devices : UInt32) (pFormat : Option Int) (pChannels pRate : Option UInt32) :
    Status × OutFormat × StreamOut :=
  let l := C.fixUp pFormat pChannels pRate
  if l.format ≠ C.format ∨ l.channels ≠ C.channels ∨ l.sampleRate ≠ C.sampleRate then
    (BAD_VALUE, C, ⟨addr, -1, 0, 0, true, 0⟩)
  else (NO_ERROR, l, ⟨addr, -1, 0, 0, true, devices⟩)

/-- `openOutputStream`; the new stream is at `addr`. -/
def openOutputStream (addr : Nat) (devices : UInt32) (pFormat : Option Int)
    (pChannels pRate : Option UInt32) (w : World) : Status × World :=
  match w.hw.output with
  -- only one output stream allowed
  | some _ => (INVALID_OPERATION, w)
  | none =>
    let (lStatus, _, out) := set C addr devices pFormat pChannels pRate
    (lStatus, if lStatus = NO_ERROR then w.setOutput out else w)

/-- `closeOutputStream`, with the destructor of the stream. -/
def closeOutputStream (addr : Nat) (w : World) : World :=
  match w.hw.output with
  | none => w
  | some out =>
    if out.addr ≠ addr then w
    else
      let isOpen := if 0 ≤ out.fd then Function.update w.isOpen out.fd false else w.isOpen
      { w with hw := { w.hw with output := none }, isOpen }.endSession

/-- What follows the label `Error` in `write`. -/
def onError (status : Status) (out : StreamOut) (isOpen : Int → Bool) :
    Status × StreamOut × (Int → Bool) :=
  if 0 ≤ out.fd then (status, { out with fd := -1 }, Function.update isOpen out.fd false)
  else (status, out, isOpen)

/-- The part of `write` in standby. -/
def leaveStandby (a : WriteAnswers) (out : StreamOut) (isOpen : Int → Bool) :
    Status × StreamOut × (Int → Bool) :=
  if a.openFd < 0 then onError a.openFd out isOpen
  else
    let out := { out with fd := a.openFd }
    let isOpen := Function.update isOpen a.openFd true
    if a.getConfig < 0 then onError a.getConfig out isOpen
    else if a.setConfig < 0 then onError a.setConfig out isOpen
    -- fill 2 buffers before AUDIO_START
    else (a.setConfig, { out with startCount := AUDIO_HW_NUM_OUT_BUF, inStandby := false }, isOpen)

/-- The loop of `write`: if all was written, and `mRetryCount`. `none`: it has not ended yet. -/
def writeLoop (count : UInt32) (retryCount : Nat) : List Written → Option (Bool × Nat)
  | [] => if count = 0 then some (true, retryCount) else none
  | r :: ws =>
    if count = 0 then some (true, retryCount)
    else
      match r with
      | .wrote n => writeLoop (count - n) retryCount ws
      | .again => writeLoop count (retryCount + 1) ws
      | .fails => some (false, retryCount)

/-- The part of `write` after a complete loop. -/
def startAudio (a : WriteAnswers) (out : StreamOut) (w : World) : World :=
  let w := w.mark .complete
  if out.startCount ≠ 0 then
    let out := { out with startCount := out.startCount - 1 }
    if out.startCount = 0 then
      let w := (w.setOutput out).mark .start
      { w with hw := (enablePostproc B a.post true { w.hw with playbackInProgress := true }).2 }
    else w.setOutput out
  else w.setOutput out

/-- The part of `write` out of standby. -/
def fill (bytes : UInt32) (a : WriteAnswers) (out : StreamOut) (w : World) : Option (Int × World) :=
  (writeLoop bytes out.retryCount a.writes).map fun (complete, retryCount) =>
    let out := { out with retryCount }
    if complete then (bytes.toInt32.toInt, startAudio B a out w) else (-1, w.setOutput out)

/-- `write`. -/
def write (bytes : UInt32) (a : WriteAnswers) (out : StreamOut) (w : World) : Option (Int × World) :=
  if out.inStandby then
    let (status, out, isOpen) := leaveStandby a out w.isOpen
    let w := { w.setOutput out with isOpen }
    if out.inStandby then some (status, w) else fill B bytes a out { w with session := some [] }
  else fill B bytes a out w

/-- `standby`. -/
def standby (post : RouteAnswers) (out : StreamOut) (w : World) : World :=
  let w' :=
    if out.inStandby = false ∧ 0 ≤ out.fd then
      -- disable post processing
      let hw := (enablePostproc B post false w.hw).2
      { w with
        hw := { hw with
          output := some { out with fd := -1, inStandby := true }, playbackInProgress := false }
        isOpen := Function.update w.isOpen out.fd false }
    else w.setOutput { out with inStandby := true }
  if out.inStandby then w' else w'.endSession

inductive Call
  | openOutputStream (addr : Nat) (devices : UInt32) (pFormat : Option Int)
      (pChannels pRate : Option UInt32)
  | write (bytes : UInt32) (a : WriteAnswers)
  | standby (post : RouteAnswers)
  | closeOutputStream (addr : Nat)
  /-- `doRouting`, from wherever it is called. -/
  | doRouting (a : RouteAnswers) (inputDevice : Option UInt32)

/-- One call. A stream is there when it is used, and `::open` does not return a descriptor that is open. -/
def step (w : World) : Call → Option World
  | .openOutputStream addr devices pFormat pChannels pRate =>
    some (openOutputStream C addr devices pFormat pChannels pRate w).2
  | .write bytes a =>
    w.hw.output.bind fun out =>
      if out.inStandby ∧ 0 ≤ a.openFd ∧ w.isOpen a.openFd then none else (write B bytes a out w).map (·.2)
  | .standby post => w.hw.output.map fun out => standby B post out w
  | .closeOutputStream addr => some (closeOutputStream addr w)
  | .doRouting a inputDevice =>
    (Audio.doRouting B a inputDevice w.hw).map fun (_, hw) => { w with hw }

end

/-! ## What is wanted -/

/-- The marks after `k` complete writes. -/
def expected (k : Nat) : List Mark :=
  if k < AUDIO_HW_NUM_OUT_BUF then List.replicate k .complete
  else
    List.replicate AUDIO_HW_NUM_OUT_BUF .complete ++ .start ::
      List.replicate (k - AUDIO_HW_NUM_OUT_BUF) .complete

/-- `AUDIO_START` is issued once, after `AUDIO_HW_NUM_OUT_BUF` complete writes. -/
def Regular (marks : List Mark) : Prop := ∃ k, marks = expected k

structure Good (w : World) : Prop where
  flag : w.hw.playbackInProgress ↔
    ∃ out marks, w.hw.output = some out ∧ out.inStandby = false ∧ w.session = some marks ∧
      .start ∈ marks
  past : ∀ marks ∈ w.past, Regular marks
  session : ∀ marks ∈ w.session, Regular marks
  fd : ∀ out ∈ w.hw.output, out.inStandby = false → w.isOpen out.fd

/-- The call closes the stream while it plays. -/
def ClosesPlaying (w : World) (c : Call) : Prop :=
  ∃ out, c = .closeOutputStream out.addr ∧ w.hw.output = some out ∧ out.inStandby = false ∧
    out.startCount = 0

/-- `out` has left standby and has completed `k` writes. -/
structure Session (w : World) (out : StreamOut) (k : Nat) : Prop where
  inStandby : out.inStandby = false
  fd : 0 ≤ out.fd
  isOpen : w.isOpen out.fd
  marks : w.session = some (expected k)
  count : out.startCount = (AUDIO_HW_NUM_OUT_BUF - k : Nat)
  flag : w.hw.playbackInProgress = decide (AUDIO_HW_NUM_OUT_BUF ≤ k)

/-- `out` is in standby. -/
structure Idle (w : World) (out : StreamOut) : Prop where
  inStandby : out.inStandby = true
  fd : out.fd = -1
  marks : w.session = none
  flag : w.hw.playbackInProgress = false

/-- Where the output stream is. -/
inductive Phase (w : World) : Prop
  | closed (hout : w.hw.output = none) (hs : w.session = none) (hflag : w.hw.playbackInProgress = false)
  | standby (out : StreamOut) (hout : w.hw.output = some out) (h : Idle w out)
  | playing (out : StreamOut) (k : Nat) (hout : w.hw.output = some out) (h : Session w out k)

structure Inv (w : World) : Prop where
  phase : Phase w
  past : ∀ marks ∈ w.past, Regular marks

variable {B : Build} {C : OutFormat} {w w' : World}

/-! ## Sessions -/

theorem start_mem_expected {k : Nat} : .start ∈ expected k ↔ AUDIO_HW_NUM_OUT_BUF ≤ k := by
  unfold expected
  split
  · simp [*]
  · simp; omega

/-- The write that fills the last buffer. -/
theorem expected_start {k : Nat} (hk : k + 1 = AUDIO_HW_NUM_OUT_BUF) :
    expected (k + 1) = expected k ++ [.complete] ++ [.start] := by
  unfold expected
  rw [if_neg (by omega), if_pos (by omega), hk, Nat.sub_self, ← hk, List.replicate_succ']
  rfl

theorem expected_complete {k : Nat} (hk : k + 1 ≠ AUDIO_HW_NUM_OUT_BUF) :
    expected (k + 1) = expected k ++ [.complete] := by
  unfold expected
  by_cases hlt : k < AUDIO_HW_NUM_OUT_BUF
  · rw [if_pos (by omega), if_pos hlt, List.replicate_succ']
  · rw [if_neg (by omega), if_neg hlt, Nat.sub_add_comm (by omega), List.replicate_succ']
    simp

theorem Inv.good (hi : Inv w) : Good w := by
  obtain ⟨hphase, hpast⟩ := hi
  cases hphase with
  | closed hout hs hflag =>
    refine ⟨?_, hpast, ?_, ?_⟩
    · simp [hout, hflag]
    · simp [hs]
    · simp [hout]
  | standby out hout h =>
    refine ⟨?_, hpast, ?_, ?_⟩
    · simp [h.marks, h.flag]
    · simp [h.marks]
    · simp [hout, h.inStandby]
  | playing out k hout h =>
    refine ⟨?_, hpast, ?_, ?_⟩
    · simp [hout, h.marks, h.flag, h.inStandby, start_mem_expected]
    · simp only [h.marks, Option.mem_some_iff, forall_eq']
      exact ⟨k, rfl⟩
    · simp [hout, h.isOpen]

/-! ## Each call -/

theorem init_inv (hw : AudioHardware) (isOpen : Int → Bool) : Inv (World.init hw isOpen) :=
  ⟨.closed rfl rfl rfl, by simp [World.init]⟩

theorem set_idle (addr : Nat) (devices : UInt32) (pFormat : Option Int)
    (pChannels pRate : Option UInt32) (hs : w.session = none) (hflag : w.hw.playbackInProgress = false) :
    Idle w (set C addr devices pFormat pChannels pRate).2.2 := by
  unfold set
  dsimp only
  split
  · exact ⟨rfl, rfl, hs, hflag⟩
  · exact ⟨rfl, rfl, hs, hflag⟩

theorem openOutputStream_inv {addr : Nat} {devices : UInt32} {pFormat : Option Int}
    {pChannels pRate : Option UInt32} (hi : Inv w) :
    Inv (openOutputStream C addr devices pFormat pChannels pRate w).2 := by
  unfold openOutputStream
  obtain ⟨hphase, hpast⟩ := hi
  cases hphase with
  | closed hout hs hflag =>
    rw [hout]
    dsimp only
    split
    · have h := set_idle (C := C) addr devices pFormat pChannels pRate hs hflag
      exact ⟨.standby _ rfl ⟨h.inStandby, h.fd, h.marks, h.flag⟩, hpast⟩
    · exact ⟨.closed hout hs hflag, hpast⟩
  | standby out hout h =>
    rw [hout]
    exact ⟨.standby out hout h, hpast⟩
  | playing out k hout h =>
    rw [hout]
    exact ⟨.playing out k hout h, hpast⟩

/-- The stream stays in standby without a descriptor, or it has one and nothing written. -/
theorem leaveStandby_cases (a : WriteAnswers) {out : StreamOut} (isOpen : Int → Bool)
    (hstandby : out.inStandby = true) (hfd : out.fd = -1) :
    ((leaveStandby a out isOpen).2.1.inStandby = true ∧ (leaveStandby a out isOpen).2.1.fd = -1) ∨
    (∃ fd : Int, 0 ≤ fd ∧ leaveStandby a out isOpen =
      (a.setConfig,
        { out with fd, startCount := AUDIO_HW_NUM_OUT_BUF, inStandby := false },
        Function.update isOpen fd true)) := by
  unfold leaveStandby onError
  split
  · rw [if_neg (by omega)]
    exact .inl ⟨hstandby, hfd⟩
  · dsimp only
    split
    · rw [if_pos (by omega)]
      exact .inl ⟨hstandby, rfl⟩
    · split
      · rw [if_pos (by omega)]
        exact .inl ⟨hstandby, rfl⟩
      · exact .inr ⟨a.openFd, by omega, rfl⟩

/-- A complete write. -/
theorem startAudio_inv {a : WriteAnswers} {out : StreamOut} {k : Nat} (h : Session w out k)
    (hpast : ∀ marks ∈ w.past, Regular marks) : Inv (startAudio B a out w) := by
  have hmark : (w.mark .complete).session = some (expected k ++ [.complete]) := by
    unfold World.mark
    rw [h.marks]
    rfl
  unfold startAudio
  dsimp only
  split
  · rename_i hne
    have hcount := h.count
    split
    · rename_i hzero
      -- the write that fills the last buffer
      have hk : k + 1 = AUDIO_HW_NUM_OUT_BUF := by omega
      refine ⟨.playing { out with startCount := out.startCount - 1 } (k + 1) ?_
        ⟨h.inStandby, h.fd, h.isOpen, ?_, ?_, ?_⟩, hpast⟩
      · exact congrArg Settings.output (enablePostproc_settings true)
      · rw [expected_start hk]
        simp only [World.mark, World.setOutput, h.marks, Option.map_some]
      · dsimp only
        omega
      · rw [decide_eq_true (by omega)]
        exact congrArg Settings.playbackInProgress (enablePostproc_settings true)
    · rename_i hone
      have hk : k + 1 < AUDIO_HW_NUM_OUT_BUF := by omega
      refine ⟨.playing { out with startCount := out.startCount - 1 } (k + 1) rfl
        ⟨h.inStandby, h.fd, h.isOpen, ?_, ?_, ?_⟩, hpast⟩
      · rw [expected_complete (by omega)]
        exact hmark
      · dsimp only
        omega
      · rw [decide_eq_false (by omega)]
        exact h.flag.trans (decide_eq_false (by omega))
  · rename_i hzero
    have hcount := h.count
    have hk : AUDIO_HW_NUM_OUT_BUF ≤ k := by omega
    refine ⟨.playing out (k + 1) rfl ⟨h.inStandby, h.fd, h.isOpen, ?_, ?_, ?_⟩, hpast⟩
    · rw [expected_complete (by omega)]
      exact hmark
    · omega
    · rw [decide_eq_true (by omega)]
      exact h.flag.trans (decide_eq_true hk)

theorem fill_inv {bytes : UInt32} {a : WriteAnswers} {out : StreamOut} {k : Nat} {r : Int}
    (h : Session w out k) (hpast : ∀ marks ∈ w.past, Regular marks)
    (hr : fill B bytes a out w = some (r, w')) : Inv w' := by
  obtain ⟨⟨complete, retryCount⟩, -, heq⟩ := Option.map_eq_some_iff.mp hr
  have h' : Session w { out with retryCount } k :=
    ⟨h.inStandby, h.fd, h.isOpen, h.marks, h.count, h.flag⟩
  cases complete with
  | true =>
    cases heq
    exact startAudio_inv h' hpast
  | false =>
    cases heq
    exact ⟨.playing _ k rfl ⟨h.inStandby, h.fd, h.isOpen, h.marks, h.count, h.flag⟩, hpast⟩

theorem write_inv {bytes : UInt32} {a : WriteAnswers} {out : StreamOut} {r : Int} (hi : Inv w)
    (hout : w.hw.output = some out) (hr : write B bytes a out w = some (r, w')) : Inv w' := by
  unfold write at hr
  obtain ⟨hphase, hpast⟩ := hi
  cases hphase with
  | closed hnone hs hflag =>
    rw [hnone] at hout
    cases hout
  | standby out' hout' h =>
    cases hout'.symm.trans hout
    rw [if_pos h.inStandby] at hr
    rcases leaveStandby_cases a w.isOpen h.inStandby h.fd with
      ⟨hstandby, hfd⟩ | ⟨fd, hfd, heq⟩
    · dsimp only at hr
      rw [if_pos hstandby] at hr
      cases hr
      exact ⟨.standby _ rfl ⟨hstandby, hfd, h.marks, h.flag⟩, hpast⟩
    · rw [heq] at hr
      dsimp only at hr
      rw [if_neg Bool.false_ne_true] at hr
      have hflag : w.hw.playbackInProgress = decide (AUDIO_HW_NUM_OUT_BUF ≤ 0) := h.flag
      refine fill_inv (k := 0) ?_ ?_ hr
      · exact ⟨rfl, hfd, Function.update_self .., rfl, rfl, hflag⟩
      · exact hpast
  | playing out' k hout' h =>
    cases hout'.symm.trans hout
    rw [if_neg (by simp [h.inStandby])] at hr
    exact fill_inv h hpast hr

theorem past_endSession {k : Nat} (hs : w.session = some (expected k))
    (hpast : ∀ marks ∈ w.past, Regular marks) : ∀ marks ∈ w.endSession.past, Regular marks := by
  intro marks hm
  rcases List.mem_append.mp hm with hm | hm
  · exact hpast marks hm
  · rw [hs] at hm
    exact ⟨k, List.mem_singleton.mp hm⟩

theorem standby_inv {post : RouteAnswers} {out : StreamOut} (hi : Inv w)
    (hout : w.hw.output = some out) : Inv (standby B post out w) := by
  unfold standby
  obtain ⟨hphase, hpast⟩ := hi
  cases hphase with
  | closed hnone hs hflag =>
    rw [hnone] at hout
    cases hout
  | standby out' hout' h =>
    cases hout'.symm.trans hout
    have hidle : ¬ (out.inStandby = false ∧ 0 ≤ out.fd) := by simp [h.inStandby]
    rw [if_pos h.inStandby, if_neg hidle]
    exact ⟨.standby _ rfl ⟨rfl, h.fd, h.marks, h.flag⟩, hpast⟩
  | playing out' k hout' h =>
    cases hout'.symm.trans hout
    have hout : ¬ out.inStandby = true := by simp [h.inStandby]
    rw [if_neg hout, if_pos ⟨h.inStandby, h.fd⟩]
    exact ⟨.standby _ rfl ⟨rfl, rfl, rfl, rfl⟩, past_endSession (k := k) h.marks hpast⟩

theorem closeOutputStream_inv {addr : Nat} (hi : Inv w)
    (hok : ¬ ClosesPlaying w (.closeOutputStream addr)) : Inv (closeOutputStream addr w) := by
  unfold closeOutputStream
  obtain ⟨hphase, hpast⟩ := hi
  cases hphase with
  | closed hout hs hflag =>
    rw [hout]
    exact ⟨.closed hout hs hflag, hpast⟩
  | standby out hout h =>
    rw [hout]
    dsimp only
    split
    · exact ⟨.standby out hout h, hpast⟩
    · refine ⟨.closed rfl rfl h.flag, ?_⟩
      simpa [World.endSession, h.marks] using hpast
  | playing out k hout h =>
    rw [hout]
    dsimp only
    split
    · exact ⟨.playing out k hout h, hpast⟩
    · rename_i haddr
      have hcount := h.count
      have hk : k < AUDIO_HW_NUM_OUT_BUF := by
        by_contra hk
        exact hok ⟨out, by rw [not_not.mp haddr], hout, h.inStandby, by omega⟩
      exact ⟨.closed rfl rfl (h.flag.trans (decide_eq_false (by omega))),
        past_endSession (k := k) h.marks hpast⟩

theorem doRouting_inv {a : RouteAnswers} {inputDevice : Option UInt32} {r : Status} {hw : AudioHardware}
    (hi : Inv w) (hr : Audio.doRouting B a inputDevice w.hw = some (r, hw)) : Inv { w with hw } := by
  have hset := doRouting_settings hr
  have hout' : hw.output = w.hw.output := congrArg Settings.output hset
  have hflag' : hw.playbackInProgress = w.hw.playbackInProgress :=
    congrArg Settings.playbackInProgress hset
  obtain ⟨hphase, hpast⟩ := hi
  cases hphase with
  | closed hout hs hflag => exact ⟨.closed (hout'.trans hout) hs (hflag'.trans hflag), hpast⟩
  | standby out hout h =>
    exact ⟨.standby out (hout'.trans hout) ⟨h.inStandby, h.fd, h.marks, hflag'.trans h.flag⟩, hpast⟩
  | playing out k hout h =>
    exact ⟨.playing out k (hout'.trans hout)
      ⟨h.inStandby, h.fd, h.isOpen, h.marks, h.count, hflag'.trans h.flag⟩, hpast⟩

/-! ## Runs -/

theorem step_inv {c : Call} (hi : Inv w) (hok : ¬ ClosesPlaying w c) (hs : step B C w c = some w') :
    Inv w' := by
  cases c with
  | openOutputStream addr devices pFormat pChannels pRate =>
    cases hs
    exact openOutputStream_inv hi
  | write bytes a =>
    obtain ⟨out, hout, hs⟩ := Option.bind_eq_some_iff.mp hs
    split at hs
    · cases hs
    · obtain ⟨⟨r, w₁⟩, hr, rfl⟩ := Option.map_eq_some_iff.mp hs
      exact write_inv hi hout hr
  | standby post =>
    obtain ⟨out, hout, rfl⟩ := Option.map_eq_some_iff.mp hs
    exact standby_inv hi hout
  | closeOutputStream addr =>
    cases hs
    exact closeOutputStream_inv hi hok
  | doRouting a inputDevice =>
    obtain ⟨⟨r, hw⟩, hr, rfl⟩ := Option.map_eq_some_iff.mp hs
    exact doRouting_inv hi hr

/-- `playback_in_progress` outlives the stream. -/
theorem closesPlaying_not_good {c : Call} (hi : Inv w) (hc : ClosesPlaying w c) :
    ∃ w', step B C w c = some w' ∧ ¬ Good w' := by
  obtain ⟨out, rfl, hout, hstandby, hcount⟩ := hc
  refine ⟨_, rfl, fun hg => ?_⟩
  have hflag : w.hw.playbackInProgress = true := by
    cases hi.phase with
    | closed hnone hs hflag =>
      rw [hnone] at hout
      cases hout
    | standby out' hout' h =>
      cases hout'.symm.trans hout
      rw [h.inStandby] at hstandby
      cases hstandby
    | playing out' k hout' h =>
      cases hout'.symm.trans hout
      have := h.count
      exact h.flag.trans (decide_eq_true (by omega))
  have hclose : closeOutputStream out.addr w =
      World.endSession { w with
        hw := { w.hw with output := none }
        isOpen := if 0 ≤ out.fd then Function.update w.isOpen out.fd false else w.isOpen } := by
    unfold closeOutputStream
    rw [hout]
    dsimp only
    rw [if_neg (not_not.mpr rfl)]
  rw [hclose] at hg
  obtain ⟨out', -, hout', -⟩ := hg.flag.mp hflag
  cases hout'

/-- All states of a run are as they should be exactly when it never closes a stream that plays. -/
theorem playback_good_iff (B : Build) (C : OutFormat) (hw : AudioHardware) (isOpen : Int → Bool)
    (calls : List Call) :
    Good (World.init hw isOpen) ∧
    (RunOk (step B C) (fun w c => ∀ w', step B C w c = some w' → Good w') (World.init hw isOpen) calls ↔
      RunOk (step B C) (fun w c => ¬ ClosesPlaying w c) (World.init hw isOpen) calls) := by
  refine ⟨(init_inv hw isOpen).good, ?_, ?_⟩
  · have hok (w : World) (c : Call) (hi : Inv w) (hg : ∀ w', step B C w c = some w' → Good w') :
        ¬ ClosesPlaying w c := by
      intro hc
      obtain ⟨w', hs, hbad⟩ := closesPlaying_not_good (B := B) (C := C) hi hc
      exact hbad (hg w' hs)
    exact RunOk.imp_of_invariant (I := Inv)
      (fun w c w' hi hg hs => step_inv hi (hok w c hi hg) hs) hok (init_inv hw isOpen)
  · exact RunOk.imp_of_invariant (I := Inv) (fun w c w' hi hok hs => step_inv hi hok hs)
      (fun w c hi hok w' hs => (step_inv hi hok hs).good) (init_inv hw isOpen)

/-! ## A stream that is closed without standby -/

/-- The driver opens as 5 and takes 4800 bytes. -/
def takesAll : WriteAnswers := ⟨5, 0, 0, [.wrote 4800], ⟨0, 0, fun _ => 0, fun _ => 0⟩⟩

def pcm : OutFormat := ⟨1, 3, 44100⟩

def start : World := World.init (AudioHardware.init TTY_OFF [] 3) (fun _ => false)

def twoWrites : List Call :=
  [.openOutputStream 1 2 none none none, .write 4800 takesAll, .write 4800 takesAll]

theorem closed_while_playing :
    ¬ ∀ (B : Build) (C : OutFormat) (hw : AudioHardware) (isOpen : Int → Bool) (calls : List Call),
      RunOk (step B C) (fun w c => ∀ w', step B C w c = some w' → Good w') (World.init hw isOpen) calls := by
  intro hall
  have hrun : run (step phone pcm) start twoWrites = some
      { hw := { AudioHardware.init TTY_OFF [] 3 with
          output := some ⟨1, 5, 0, 0, false, 2⟩, playbackInProgress := true }
        isOpen := Function.update (fun _ => false) 5 true
        session := some [.complete, .complete, .start]
        past := [] } := rfl
  have hok := hall phone pcm (AudioHardware.init TTY_OFF [] 3) (fun _ => false)
    (twoWrites ++ [.closeOutputStream 1])
  have hgood := (hok.of_append_right hrun).1 _ rfl
  obtain ⟨out, -, hout, -⟩ := hgood.flag.mp rfl
  cases hout

end Twm.Audio.Playback
