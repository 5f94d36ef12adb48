import DeviceTwm.Audio.Routing
import Mathlib.Logic.Function.Basic

/-!
# Opening a recording (`libaudio/AudioHardware.cpp`)

`AudioStreamInMSM72xx::set` checks the format, opens the device for it and configures it. It gets its
format by pointers, which `read` lets point to the fields of the stream itself.

* `StreamIn`: the stream. `World`: the stream with its descriptors and the hardware.
* `set`, with one function for each of the three formats.
* `set_good_iff`: when `set` keeps its contract.
-/

namespace Twm.Audio.Recording

def AUDIO_INPUT_CLOSED : Nat := 0
def AUDIO_INPUT_OPENED : Nat := 1
def AUDIO_INPUT_STARTED : Nat := 2

/-- The formats and channels of the framework. -/
structure InFormats where
  PCM_16_BIT : Int
  AMR_NB : Int
  AAC : Int
  CHANNEL_IN_MONO : UInt32
  CHANNEL_IN_STEREO : UInt32

/-- `AUDIO_HW_IN_FORMAT`. -/
def InFormats.hwInFormat (F : InFormats) : Int := F.PCM_16_BIT

/-- `AUDIO_HW_IN_CHANNELS`. -/
def InFormats.hwInChannels (F : InFormats) : UInt32 := F.CHANNEL_IN_MONO

/-- `AudioStreamInMSM72xx`; `hasHardware`: `mHardware` is not null. -/
structure StreamIn where
  hasHardware : Bool
  fd : Int
  state : Nat
  retryCount : Nat
  format : Int
  channels : UInt32
  sampleRate : UInt32
  bufferSize : UInt32
  devices : UInt32
  firstread : Bool

/-- The constructor, which leaves `mFirstread` as it is. -/
def StreamIn.init (F : InFormats) (firstread : Bool) : StreamIn where
  hasHardware := false
  fd := -1
  state := AUDIO_INPUT_CLOSED
  retryCount := 0
  format := F.hwInFormat
  channels := F.hwInChannels
  sampleRate := 8000
  bufferSize := 2048
  devices := 0
  firstread := firstread

structure World where
  stream : StreamIn
  /-- The open descriptors of the stream, each with the format that the driver has been set to. -/
  files : Int → Option (Option Int)
  hw : AudioHardware

namespace World

variable (w : World)

def openFile (fd : Int) : World :=
  { w with stream := { w.stream with fd }, files := Function.update w.files fd (some none) }

def configure (format : Int) : World :=
  { w with files := Function.update w.files w.stream.fd (some (some format)) }

/-- The fields of the stream for a device that is open. -/
def setFields (format : Int) (devices channels sampleRate bufferSize : UInt32) : World :=
  { w with stream := { w.stream with format, devices, channels, sampleRate, bufferSize } }

def closeFile : World :=
  { w with stream := { w.stream with fd := -1 }, files := Function.update w.files w.stream.fd none }

end World

/-- `inputSamplingRates`. -/
def inputSamplingRates : List UInt32 :=
  [8000, 11025, 12000, 16000, 22050, 24000, 32000, 44100, 48000]

/-- `abs` of a difference. -/
def absDiff (x y : UInt32) : UInt32 := if (x - y).toInt32 < 0 then 0 - (x - y) else x - y

/-- The loop of `getInputSampleRate`; `prev` is the rate before. -/
def nearestRate (sampleRate prevDelta prev : UInt32) : List UInt32 → UInt32
  | [] => prev
  | rate :: rates =>
    let delta := absDiff sampleRate rate
    if prevDelta < delta then prev else nearestRate sampleRate delta rate rates

def getInputSampleRate (sampleRate : UInt32) : UInt32 :=
  nearestRate sampleRate 0xFFFFFFFF 0 inputSamplingRates

/-- `calculate_audpre_table_index`. -/
def calculateAudpreTableIndex : UInt32 → Int
  | 8000 => 0
  | 11025 => 1
  | 12000 => 2
  | 16000 => 3
  | 22050 => 4
  | 24000 => 5
  | 32000 => 6
  | 44100 => 7
  | 48000 => 8
  | _ => -1

/-! ## The arguments -/

/-- What the pointers of `set` point to: variables of the caller, or the fields of the stream. -/
inductive Args
  | caller (pFormat : Option Int) (pChannels pRate : Option UInt32)
  | own

namespace Args

def pFormat (s : StreamIn) : Args → Option Int
  | caller pFormat _ _ => pFormat
  | own => some s.format

def pChannels (s : StreamIn) : Args → Option UInt32
  | caller _ pChannels _ => pChannels
  | own => some s.channels

def pRate (s : StreamIn) : Args → Option UInt32
  | caller _ _ pRate => pRate
  | own => some s.sampleRate

def putFormat (format : Int) (s : StreamIn) : Args → Args × StreamIn
  | caller _ pChannels pRate => (caller format pChannels pRate, s)
  | own => (own, { s with format })

def putChannels (channels : UInt32) (s : StreamIn) : Args → Args × StreamIn
  | caller pFormat _ pRate => (caller pFormat channels pRate, s)
  | own => (own, { s with channels })

def putRate (rate : UInt32) (s : StreamIn) : Args → Args × StreamIn
  | caller pFormat pChannels _ => (caller pFormat pChannels rate, s)
  | own => (own, { s with sampleRate := rate })

end Args

/-- What the checks at the beginning of `set` come to. -/
inductive Checked
  /-- A value is stored through a null pointer. -/
  | crash
  /-- `BAD_VALUE`, with a value stored that would do. -/
  | bad (args : Args) (s : StreamIn)
  | ok (format : Int) (channels rate : UInt32)

section

variable (B : Build) (F : InFormats)

/-- The checks of `set`. -/
def check (args : Args) (s : StreamIn) : Checked :=
  match args.pFormat s with
  | none => .crash
  | some format =>
    if format ≠ F.hwInFormat ∧ format ≠ F.AMR_NB ∧ format ≠ F.AAC then
      let (args, s) := args.putFormat F.hwInFormat s
      .bad args s
    else
      match args.pRate s with
      | none => .bad args s
      | some pRate =>
        let rate := getInputSampleRate pRate
        if rate ≠ pRate then
          let (args, s) := args.putRate rate s
          .bad args s
        else
          match args.pChannels s with
          | none => .crash
          | some channels =>
            if channels &&& (F.CHANNEL_IN_MONO ||| F.CHANNEL_IN_STEREO) = 0 then
              let (args, s) := args.putChannels F.hwInChannels s
              .bad args s
            else .ok format channels rate

/-! ## The devices -/

structure Config where
  channelCount : UInt32
  sampleRate : UInt32
  bufferSize : UInt32

/-- What the drivers return in one `set`. `setConfig` is `AUDIO_SET_CONFIG` or
`AUDIO_SET_VOICEMEMO_CONFIG`, `getAgain` what is read from the driver after it. -/
structure SetAnswers where
  openFd : Int
  getConfig : Int
  config : Config
  setConfig : Int
  getAgain : Int
  again : Config
  openPreproc : Int

/-- Where one of the three sequences leaves: to the label `Error`, or to what follows for all formats. -/
structure Opening where
  ok : Bool
  status : Status
  args : Args
  world : World

/-- `AUDIO_HW_IN_FORMAT`. -/
def openPcm (a : SetAnswers) (devices channels : UInt32) (args : Args) (w : World) : Opening :=
  if a.openFd < 0 then ⟨false, a.openFd, args, w⟩
  else
    let w := w.openFile a.openFd
    if a.getConfig < 0 then ⟨false, a.getConfig, args, w⟩
    else if a.setConfig < 0 then
      if a.getAgain = 0 then
        let mask := if a.again.channelCount = 1 then F.CHANNEL_IN_MONO else F.CHANNEL_IN_STEREO
        let (args, s) := args.putChannels mask w.stream
        let (args, s) := args.putRate a.again.sampleRate s
        ⟨false, a.setConfig, args, { w with stream := s }⟩
      else ⟨false, a.setConfig, args, w⟩
    else
      let w := w.configure F.hwInFormat
      if a.getAgain < 0 then ⟨false, a.getAgain, args, w⟩
      else
        ⟨true, a.getAgain, args,
          w.setFields F.hwInFormat devices channels a.again.sampleRate a.again.bufferSize⟩

/-- `AMR_NB`. The status is that of `::open` throughout. -/
def openVoiceMemo (a : SetAnswers) (devices channels : UInt32) (args : Args) (w : World) : Opening :=
  if a.openFd < 0 then ⟨false, a.openFd, args, w⟩
  else
    let w := w.openFile a.openFd
    if a.getConfig ≠ 0 then ⟨false, a.openFd, args, w⟩
    else
      let w := w.setFields F.AMR_NB devices channels a.config.sampleRate 320
      if a.setConfig ≠ 0 then ⟨false, a.openFd, args, w⟩
      else
        let w := w.configure F.AMR_NB
        if a.getAgain ≠ 0 then ⟨false, a.openFd, args, w⟩ else ⟨true, a.openFd, args, w⟩

/-- `AAC`. -/
def openAac (a : SetAnswers) (devices channels rate : UInt32) (args : Args) (w : World) : Opening :=
  if a.openFd < 0 then ⟨false, a.openFd, args, w⟩
  else
    let w := w.openFile a.openFd
    if a.getConfig ≠ 0 then ⟨false, a.openFd, args, w⟩
    else
      let w := w.setFields F.AAC devices channels rate 2048
      if a.setConfig ≠ 0 then ⟨false, a.openFd, args, w⟩ else ⟨true, a.openFd, args, w.configure F.AAC⟩

/-- The branch for the format. -/
def openDevice (a : SetAnswers) (devices : UInt32) (format : Int) (channels rate : UInt32) (args : Args)
    (w : World) : Opening :=
  if format = F.hwInFormat then openPcm F a devices channels args w
  else if format = F.AMR_NB then openVoiceMemo F a devices channels args w
  else openAac F a devices channels rate args w

/-- What follows the label `Error`. -/
def onError (w : World) : World := if 0 ≤ w.stream.fd then w.closeFile else w

/-- The end of `set` for all formats; the filters that are set here only print when they fail. -/
def finish (a : SetAnswers) (status : Status) (w : World) : Status × World :=
  let w := { w with stream := { w.stream with state := AUDIO_INPUT_OPENED } }
  if B.post.inited then
    if calculateAudpreTableIndex w.stream.sampleRate < 0 then (status, onError w)
    else if a.openPreproc < 0 then (-EPERM, w)
    else (NO_ERROR, w)
  else (NO_ERROR, w)

/-- `set`, with the variables of the caller afterwards. -/
def set (devices : UInt32) (args : Args) (a : SetAnswers) (w : World) : Option (Status × Args × World) :=
  match check F args w.stream with
  | .crash => none
  | .bad args s => some (BAD_VALUE, args, { w with stream := s })
  | .ok format channels rate =>
    let w := { w with stream := { w.stream with hasHardware := true } }
    if 0 ≤ w.stream.fd then some (-EPERM, args, w)
    else
      let o := openDevice F a devices format channels rate args w
      if o.ok then
        let (status, w) := finish B a o.status o.world
        some (status, o.args, w)
      else some (o.status, o.args, onError o.world)

end

/-! ## What is wanted -/

/-- `mState > AUDIO_INPUT_CLOSED` iff `mFd` is an open descriptor. -/
def StateOk (w : World) : Prop :=
  AUDIO_INPUT_CLOSED < w.stream.state ↔ (w.files w.stream.fd).isSome

/-- What the status of `set` says about the stream, when `format` was asked for. -/
structure Contract (format : Option Int) (status : Status) (w : World) : Prop where
  success : status = NO_ERROR ↔ ∃ f, format = some f ∧ w.files w.stream.fd = some (some f)
  failure : status ≠ NO_ERROR → w.stream.fd = -1 ∧ w.stream.state = AUDIO_INPUT_CLOSED

/-- `set`, if it returns, keeps its contract. -/
def SetGood (B : Build) (F : InFormats) (devices : UInt32) (args : Args) (a : SetAnswers) (w : World) :
    Prop :=
  ∀ status args' w', set B F devices args a w = some (status, args', w') →
    Contract (args.pFormat w.stream) status w' ∧ StateOk w'

/-- The driver takes each step for the format. -/
def Configures (F : InFormats) (format : Int) (a : SetAnswers) : Prop :=
  0 ≤ a.openFd ∧
    if format = F.hwInFormat then 0 ≤ a.getConfig ∧ 0 ≤ a.setConfig ∧ 0 ≤ a.getAgain
    else if format = F.AMR_NB then a.getConfig = 0 ∧ a.setConfig = 0 ∧ a.getAgain = 0
    else a.getConfig = 0 ∧ a.setConfig = 0

/-- The sampling rate of the stream once it is configured. -/
def rateOf (F : InFormats) (format : Int) (rate : UInt32) (a : SetAnswers) : UInt32 :=
  if format = F.hwInFormat then a.again.sampleRate
  else if format = F.AMR_NB then a.config.sampleRate
  else rate

/-- None of the exits of `set` is taken that do not clean up. -/
def SetOk (B : Build) (F : InFormats) (args : Args) (a : SetAnswers) (w : World) : Prop :=
  match check F args w.stream with
  | .crash => True
  | .bad _ _ => w.stream.fd < 0
  | .ok format _ rate =>
    w.stream.fd < 0 ∧
    (Configures F format a → B.post.inited →
      0 ≤ calculateAudpreTableIndex (rateOf F format rate a) ∧ 0 ≤ a.openPreproc) ∧
    (¬ Configures F format a → format ≠ F.hwInFormat → a.openFd ≠ 0)

/-! ## One call of `set` -/

/-- Nothing is open. -/
structure Closed (w : World) : Prop where
  fd : w.stream.fd = -1
  state : w.stream.state = AUDIO_INPUT_CLOSED
  files : ∀ fd, w.files fd = none

/-- The device is open for `format`. -/
structure Ready (w : World) (format : Int) : Prop where
  fd : 0 ≤ w.stream.fd
  file : w.files w.stream.fd = some (some format)
  files : ∀ fd, fd ≠ w.stream.fd → w.files fd = none

/-- A descriptor that the label `Error` closes. -/
structure Opened (w : World) : Prop where
  state : w.stream.state = AUDIO_INPUT_CLOSED
  fd : 0 ≤ w.stream.fd
  files : ∀ fd, fd ≠ w.stream.fd → w.files fd = none

variable {B : Build} {F : InFormats} {a : SetAnswers} {w w' : World} {args : Args}
  {devices channels rate : UInt32} {format : Int}

theorem Opened.onError (h : Opened w) : Closed (onError w) := by
  unfold Recording.onError
  rw [if_pos h.fd]
  refine ⟨rfl, h.state, fun fd => ?_⟩
  by_cases hfd : fd = w.stream.fd
  · subst hfd
    exact Function.update_self ..
  · exact (Function.update_of_ne hfd ..).trans (h.files fd hfd)

theorem Closed.onError (h : Closed w) : Closed (onError w) := by
  unfold Recording.onError
  rw [if_neg (by rw [h.fd]; decide)]
  exact h

theorem Closed.openFile (h : Closed w) {fd : Int} (hfd : 0 ≤ fd) : Opened (w.openFile fd) :=
  ⟨h.state, hfd, fun _ hne => (Function.update_of_ne hne ..).trans (h.files _)⟩

theorem Opened.configure (h : Opened w) (format : Int) : Opened (w.configure format) :=
  ⟨h.state, h.fd, fun fd hne => (Function.update_of_ne hne ..).trans (h.files fd hne)⟩

theorem Opened.ready (h : Opened w) (format : Int) : Ready (w.configure format) format :=
  ⟨h.fd, Function.update_self .., fun fd hne => (Function.update_of_ne hne ..).trans (h.files fd hne)⟩

/-- A value stored by `set` leaves the descriptor and the state alone. -/
theorem putFormat_keeps (format : Int) (s : StreamIn) :
    (args.putFormat format s).2.fd = s.fd ∧ (args.putFormat format s).2.state = s.state := by
  cases args with
  | caller _ _ _ => exact ⟨rfl, rfl⟩
  | own => exact ⟨rfl, rfl⟩

theorem putChannels_keeps (channels : UInt32) (s : StreamIn) :
    (args.putChannels channels s).2.fd = s.fd ∧ (args.putChannels channels s).2.state = s.state := by
  cases args with
  | caller _ _ _ => exact ⟨rfl, rfl⟩
  | own => exact ⟨rfl, rfl⟩

theorem putRate_keeps (rate : UInt32) (s : StreamIn) :
    (args.putRate rate s).2.fd = s.fd ∧ (args.putRate rate s).2.state = s.state := by
  cases args with
  | caller _ _ _ => exact ⟨rfl, rfl⟩
  | own => exact ⟨rfl, rfl⟩

theorem Opened.setFields (h : Opened w) (format : Int) (devices channels rate bufferSize : UInt32) :
    Opened (w.setFields format devices channels rate bufferSize) :=
  ⟨h.state, h.fd, h.files⟩

theorem Opened.setStream (h : Opened w) {s : StreamIn} (hfd : s.fd = w.stream.fd)
    (hstate : s.state = w.stream.state) : Opened { w with stream := s } :=
  ⟨hstate.trans h.state, hfd ▸ h.fd, fun fd hne => h.files fd (hfd ▸ hne)⟩

theorem Closed.setStream (h : Closed w) {s : StreamIn} (hfd : s.fd = w.stream.fd)
    (hstate : s.state = w.stream.state) : Closed { w with stream := s } :=
  ⟨hfd.trans h.fd, hstate.trans h.state, h.files⟩

/-- What a sequence for one format leaves behind, from a closed stream. -/
structure Opening.Spec (F : InFormats) (format : Int) (rate : UInt32) (a : SetAnswers) (o : Opening) :
    Prop where
  ok : o.ok ↔ Configures F format a
  ready : o.ok → Opened o.world ∧ Ready o.world format ∧
    o.world.stream.sampleRate = rateOf F format rate a
  failed : ¬ o.ok → Closed (onError o.world) ∧
    (o.status = NO_ERROR ↔ format ≠ F.hwInFormat ∧ a.openFd = 0)

/-- A sequence that goes to the label `Error`. -/
theorem Opening.Spec.error {o : Opening} (hok : o.ok = false) (hc : ¬ Configures F format a)
    (hw : Closed (onError o.world))
    (hs : o.status = NO_ERROR ↔ format ≠ F.hwInFormat ∧ a.openFd = 0) : o.Spec F format rate a :=
  ⟨by simp [hok, hc], fun h => by simp [hok] at h, fun _ => ⟨hw, hs⟩⟩

/-- A sequence that configures the device. -/
theorem Opening.Spec.success {o : Opening} (hok : o.ok = true) (hc : Configures F format a)
    (hw : Opened o.world) (hr : Ready o.world format)
    (hrate : o.world.stream.sampleRate = rateOf F format rate a) : o.Spec F format rate a :=
  ⟨by simp [hok, hc], fun _ => ⟨hw, hr, hrate⟩, fun h => absurd hok h⟩

theorem openPcm_spec (h : Closed w) :
    (openPcm F a devices channels args w).Spec F F.hwInFormat rate a := by
  have hconf : Configures F F.hwInFormat a ↔
      0 ≤ a.openFd ∧ 0 ≤ a.getConfig ∧ 0 ≤ a.setConfig ∧ 0 ≤ a.getAgain := by
    simp [Configures]
  have hfails {status : Int} (hneg : status < 0) :
      status = NO_ERROR ↔ F.hwInFormat ≠ F.hwInFormat ∧ a.openFd = 0 :=
    iff_of_false (Int.ne_of_lt hneg) (fun hn => hn.1 rfl)
  unfold openPcm
  split
  · exact .error rfl (by rw [hconf]; omega) h.onError (hfails ‹_›)
  · have hopen : Opened (w.openFile a.openFd) := h.openFile (by omega)
    dsimp only
    split
    · exact .error rfl (by rw [hconf]; omega) hopen.onError (hfails ‹_›)
    · split
      · split
        · refine .error rfl (by rw [hconf]; omega) (Opened.onError (hopen.setStream ?_ ?_)) (hfails ‹_›)
          · exact (putRate_keeps _ _).1.trans (putChannels_keeps _ _).1
          · exact (putRate_keeps _ _).2.trans (putChannels_keeps _ _).2
        · exact .error rfl (by rw [hconf]; omega) hopen.onError (hfails ‹_›)
      · have hset := hopen.configure F.hwInFormat
        have hready := hopen.ready F.hwInFormat
        split
        · exact .error rfl (by rw [hconf]; omega) hset.onError (hfails ‹_›)
        · exact .success rfl (by rw [hconf]; omega) (hset.setFields ..)
            ⟨hready.fd, hready.file, hready.files⟩ (by simp [rateOf, World.setFields])

theorem openVoiceMemo_spec (h : Closed w) (hf : F.AMR_NB ≠ F.hwInFormat) :
    (openVoiceMemo F a devices channels args w).Spec F F.AMR_NB rate a := by
  have hconf : Configures F F.AMR_NB a ↔
      0 ≤ a.openFd ∧ a.getConfig = 0 ∧ a.setConfig = 0 ∧ a.getAgain = 0 := by
    simp [Configures, hf]
  have hstatus : a.openFd = NO_ERROR ↔ F.AMR_NB ≠ F.hwInFormat ∧ a.openFd = 0 :=
    (and_iff_right hf).symm
  unfold openVoiceMemo
  split
  · exact .error rfl (by rw [hconf]; omega) h.onError hstatus
  · have hopen : Opened (w.openFile a.openFd) := h.openFile (by omega)
    dsimp only
    split
    · exact .error rfl (by rw [hconf]; omega) hopen.onError hstatus
    · have hfields := hopen.setFields F.AMR_NB devices channels a.config.sampleRate 320
      split
      · exact .error rfl (by rw [hconf]; omega) hfields.onError hstatus
      · have hset := hfields.configure F.AMR_NB
        split
        · exact .error rfl (by rw [hconf]; omega) hset.onError hstatus
        · exact .success rfl (by rw [hconf]; omega) hset (hfields.ready F.AMR_NB)
            (by simp [rateOf, hf, World.configure, World.setFields])

theorem openAac_spec (h : Closed w) (hf : format ≠ F.hwInFormat) (hf' : format ≠ F.AMR_NB)
    (haac : format = F.AAC) :
    (openAac F a devices channels rate args w).Spec F format rate a := by
  have hconf : Configures F format a ↔ 0 ≤ a.openFd ∧ a.getConfig = 0 ∧ a.setConfig = 0 := by
    simp [Configures, hf, hf']
  have hstatus : a.openFd = NO_ERROR ↔ format ≠ F.hwInFormat ∧ a.openFd = 0 := (and_iff_right hf).symm
  unfold openAac
  split
  · exact .error rfl (by rw [hconf]; omega) h.onError hstatus
  · have hopen : Opened (w.openFile a.openFd) := h.openFile (by omega)
    dsimp only
    split
    · exact .error rfl (by rw [hconf]; omega) hopen.onError hstatus
    · have hfields := hopen.setFields F.AAC devices channels rate 2048
      split
      · exact .error rfl (by rw [hconf]; omega) hfields.onError hstatus
      · exact .success rfl (by rw [hconf]; omega) (hfields.configure _) (haac ▸ hfields.ready F.AAC)
          (by simp [rateOf, hf, hf', World.configure, World.setFields])

/-- The formats that pass the checks. -/
def InFormats.Known (F : InFormats) (format : Int) : Prop :=
  format = F.hwInFormat ∨ format = F.AMR_NB ∨ format = F.AAC

theorem openDevice_spec (a : SetAnswers) (devices channels rate : UInt32) (args : Args) (h : Closed w)
    (hk : F.Known format) :
    (openDevice F a devices format channels rate args w).Spec F format rate a := by
  unfold openDevice
  split
  · rename_i hpcm
    subst hpcm
    exact openPcm_spec h
  · rename_i hpcm
    split
    · rename_i hamr
      subst hamr
      exact openVoiceMemo_spec h hpcm
    · rename_i hamr
      exact openAac_spec h hpcm hamr ((hk.resolve_left hpcm).resolve_left hamr)

/-- What passes the checks was asked for, in a format that is known. -/
theorem check_ok {s : StreamIn} (hc : check F args s = .ok format channels rate) :
    args.pFormat s = some format ∧ F.Known format := by
  unfold check at hc
  split at hc
  · cases hc
  · rename_i f hf
    split at hc
    · cases hc
    · rename_i hknown
      split at hc
      · cases hc
      · dsimp only at hc
        split at hc
        · cases hc
        · split at hc
          · cases hc
          · split at hc
            · cases hc
            · cases hc
              refine ⟨hf, ?_⟩
              unfold InFormats.Known
              grind

theorem check_bad {s s' : StreamIn} {args' : Args} (hc : check F args s = .bad args' s') :
    s'.fd = s.fd ∧ s'.state = s.state := by
  unfold check at hc
  split at hc
  · cases hc
  · split at hc
    · cases hc
      exact putFormat_keeps ..
    · split at hc
      · cases hc
        exact ⟨rfl, rfl⟩
      · dsimp only at hc
        split at hc
        · cases hc
          exact putRate_keeps ..
        · split at hc
          · cases hc
          · split at hc
            · cases hc
              exact putChannels_keeps ..
            · cases hc

/-! ## The contract -/

theorem Closed.stateOk (h : Closed w) : StateOk w := by
  unfold StateOk
  rw [h.state, h.files]
  exact iff_of_false (Nat.lt_irrefl _) Bool.false_ne_true

/-- A stream that is closed is what a failure leaves. -/
theorem Closed.contract_iff (h : Closed w) {status : Status} {requested : Option Int} :
    Contract requested status w ↔ status ≠ NO_ERROR := by
  constructor
  · intro hc hs
    obtain ⟨f, -, hf⟩ := hc.success.mp hs
    rw [h.files] at hf
    cases hf
  · intro hs
    refine ⟨iff_of_false hs ?_, fun _ => ⟨h.fd, h.state⟩⟩
    rintro ⟨f, -, hf⟩
    rw [h.files] at hf
    cases hf

theorem Ready.contract (h : Ready w format) : Contract (some format) NO_ERROR w :=
  ⟨iff_of_true rfl ⟨format, rfl, h.file⟩, fun hn => absurd rfl hn⟩

theorem Ready.stateOk (h : Ready w format) (hs : AUDIO_INPUT_CLOSED < w.stream.state) : StateOk w :=
  iff_of_true hs (by rw [h.file]; rfl)

/-- A failure does not leave a descriptor open. -/
theorem Ready.not_contract (h : Ready w format) {status : Status} (hs : status ≠ NO_ERROR)
    {requested : Option Int} : ¬ Contract requested status w := by
  intro hc
  have hfd := (hc.failure hs).1
  have := h.fd
  omega

/-- The end of `set` keeps the contract exactly when neither of its two failures occurs. -/
theorem finish_good_iff {status : Status} (ho : Opened w) (hr : Ready w format) :
    (Contract (some format) (finish B a status w).1 (finish B a status w).2 ∧
        StateOk (finish B a status w).2) ↔
      (B.post.inited → 0 ≤ calculateAudpreTableIndex w.stream.sampleRate ∧ 0 ≤ a.openPreproc) := by
  have hready : Ready { w with stream := { w.stream with state := AUDIO_INPUT_OPENED } } format :=
    ⟨hr.fd, hr.file, hr.files⟩
  have hgood := And.intro hready.contract (hready.stateOk Nat.zero_lt_one)
  unfold finish
  dsimp only
  split
  · rename_i hinited
    split
    · -- the descriptor is closed in the state that says it is open
      rename_i hidx
      refine iff_of_false (fun h => ?_) (fun h => ?_)
      · have hst := h.2
        have hnone : (onError { w with stream := { w.stream with state := AUDIO_INPUT_OPENED } }).files
            (-1) = none := by
          unfold onError
          rw [if_pos ho.fd]
          have hne : (-1 : Int) ≠ w.stream.fd := by
            have := ho.fd
            omega
          exact (Function.update_of_ne hne ..).trans (ho.files _ hne)
        unfold onError at hst hnone
        rw [if_pos ho.fd] at hst hnone
        have := hst.mp Nat.zero_lt_one
        rw [World.closeFile] at this hnone
        dsimp only at this hnone
        rw [hnone] at this
        cases this
      · have := (h hinited).1
        omega
    · split
      · rename_i hpre
        have hstatus : -EPERM ≠ NO_ERROR := by decide
        refine iff_of_false (fun h => hready.not_contract hstatus h.1) (fun h => ?_)
        have := (h hinited).2
        omega
      · exact iff_of_true hgood (fun _ => ⟨by omega, by omega⟩)
  · exact iff_of_true hgood (fun hi => absurd hi ‹_›)

theorem finish_ok {status : Status} (hok : B.post.inited →
    0 ≤ calculateAudpreTableIndex w.stream.sampleRate ∧ 0 ≤ a.openPreproc) :
    finish B a status w =
      (NO_ERROR, { w with stream := { w.stream with state := AUDIO_INPUT_OPENED } }) := by
  unfold finish
  dsimp only
  split
  · obtain ⟨hidx, hpre⟩ := hok ‹_›
    rw [if_neg (Int.not_lt.mpr hidx), if_neg (Int.not_lt.mpr hpre)]
  · rfl

/-- One call of `set` on a closed stream keeps its contract exactly when it is as in `SetOk`. -/
theorem Closed.set_good_iff (h : Closed w) :
    SetGood B F devices args a w ↔ SetOk B F args a w := by
  unfold SetGood SetOk set
  cases hc : check F args w.stream with
  | crash =>
    refine iff_of_true (fun _ _ _ hs => ?_) trivial
    cases hs
  | bad args₁ s =>
    obtain ⟨hfd, hstate⟩ := check_bad hc
    have hclosed : Closed { w with stream := s } := h.setStream hfd hstate
    have hneg : w.stream.fd < 0 := by rw [h.fd]; decide
    refine iff_of_true (fun status args' w' hs => ?_) hneg
    cases hs
    exact ⟨hclosed.contract_iff.mpr (by decide), hclosed.stateOk⟩
  | ok format channels rate =>
    obtain ⟨hasked, hknown⟩ := check_ok hc
    have hclosed : Closed { w with stream := { w.stream with hasHardware := true } } :=
      h.setStream rfl rfl
    have hspec := openDevice_spec a devices channels rate args hclosed hknown
    have hfd : ¬ 0 ≤ w.stream.fd := by rw [h.fd]; decide
    have hneg : w.stream.fd < 0 := Int.not_le.mp hfd
    dsimp only
    rw [if_neg hfd, hasked]
    by_cases hconf : Configures F format a
    · have hok := hspec.ok.mpr hconf
      obtain ⟨ho, hr, hrate⟩ := hspec.ready hok
      simp only [if_pos hok, Option.some.injEq, Prod.mk.injEq, and_imp, hneg, hconf, true_and,
        forall_const, not_true_eq_false, false_imp_iff, and_true, ← hrate]
      rw [← finish_good_iff ho hr]
      constructor
      · intro hall
        exact hall _ _ _ rfl rfl rfl
      · rintro hg _ _ _ rfl rfl rfl
        exact hg
    · have hok := mt hspec.ok.mp hconf
      obtain ⟨hw, hs⟩ := hspec.failed hok
      simp only [if_neg hok, Option.some.injEq, Prod.mk.injEq, and_imp, hneg, hconf, true_and,
        false_imp_iff, not_false_eq_true, forall_const]
      constructor
      · intro hall hf hzero
        exact hw.contract_iff.mp (hall _ _ _ rfl rfl rfl).1 (hs.mpr ⟨hf, hzero⟩)
      · rintro hg _ _ _ rfl rfl rfl
        exact ⟨hw.contract_iff.mpr fun hz => hg (hs.mp hz).1 (hs.mp hz).2, hw.stateOk⟩

/-- A call on a stream that is open fails, and the descriptor stays open. -/
theorem Ready.set_good_iff (h : Ready w format) :
    SetGood B F devices args a w ↔ SetOk B F args a w := by
  have hfd : ¬ w.stream.fd < 0 := Int.not_lt.mpr h.fd
  unfold SetGood SetOk set
  cases hc : check F args w.stream with
  | crash =>
    refine iff_of_true (fun _ _ _ hs => ?_) trivial
    cases hs
  | bad args₁ s =>
    refine iff_of_false (fun hall => ?_) hfd
    have hs : Ready { w with stream := s } format :=
      ⟨(check_bad hc).1 ▸ h.fd, (check_bad hc).1 ▸ h.file, (check_bad hc).1 ▸ h.files⟩
    have hstatus : BAD_VALUE ≠ NO_ERROR := by decide
    exact hs.not_contract hstatus (hall _ _ _ rfl).1
  | ok format' channels rate =>
    refine iff_of_false (fun hall => ?_) (fun hg => hfd hg.1)
    dsimp only at hall
    rw [if_pos h.fd] at hall
    have hs : Ready { w with stream := { w.stream with hasHardware := true } } format :=
      ⟨h.fd, h.file, h.files⟩
    have hstatus : -EPERM ≠ NO_ERROR := by decide
    exact hs.not_contract hstatus (hall _ _ _ rfl).1

/-- On a stream that is open, only a call that crashes is as in `SetOk`. -/
theorem Ready.set_eq_none (h : Ready w format) (hok : SetOk B F args a w) :
    set B F devices args a w = none := by
  have hfd : ¬ w.stream.fd < 0 := Int.not_lt.mpr h.fd
  unfold SetOk at hok
  unfold set
  cases hc : check F args w.stream with
  | crash => rfl
  | bad args₁ s =>
    rw [hc] at hok
    exact absurd hok hfd
  | ok format' channels rate =>
    rw [hc] at hok
    exact absurd hok.1 hfd

/-- A call as in `SetOk` leaves the stream closed, or open for the format that was asked for. -/
theorem Closed.set_cases {status : Status} {args' : Args} (h : Closed w) (hok : SetOk B F args a w)
    (hs : set B F devices args a w = some (status, args', w')) :
    (status ≠ NO_ERROR ∧ Closed w') ∨
      (status = NO_ERROR ∧ w'.stream.state = AUDIO_INPUT_OPENED ∧ ∃ f, Ready w' f) := by
  unfold SetOk at hok
  unfold set at hs
  cases hc : check F args w.stream with
  | crash =>
    rw [hc] at hs
    cases hs
  | bad args₁ s =>
    rw [hc] at hs
    cases hs
    exact .inl ⟨by decide, h.setStream (check_bad hc).1 (check_bad hc).2⟩
  | ok format channels rate =>
    obtain ⟨-, hknown⟩ := check_ok hc
    have hclosed : Closed { w with stream := { w.stream with hasHardware := true } } :=
      h.setStream rfl rfl
    have hspec := openDevice_spec a devices channels rate args hclosed hknown
    have hfd : ¬ 0 ≤ w.stream.fd := by rw [h.fd]; decide
    rw [hc] at hs hok
    obtain ⟨-, hfinish, herror⟩ := hok
    dsimp only at hs
    rw [if_neg hfd] at hs
    by_cases hconf : Configures F format a
    · have hdone := hspec.ok.mpr hconf
      obtain ⟨-, hr, hrate⟩ := hspec.ready hdone
      rw [if_pos hdone, finish_ok (hrate ▸ hfinish hconf)] at hs
      cases hs
      exact .inr ⟨rfl, rfl, format, ⟨hr.fd, hr.file, hr.files⟩⟩
    · have hdone := mt hspec.ok.mp hconf
      obtain ⟨hw, hstatus⟩ := hspec.failed hdone
      rw [if_neg hdone] at hs
      cases hs
      exact .inl ⟨fun hz => herror hconf (hstatus.mp hz).1 (hstatus.mp hz).2, hw⟩

end Twm.Audio.Recording
