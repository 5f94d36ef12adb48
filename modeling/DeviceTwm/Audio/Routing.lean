import Mathlib.Data.List.Basic

/-!
# Audio routing (`libaudio/AudioHardware.cpp`)

`doRouting` chooses the sound device from the devices of the output stream, of a recording and from the
settings, and tells the driver. `none` stands for a null pointer: there is no output stream.

* `AudioSystem`: the constants of the framework. `SndDevices`: the device numbers that the driver
  reports. `PostProc`: what the filter file has.
* `AudioHardware`: the object, and the static variables that routing uses.
* `doRouting`, with `doAudioRouteOrMute`, `do_route_audio_rpc` and `msm72xx_enable_postproc`.
-/

namespace Twm.Audio

/-- `status_t`. -/
abbrev Status := Int

def NO_ERROR : Status := 0
def EPERM : Status := 1
def EIO : Status := 5
def BAD_VALUE : Status := -22
def EINVAL : Status := 22
def INVALID_OPERATION : Status := -38

/-- `AudioSystem` of the framework, and the test of the mode in `AudioHardwareBase`. -/
structure AudioSystem where
  MODE_IN_CALL : Int
  isInCall : Int → Bool
  DEVICE_OUT_SPEAKER : UInt32
  DEVICE_OUT_WIRED_HEADSET : UInt32
  DEVICE_OUT_WIRED_HEADPHONE : UInt32
  DEVICE_OUT_BLUETOOTH_SCO : UInt32
  DEVICE_OUT_BLUETOOTH_SCO_HEADSET : UInt32
  DEVICE_OUT_BLUETOOTH_SCO_CARKIT : UInt32
  DEVICE_IN_BUILTIN_MIC : UInt32
  DEVICE_IN_VOICE_CALL : UInt32
  DEVICE_IN_BLUETOOTH_SCO_HEADSET : UInt32
  DEVICE_IN_WIRED_HEADSET : UInt32

/-- `SND_DEVICE_*`; -1 as long as the driver has not named the device. -/
structure SndDevices where
  CURRENT : UInt32 := 0xffffffff
  HANDSET : UInt32 := 0xffffffff
  SPEAKER : UInt32 := 0xffffffff
  BT : UInt32 := 0xffffffff
  HEADSET : UInt32 := 0xffffffff
  HEADSET_AND_SPEAKER : UInt32 := 0xffffffff
  IN_S_SADC_OUT_HANDSET : UInt32 := 0xffffffff
  IN_S_SADC_OUT_SPEAKER_PHONE : UInt32 := 0xffffffff
  TTY_HEADSET : UInt32 := 0xffffffff
  TTY_HCO : UInt32 := 0xffffffff
  TTY_VCO : UInt32 := 0xffffffff
  CARKIT : UInt32 := 0xffffffff
  NO_MIC_HEADSET : UInt32 := 0xffffffff

/-- What was read from the filter file; a flag says that it is not 0. -/
structure PostProc where
  inited : Bool
  adrcFilterExists : Nat → Bool
  mbadrcFilterExists : Nat → Bool
  adrcFlag : Nat → Bool
  mbadrcFlag : Nat → Bool
  eqFlag : Nat → Bool
  rxIirFlag : Nat → Bool

/-- What does not change once the process has started. -/
structure Build where
  haveFmRadio : Bool
  sys : AudioSystem
  snd : SndDevices
  post : PostProc

/-- The constants of the framework on this device. -/
def androidSystem : AudioSystem where
  MODE_IN_CALL := 2
  isInCall mode := mode = 2 ∨ mode = 3
  DEVICE_OUT_SPEAKER := 0x2
  DEVICE_OUT_WIRED_HEADSET := 0x4
  DEVICE_OUT_WIRED_HEADPHONE := 0x8
  DEVICE_OUT_BLUETOOTH_SCO := 0x10
  DEVICE_OUT_BLUETOOTH_SCO_HEADSET := 0x20
  DEVICE_OUT_BLUETOOTH_SCO_CARKIT := 0x40
  DEVICE_IN_BUILTIN_MIC := 0x40000
  DEVICE_IN_VOICE_CALL := 0x400000
  DEVICE_IN_BLUETOOTH_SCO_HEADSET := 0x80000
  DEVICE_IN_WIRED_HEADSET := 0x100000

def withoutFilters : PostProc where
  inited := false
  adrcFilterExists _ := false
  mbadrcFilterExists _ := false
  adrcFlag _ := false
  mbadrcFlag _ := false
  eqFlag _ := false
  rxIirFlag _ := false

def phone : Build := ⟨false, androidSystem, {}, withoutFilters⟩

def TTY_OFF : Int := 0
def TTY_VCO : Int := 1
def TTY_HCO : Int := 2
def TTY_FULL : Int := 3

/-- `AudioStreamOutMSM72xx`, at an address. -/
structure StreamOut where
  addr : Nat
  fd : Int
  startCount : Int
  retryCount : Nat
  inStandby : Bool
  devices : UInt32

/-- `AudioHardware`, with the static variables. -/
structure AudioHardware where
  mode : Int
  micMute : Bool
  bluetoothNrec : Bool
  bluetoothId : UInt32
  output : Option StreamOut
  /-- The names and ids of `mSndEndpoints`. -/
  sndEndpoints : List (String × UInt32)
  curSndDevice : Int32
  fmRadioEnabled : Bool
  fmPrev : Bool
  fmfd : Int
  m7xsnddriverfd : Int
  dualMicEnabled : Bool
  ttyMode : Int
  builtinMicSelected : Bool
  /-- `snd_device`. -/
  sndDevice : Int32
  postProcFeatureMask : UInt32
  playbackInProgress : Bool

/-- The constructor, which leaves `mTtyMode` as it is, and the static variables at the start. -/
def AudioHardware.init (ttyMode : Int) (sndEndpoints : List (String × UInt32)) (m7xsnddriverfd : Int) :
    AudioHardware where
  mode := 0
  micMute := true
  bluetoothNrec := true
  bluetoothId := 0
  output := none
  sndEndpoints := sndEndpoints
  curSndDevice := -1
  fmRadioEnabled := false
  fmPrev := false
  fmfd := -1
  m7xsnddriverfd := m7xsnddriverfd
  dualMicEnabled := false
  ttyMode := ttyMode
  builtinMicSelected := false
  sndDevice := -1
  postProcFeatureMask := 0
  playbackInProgress := false

/-- What the driver returns while a route is set up. -/
structure RouteAnswers where
  muteMic : Int
  setDevice : Int
  openCtl : Bool → Int
  enableAudpp : Bool → Int

/-! ## Post-processing -/

def ADRC_ENABLE : UInt32 := 0x0001
def ADRC_DISABLE : UInt32 := 0x0000
def EQ_ENABLE : UInt32 := 0x0002
def EQ_DISABLE : UInt32 := 0x0000
def RX_IIR_ENABLE : UInt32 := 0x0004
def RX_IIR_DISABLE : UInt32 := 0x0000
def MBADRC_ENABLE : UInt32 := 0x0010
def MBADRC_DISABLE : UInt32 := 0x0000

def allEnabled : UInt32 := ADRC_ENABLE ||| EQ_ENABLE ||| RX_IIR_ENABLE ||| MBADRC_ENABLE

section

variable (B : Build)

/-- The index of a device in the tables of filters. -/
def filterId (sndDevice : Int32) : Nat :=
  let id := 0
  let id := if sndDevice.toUInt32 = B.snd.SPEAKER then 0 else id
  let id := if sndDevice.toUInt32 = B.snd.HANDSET then 1 else id
  if sndDevice.toUInt32 = B.snd.HEADSET then 2 else id

/-- What `msm72xx_enable_postproc` makes of the mask. -/
def filterMask (state : Bool) (id : Nat) (mask : UInt32) : UInt32 :=
  let mask :=
    if B.post.mbadrcFilterExists id && state then
      let mask := mask &&& ADRC_DISABLE
      if !B.post.mbadrcFlag id && mask &&& MBADRC_ENABLE ≠ 0 then mask &&& MBADRC_DISABLE else mask
    else if B.post.adrcFilterExists id && state then
      let mask := mask &&& MBADRC_DISABLE
      if !B.post.adrcFlag id && mask &&& ADRC_ENABLE ≠ 0 then mask &&& ADRC_DISABLE else mask
    else mask &&& (MBADRC_DISABLE ||| ADRC_DISABLE)
  let mask := if !B.post.eqFlag id && mask &&& EQ_ENABLE ≠ 0 then mask &&& EQ_DISABLE else mask
  if !B.post.rxIirFlag id && mask &&& RX_IIR_ENABLE ≠ 0 then mask &&& RX_IIR_DISABLE else mask

/-- `msm72xx_enable_postproc`; the calls that set the filters only print a message when they fail. -/
def enablePostproc (a : RouteAnswers) (state : Bool) (h : AudioHardware) : Status × AudioHardware :=
  if !B.post.inited then (-EINVAL, h)
  else if h.sndDevice < 0 then (-EINVAL, h)
  else if a.openCtl state < 0 then (-EPERM, h)
  else
    let h := { h with
      postProcFeatureMask := filterMask B state (filterId B h.sndDevice) h.postProcFeatureMask }
    if a.enableAudpp state < 0 then (-EPERM, h) else (0, h)

/-! ## Routes -/

/-- `do_route_audio_rpc`. -/
def doRouteAudioRpc (a : RouteAnswers) (device : UInt32) (micMute : Bool) (fd : Int) : Status :=
  if device = 0xffffffff then NO_ERROR
  else if fd < 0 then -EPERM
  -- Explicitly mute the mic to release DSP resources
  else if device ≠ B.snd.CURRENT ∧ micMute = false ∧ a.muteMic < 0 then - EIO
  else if a.setDevice < 0 then - EIO
  else NO_ERROR

/-- `doAudioRouteOrMute`. -/
def doAudioRouteOrMute (a : RouteAnswers) (device : UInt32) (h : AudioHardware) :
    Status × AudioHardware :=
  let mute := !B.sys.isInCall h.mode
  -- enable routing to earpiece (unmute) if mic is selected as input
  let mute := if mute && device = B.snd.HANDSET then !h.builtinMicSelected else mute
  let h := { h with fmPrev := h.fmRadioEnabled }
  let _earMute := if B.haveFmRadio && h.fmRadioEnabled && device = B.snd.HEADSET then false else mute
  (doRouteAudioRpc B a device h.micMute h.m7xsnddriverfd, h)

/-- The sound device for a recording from `inputDevice`, and the filters; `none`: that of the output. -/
def inputRoute (inputDevice outputDevices : UInt32) : Option (UInt32 × UInt32) :=
  if inputDevice = 0 then none
  else if inputDevice &&& B.sys.DEVICE_IN_BLUETOOTH_SCO_HEADSET ≠ 0 then some (B.snd.BT, 0)
  else if inputDevice &&& B.sys.DEVICE_IN_WIRED_HEADSET ≠ 0 then some (B.snd.HEADSET, 0)
  else if outputDevices &&& B.sys.DEVICE_OUT_SPEAKER ≠ 0 then some (B.snd.SPEAKER, allEnabled)
  else some (B.snd.HANDSET, 0)

/-- The sound device for the devices of the output stream, and the filters; `none`: none is chosen. -/
def outputRoute (h : AudioHardware) (outputDevices : UInt32) : Option (UInt32 × UInt32) :=
  let has (d : UInt32) : Bool := outputDevices &&& d ≠ 0
  if h.ttyMode ≠ TTY_OFF ∧ h.mode = B.sys.MODE_IN_CALL ∧ has B.sys.DEVICE_OUT_WIRED_HEADSET then
    if h.ttyMode = TTY_FULL then some (B.snd.TTY_HEADSET, 0)
    else if h.ttyMode = TTY_VCO then some (B.snd.TTY_VCO, 0)
    else if h.ttyMode = TTY_HCO then some (B.snd.TTY_HCO, 0)
    else none
  else if has (B.sys.DEVICE_OUT_BLUETOOTH_SCO ||| B.sys.DEVICE_OUT_BLUETOOTH_SCO_HEADSET) then
    some (B.snd.BT, 0)
  else if has B.sys.DEVICE_OUT_BLUETOOTH_SCO_CARKIT then some (B.snd.CARKIT, 0)
  else if has B.sys.DEVICE_OUT_WIRED_HEADSET && has B.sys.DEVICE_OUT_SPEAKER then
    some (B.snd.HEADSET_AND_SPEAKER, allEnabled)
  else if has B.sys.DEVICE_OUT_WIRED_HEADPHONE then
    if has B.sys.DEVICE_OUT_SPEAKER then some (B.snd.HEADSET_AND_SPEAKER, allEnabled)
    else some (B.snd.NO_MIC_HEADSET, 0)
  else if has B.sys.DEVICE_OUT_WIRED_HEADSET then some (B.snd.HEADSET, allEnabled)
  else if has B.sys.DEVICE_OUT_SPEAKER then some (B.snd.SPEAKER, allEnabled)
  else some (B.snd.HANDSET, allEnabled)

/-- `new_snd_device` and the mask of `doRouting`. -/
def chooseRoute (h : AudioHardware) (inputDevice : Option UInt32) (outputDevices : UInt32) :
    Int32 × UInt32 :=
  let (device, mask) := (inputDevice.bind (inputRoute B · outputDevices)).getD (0xffffffff, 0)
  -- if inputDevice == 0, restore output routing
  let (device, mask) :=
    if device = 0xffffffff then
      -- the mask may be set although the driver has no number for the device
      (outputRoute B h outputDevices).getD (device, mask)
    else (device, mask)
  let device :=
    if h.dualMicEnabled && h.mode = B.sys.MODE_IN_CALL then
      if device = B.snd.HANDSET then B.snd.IN_S_SADC_OUT_HANDSET
      else if device = B.snd.SPEAKER then B.snd.IN_S_SADC_OUT_SPEAKER_PHONE
      else device
    else device
  (device.toInt32, mask)

/-- The end of `doRouting`, with the new device. -/
def setRoute (a : RouteAnswers) (newSndDevice : Int32) (mask : UInt32) (h : AudioHardware) :
    Status × AudioHardware :=
  if (newSndDevice ≠ -1 ∧ newSndDevice ≠ h.curSndDevice) ∨ h.fmRadioEnabled ≠ h.fmPrev then
    let (ret, h) := doAudioRouteOrMute B a newSndDevice.toUInt32 h
    -- disable post proc first for previous session
    let h := if h.playbackInProgress then (enablePostproc B a false h).2 else h
    -- enable post proc for new device
    let h := { h with sndDevice := newSndDevice, postProcFeatureMask := mask }
    let h := if h.playbackInProgress then (enablePostproc B a true h).2 else h
    (ret, { h with curSndDevice := newSndDevice })
  else (NO_ERROR, h)

/-- `mBuiltinMicSelected`, when `doRouting` is given a recording. -/
def AudioHardware.selectMic (inputDevice : Option UInt32) (h : AudioHardware) : AudioHardware :=
  match inputDevice with
  | none => h
  | some d => { h with builtinMicSelected := d = B.sys.DEVICE_IN_BUILTIN_MIC }

/-- `doRouting`; `inputDevice` is that of the recording, if there is one. -/
def doRouting (a : RouteAnswers) (inputDevice : Option UInt32) (h : AudioHardware) :
    Option (Status × AudioHardware) :=
  match h.output with
  | none => none
  | some out =>
    let h := h.selectMic B inputDevice
    if inputDevice = some B.sys.DEVICE_IN_VOICE_CALL then
      -- Recording will happen through currently active tx device
      some (NO_ERROR, h)
    else
      let (device, mask) := chooseRoute B h inputDevice out.devices
      some (setRoute B a device mask h)

end

/-! ## What routing leaves alone -/

/-- The settings and the streams. -/
structure Settings where
  ttyMode : Int
  dualMicEnabled : Bool
  bluetoothNrec : Bool
  bluetoothId : UInt32
  fmRadioEnabled : Bool
  output : Option StreamOut
  sndEndpoints : List (String × UInt32)
  playbackInProgress : Bool

def AudioHardware.settings (h : AudioHardware) : Settings :=
  ⟨h.ttyMode, h.dualMicEnabled, h.bluetoothNrec, h.bluetoothId, h.fmRadioEnabled, h.output,
    h.sndEndpoints, h.playbackInProgress⟩

variable {B : Build} {a : RouteAnswers} {h h' : AudioHardware} {inputDevice : Option UInt32} {r : Status}

theorem enablePostproc_settings (state : Bool) :
    (enablePostproc B a state h).2.settings = h.settings := by
  unfold enablePostproc
  split
  · rfl
  · split
    · rfl
    · split
      · rfl
      · dsimp only
        split
        · rfl
        · rfl

/-- The filters are set up only while something is played. -/
theorem postproc_settings (state : Bool) :
    (if h.playbackInProgress then (enablePostproc B a state h).2 else h).settings = h.settings := by
  split
  · exact enablePostproc_settings state
  · rfl

theorem setRoute_settings (device : Int32) (mask : UInt32) :
    (setRoute B a device mask h).2.settings = h.settings := by
  unfold setRoute
  split
  · exact (postproc_settings (h := AudioHardware.mk ..) true).trans (postproc_settings false)
  · rfl

theorem AudioHardware.selectMic_settings : (h.selectMic B inputDevice).settings = h.settings := by
  cases inputDevice with
  | none => rfl
  | some d => rfl

/-- `doRouting` chooses a device and nothing else. -/
theorem doRouting_settings (hr : doRouting B a inputDevice h = some (r, h')) :
    h'.settings = h.settings := by
  unfold doRouting at hr
  cases hout : h.output with
  | none =>
    rw [hout] at hr
    cases hr
  | some out =>
    rw [hout] at hr
    dsimp only at hr
    split at hr
    · cases hr
      exact AudioHardware.selectMic_settings
    · have heq := congrArg (·.2.settings) (Option.some.inj hr)
      dsimp only at heq
      rw [← heq, setRoute_settings, AudioHardware.selectMic_settings]

/-- There must be an output stream. -/
theorem doRouting_isSome (a : RouteAnswers) (inputDevice : Option UInt32) :
    (doRouting B a inputDevice h).isSome = h.output.isSome := by
  unfold doRouting
  cases h.output with
  | none => rfl
  | some out =>
    dsimp only
    split
    · rfl
    · rfl

end Twm.Audio
