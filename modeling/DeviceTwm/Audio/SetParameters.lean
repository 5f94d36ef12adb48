import DeviceTwm.Audio.Routing

/-!
# `setParameters` (`libaudio/AudioHardware.cpp`)

The text of keys and values is taken apart by the framework. Five settings are read from it, and every
change of the route passes through the same function.

* `AudioParameter`, `Framework`: what the framework makes of the text.
* `AudioHardware.setParameters`, and `StreamOut.setParameters`, which hands the text on.
* `setParameters_settings`: all settings afterwards. A text without `tty_mode` sets `mTtyMode` to
  `TTY_OFF`.
-/

namespace Twm.Audio

/-- `AudioParameter` of the framework, from one text. -/
structure AudioParameter where
  keys : List String
  get : String → Option String
  getInt : String → Option Int32
  get_isSome : ∀ k, (get k).isSome ↔ k ∈ keys
  getInt_mem : ∀ k, (getInt k).isSome → k ∈ keys

structure Framework where
  parse : String → AudioParameter
  keyRouting : String
  keyFmOn : String
  keyFmOff : String

def BT_NREC_KEY : String := "bt_headset_nrec"
def BT_NAME_KEY : String := "bt_headset_name"
def BT_NREC_VALUE_ON : String := "on"
def DUALMIC_KEY : String := "dualmic_enabled"
def TTY_MODE_KEY : String := "tty_mode"

/-- The calls of `doRouting`. -/
inductive Site where
  | btName | fmOn | fmOff | dualMic | ttyMode | forwarded

/-- What the drivers return in one call of `setParameters`. -/
structure ParamAnswers where
  route : Site → RouteAnswers
  openFm : Int
  setFmVolume : Int

section

variable (B : Build) (F : Framework) (a : ParamAnswers)

/-- `!strcasecmp(x, y)`. -/
def strcaseeq (x y : String) : Bool := x.toLower = y.toLower

/-- `doRouting(NULL)` with its result dropped. -/
def route (site : Site) (h : AudioHardware) : Option AudioHardware :=
  (doRouting B (a.route site) none h).map (·.2)

/-- `setFmOnOff`. -/
def setFmOnOff (onoff : Bool) (h : AudioHardware) : Option AudioHardware :=
  if onoff then
    let h := { h with fmfd := if h.fmfd < 0 then a.openFm else h.fmfd, fmRadioEnabled := true }
    if a.setFmVolume < 0 then some h else route B a .fmOn h
  else route B a .fmOff { h with fmfd := -1, fmRadioEnabled := false }

/-- The value of `mBluetoothId` for a name; 0 if the driver has no such endpoint. -/
def endpointId (endpoints : List (String × UInt32)) (value : String) : UInt32 :=
  match endpoints.find? (fun e => strcaseeq value e.1) with
  | some e => e.2
  | none => 0

/-! ## The settings, in the order of the source -/

def setBtNrec (p : AudioParameter) (h : AudioHardware) : AudioHardware :=
  match p.get BT_NREC_KEY with
  | some value => { h with bluetoothNrec := value = BT_NREC_VALUE_ON }
  | none => h

def setBtName (p : AudioParameter) (h : AudioHardware) : Option AudioHardware :=
  match p.get BT_NAME_KEY with
  | some value =>
    let h := { h with bluetoothId := endpointId h.sndEndpoints value }
    if h.bluetoothId = 0 then route B a .btName h else some h
  | none => some h

def setFmKey (p : AudioParameter) (key : String) (onoff : Bool) (h : AudioHardware) :
    Option AudioHardware :=
  if (p.getInt key).isSome then setFmOnOff B a onoff h else some h

/-- Under `HAVE_FM_RADIO`. -/
def setFm (p : AudioParameter) (h : AudioHardware) : Option AudioHardware :=
  if B.haveFmRadio then (setFmKey B a p F.keyFmOn true h).bind (setFmKey B a p F.keyFmOff false)
  else some h

def setDualMic (p : AudioParameter) (h : AudioHardware) : Option AudioHardware :=
  match p.get DUALMIC_KEY with
  | some value => route B a .dualMic { h with dualMicEnabled := value = "true" }
  | none => some h

def ttyModeOf (value : String) : Int :=
  if value = "full" then TTY_FULL
  else if value = "hco" then TTY_HCO
  else if value = "vco" then TTY_VCO
  else TTY_OFF

def setTtyMode (p : AudioParameter) (h : AudioHardware) : AudioHardware :=
  match p.get TTY_MODE_KEY with
  | some value => { h with ttyMode := ttyModeOf value }
  | none => { h with ttyMode := TTY_OFF }

/-- `AudioHardware::setParameters`; `none`: `doRouting` reads through the null pointer. -/
def AudioHardware.setParameters (keyValuePairs : String) (h : AudioHardware) :
    Option (Status × AudioHardware) :=
  let param := F.parse keyValuePairs
  if keyValuePairs.length = 0 then some (BAD_VALUE, h)
  else do
    let h ← setBtName B a param (setBtNrec param h)
    let h ← setFm B F a param h
    let h ← setDualMic B a param h
    let h ← route B a .ttyMode (setTtyMode param h)
    some (NO_ERROR, h)

/-- `AudioStreamOutMSM72xx::setParameters` of the output stream `out`, for a text with a route. -/
def StreamOut.setDevice (keyValuePairs : String) (device : Int32) (out : StreamOut) (h : AudioHardware) :
    Option (Status × AudioHardware) := do
  let h := { h with output := some { out with devices := device.toUInt32 } }
  let (_, h) ← h.setParameters B F a keyValuePairs
  doRouting B (a.route .forwarded) none h

/-- `AudioStreamOutMSM72xx::setParameters`. -/
def StreamOut.setParameters (keyValuePairs : String) (out : StreamOut) (h : AudioHardware) :
    Option (Status × AudioHardware) :=
  let param := F.parse keyValuePairs
  match param.getInt F.keyRouting with
  | some device =>
    (out.setDevice B F a keyValuePairs device h).map fun (status, h) =>
      (if param.keys.filter (· ≠ F.keyRouting) = [] then status else BAD_VALUE, h)
  | none => some (if param.keys = [] then NO_ERROR else BAD_VALUE, h)

end

/-! ## The settings afterwards -/

/-- Each setting after `setParameters`, from the text. -/
def Settings.update (B : Build) (F : Framework) (p : AudioParameter) (s : Settings) : Settings :=
  { s with
    bluetoothNrec := ((p.get BT_NREC_KEY).map (fun v => decide (v = BT_NREC_VALUE_ON))).getD s.bluetoothNrec
    bluetoothId := ((p.get BT_NAME_KEY).map (endpointId s.sndEndpoints)).getD s.bluetoothId
    fmRadioEnabled :=
      if B.haveFmRadio then
        if (p.getInt F.keyFmOff).isSome then false
        else if (p.getInt F.keyFmOn).isSome then true
        else s.fmRadioEnabled
      else s.fmRadioEnabled
    dualMicEnabled := ((p.get DUALMIC_KEY).map (fun v => decide (v = "true"))).getD s.dualMicEnabled
    ttyMode := ((p.get TTY_MODE_KEY).map ttyModeOf).getD TTY_OFF }

variable {B : Build} {F : Framework} {a : ParamAnswers} {p : AudioParameter} {h h' : AudioHardware}
  {keyValuePairs : String} {out : StreamOut} {r : Status}

theorem route_settings {site : Site} (hr : route B a site h = some h') : h'.settings = h.settings := by
  obtain ⟨⟨status, h₁⟩, h₂, rfl⟩ := Option.map_eq_some_iff.mp hr
  exact doRouting_settings h₂

theorem route_isSome (site : Site) : (route B a site h).isSome = h.output.isSome := by
  unfold route
  rw [Option.isSome_map, doRouting_isSome]

theorem setFmOnOff_settings {onoff : Bool} (hr : setFmOnOff B a onoff h = some h') :
    h'.settings = { h.settings with fmRadioEnabled := onoff } := by
  unfold setFmOnOff at hr
  cases onoff with
  | true =>
    dsimp only at hr
    rw [if_pos rfl] at hr
    split at hr
    · cases hr
      rfl
    · exact route_settings hr
  | false => exact route_settings hr

theorem setBtNrec_settings : (setBtNrec p h).settings =
    { h.settings with
      bluetoothNrec :=
        ((p.get BT_NREC_KEY).map (fun v => decide (v = BT_NREC_VALUE_ON))).getD
          h.settings.bluetoothNrec } := by
  unfold setBtNrec
  cases p.get BT_NREC_KEY with
  | none => rfl
  | some value => rfl

theorem setBtName_settings (hr : setBtName B a p h = some h') : h'.settings =
    { h.settings with
      bluetoothId :=
        ((p.get BT_NAME_KEY).map (endpointId h.settings.sndEndpoints)).getD h.settings.bluetoothId } := by
  unfold setBtName at hr
  cases hg : p.get BT_NAME_KEY with
  | none =>
    rw [hg] at hr
    cases hr
    rfl
  | some value =>
    rw [hg] at hr
    dsimp only at hr
    split at hr
    · exact route_settings hr
    · cases hr
      rfl

theorem setFmKey_settings {key : String} {onoff : Bool} (hr : setFmKey B a p key onoff h = some h') :
    h'.settings =
      { h.settings with
        fmRadioEnabled := if (p.getInt key).isSome then onoff else h.settings.fmRadioEnabled } := by
  unfold setFmKey at hr
  split at hr
  · rw [setFmOnOff_settings hr, if_pos ‹_›]
  · cases hr
    rw [if_neg ‹_›]

theorem setFm_settings (hr : setFm B F a p h = some h') : h'.settings =
    { h.settings with
      fmRadioEnabled :=
        if B.haveFmRadio then
          if (p.getInt F.keyFmOff).isSome then false
          else if (p.getInt F.keyFmOn).isSome then true
          else h.settings.fmRadioEnabled
        else h.settings.fmRadioEnabled } := by
  unfold setFm at hr
  by_cases hfm : B.haveFmRadio
  · rw [if_pos hfm] at hr
    obtain ⟨h₁, hon, hoff⟩ := Option.bind_eq_some_iff.mp hr
    rw [setFmKey_settings hoff, setFmKey_settings hon, if_pos hfm]
  · rw [if_neg hfm] at hr
    cases hr
    rw [if_neg hfm]

theorem setDualMic_settings (hr : setDualMic B a p h = some h') : h'.settings =
    { h.settings with
      dualMicEnabled :=
        ((p.get DUALMIC_KEY).map (fun v => decide (v = "true"))).getD h.settings.dualMicEnabled } := by
  unfold setDualMic at hr
  cases hg : p.get DUALMIC_KEY with
  | none =>
    rw [hg] at hr
    cases hr
    rfl
  | some value =>
    rw [hg] at hr
    exact route_settings hr

theorem setTtyMode_settings : (setTtyMode p h).settings =
    { h.settings with ttyMode := ((p.get TTY_MODE_KEY).map ttyModeOf).getD TTY_OFF } := by
  unfold setTtyMode
  cases p.get TTY_MODE_KEY with
  | none => rfl
  | some value => rfl

/-- Every setting, after any text that is not empty. -/
theorem setParameters_settings (hne : keyValuePairs.length ≠ 0)
    (hr : h.setParameters B F a keyValuePairs = some (r, h')) :
    h'.settings = h.settings.update B F (F.parse keyValuePairs) := by
  unfold AudioHardware.setParameters at hr
  rw [if_neg hne] at hr
  obtain ⟨h₁, hbt, hr⟩ := Option.bind_eq_some_iff.mp hr
  obtain ⟨h₂, hfm, hr⟩ := Option.bind_eq_some_iff.mp hr
  obtain ⟨h₃, hdual, hr⟩ := Option.bind_eq_some_iff.mp hr
  obtain ⟨h₄, htty, hr⟩ := Option.bind_eq_some_iff.mp hr
  cases hr
  rw [route_settings htty, setTtyMode_settings, setDualMic_settings hdual, setFm_settings hfm,
    setBtName_settings hbt, setBtNrec_settings]
  rfl

/-! ## Settings that the text does not name -/

/-- Between `s` and `s'` only settings have changed whose key is in the text. -/
structure Settings.Frame (F : Framework) (p : AudioParameter) (s s' : Settings) : Prop where
  ttyMode : TTY_MODE_KEY ∉ p.keys → s'.ttyMode = s.ttyMode
  dualMicEnabled : DUALMIC_KEY ∉ p.keys → s'.dualMicEnabled = s.dualMicEnabled
  bluetoothNrec : BT_NREC_KEY ∉ p.keys → s'.bluetoothNrec = s.bluetoothNrec
  bluetoothId : BT_NAME_KEY ∉ p.keys → s'.bluetoothId = s.bluetoothId
  fmRadioEnabled : F.keyFmOn ∉ p.keys → F.keyFmOff ∉ p.keys → s'.fmRadioEnabled = s.fmRadioEnabled

theorem AudioParameter.get_eq_none {k : String} (hk : k ∉ p.keys) : p.get k = none :=
  Option.not_isSome_iff_eq_none.mp (fun hs => hk ((p.get_isSome k).mp hs))

theorem AudioParameter.getInt_eq_none {k : String} (hk : k ∉ p.keys) : p.getInt k = none :=
  Option.not_isSome_iff_eq_none.mp (fun hs => hk (p.getInt_mem k hs))

theorem Settings.Frame.of_eq {s s' : Settings} (heq : s' = s) : Settings.Frame F p s s' := by
  subst heq
  exact ⟨fun _ => rfl, fun _ => rfl, fun _ => rfl, fun _ => rfl, fun _ _ => rfl⟩

/-- The one setting that a text without its key changes is the mode of the TTY. -/
theorem Settings.frame_update {s : Settings} :
    Settings.Frame F p s (s.update B F p) ↔ (TTY_MODE_KEY ∈ p.keys ∨ s.ttyMode = TTY_OFF) := by
  constructor
  · intro hf
    by_cases hk : TTY_MODE_KEY ∈ p.keys
    · exact .inl hk
    · have := hf.ttyMode hk
      rw [Settings.update, AudioParameter.get_eq_none hk] at this
      exact .inr this.symm
  · intro hc
    constructor
    case ttyMode =>
      intro hk
      rw [Settings.update, AudioParameter.get_eq_none hk]
      exact (hc.resolve_left hk).symm
    case dualMicEnabled =>
      intro hk
      rw [Settings.update, AudioParameter.get_eq_none hk]
      rfl
    case bluetoothNrec =>
      intro hk
      rw [Settings.update, AudioParameter.get_eq_none hk]
      rfl
    case bluetoothId =>
      intro hk
      rw [Settings.update, AudioParameter.get_eq_none hk]
      rfl
    case fmRadioEnabled =>
      intro hon hoff
      simp [Settings.update, AudioParameter.getInt_eq_none hon, AudioParameter.getInt_eq_none hoff]

theorem Settings.frame_congr {s₁ s₂ s' : Settings} (htty : s₁.ttyMode = s₂.ttyMode)
    (hdual : s₁.dualMicEnabled = s₂.dualMicEnabled) (hnrec : s₁.bluetoothNrec = s₂.bluetoothNrec)
    (hid : s₁.bluetoothId = s₂.bluetoothId) (hfm : s₁.fmRadioEnabled = s₂.fmRadioEnabled) :
    Settings.Frame F p s₁ s' ↔ Settings.Frame F p s₂ s' := by
  constructor
  · intro ⟨h₁, h₂, h₃, h₄, h₅⟩
    exact ⟨htty ▸ h₁, hdual ▸ h₂, hnrec ▸ h₃, hid ▸ h₄, hfm ▸ h₅⟩
  · intro ⟨h₁, h₂, h₃, h₄, h₅⟩
    exact ⟨htty ▸ h₁, hdual ▸ h₂, hnrec ▸ h₃, hid ▸ h₄, hfm ▸ h₅⟩

/-! ## Calls that return -/

/-- `setParameters` routes at its end, and that needs an output stream. -/
theorem setParameters_output (hne : keyValuePairs.length ≠ 0)
    (hr : h.setParameters B F a keyValuePairs = some (r, h')) : h.output.isSome := by
  have hout : h'.output = h.output := congrArg Settings.output (setParameters_settings hne hr)
  unfold AudioHardware.setParameters at hr
  rw [if_neg hne] at hr
  obtain ⟨h₁, -, hr⟩ := Option.bind_eq_some_iff.mp hr
  obtain ⟨h₂, -, hr⟩ := Option.bind_eq_some_iff.mp hr
  obtain ⟨h₃, -, hr⟩ := Option.bind_eq_some_iff.mp hr
  obtain ⟨h₄, htty, hr⟩ := Option.bind_eq_some_iff.mp hr
  cases hr
  have hsome := route_isSome (B := B) (a := a) (h := setTtyMode (F.parse keyValuePairs) h₃) .ttyMode
  have hend : h'.output = (setTtyMode (F.parse keyValuePairs) h₃).output :=
    congrArg Settings.output (route_settings htty)
  rw [htty, ← hend, hout] at hsome
  exact hsome.symm

theorem output_isSome {s : Settings} (he : h.settings = s) (ho : s.output.isSome) : h.output.isSome :=
  (congrArg (·.output.isSome) he).trans ho

theorem setFmOnOff_isSome {onoff : Bool} (ho : h.output.isSome) : (setFmOnOff B a onoff h).isSome := by
  unfold setFmOnOff
  split
  · dsimp only
    split
    · rfl
    · exact (route_isSome _).trans ho
  · exact (route_isSome _).trans ho

theorem setBtName_isSome (ho : h.output.isSome) : (setBtName B a p h).isSome := by
  unfold setBtName
  split
  · dsimp only
    split
    · exact (route_isSome _).trans ho
    · rfl
  · rfl

theorem setFmKey_isSome (key : String) (onoff : Bool) (ho : h.output.isSome) :
    (setFmKey B a p key onoff h).isSome := by
  unfold setFmKey
  split
  · exact setFmOnOff_isSome ho
  · rfl

theorem setFm_isSome (ho : h.output.isSome) : (setFm B F a p h).isSome := by
  unfold setFm
  split
  · obtain ⟨h₁, hon⟩ := Option.isSome_iff_exists.mp
      (setFmKey_isSome (B := B) (a := a) (p := p) F.keyFmOn true ho)
    have hout : h₁.output = h.output := congrArg Settings.output (setFmKey_settings hon)
    rw [hon]
    exact setFmKey_isSome _ _ (hout ▸ ho)
  · rfl

theorem setDualMic_isSome (ho : h.output.isSome) : (setDualMic B a p h).isSome := by
  unfold setDualMic
  split
  · exact (route_isSome _).trans ho
  · rfl

/-- With an output stream `setParameters` returns. -/
theorem setParameters_returns (hne : keyValuePairs.length ≠ 0) (ho : h.output.isSome) :
    ∃ h', h.setParameters B F a keyValuePairs = some (NO_ERROR, h') := by
  have ho₀ : (setBtNrec (F.parse keyValuePairs) h).output.isSome :=
    output_isSome setBtNrec_settings ho
  obtain ⟨h₁, hbt⟩ := Option.isSome_iff_exists.mp
    (setBtName_isSome (B := B) (a := a) (p := F.parse keyValuePairs) ho₀)
  have ho₁ : h₁.output.isSome := output_isSome (setBtName_settings hbt) ho₀
  obtain ⟨h₂, hfm⟩ := Option.isSome_iff_exists.mp
    (setFm_isSome (B := B) (F := F) (a := a) (p := F.parse keyValuePairs) ho₁)
  have ho₂ : h₂.output.isSome := output_isSome (setFm_settings hfm) ho₁
  obtain ⟨h₃, hdual⟩ := Option.isSome_iff_exists.mp
    (setDualMic_isSome (B := B) (a := a) (p := F.parse keyValuePairs) ho₂)
  have ho₃ : h₃.output.isSome := output_isSome (setDualMic_settings hdual) ho₂
  have ho₄ : (setTtyMode (F.parse keyValuePairs) h₃).output.isSome :=
    output_isSome setTtyMode_settings ho₃
  obtain ⟨h₄, htty⟩ := Option.isSome_iff_exists.mp
    ((route_isSome (B := B) (a := a) .ttyMode).trans ho₄)
  refine ⟨h₄, ?_⟩
  unfold AudioHardware.setParameters
  rw [if_neg hne]
  simp only [hbt, hfm, hdual, htty, Option.bind_eq_bind, Option.bind_some]

/-- The exact condition for one call on the hardware. -/
theorem setParameters_frame (h : AudioHardware) (keyValuePairs : String) :
    (∀ r h', h.setParameters B F a keyValuePairs = some (r, h') →
        Settings.Frame F (F.parse keyValuePairs) h.settings h'.settings) ↔
      (keyValuePairs.length = 0 ∨ h.output = none ∨ TTY_MODE_KEY ∈ (F.parse keyValuePairs).keys ∨
        h.ttyMode = TTY_OFF) := by
  by_cases hne : keyValuePairs.length = 0
  · refine iff_of_true (fun r h' hr => ?_) (.inl hne)
    unfold AudioHardware.setParameters at hr
    rw [if_pos hne] at hr
    cases hr
    exact Settings.Frame.of_eq rfl
  · rw [or_iff_right hne]
    cases ho : h.output with
    | none =>
      refine iff_of_true (fun r h' hr => ?_) (.inl rfl)
      have := setParameters_output hne hr
      rw [ho] at this
      cases this
    | some out =>
      rw [or_iff_right (Option.some_ne_none out)]
      constructor
      · intro hf
        obtain ⟨h', hr⟩ := setParameters_returns (B := B) (F := F) (a := a) hne
          (ho ▸ rfl : h.output.isSome)
        exact Settings.frame_update.mp (setParameters_settings hne hr ▸ hf _ _ hr)
      · intro hc r h' hr
        rw [setParameters_settings hne hr]
        exact Settings.frame_update.mpr hc

theorem setParameters_keeps_output (hr : h.setParameters B F a keyValuePairs = some (r, h')) :
    h'.output = h.output := by
  by_cases hne : keyValuePairs.length = 0
  · unfold AudioHardware.setParameters at hr
    rw [if_pos hne] at hr
    cases hr
    rfl
  · exact congrArg Settings.output (setParameters_settings hne hr)

/-- The stream changes its own devices; the settings are those after `setParameters`. -/
theorem setDevice_settings {device : Int32} {s : Settings} :
    (∃ r h', out.setDevice B F a keyValuePairs device h = some (r, h') ∧ h'.settings = s) ↔
      ∃ r h', AudioHardware.setParameters B F a keyValuePairs
        { h with output := some { out with devices := device.toUInt32 } } = some (r, h') ∧
          h'.settings = s := by
  constructor
  · rintro ⟨r, h', hr, rfl⟩
    obtain ⟨⟨r₁, h₁⟩, hset, hroute⟩ := Option.bind_eq_some_iff.mp hr
    exact ⟨r₁, h₁, hset, (doRouting_settings hroute).symm⟩
  · rintro ⟨r₁, h₁, hset, rfl⟩
    have ho : h₁.output.isSome := setParameters_keeps_output hset ▸ rfl
    obtain ⟨⟨r, h'⟩, hroute⟩ := Option.isSome_iff_exists.mp
      ((doRouting_isSome (B := B) (a.route .forwarded) none).trans ho)
    exact ⟨r, h', Option.bind_eq_some_iff.mpr ⟨_, hset, hroute⟩, doRouting_settings hroute⟩

/-- The exact condition for a call on the output stream, which hands on a text with a route. -/
theorem streamSetParameters_frame :
    (∀ r h', out.setParameters B F a keyValuePairs h = some (r, h') →
        Settings.Frame F (F.parse keyValuePairs) h.settings h'.settings) ↔
      ((F.parse keyValuePairs).getInt F.keyRouting = none ∨ keyValuePairs.length = 0 ∨
        TTY_MODE_KEY ∈ (F.parse keyValuePairs).keys ∨ h.ttyMode = TTY_OFF) := by
  unfold StreamOut.setParameters
  dsimp only
  cases hg : (F.parse keyValuePairs).getInt F.keyRouting with
  | none =>
    refine iff_of_true (fun r h' hr => ?_) (.inl rfl)
    cases hr
    exact Settings.Frame.of_eq rfl
  | some device =>
    let h₀ : AudioHardware := { h with output := some { out with devices := device.toUInt32 } }
    have hframe := setParameters_frame (B := B) (F := F) (a := a) h₀ keyValuePairs
    rw [or_iff_right (a := h₀.output = none) (Option.some_ne_none _)] at hframe
    rw [or_iff_right (Option.some_ne_none device)]
    refine Iff.trans ?_ hframe
    have hcongr (s : Settings) : Settings.Frame F (F.parse keyValuePairs) h.settings s ↔
        Settings.Frame F (F.parse keyValuePairs) h₀.settings s :=
      Settings.frame_congr rfl rfl rfl rfl rfl
    constructor
    · intro hf r₁ h₁ hset
      obtain ⟨r, h', hr, hs⟩ := setDevice_settings.mpr ⟨r₁, h₁, hset, rfl⟩
      exact (hcongr _).mp (hs ▸ hf _ h' (Option.map_eq_some_iff.mpr ⟨_, hr, rfl⟩))
    · intro hf r h' hr
      obtain ⟨⟨r₂, h₂⟩, hdev, heq⟩ := Option.map_eq_some_iff.mp hr
      cases heq
      obtain ⟨r₁, h₁, hset, hs⟩ := setDevice_settings.mp ⟨r₂, h₂, hdev, rfl⟩
      exact (hcongr _).mpr (hs ▸ hf r₁ h₁ hset)

/-- A call keeps what its text does not name exactly when the text is empty, there is no output stream, the
text names the mode of the TTY, or that mode is off; a call on the output stream also when its text
has no route. -/
theorem setParameters_keeps_unnamed_iff (B : Build) (F : Framework) (a : ParamAnswers)
    (keyValuePairs : String) (h : AudioHardware) :
    ((∀ r h', h.setParameters B F a keyValuePairs = some (r, h') →
        Settings.Frame F (F.parse keyValuePairs) h.settings h'.settings) ↔
      (keyValuePairs.length = 0 ∨ h.output = none ∨ TTY_MODE_KEY ∈ (F.parse keyValuePairs).keys ∨
        h.ttyMode = TTY_OFF)) ∧
    ∀ out, (∀ r h', StreamOut.setParameters B F a keyValuePairs out h = some (r, h') →
        Settings.Frame F (F.parse keyValuePairs) h.settings h'.settings) ↔
      ((F.parse keyValuePairs).getInt F.keyRouting = none ∨ keyValuePairs.length = 0 ∨
        TTY_MODE_KEY ∈ (F.parse keyValuePairs).keys ∨ h.ttyMode = TTY_OFF) :=
  ⟨setParameters_frame h keyValuePairs, fun _ => streamSetParameters_frame⟩

/-! ## A route while the TTY is in use -/

/-- The text `routing=4`. -/
def wiredHeadset : AudioParameter where
  keys := ["routing"]
  get k := if k = "routing" then some "4" else none
  getInt k := if k = "routing" then some 4 else none
  get_isSome k := by
    by_cases hk : k = "routing" <;> simp [hk]
  getInt_mem k := by
    by_cases hk : k = "routing" <;> simp [hk]

/-- The framework, as far as it is asked for that text. -/
def headsetPlugged : Framework := ⟨fun _ => wiredHeadset, "routing", "fm_on", "fm_off"⟩

def driverWorks : ParamAnswers := ⟨fun _ => ⟨0, 0, fun _ => 0, fun _ => 0⟩, 0, 0⟩

/-- In a call, with a TTY in both directions. -/
def ttyInCall : AudioHardware :=
  { AudioHardware.init TTY_FULL [] 3 with mode := 2, output := some ⟨1, -1, 0, 0, true, 0x2⟩ }

/-- The route to the headset turns the TTY off. -/
theorem routing_turns_tty_off :
    ¬ ∀ (B : Build) (F : Framework) (a : ParamAnswers) (keyValuePairs : String) (h : AudioHardware) r h',
      h.setParameters B F a keyValuePairs = some (r, h') →
        Settings.Frame F (F.parse keyValuePairs) h.settings h'.settings := by
  intro hall
  have hne : "routing=4".length ≠ 0 := by decide
  obtain ⟨h', hr⟩ := setParameters_returns (B := phone) (F := headsetPlugged) (a := driverWorks)
    (h := ttyInCall) hne rfl
  have hf := (hall _ _ _ _ _ _ _ hr).ttyMode (by decide)
  rw [setParameters_settings hne hr] at hf
  exact absurd hf (by decide)

end Twm.Audio
