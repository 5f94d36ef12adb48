import DeviceTwm.Adb.DeviceList

/-!
# Choosing a transport

A request names a transport by its serial or by its type. `acquire_one_transport` looks for it in the
list of transports: transports that cannot be opened for lack of permissions are passed over, a serial
takes the first that has it, a type takes the one transport of that type, and two of them are too many.
A transport that is offline is not returned. A caller that asks for a state waits until there is a
transport in it.

What is returned when no state is asked for is said without the loop by `Chosen`
(`acquireOneTransport_iff`).
-/

open Lib

namespace Twm.Adb.Acquire

open DeviceList (ConnectionState)

/-- A string, without its final zero. -/
abbrev Text := List UInt8

inductive TransportType
  | kTransportUsb | kTransportLocal | kTransportAny | kTransportHost
  deriving DecidableEq

open TransportType

structure ATransport extends DeviceList.Entry where
  /-- Where it lies in memory. -/
  addr : Nat
  type : TransportType
  /-- `init_usb_transport` and `init_socket_transport` are the only ones to set the type. -/
  real : type = kTransportUsb ∨ type = kTransportLocal

/-- The argument `error_out`: `none` is a null pointer, else what it points to. -/
abbrev ErrorOut := Option (Option Text)

/-- `if (error_out) *error_out = msg`. -/
def setError (errorOut : ErrorOut) (msg : Option Text) : ErrorOut := errorOut.map fun _ => msg

/-- The branch that a transport takes when a type is asked for, as what is said when it is the second
to take it. -/
def typeBranch (ttype : TransportType) (t : ATransport) : Option Text :=
  if ttype = kTransportUsb ∧ t.type = kTransportUsb then some (str "more than one device")
  else if ttype = kTransportLocal ∧ t.type = kTransportLocal then some (str "more than one emulator")
  else if ttype = kTransportAny then some (str "more than one device and emulator")
  else none

structure Found where
  result : Option ATransport
  ambiguous : Bool
  errorOut : ErrorOut

/-- The loop over the list. -/
def findTransport (ttype : TransportType) (serial : Option Text) :
    List ATransport → Option ATransport → ErrorOut → Found
  | [], result, errorOut => ⟨result, false, errorOut⟩
  | t :: ts, result, errorOut =>
    if t.state = .noperm then
      findTransport ttype serial ts result
        (setError errorOut (some (str "insufficient permissions for device")))
    else
      match serial with
      | some s =>
        if t.serial = some s then ⟨some t, false, errorOut⟩
        else findTransport ttype serial ts result errorOut
      | none =>
        match typeBranch ttype t with
        | some msg =>
          if result.isSome then ⟨none, true, setError errorOut (some msg)⟩
          else findTransport ttype none ts (some t) errorOut
        | none => findTransport ttype none ts result errorOut

/-- A transport that is found and then refused. -/
def Found.refuse (f : Found) (p : ATransport → Bool) (msg : Text) : Found :=
  if f.result.any p then { f with result := none, errorOut := setError f.errorOut (some msg) } else f

/-- From one `retry` to the next. `state` is the state that is asked for, `none` for `CS_ANY`. -/
def acquireOnce (state : Option ConnectionState) (ttype : TransportType) (serial : Option Text)
    (errorOut : ErrorOut) (list : List ATransport) : Found :=
  let f := findTransport ttype serial list none (setError errorOut (some (str "device not found")))
  -- offline devices are ignored: they are either being born or dying
  let f := f.refuse (fun t => t.state = .offline) (str "device offline")
  let f := f.refuse (fun t => state.any (t.state ≠ ·)) (str "invalid device state")
  if f.result.isSome then { f with errorOut := setError f.errorOut none } else f

/-- `acquire_one_transport`, with the lists that are there at each try; `none`: it still waits. -/
def acquireOneTransport (state : Option ConnectionState) (ttype : TransportType)
    (serial : Option Text) : ErrorOut → List (List ATransport) → Option Found
  | _, [] => none
  | errorOut, list :: later =>
    let f := acquireOnce state ttype serial errorOut list
    if f.result.isNone ∧ state.isSome ∧ (serial.isSome ∨ f.ambiguous = false) then
      acquireOneTransport state ttype serial f.errorOut later
    else some f

/-! ## What is asked for -/

def Accessible (t : ATransport) : Prop := t.state ≠ .noperm

def Matches (ttype : TransportType) (t : ATransport) : Prop :=
  ttype = kTransportAny ∨ ttype = t.type

/-- The transport that a serial or a type stands for. -/
def Chosen (ttype : TransportType) (serial : Option Text) (list : List ATransport)
    (t : ATransport) : Prop :=
  match serial with
  | some s => ∃ before after, list = before ++ t :: after ∧ Accessible t ∧ t.serial = some s ∧
      ∀ u ∈ before, Accessible u → u.serial ≠ some s
  | none => ∃ before after, list = before ++ t :: after ∧ Accessible t ∧ Matches ttype t ∧
      ∀ u ∈ before ++ after, Accessible u → ¬ Matches ttype u

/-! ## The loop -/

@[simp] theorem setError_setError (errorOut : ErrorOut) (m m' : Option Text) :
    setError (setError errorOut m) m' = setError errorOut m' := by
  cases errorOut <;> rfl

/-- A transport that the type test lets through matches. -/
theorem typeBranch_isSome (ttype : TransportType) (t : ATransport) :
    (typeBranch ttype t).isSome ↔ Matches ttype t := by
  have hreal := t.real
  unfold typeBranch Matches
  cases ttype <;> grind

/-- The transports that a serial can stand for. -/
def hasSerial (s : Text) (t : ATransport) : Bool := t.state ≠ .noperm ∧ t.serial = some s

/-- The transports that a type can stand for. -/
def hasType (ttype : TransportType) (t : ATransport) : Bool :=
  decide (t.state ≠ .noperm) && (typeBranch ttype t).isSome

/-- The element of a list of one. -/
def single : List ATransport → Option ATransport
  | [t] => some t
  | _ => none

theorem single_eq_some {l : List ATransport} {t : ATransport} : single l = some t ↔ l = [t] := by
  unfold single
  split
  · simp
  · rename_i h
    constructor
    · rintro ⟨⟩
    · rintro rfl
      exact absurd rfl (h t)

theorem findTransport_serial (ttype : TransportType) (s : Text) (ts : List ATransport)
    (result : Option ATransport) (errorOut : ErrorOut) :
    (findTransport ttype (some s) ts result errorOut).result =
      (ts.find? (hasSerial s)).or result := by
  induction ts generalizing errorOut with
  | nil => rfl
  | cons t ts ih =>
    rw [findTransport, List.find?_cons]
    by_cases hp : t.state = .noperm
    · have hno : hasSerial s t = false := by simp [hasSerial, hp]
      rw [if_pos hp, hno, ih]
    · rw [if_neg hp]
      by_cases hs : t.serial = some s
      · have hyes : hasSerial s t = true := by simp [hasSerial, hp, hs]
        simp [hs, hyes]
      · have hno : hasSerial s t = false := by simp [hasSerial, hs]
        simp only [hs, if_false, hno, ih]

theorem findTransport_type (ttype : TransportType) (ts : List ATransport)
    (result : Option ATransport) (errorOut : ErrorOut) :
    (findTransport ttype none ts result errorOut).result =
      single (result.toList ++ ts.filter (hasType ttype)) := by
  induction ts generalizing result errorOut with
  | nil => cases result <;> rfl
  | cons t ts ih =>
    rw [findTransport, List.filter_cons]
    by_cases hp : t.state = .noperm
    · have hno : hasType ttype t = false := by simp [hasType, hp]
      rw [if_pos hp, hno, ih]
      rfl
    · rw [if_neg hp]
      cases hb : typeBranch ttype t with
      | none =>
        have hno : hasType ttype t = false := by simp [hasType, hb]
        simp only [hno, ih]
        rfl
      | some msg =>
        have hyes : hasType ttype t = true := by simp [hasType, hb, hp]
        simp only [hyes, if_true]
        -- the second one ends the loop
        cases result with
        | none => exact ih (some t) errorOut
        | some u => rfl

/-- Whatever the loop meets, a text is left where one was. -/
theorem findTransport_errorOut (ttype : TransportType) (serial : Option Text)
    (ts : List ATransport) (result : Option ATransport) (errorOut : ErrorOut) (msg : Text) :
    ∃ text, (findTransport ttype serial ts result (setError errorOut (some msg))).errorOut =
      setError errorOut (some text) := by
  induction ts generalizing result msg with
  | nil => exact ⟨msg, rfl⟩
  | cons t ts ih =>
    cases serial with
    | some s =>
      rw [findTransport]
      split
      · rw [setError_setError]
        exact ih result _
      · split
        · exact ⟨msg, rfl⟩
        · exact ih result msg
    | none =>
      rw [findTransport]
      split
      · rw [setError_setError]
        exact ih result _
      · split
        · split
          · exact ⟨_, setError_setError ..⟩
          · exact ih _ msg
        · exact ih result msg

/-- The loop finds what is asked for. -/
theorem findTransport_eq_some (ttype : TransportType) (serial : Option Text)
    (list : List ATransport) (errorOut : ErrorOut) (t : ATransport) :
    (findTransport ttype serial list none errorOut).result = some t ↔
      Chosen ttype serial list t := by
  cases serial with
  | some s =>
    rw [findTransport_serial, Option.or_none, List.find?_eq_some_iff_append]
    simp only [Chosen, hasSerial, Accessible]
    grind
  | none =>
    have htype : ∀ u, hasType ttype u = true ↔ Accessible u ∧ Matches ttype u := by
      intro u
      rw [hasType, Bool.and_eq_true, decide_eq_true_iff, typeBranch_isSome, Accessible]
    rw [findTransport_type, single_eq_some]
    simp only [Option.toList_none, List.nil_append, List.filter_eq_cons_iff, htype, Chosen,
      List.filter_eq_nil_iff, List.mem_append]
    grind

/-! ## The result -/

theorem refuse_result (f : Found) (p : ATransport → Bool) (msg : Text) (t : ATransport) :
    (f.refuse p msg).result = some t ↔ f.result = some t ∧ p t = false := by
  unfold Found.refuse
  split <;> grind

/-- A text that is left stays, or another takes its place. -/
theorem refuse_errorOut {f : Found} {errorOut : ErrorOut} (p : ATransport → Bool) (msg : Text)
    (h : ∃ text, f.errorOut = setError errorOut (some text)) :
    ∃ text, (f.refuse p msg).errorOut = setError errorOut (some text) := by
  obtain ⟨text, h⟩ := h
  unfold Found.refuse
  split
  · exact ⟨msg, by rw [h, setError_setError]⟩
  · exact ⟨text, h⟩

/-- `acquire_one_transport` with `CS_ANY` returns at once. It returns the transport that the serial or
the type stands for, if that is not offline; then the error is null. Else it returns null, and the
error is a text. -/
theorem acquireOneTransport_iff (ttype : TransportType) (serial : Option Text)
    (errorOut : ErrorOut) (list : List ATransport) (later : List (List ATransport)) :
    ∃ f, acquireOneTransport none ttype serial errorOut (list :: later) = some f ∧
      (∀ t, f.result = some t ↔ Chosen ttype serial list t ∧ t.state ≠ .offline) ∧
      ((f.result ≠ none ∧ f.errorOut = errorOut.map fun _ => none) ∨
        (f.result = none ∧ ∃ text, f.errorOut = errorOut.map fun _ => some text)) := by
  refine ⟨acquireOnce none ttype serial errorOut list, by simp [acquireOneTransport], ?_, ?_⟩
  · intro t
    simp only [acquireOnce]
    rw [apply_ite Found.result, ite_self, refuse_result, refuse_result, findTransport_eq_some]
    simp
  · have htext := refuse_errorOut (fun t => (none : Option ConnectionState).any (t.state ≠ ·))
      (str "invalid device state") (refuse_errorOut (fun t => t.state = .offline)
        (str "device offline") (findTransport_errorOut ttype serial list none errorOut
          (str "device not found")))
    obtain ⟨text, htext⟩ := htext
    simp only [acquireOnce]
    split
    · rename_i h
      refine .inl ⟨Option.isSome_iff_ne_none.mp h, ?_⟩
      rw [htext, setError_setError]
      rfl
    · rename_i h
      exact .inr ⟨by simpa using h, text, htext⟩

end Twm.Adb.Acquire
