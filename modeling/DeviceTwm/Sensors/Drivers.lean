import DeviceTwm.Lib.BitMask
import DeviceTwm.Lib.Bytes
import DeviceTwm.Lib.Loop
import DeviceTwm.Sensors.InputEventReader
import Mathlib.Data.Fin.Basic
import Mathlib.Data.List.FinRange
import Mathlib.Logic.Function.Basic

/-!
# The sensor drivers (`Kxte9Sensor.cpp`, `Yas529Sensor.cpp`, `OrientSensor.cpp`)

A driver reads input events and writes sensor events to the array of its caller.

* `Out`: the place in the array, as an index that may be outside of it, with all that was written.
* `readEvents`: what the three drivers share; they differ in what they do with one input event.
* `Out.From`: as many events were written as were counted, one after the other.
* `readEvents_report`: a driver returns a negative code and writes nothing, or it writes as many events
  as it returns, and has room for them.
-/

open Lib

namespace Twm.Sensors

/-! ## Input events -/

def EV_SYN : Nat := 0
def EV_REL : Nat := 2
def EV_ABS : Nat := 3

def ABS_X : Nat := 0
def ABS_Y : Nat := 1
def ABS_Z : Nat := 2
def ABS_RX : Nat := 3
def ABS_RY : Nat := 4
def ABS_RZ : Nat := 5
def ABS_RUDDER : Nat := 7
def REL_X : Nat := 0
def REL_Y : Nat := 1
def REL_Z : Nat := 2
def REL_RX : Nat := 3

/-- The 32-bit word at an offset of an `input_event`, which has a `timeval` of two words first. -/
def Event.word (e : Event 16) (off : Nat) : Int32 := .ofNat (ofLe32 (e.bytes.drop off))

def Event.type (e : Event 16) : Nat := ofLe16 (e.bytes.drop 8)
def Event.code (e : Event 16) : Nat := ofLe16 (e.bytes.drop 10)
def Event.value (e : Event 16) : Int32 := e.word 12

/-- `timevalToNano(event->time)`. -/
def Event.time (e : Event 16) : Int64 :=
  (e.word 0).toInt64 * 1000000000 + (e.word 4 * 1000).toInt64

/-! ## Sensor events -/

/-- `sensors_event_t`; `x`, `y`, `z` are the names of the three values for every sensor. -/
structure SensorsEvent where
  version : Int32
  sensor : Int32
  type : Int32
  timestamp : Int64
  x : Float32
  y : Float32
  z : Float32
  status : Int8

/-- From `hardware/sensors.h`. -/
def GRAVITY_EARTH : Float32 := 9.80665
def CONVERT_A : Float32 := GRAVITY_EARTH / 16
def CONVERT_A_X : Float32 := -CONVERT_A
def CONVERT_A_Y : Float32 := -CONVERT_A
def CONVERT_A_Z : Float32 := CONVERT_A
def CONVERT_M : Float32 := 1.0 / 1000.0
def CONVERT_O : Float32 := 1.0 / 64.0
def CONVERT_O_Y : Float32 := CONVERT_O
def CONVERT_O_P : Float32 := CONVERT_O
def CONVERT_O_R : Float32 := -CONVERT_O
def SENSOR_STATE_MASK : Int32 := 0x7FFF

/-- `sum += x`, with an `int` on the left. -/
def addFloat (sum : Int32) (x : Float32) : Int32 := (sum.toFloat32 + x).toInt32

def SensorsEvent.sum (e : SensorsEvent) : Int32 := addFloat (addFloat (addFloat 0 e.x) e.y) e.z

/-! ## The array of the caller -/

/-- `data`, as an index of the array that the caller of `pollEvents` gave, what is left of `count`, and
the events that were written so far, each with its index. -/
structure Out where
  data : Int
  count : Int
  numEventReceived : Int
  written : List (Int × SensorsEvent)

/-- `*data++ = e; count--; numEventReceived++`. -/
def Out.put (o : Out) (e : SensorsEvent) : Out where
  data := o.data + 1
  count := o.count - 1
  numEventReceived := o.numEventReceived + 1
  written := o.written ++ [(o.data, e)]

/-- What a driver does with an input event; the last component says whether `next` is called. -/
abbrev Handle (σ : Type) : Type := Event 16 → σ → Out → σ × Out × Bool

/-- A driver with the reader of its events. -/
structure Input (σ : Type) where
  inputReader : Reader 16
  sensor : σ

/-- `while (count && mInputReader.readEvent(&event))`. -/
def readRound {σ : Type} (handle : Handle σ) :
    Input σ × Out → Option ((Input σ × Out) ⊕ (Input σ × Out))
  | (i, o) =>
    let (available, curr) := i.inputReader.readEvent
    if o.count ≠ 0 ∧ available ≠ 0 then do
      let event ← i.inputReader.buffer[curr]?
      let (sensor, o, next) := handle event i.sensor o
      some (.inl (⟨if next then i.inputReader.next else i.inputReader, sensor⟩, o))
    else some (.inr (i, o))

/-- `readEvents(data, count)`: what is returned, what was written, and the driver afterwards. The rounds
are enough for the loop to be left (`readLoop_left`). -/
def readEvents {σ : Type} (handle : Handle σ) (i : Input σ) (result : ReadResult 16)
    (data count : Int) : Option (Int × List (Int × SensorsEvent) × Input σ) :=
  if count < 1 then some (-EINVAL, [], i)
  else do
    let (n, inputReader) ← i.inputReader.fill result
    let i := { i with inputReader := inputReader }
    if n < 0 then some (n, [], i)
    else
      match loop (readRound handle) (inputReader.bufferEnd + 2) (i, ⟨data, count, 0, []⟩) with
      | .left (i, o) => some (o.numEventReceived, o.written, i)
      | _ => none

/-! ## The accelerometer -/

structure Kxte9 where
  pendingMask : UInt32
  pendingEvent : SensorsEvent

def Kxte9.processEvent (s : Kxte9) (code : Nat) (value : Int32) : Kxte9 :=
  if code = ABS_X then
    ⟨1, { s.pendingEvent with x := ((value >>> 2) - 32).toFloat32 * CONVERT_A_X }⟩
  else if code = ABS_Y then
    ⟨1, { s.pendingEvent with y := ((value >>> 2) - 32).toFloat32 * CONVERT_A_Y }⟩
  else if code = ABS_Z then
    ⟨1, { s.pendingEvent with z := ((value >>> 2) - 32).toFloat32 * CONVERT_A_Z }⟩
  else s

def Kxte9.handle : Handle Kxte9 := fun event s o =>
  if event.type = EV_ABS then (s.processEvent event.code event.value, o, true)
  else if event.type = EV_SYN then
    let e := { s.pendingEvent with timestamp := event.time }
    ({ s with pendingEvent := e }, o.put e, true)
  else (s, o, true)

/-! ## The magnetometer and the orientation -/

/-- `Accelerometer`, `MagneticField`, `Orientation`. -/
abbrev Kind : Type := Fin 3

def Accelerometer : Kind := 0
def MagneticField : Kind := 1
def Orientation : Kind := 2

/-- `Yas529Sensor` and `OrientSensor`, which have the same fields. -/
structure MaskSensor where
  enabled : UInt32
  pendingMask : UInt32
  pendingEvents : Kind → SensorsEvent

/-- `1 << j`. -/
def Kind.bit (j : Kind) : UInt32 := 1 <<< UInt32.ofNat j.val

/-- A value of a pending event is changed. -/
def MaskSensor.amend (s : MaskSensor) (j : Kind) (f : SensorsEvent → SensorsEvent) : MaskSensor :=
  { s with
    pendingMask := s.pendingMask ||| j.bit
    pendingEvents := Function.update s.pendingEvents j (f (s.pendingEvents j)) }

/-- `Yas529Sensor::processEvent`. -/
def Yas529.processEvent (s : MaskSensor) (code : Nat) (value : Int32) : MaskSensor :=
  if code = REL_X then s.amend MagneticField ({ · with x := value.toFloat32 * CONVERT_M })
  else if code = REL_Y then s.amend MagneticField ({ · with y := value.toFloat32 * CONVERT_M })
  else if code = REL_Z then s.amend MagneticField ({ · with z := value.toFloat32 * CONVERT_M })
  else if code = REL_RX then s.amend MagneticField ({ · with status := value.toInt8 })
  else s

/-- `OrientSensor::processEvent`. -/
def Orient.processEvent (s : MaskSensor) (code : Nat) (value : Int32) : MaskSensor :=
  if code = ABS_RX then s.amend Orientation ({ · with x := value.toFloat32 * CONVERT_O_Y })
  else if code = ABS_RY then s.amend Orientation ({ · with y := value.toFloat32 * CONVERT_O_P })
  else if code = ABS_RZ then s.amend Orientation ({ · with z := value.toFloat32 * CONVERT_O_R })
  else if code = ABS_RUDDER then
    s.amend Orientation ({ · with status := (value &&& SENSOR_STATE_MASK).toInt8 })
  else s

/-- One round of `for (int j=0 ; count && mPendingMask && j<numSensors ; j++)`. -/
def MaskSensor.deliver (time : Int64) : MaskSensor × Out → Kind → MaskSensor × Out
  | (s, o), j =>
    if o.count ≠ 0 ∧ s.pendingMask ≠ 0 then
      if s.pendingMask &&& j.bit ≠ 0 then
        let e := { s.pendingEvents j with timestamp := time }
        let s := { s with
          pendingMask := s.pendingMask &&& ~~~j.bit
          pendingEvents := Function.update s.pendingEvents j e }
        if s.enabled &&& j.bit ≠ 0 then
          -- Three values that add up to zero are taken for no measurement.
          if e.sum = 0 then (s, o) else (s, o.put e)
        else (s, o)
      else (s, o)
    else (s, o)

/-- The two drivers differ in the type of the events with values, and in how they take a value. -/
def MaskSensor.handle (type : Nat) (processEvent : MaskSensor → Nat → Int32 → MaskSensor) :
    Handle MaskSensor := fun event s o =>
  if event.type = type then (processEvent s event.code event.value, o, true)
  else if event.type = EV_SYN then
    let (s, o) := (List.finRange 3).foldl (MaskSensor.deliver event.time) (s, o)
    (s, o, s.pendingMask = 0)
  else (s, o, true)

def Yas529.handle : Handle MaskSensor := MaskSensor.handle EV_REL Yas529.processEvent

def Orient.handle : Handle MaskSensor := MaskSensor.handle EV_ABS Orient.processEvent

/-! ## What is written -/

/-- As many events were written as were counted, from `data` on, and `count` is not exceeded. -/
structure Out.From (data count : Int) (o : Out) : Prop where
  data_eq : o.data = data + o.written.length
  count_eq : o.count = count - o.written.length
  received : o.numEventReceived = o.written.length
  nonneg : 0 ≤ o.count
  places : o.written.map Prod.fst = (List.range o.written.length).map fun i : Nat => data + i

variable {data count : Int} {o : Out}

theorem Out.From.start (data : Int) (hc : 1 ≤ count) : (Out.mk data count 0 []).From data count where
  data_eq := (Int.add_zero _).symm
  count_eq := (Int.sub_zero _).symm
  received := rfl
  nonneg := Int.le_trans (by decide) hc
  places := rfl

theorem Out.From.put (h : o.From data count) (hc : o.count ≠ 0) (e : SensorsEvent) :
    (o.put e).From data count := by
  have hlen : (o.put e).written.length = o.written.length + 1 := List.length_append
  have hpos := h.nonneg
  refine ⟨?_, ?_, ?_, ?_, ?_⟩
  · rw [hlen, Out.put, h.data_eq]
    push_cast
    omega
  · rw [hlen, Out.put, h.count_eq]
    push_cast
    omega
  · rw [hlen, Out.put, h.received]
    rfl
  · show 0 ≤ o.count - 1
    omega
  · rw [hlen, List.range_succ, List.map_append, ← h.places, Out.put, List.map_append]
    simp only [List.map_cons, List.map_nil, h.data_eq]

/-- The driver keeps its own invariant, writes where it should while there is room, and leaves the event in
the queue only when no room is left. -/
structure Handle.Ok {σ : Type} (handle : Handle σ) (I : σ → Prop) : Prop where
  keeps : ∀ e s o, I s → I (handle e s o).1
  puts : ∀ e s (o : Out) data count, o.From data count → o.count ≠ 0 →
    (handle e s o).2.1.From data count
  again : ∀ e s o, I s → (handle e s o).2.2 = false → (handle e s o).2.1.count = 0

theorem Kxte9.handle_ok : Kxte9.handle.Ok fun _ => True where
  keeps _ _ _ _ := trivial
  puts e s o data count ho hc := by
    unfold Kxte9.handle
    split
    · exact ho
    · split
      · exact ho.put hc _
      · exact ho
  again e s o _ h := by
    unfold Kxte9.handle at h
    split at h
    · cases h
    · split at h
      · cases h
      · cases h

/-- Only the bits of the three sensors may be set. -/
def MaskSensor.MaskOk (s : MaskSensor) : Prop := s.pendingMask.toNat < 2 ^ 3

theorem Kind.shift_lt (j : Kind) : (UInt32.ofNat j.val).toNat < 32 := by
  revert j
  decide

theorem Kind.bit_lt (j : Kind) : j.bit.toNat < 2 ^ 3 := by
  revert j
  decide

theorem MaskSensor.MaskOk.amend {s : MaskSensor} (h : s.MaskOk) (j : Kind)
    (f : SensorsEvent → SensorsEvent) : (s.amend j f).MaskOk := by
  show (s.pendingMask ||| j.bit).toNat < 2 ^ 3
  rw [UInt32.toNat_or]
  exact Nat.or_lt_two_pow h j.bit_lt

theorem Yas529.processEvent_mask {s : MaskSensor} (h : s.MaskOk) (code : Nat) (value : Int32) :
    (Yas529.processEvent s code value).MaskOk := by
  unfold Yas529.processEvent
  repeat' split
  all_goals first | exact h.amend _ _ | exact h

theorem Orient.processEvent_mask {s : MaskSensor} (h : s.MaskOk) (code : Nat) (value : Int32) :
    (Orient.processEvent s code value).MaskOk := by
  unfold Orient.processEvent
  repeat' split
  all_goals first | exact h.amend _ _ | exact h

/-- What is left of a mask after its three bits. -/
theorem clear_bits {m : UInt32} (h : m.toNat < 2 ^ 3) :
    m &&& ~~~(0 : Kind).bit &&& ~~~(1 : Kind).bit &&& ~~~(2 : Kind).bit = 0 := by
  have hall : ∀ k : Fin (2 ^ 3), (UInt32.ofNat k.val &&& ~~~(0 : Kind).bit &&& ~~~(1 : Kind).bit &&&
      ~~~(2 : Kind).bit) = 0 := by decide
  have hm := hall ⟨m.toNat, h⟩
  rwa [UInt32.ofNat_toNat] at hm

/-- What a round of the inner loop does: nothing, or it clears its bit and writes at most one event. -/
theorem MaskSensor.deliver_cases (time : Int64) (s : MaskSensor) (o : Out) (j : Kind) :
    (deliver time (s, o) j = (s, o) ∧ (o.count = 0 ∨ s.pendingMask &&& j.bit = 0)) ∨
      ∃ s', (deliver time (s, o) j = (s', o) ∨ ∃ e, deliver time (s, o) j = (s', o.put e)) ∧
        s'.pendingMask = s.pendingMask &&& ~~~j.bit ∧ o.count ≠ 0 := by
  unfold deliver
  dsimp only
  by_cases hguard : o.count ≠ 0 ∧ s.pendingMask ≠ 0
  rotate_left
  · rw [if_neg hguard]
    refine .inl ⟨rfl, ?_⟩
    by_cases hc : o.count = 0
    · exact .inl hc
    · have hmask : s.pendingMask = 0 := by
        by_contra hm
        exact hguard ⟨hc, hm⟩
      rw [hmask]
      exact .inr UInt32.zero_and
  rw [if_pos hguard]
  by_cases hbit : s.pendingMask &&& j.bit = 0
  · rw [if_neg (not_not_intro hbit)]
    exact .inl ⟨rfl, .inr hbit⟩
  · rw [if_pos hbit]
    right
    split
    · split
      · exact ⟨_, .inl rfl, rfl, hguard.1⟩
      · exact ⟨_, .inr ⟨_, rfl⟩, rfl, hguard.1⟩
    · exact ⟨_, .inl rfl, rfl, hguard.1⟩

variable {s : MaskSensor}

theorem MaskSensor.deliver_from (h : o.From data count) (time : Int64) (j : Kind) :
    (deliver time (s, o) j).2.From data count := by
  rcases deliver_cases time s o j with ⟨heq, -⟩ | ⟨s', heq | ⟨e, heq⟩, -, hc⟩
  · rw [heq]
    exact h
  · rw [heq]
    exact h
  · rw [heq]
    exact h.put hc e

theorem MaskSensor.deliver_full (hc : o.count = 0) (time : Int64) (j : Kind) :
    deliver time (s, o) j = (s, o) := by
  rcases deliver_cases time s o j with ⟨heq, -⟩ | ⟨_, -, -, hne⟩
  · exact heq
  · exact absurd hc hne

/-- A round clears its bit, unless there is no room left. -/
theorem MaskSensor.deliver_mask (hc : o.count ≠ 0) (time : Int64) (j : Kind) :
    (deliver time (s, o) j).1.pendingMask = s.pendingMask &&& ~~~j.bit := by
  rcases deliver_cases time s o j with ⟨heq, hc' | hbit⟩ | ⟨s', heq | ⟨e, heq⟩, hmask, -⟩
  · exact absurd hc' hc
  · rw [heq]
    exact (clearBit_eq_self j.shift_lt hbit).symm
  · rw [heq]
    exact hmask
  · rw [heq]
    exact hmask

theorem MaskSensor.MaskOk.deliver (h : s.MaskOk) (time : Int64) (j : Kind) :
    (deliver time (s, o) j).1.MaskOk := by
  by_cases hc : o.count = 0
  · rw [deliver_full hc]
    exact h
  · unfold MaskOk
    rw [deliver_mask hc, UInt32.toNat_and]
    exact Nat.lt_of_le_of_lt Nat.and_le_left h

/-! The inner loop, by induction on the sensors that are left. -/

theorem MaskSensor.deliverAll_from (h : o.From data count) (time : Int64) (js : List Kind) :
    (js.foldl (deliver time) (s, o)).2.From data count := by
  induction js generalizing s o with
  | nil => exact h
  | cons j js ih => exact ih (deliver_from h time j)

theorem MaskSensor.MaskOk.deliverAll (h : s.MaskOk) (time : Int64) (js : List Kind) :
    (js.foldl (MaskSensor.deliver time) (s, o)).1.MaskOk := by
  induction js generalizing s o with
  | nil => exact h
  | cons j js ih => exact ih (h.deliver time j)

theorem MaskSensor.deliverAll_mask (s : MaskSensor) (o : Out) (time : Int64) (js : List Kind) :
    (js.foldl (deliver time) (s, o)).2.count = 0 ∨
      (js.foldl (deliver time) (s, o)).1.pendingMask =
        js.foldl (fun m j => m &&& ~~~j.bit) s.pendingMask := by
  induction js generalizing s o with
  | nil => exact .inr rfl
  | cons j js ih =>
    by_cases hc : o.count = 0
    · have hsame := List.foldl_fixed' (deliver_full (s := s) hc time) (j :: js)
      rw [hsame]
      exact .inl hc
    · rw [List.foldl_cons, List.foldl_cons, ← deliver_mask hc]
      exact ih _ _

theorem MaskSensor.handle_ok (type : Nat) {processEvent : MaskSensor → Nat → Int32 → MaskSensor}
    (hprocess : ∀ s code value, s.MaskOk → (processEvent s code value).MaskOk) :
    (handle type processEvent).Ok MaskOk where
  keeps e s o h := by
    unfold handle
    split
    · exact hprocess s _ _ h
    · split
      · exact h.deliverAll e.time _
      · exact h
  puts e s o data count ho hc := by
    unfold handle
    split
    · exact ho
    · split
      · exact deliverAll_from ho e.time _
      · exact ho
  again e s o h hagain := by
    unfold handle at hagain ⊢
    split at hagain
    · cases hagain
    · split at hagain
      · rename_i htype hsyn
        rw [if_neg htype, if_pos hsyn]
        rcases deliverAll_mask s o e.time (List.finRange 3) with hfull | hmask
        · exact hfull
        · have hzero := hmask.trans (clear_bits h)
          exact absurd hzero (of_decide_eq_false hagain)
      · cases hagain

theorem Yas529.handle_ok : Yas529.handle.Ok MaskSensor.MaskOk :=
  MaskSensor.handle_ok _ fun _ code value h => Yas529.processEvent_mask h code value

theorem Orient.handle_ok : Orient.handle.Ok MaskSensor.MaskOk :=
  MaskSensor.handle_ok _ fun _ code value h => Orient.processEvent_mask h code value

/-! ## The loop -/

section Loop

variable {σ : Type} {handle : Handle σ} {I : σ → Prop}

/-- The reader has events pending, and the driver keeps its invariant. -/
structure Input.Ready (I : σ → Prop) (i : Input σ) : Prop where
  reader : ∃ pending, i.inputReader.Represents pending
  sensor : I i.sensor

/-- What holds of the driver and of its output in every round. -/
structure ReadOk (I : σ → Prop) (data count : Int) (p : Input σ × Out) : Prop where
  ready : p.1.Ready I
  written : p.2.From data count

/-- The events that are pending, and one more while there is room. -/
def readMeasure (p : Input σ × Out) : Nat :=
  (p.1.inputReader.bufferEnd - p.1.inputReader.freeSpace).toNat + if p.2.count = 0 then 0 else 1

theorem readMeasure_eq {i : Input σ} {pending : List (Event 16)} (h : i.inputReader.Represents pending)
    (o : Out) : readMeasure (i, o) = pending.length + if o.count = 0 then 0 else 1 := by
  have hlen : (i.inputReader.bufferEnd - i.inputReader.freeSpace).toNat = pending.length := by
    rw [h.free]
    omega
  unfold readMeasure
  rw [hlen]

/-- A round takes an event from the reader, or fills the array, or leaves the loop. -/
theorem readRound_cases (hok : handle.Ok I) {p : Input σ × Out} (hp : ReadOk I data count p) :
    (∃ p', Goes (readRound handle) p p' ∧ ReadOk I data count p' ∧ readMeasure p' < readMeasure p) ∨
      readRound handle p = some (.inr p) := by
  obtain ⟨i, o⟩ := p
  obtain ⟨hi, ho⟩ := hp
  obtain ⟨pending, hrep⟩ := hi.reader
  obtain ⟨havail, hevent⟩ := readEvent_refines hrep
  by_cases hguard : o.count ≠ 0 ∧ i.inputReader.readEvent.1 ≠ 0
  rotate_left
  · exact .inr (if_neg hguard)
  obtain ⟨hc, hsome⟩ := hguard
  cases hpending : pending with
  | nil => exact absurd (havail.trans (if_pos hpending)) hsome
  | cons e rest =>
    subst hpending
    left
    -- What the driver does with the first event.
    rcases hhandle : handle e i.sensor o with ⟨sensor, o', next⟩
    have hkeeps := hok.keeps e i.sensor o hi.sensor
    have hputs := hok.puts e i.sensor o data count ho hc
    have hagain := hok.again e i.sensor o hi.sensor
    rw [hhandle] at hkeeps hputs hagain
    have hgoes : Goes (readRound handle) (i, o)
        (⟨if next then i.inputReader.next else i.inputReader, sensor⟩, o') := by
      unfold Goes readRound
      dsimp only
      rw [if_pos ⟨hc, hsome⟩, hevent e rfl]
      dsimp only [bind, Option.bind]
      rw [hhandle]
    refine ⟨_, hgoes, ?_⟩
    rw [readMeasure_eq hrep, if_neg hc, List.length_cons]
    cases next with
    | true =>
      have hnext := next_refines hrep
      have hmeasure := readMeasure_eq (i := ⟨i.inputReader.next, sensor⟩) hnext o'
      refine ⟨⟨⟨⟨rest, hnext⟩, hkeeps⟩, hputs⟩, lt_of_eq_of_lt hmeasure ?_⟩
      split
      · omega
      · omega
    | false =>
      have hmeasure := readMeasure_eq (i := ⟨i.inputReader, sensor⟩) hrep o'
      rw [if_pos (hagain rfl), List.length_cons] at hmeasure
      exact ⟨⟨⟨⟨e :: rest, hrep⟩, hkeeps⟩, hputs⟩, lt_of_eq_of_lt hmeasure (by omega)⟩

/-- The loop is left, after as many rounds as `readEvents` gives it. -/
theorem readLoop_left (hok : handle.Ok I) {i : Input σ} (hi : i.Ready I) (ho : o.From data count) :
    ∃ i' o', loop (readRound handle) (i.inputReader.bufferEnd + 2) (i, o) = .left (i', o') ∧
      i'.Ready I ∧ o'.From data count := by
  obtain ⟨pending, hrep⟩ := hi.reader
  have hn : readMeasure (i, o) < i.inputReader.bufferEnd + 2 := by
    have hle := hrep.length_le
    rw [readMeasure_eq hrep]
    split
    · omega
    · omega
  obtain ⟨⟨i', o'⟩, hleft, hend⟩ := loop_left_of_measure (I := ReadOk I data count) readMeasure
    (fun p hp => (readRound_cases hok hp).imp_right fun hleft => ⟨p, hleft, hp⟩) ⟨hi, ho⟩ hn
  exact ⟨i', o', hleft, hend.ready, hend.written⟩

/-- What `readEvents` may return, and the events it writes: it fails and writes nothing, or it writes as
many events as it returns, from `data` on, at most `count`. -/
inductive Report (data count : Int) : Int → List (Int × SensorsEvent) → Prop
  | failed {n : Int} (neg : n < 0) : Report data count n []
  | wrote {w : List (Int × SensorsEvent)} (le : (w.length : Int) ≤ count)
    (places : w.map Prod.fst = (List.range w.length).map fun i : Nat => data + i) :
    Report data count w.length w

theorem Out.From.report (h : o.From data count) : Report data count o.numEventReceived o.written := by
  have hle := h.nonneg
  rw [h.count_eq] at hle
  rw [h.received]
  exact .wrote (by omega) h.places

/-- `fill` fails when there is room, and the read fails or gives a part of an event. -/
theorem fill_neg_iff {r : Reader 16} {pending : List (Event 16)} (h : r.Represents pending)
    (result : ReadResult 16) :
    (Queue.fill r.bufferEnd pending result).1 < 0 ↔ r.freeSpace ≠ 0 ∧ ¬ result.Whole := by
  unfold Queue.fill
  rw [Ne, h.full_iff]
  by_cases hfull : pending.length = r.bufferEnd
  · rw [if_pos hfull]
    exact ⟨fun h => absurd h (Int.lt_irrefl 0), fun h => absurd hfull h.1⟩
  · rw [if_neg hfull]
    cases result with
    | error errno pos =>
      refine ⟨fun _ => ⟨hfull, id⟩, fun _ => ?_⟩
      show -(errno : Int) < 0
      omega
    | bytes b hb =>
      dsimp only
      unfold ReadResult.Whole
      split
      · rename_i hmod
        exact ⟨fun _ => ⟨hfull, hmod⟩, fun _ => (by decide : -EINVAL < 0)⟩
      · rename_i hmod
        exact ⟨fun h => by omega, fun h => absurd h.2 hmod⟩

/-- **What a driver reports.** No call goes outside of the reader's array, and the loop of every call is
left. A call fails exactly when it has no room, or when the reader has room for an event and the read
fails or gives a part of one. -/
theorem readEvents_report (hok : handle.Ok I) {i : Input σ} (hi : i.Ready I) (result : ReadResult 16)
    (data count : Int) :
    ∃ nb w i', readEvents handle i result data count = some (nb, w, i') ∧ i'.Ready I ∧
      Report data count nb w ∧
      (nb < 0 ↔ count < 1 ∨ i.inputReader.freeSpace ≠ 0 ∧ ¬ result.Whole) := by
  unfold readEvents
  by_cases hcount : count < 1
  · rw [if_pos hcount]
    exact ⟨_, _, i, rfl, hi, .failed (by decide), fun _ => .inl hcount, fun _ => by decide⟩
  rw [if_neg hcount]
  obtain ⟨pending, hrep⟩ := hi.reader
  obtain ⟨reader, hfill, hsize, hrep'⟩ := fill_refines (by decide) hrep result
  rw [hfill]
  dsimp only [bind, Option.bind]
  have hneg := fill_neg_iff hrep result
  by_cases hn : (Queue.fill i.inputReader.bufferEnd pending result).1 < 0
  · rw [if_pos hn]
    refine ⟨_, _, _, rfl, ⟨⟨_, hrep'⟩, hi.sensor⟩, .failed hn, fun _ => .inr (hneg.mp hn), fun _ => hn⟩
  · rw [if_neg hn]
    obtain ⟨i', o, hleft, hi', ho⟩ := readLoop_left hok (i := { i with inputReader := reader })
      ⟨⟨_, hrep'⟩, hi.sensor⟩ (Out.From.start data (Int.not_lt.mp hcount))
    rw [hleft]
    refine ⟨_, _, i', rfl, hi', ho.report, fun h => ?_, fun h => ?_⟩
    · rw [ho.received] at h
      omega
    · rcases h with h | h
      · exact absurd h hcount
      · exact absurd (hneg.mpr h) hn

end Loop

end Twm.Sensors
