import DeviceTwm.Sensors.Drivers
import DeviceTwm.Lib.Run
import Mathlib.Algebra.Ring.Int.Defs

/-!
# Polling the sensors (`nusensors.cpp`)

`sensors_poll_context_t::pollEvents` asks the drivers in turn, until the array of its caller is full or
`poll` has nothing more for it. It counts with what the drivers return, which may be a negative code.

* `Poll`: the variables of the loop, with what the drivers returned and where they wrote.
* `Context.pollEvents`: the loop, for all that the system calls answer.
* `Poll.Inv`: the variables are the sums of what the drivers returned.
* `pollEvents_good_iff`: when nothing is written outside of the array, and the result is what it says.
-/

open Lib

namespace Twm.Sensors

/-- The indices of `mSensors`. -/
inductive Driver
  | kxte9
  | yas529
  | orient
  deriving DecidableEq

def Driver.all : List Driver := [.kxte9, .yas529, .orient]

abbrev Driver.State : Driver → Type
  | kxte9 => Kxte9
  | yas529 => MaskSensor
  | orient => MaskSensor

def Driver.handle : (d : Driver) → Handle d.State
  | kxte9 => Kxte9.handle
  | yas529 => Yas529.handle
  | orient => Orient.handle

/-- What a driver keeps of its own. -/
def Driver.Ok : (d : Driver) → d.State → Prop
  | kxte9, _ => True
  | yas529, s => MaskSensor.MaskOk s
  | orient, s => MaskSensor.MaskOk s

theorem Driver.handle_ok : (d : Driver) → d.handle.Ok d.Ok
  | kxte9 => Kxte9.handle_ok
  | yas529 => Yas529.handle_ok
  | orient => Orient.handle_ok

/-- `SensorBase::hasPendingEvents`, which no driver overrides. -/
def hasPendingEvents : Bool := false

def POLLIN : UInt16 := 1

/-- What `poll` answers: a failure, or how many descriptors are ready and the `revents` of each. -/
inductive PollAnswer
  | failed (errno : Nat)
  | ready (n : Nat) (revents : Driver → UInt16) (wake : UInt16)

/-- The system calls of one round of `do ... while (n && count)`. -/
structure Round where
  /-- What the read of a driver gives, if it is asked. -/
  read : Driver → ReadResult 16
  /-- What `poll` answers with this timeout. -/
  poll : Int → PollAnswer

/-- `sensors_poll_context_t`. -/
structure Context where
  sensors : (d : Driver) → Input d.State
  revents : Driver → UInt16
  wake : UInt16
  ready : ∀ d, (sensors d).Ready d.Ok

/-- `pollEvents`; `data` is an index of the caller's array. The last two are what the drivers returned
and what they wrote, so far. -/
structure Poll where
  sensors : (d : Driver) → Input d.State
  revents : Driver → UInt16
  wake : UInt16
  data : Int
  count : Int
  nbEvents : Int
  reports : List Int
  written : List (Int × SensorsEvent)

inductive Ret
  /-- `poll` failed, and this is returned. -/
  | pollFailed (code : Int)
  | number (n : Int)
  deriving DecidableEq

/-- One round of `for (int i=0 ; count && i<numSensorDrivers ; i++)`. -/
def Poll.ask (read : Driver → ReadResult 16) (s : Poll) (i : Driver) : Option Poll :=
  if s.count ≠ 0 ∧ (s.revents i &&& POLLIN ≠ 0 ∨ hasPendingEvents = true) then do
    let (nb, written, sensor) ← readEvents i.handle (s.sensors i) (read i) s.data s.count
    some { s with
      sensors := Function.update s.sensors i sensor
      -- No more data for this sensor; a negative `nb` counts as that too.
      revents := if nb < s.count then Function.update s.revents i 0 else s.revents
      count := s.count - nb
      nbEvents := s.nbEvents + nb
      data := s.data + nb
      reports := s.reports ++ [nb]
      written := s.written ++ written }
  else some s

/-- What follows the drivers in a round: `poll`, with room left. The second component is what is returned
when the loop is left. -/
def Poll.wait (poll : Int → PollAnswer) (s : Poll) : Poll × Option Ret :=
  if s.count ≠ 0 then
    match poll (if s.nbEvents ≠ 0 then 0 else -1) with
    | .failed errno => (s, some (.pollFailed (-errno)))
    | .ready n revents wake =>
      let s := { s with revents := revents, wake := if wake &&& POLLIN ≠ 0 then 0 else wake }
      if n ≠ 0 then (s, none) else (s, some (.number s.nbEvents))
  else (s, some (.number s.nbEvents))

/-- The loop, for as many rounds as there are answers; `none` in the second component when it goes on. -/
def Poll.loop (s : Poll) : List Round → Option (Poll × Option Ret)
  | [] => some (s, none)
  | r :: rs => do
    let s ← run (Poll.ask r.read) s Driver.all
    match s.wait r.poll with
    | (s, none) => Poll.loop s rs
    | (s, some ret) => some (s, some ret)

def Context.pollEvents (c : Context) (count : Int) (rounds : List Round) : Option (Poll × Option Ret) :=
  Poll.loop ⟨c.sensors, c.revents, c.wake, 0, count, 0, [], []⟩ rounds

/-! ## What is asked of a call -/

/-- The events were written inside of the array, and what is returned is their number, or the failure of
`poll`. -/
structure Poll.Good (count : Int) (s : Poll) (ret : Option Ret) : Prop where
  inside : ∀ w ∈ s.written, 0 ≤ w.1 ∧ w.1 < count
  number : ∀ n, ret = some (.number n) → 0 ≤ n ∧ n ≤ count ∧ n = s.written.length

/-- No driver returned a number of events while what was returned before adds up to less than zero. -/
def StartInside (reports : List Int) : Prop :=
  ∀ i nb, reports[i]? = some nb → 0 < nb → 0 ≤ (reports.take i).sum

/-- When the loop is left without a failure of `poll`, neither the size of the array nor what a driver
returned is negative. -/
def NoneFailed (count : Int) (reports : List Int) (ret : Option Ret) : Prop :=
  ∀ n, ret = some (.number n) → 0 ≤ count ∧ ∀ nb ∈ reports, 0 ≤ nb

/-! ## Sums of what is returned -/

theorem startInside_nil : StartInside [] := fun _ _ h => nomatch h

theorem startInside_snoc (reports : List Int) (nb : Int) :
    StartInside (reports ++ [nb]) ↔ StartInside reports ∧ (0 < nb → 0 ≤ reports.sum) := by
  constructor
  · intro h
    refine ⟨fun i x hi hx => ?_, fun hnb => ?_⟩
    · have hlt := (List.getElem?_eq_some_iff.mp hi).1
      have hstart := h i x (by rw [List.getElem?_append_left hlt, hi]) hx
      rwa [List.take_append_of_le_length (Nat.le_of_lt hlt)] at hstart
    · have hstart := h reports.length nb List.getElem?_concat_length hnb
      rwa [List.take_left] at hstart
  · rintro ⟨h, hlast⟩ i x hi hx
    rcases Nat.lt_or_ge i reports.length with hlt | hge
    · rw [List.getElem?_append_left hlt] at hi
      rw [List.take_append_of_le_length (Nat.le_of_lt hlt)]
      exact h i x hi hx
    · rw [List.getElem?_append_right hge, List.getElem?_singleton] at hi
      split at hi
      · cases hi
        rw [show i = reports.length by omega, List.take_left]
        exact hlast hx
      · cases hi

theorem sum_le_sum_toNat (l : List Int) : l.sum ≤ ((l.map Int.toNat).sum : Nat) := by
  induction l with
  | nil => exact Int.le_refl 0
  | cons x l ih =>
    rw [List.map_cons, List.sum_cons, List.sum_cons, Int.natCast_add]
    omega

/-- A sum has no negative items exactly when it is the sum without them. -/
theorem sum_eq_sum_toNat_iff (l : List Int) :
    l.sum = ((l.map Int.toNat).sum : Nat) ↔ ∀ x ∈ l, 0 ≤ x := by
  induction l with
  | nil => exact iff_of_true rfl (List.forall_mem_nil _)
  | cons x l ih =>
    have hle := sum_le_sum_toNat l
    rw [List.forall_mem_cons, ← ih, List.map_cons, List.sum_cons, List.sum_cons, Int.natCast_add]
    omega

/-- Places from `data` on, with room for them, are inside of the array when `data` is. -/
theorem Report.inside_iff {data count nb : Int} {w : List (Int × SensorsEvent)} (total : Int)
    (h : Report data count nb w) (hcount : count = total - data) :
    (∀ e ∈ w, 0 ≤ e.1 ∧ e.1 < total) ↔ (0 < nb → 0 ≤ data) := by
  cases h with
  | failed neg => exact ⟨fun _ h => by omega, fun _ _ h => nomatch h⟩
  | wrote le places =>
    have hplaces : (∀ e ∈ w, 0 ≤ e.1 ∧ e.1 < total) ↔
        ∀ i < w.length, 0 ≤ data + i ∧ data + i < total := by
      have hmap := List.forall_mem_map (f := Prod.fst) (l := w) (P := fun x => 0 ≤ x ∧ x < total)
      rw [← hmap, places, List.forall_mem_map]
      simp only [List.mem_range]
    rw [hplaces]
    constructor
    · intro h hpos
      have hfirst := h 0 (by omega)
      omega
    · intro h i hi
      have hdata := h (by omega)
      omega

theorem Report.length_eq {data count nb : Int} {w : List (Int × SensorsEvent)}
    (h : Report data count nb w) : w.length = nb.toNat := by
  cases h with
  | failed neg => exact (Int.toNat_of_nonpos (Int.le_of_lt neg)).symm
  | wrote => rfl

theorem Report.le {data count nb : Int} {w : List (Int × SensorsEvent)} (h : Report data count nb w) :
    nb < 0 ∨ nb ≤ count := by
  cases h with
  | failed neg => exact .inl neg
  | wrote le => exact .inr le

/-! ## The invariant -/

/-- The variables of the loop in terms of what the drivers returned; `whole` stands for what is known of
the reads. -/
structure Poll.Inv (count : Int) (whole : Prop) (s : Poll) : Prop where
  ready : ∀ d, (s.sensors d).Ready d.Ok
  data : s.data = s.reports.sum
  nbEvents : s.nbEvents = s.reports.sum
  left : s.count = count - s.reports.sum
  length : s.written.length = (s.reports.map Int.toNat).sum
  room : 0 ≤ count → 0 ≤ s.count
  inside : (∀ w ∈ s.written, 0 ≤ w.1 ∧ w.1 < count) ↔ StartInside s.reports
  clean : 0 ≤ count → whole → ∀ nb ∈ s.reports, 0 ≤ nb

variable {count : Int} {whole : Prop} {s : Poll}

theorem Poll.Inv.ask (h : s.Inv count whole) {read : Driver → ReadResult 16}
    (hread : whole → ∀ d, (read d).Whole) (i : Driver) :
    ∃ s', s.ask read i = some s' ∧ s'.Inv count whole := by
  unfold Poll.ask
  by_cases hguard : s.count ≠ 0 ∧ (s.revents i &&& POLLIN ≠ 0 ∨ hasPendingEvents = true)
  rotate_left
  · rw [if_neg hguard]
    exact ⟨s, rfl, h⟩
  obtain ⟨nb, w, sensor, hrun, hready, hreport, hneg⟩ :=
    readEvents_report i.handle_ok (h.ready i) (read i) s.data s.count
  rw [if_pos hguard, hrun]
  have hsum : (s.reports ++ [nb]).sum = s.reports.sum + nb := by
    rw [List.sum_append, List.sum_singleton]
  refine ⟨_, rfl, ?_, ?_, ?_, ?_, ?_, ?_, ?_, ?_⟩
  · -- The other drivers are as they were.
    intro d
    by_cases hd : d = i
    · subst hd
      dsimp only
      rwa [Function.update_self]
    · dsimp only
      rw [Function.update_of_ne hd]
      exact h.ready d
  · exact hsum ▸ congrArg (· + nb) h.data
  · exact hsum ▸ congrArg (· + nb) h.nbEvents
  · show s.count - nb = count - (s.reports ++ [nb]).sum
    rw [hsum, h.left]
    omega
  · show (s.written ++ w).length = ((s.reports ++ [nb]).map Int.toNat).sum
    rw [List.length_append, List.map_append, List.sum_append, h.length, hreport.length_eq]
    rfl
  · intro hcount
    have hroom := h.room hcount
    show 0 ≤ s.count - nb
    rcases hreport.le with hlt | hle
    · omega
    · omega
  · show (∀ e ∈ s.written ++ w, 0 ≤ e.1 ∧ e.1 < count) ↔ StartInside (s.reports ++ [nb])
    rw [List.forall_mem_append, startInside_snoc, h.inside, ← h.data,
      hreport.inside_iff count (by rw [h.left, h.data])]
  · intro hcount hwhole
    show ∀ x ∈ s.reports ++ [nb], 0 ≤ x
    rw [List.forall_mem_append, List.forall_mem_singleton]
    refine ⟨h.clean hcount hwhole, Int.not_lt.mp fun hlt => ?_⟩
    -- There is room, and the read does not fail.
    have hroom := h.room hcount
    rcases hneg.mp hlt with hless | ⟨-, hpartial⟩
    · have hne := hguard.1
      omega
    · exact hpartial (hread hwhole i)

theorem Poll.wait_cases (s : Poll) (poll : Int → PollAnswer) :
    ∃ revents wake, (s.wait poll).1 = { s with revents := revents, wake := wake } ∧
      ∀ n, (s.wait poll).2 = some (.number n) → n = s.nbEvents := by
  unfold wait
  split
  · split
    · exact ⟨s.revents, s.wake, rfl, fun n h => nomatch h⟩
    · dsimp only
      split
      · exact ⟨_, _, rfl, fun n h => nomatch h⟩
      · refine ⟨_, _, rfl, fun n h => ?_⟩
        cases h
        rfl
  · refine ⟨s.revents, s.wake, rfl, fun n h => ?_⟩
    cases h
    rfl

theorem Poll.Inv.wait (h : s.Inv count whole) (poll : Int → PollAnswer) :
    (s.wait poll).1.Inv count whole ∧
      ∀ n, (s.wait poll).2 = some (.number n) → n = (s.wait poll).1.nbEvents := by
  obtain ⟨revents, wake, heq, hnumber⟩ := s.wait_cases poll
  rw [heq]
  exact ⟨⟨h.ready, h.data, h.nbEvents, h.left, h.length, h.room, h.inside, h.clean⟩, hnumber⟩

/-- By induction on the rounds. -/
theorem Poll.Inv.loop (h : s.Inv count whole) {rounds : List Round}
    (hread : whole → ∀ r ∈ rounds, ∀ d, (r.read d).Whole) :
    ∃ s' ret, s.loop rounds = some (s', ret) ∧ s'.Inv count whole ∧
      ∀ n, ret = some (.number n) → n = s'.nbEvents := by
  induction rounds generalizing s with
  | nil => exact ⟨s, none, rfl, h, fun n hn => nomatch hn⟩
  | cons r rs ih =>
    obtain ⟨hr, hrs⟩ : (whole → ∀ d, (r.read d).Whole) ∧ (whole → ∀ r ∈ rs, ∀ d, (r.read d).Whole) :=
      ⟨fun hw => hread hw r List.mem_cons_self,
        fun hw r hr => hread hw r (List.mem_cons_of_mem _ hr)⟩
    have hall : RunOk (Poll.ask r.read) (fun _ _ => True) s Driver.all :=
      runOk_of_forall (fun _ _ => trivial) s Driver.all
    obtain ⟨s₁, hasked, h₁⟩ := run_exists (fun s i (hs : s.Inv count whole) _ => hs.ask hr i) h hall
    obtain ⟨h₂, hnumber⟩ := h₁.wait r.poll
    unfold Poll.loop
    rw [hasked]
    dsimp only [bind, Option.bind]
    split
    · rename_i s₂ hwait
      rw [hwait] at h₂
      exact ih h₂ hrs
    · rename_i s₂ ret hwait
      rw [hwait] at h₂ hnumber
      exact ⟨s₂, some ret, rfl, h₂, hnumber⟩

/-- **The loop.** It goes on or it is left, whatever the system calls answer. -/
theorem Context.pollEvents_inv (c : Context) (count : Int) {rounds : List Round}
    (hread : whole → ∀ r ∈ rounds, ∀ d, (r.read d).Whole) :
    ∃ s ret, c.pollEvents count rounds = some (s, ret) ∧ s.Inv count whole ∧
      ∀ n, ret = some (.number n) → n = s.nbEvents := by
  refine Poll.Inv.loop ?_ hread
  refine ⟨c.ready, rfl, rfl, (Int.sub_zero _).symm, rfl, id, ?_, fun _ _ => List.forall_mem_nil _⟩
  exact iff_of_true (List.forall_mem_nil _) startInside_nil

theorem Poll.Inv.good_iff (h : s.Inv count whole) {ret : Option Ret}
    (hnumber : ∀ n, ret = some (.number n) → n = s.nbEvents) :
    s.Good count ret ↔ StartInside s.reports ∧ NoneFailed count s.reports ret := by
  constructor
  · intro hgood
    refine ⟨h.inside.mp hgood.inside, fun n hret => ?_⟩
    obtain ⟨hpos, hle, hlen⟩ := hgood.number n hret
    refine ⟨Int.le_trans hpos hle, (sum_eq_sum_toNat_iff s.reports).mp ?_⟩
    rw [← h.length, ← hlen, hnumber n hret, h.nbEvents]
  · rintro ⟨hstart, hnone⟩
    refine ⟨h.inside.mpr hstart, fun n hret => ?_⟩
    obtain ⟨hcount, hclean⟩ := hnone n hret
    have hsum := (sum_eq_sum_toNat_iff s.reports).mpr hclean
    have hn := hnumber n hret
    have hroom := h.room hcount
    have hleft := h.left
    rw [h.nbEvents, hsum, ← h.length] at hn
    rw [hsum, ← h.length] at hleft
    omega

/-- **Whole events are read.** When the size of the array is not negative and every read gives whole
events, they are written inside of it, and their number is returned. -/
theorem Context.pollEvents_whole (c : Context) {count : Int} (hcount : 0 ≤ count) {rounds : List Round}
    (hread : ∀ r ∈ rounds, ∀ d, (r.read d).Whole) :
    ∃ s ret, c.pollEvents count rounds = some (s, ret) ∧ s.Good count ret := by
  obtain ⟨s, ret, hrun, hinv, hnumber⟩ := c.pollEvents_inv count fun (_ : True) => hread
  have hclean := hinv.clean hcount trivial
  have hstart : StartInside s.reports := by
    intro i nb _ _
    have hsum := (sum_eq_sum_toNat_iff (s.reports.take i)).mpr fun x hx =>
      hclean x (List.mem_of_mem_take hx)
    rw [hsum]
    exact Int.natCast_nonneg _
  exact ⟨s, ret, hrun, (hinv.good_iff hnumber).mpr ⟨hstart, fun _ _ => ⟨hcount, hclean⟩⟩⟩

/-- **The array of `pollEvents`.** For every state of the drivers, every size of the array and whatever
the system calls answer: `pollEvents` writes inside of the array, and returns the number of the events or
the failure of `poll`, exactly when no driver delivers events while the results before add up to less
than zero, and, if it returns and `poll` did not fail, the size and the results of the drivers are not
negative. -/
theorem pollEvents_good_iff (c : Context) (count : Int) (rounds : List Round) :
    ∃ s ret, c.pollEvents count rounds = some (s, ret) ∧
      (s.Good count ret ↔ StartInside s.reports ∧ NoneFailed count s.reports ret) := by
  obtain ⟨s, ret, hrun, hinv, hnumber⟩ := c.pollEvents_inv count (False.elim : False → _)
  exact ⟨s, ret, hrun, hinv.good_iff hnumber⟩

/-! ## A read that fails -/

/-- An event of zeros, which is a `SYN` event. -/
def synEvent : Event 16 := ⟨List.replicate 16 0, List.length_replicate⟩

/-- What `memset` leaves. -/
def zeroEvent : SensorsEvent := ⟨0, 0, 0, 0, 0, 0, 0, 0⟩

/-- The event of a sensor, with `SENSOR_STATUS_ACCURACY_HIGH`. -/
def initEvent (sensor type : Int32) : SensorsEvent :=
  { zeroEvent with version := 104, sensor := sensor, type := type, status := 3 }

/-- The drivers as they are constructed, when the devices have no values yet. -/
def newSensors : (d : Driver) → Input d.State
  | .kxte9 => ⟨.new 1 (List.replicate 2 synEvent), ⟨0, initEvent 0 1⟩⟩
  | .yas529 => ⟨.new 32 (List.replicate 64 synEvent),
      ⟨2, 0, Function.update (fun _ => zeroEvent) MagneticField (initEvent 1 2)⟩⟩
  | .orient => ⟨.new 32 (List.replicate 64 synEvent),
      ⟨1, 0, Function.update (fun _ => zeroEvent) Accelerometer (initEvent 2 1)⟩⟩

theorem newSensors_ready : (d : Driver) → (newSensors d).Ready d.Ok
  | .kxte9 => ⟨⟨[], represents_new (by decide) List.length_replicate⟩, trivial⟩
  | .yas529 => ⟨⟨[], represents_new (by decide) List.length_replicate⟩, Nat.two_pow_pos 3⟩
  | .orient => ⟨⟨[], represents_new (by decide) List.length_replicate⟩, Nat.two_pow_pos 3⟩

/-- `sensors_poll_context_t::sensors_poll_context_t`. -/
def newContext : Context := ⟨newSensors, fun _ => 0, 0, newSensors_ready⟩

/-- `poll` says that one driver is ready. -/
def readyOnly (d : Driver) : Int → PollAnswer := fun _ =>
  .ready 1 (Function.update (fun _ => 0) d POLLIN) 0

/-- The device of the magnetometer is gone (`ENODEV`); then the accelerometer has an event. -/
def deviceGone : List Round :=
  [⟨fun _ => .bytes [] (by decide), readyOnly .yas529⟩,
    ⟨fun _ => .error 19 (by decide), readyOnly .kxte9⟩,
    ⟨fun _ => .bytes synEvent.bytes (by decide), fun _ => .ready 0 (fun _ => 0) 0⟩]

/-- With an array of 8 events, one event is written 19 places before it, and `-18` is returned. -/
theorem write_before_array :
    ∃ s ret, newContext.pollEvents 8 deviceGone = some (s, ret) ∧ s.written.map Prod.fst = [-19] ∧
      s.reports = [-19, 1] ∧ ret = some (.number (-18)) ∧ ¬ s.Good 8 ret := by
  refine ⟨_, _, rfl, rfl, rfl, rfl, fun hgood => ?_⟩
  have hn := hgood.number (-18) rfl
  exact absurd hn.1 (by decide)

end Twm.Sensors
