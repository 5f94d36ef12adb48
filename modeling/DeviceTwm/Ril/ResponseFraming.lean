import DeviceTwm.Ril.Responses

/-!
# The framing of responses

Any number of threads in `sendResponseRaw`, on one connection. A thread tests the size, takes
`s_writeMutex`, writes the length and then the data, and gives the mutex back. Each of the two is a
loop of `blockingWrite`: a `write` may be interrupted, and may take fewer bytes than it is given. No
write fails otherwise.

* `Inv`: what is on the socket, and what the thread with the mutex still has to write, are the frames
  of the responses for which the mutex was taken, in this order.
* `run_framed`: so it is after every run. Every thread sends its own responses in order, each once; those
  that are larger than `MAX_COMMAND_BYTES` are not sent, and -1 is returned for them.
-/

open Lib

namespace Twm.Ril.Framing

/-- Where a thread is in `sendResponseRaw`. -/
inductive Place
  /-- In no call. -/
  | idle
  /-- At the tests of `s_fdCommand` and of the size. -/
  | test (data : List UInt8)
  /-- At `pthread_mutex_lock`. -/
  | lock (data : List UInt8)
  /-- In `blockingWrite` of the header. -/
  | head (writeOffset : Nat) (data : List UInt8)
  /-- In `blockingWrite` of the data. -/
  | body (writeOffset : Nat) (data : List UInt8)
  /-- At the last `pthread_mutex_unlock`. -/
  | unlock (data : List UInt8)
  deriving DecidableEq

structure Thread where
  place : Place
  /-- The responses that it has called `sendResponseRaw` with. -/
  called : List (List UInt8)
  /-- The responses for which the call is over, with what it returned. -/
  returned : List (List UInt8 × Int)

structure State where
  threads : Nat → Thread
  /-- The thread that holds `s_writeMutex`. -/
  writer : Option Nat
  /-- The bytes written to the socket. -/
  socket : List UInt8
  /-- The responses for which the mutex was taken, with the thread that took it. -/
  taken : List (Nat × List UInt8)

def State.init : State where
  threads := fun _ => ⟨.idle, [], []⟩
  writer := none
  socket := []
  taken := []

/-- One round of the loop of `blockingWrite`: the offset after it, and the bytes that are written.
The result of `write` is nothing for `EINTR`. -/
def blockingWrite (toWrite : List UInt8) (writeOffset : Nat) :
    Option Nat → Option (Nat × List UInt8)
  | none => some (writeOffset, [])
  | some written =>
    if written ≤ toWrite.length - writeOffset then
      some (writeOffset + written, (toWrite.drop writeOffset).take written)
    else none

namespace State

variable (s : State) (v : Nat)

def setThread (t : Thread) : State := { s with threads := Function.update s.threads v t }

/-- Thread `v` at another place of its call. -/
def goto (k : Place) : State := s.setThread v { s.threads v with place := k }

/-- The call of thread `v` is over. -/
def finish (data : List UInt8) (ret : Int) : State :=
  s.setThread v
    { s.threads v with place := .idle, returned := (s.threads v).returned ++ [(data, ret)] }

/-- Bytes of thread `v` go to the socket. -/
def write (toWrite : List UInt8) (writeOffset : Nat) (next : Nat → Place) (result : Option Nat) :
    Option State :=
  (blockingWrite toWrite writeOffset result).map fun w =>
    { s.goto v (next w.1) with socket := s.socket ++ w.2 }

/-- `sendResponseRaw` is called. -/
def call (data : List UInt8) : State :=
  s.setThread v { s.threads v with place := .test data, called := (s.threads v).called ++ [data] }

/-- The next step of a call; `result` is that of a `write`. -/
def sendResponseRaw (fdCommand : Option Nat) (result : Option Nat) : Option State :=
  match (s.threads v).place with
  | .idle => none
  | .test data =>
    if fdCommand = none then some (s.finish v data (-1))
    else if maxCommandBytes < data.length then some (s.finish v data (-1))
    else some (s.goto v (.lock data))
  | .lock data =>
    if s.writer = none then
      some { s.goto v (.head 0 data) with writer := some v, taken := s.taken ++ [(v, data)] }
    else none
  | .head writeOffset data =>
    if writeOffset < (header data).length then
      s.write v (header data) writeOffset (fun n => .head n data) result
    else some (s.goto v (.body 0 data))
  | .body writeOffset data =>
    if writeOffset < data.length then
      s.write v data writeOffset (fun n => .body n data) result
    else some (s.goto v (.unlock data))
  | .unlock data => some { s.finish v data 0 with writer := none }

end State

inductive Act
  /-- Thread `v` calls `sendResponseRaw`. -/
  | call (v : Nat) (data : List UInt8)
  /-- Thread `v` goes on. -/
  | go (v : Nat) (result : Option Nat)

def step (fdCommand : Option Nat) (s : State) : Act → Option State
  | .call v data => if (s.threads v).place = .idle then some (s.call v data) else none
  | .go v result => s.sendResponseRaw v fdCommand result

/-! ## Frames -/

/-- A length in four bytes, the high one first, and the data. -/
def frame (data : List UInt8) : List UInt8 :=
  [UInt8.ofNat (data.length / 2 ^ 24), UInt8.ofNat (data.length / 2 ^ 16),
    UInt8.ofNat (data.length / 2 ^ 8), UInt8.ofNat data.length] ++ data

theorem header_append (data : List UInt8) : header data ++ data = frame data := rfl

/-- The frames of the responses for which the mutex was taken. -/
def State.frames (s : State) : List UInt8 := s.taken.flatMap fun x => frame x.2

/-- The responses for which thread `v` took the mutex. -/
def State.takenBy (s : State) (v : Nat) : List (List UInt8) :=
  (s.taken.filter (·.1 = v)).map (·.2)

/-- What a thread still has to write with the mutex that it holds. -/
def Place.left : Place → List UInt8
  | .head writeOffset data => (header data).drop writeOffset ++ data
  | .body writeOffset data => data.drop writeOffset
  | .idle | .test _ | .lock _ | .unlock _ => []

/-- The thread holds the mutex. -/
def Place.Inside : Place → Prop
  | .head .. | .body .. | .unlock _ => True
  | .idle | .test _ | .lock _ => False

/-- A response past the tests is not too large. -/
def Place.Fits : Place → Prop
  | .idle | .test _ => True
  | .lock data | .head _ data | .body _ data | .unlock data => data.length ≤ maxCommandBytes

/-- The response of the call that is going on. -/
def Place.current : Place → List (List UInt8)
  | .idle => []
  | .test data | .lock data | .head _ data | .body _ data | .unlock data => [data]

/-- The response for which the mutex will be taken. -/
def Place.waiting : Place → List (List UInt8)
  | .test data => if data.length ≤ maxCommandBytes then [data] else []
  | .lock data => [data]
  | .idle | .head .. | .body .. | .unlock _ => []

/-- What is still to be written of the responses for which the mutex was taken. -/
def State.left (s : State) : List UInt8 :=
  match s.writer with
  | none => []
  | some v => (s.threads v).place.left

/-- What is returned for a response. -/
def result (data : List UInt8) : Int := if data.length ≤ maxCommandBytes then 0 else -1

/-- The calls of a thread that took the mutex for the responses `taken`. -/
structure Thread.Calls (t : Thread) (taken : List (List UInt8)) : Prop where
  fits : t.place.Fits
  sent : taken ++ t.place.waiting = t.called.filter (·.length ≤ maxCommandBytes)
  finished : t.returned.map Prod.fst ++ t.place.current = t.called
  results : ∀ r ∈ t.returned, r.2 = result r.1

structure Inv (s : State) : Prop where
  mutex : ∀ v, (s.threads v).place.Inside ↔ s.writer = some v
  bytes : s.socket ++ s.left = s.frames
  calls : ∀ v, (s.threads v).Calls (s.takenBy v)

/-! ## Steps -/

/-- A round of `blockingWrite` writes what comes next. -/
theorem blockingWrite_drop {toWrite : List UInt8} {writeOffset : Nat} {out : Option Nat}
    {w : Nat × List UInt8} (h : blockingWrite toWrite writeOffset out = some w) :
    toWrite.drop writeOffset = w.2 ++ toWrite.drop w.1 := by
  cases out with
  | none =>
    cases h
    rfl
  | some written =>
    rw [blockingWrite] at h
    split at h
    · cases h
      rw [← List.drop_drop, List.take_append_drop]
    · cases h

theorem takenBy_append (s : State) (v w : Nat) (data : List UInt8) :
    State.takenBy { s with taken := s.taken ++ [(v, data)] } w =
      s.takenBy w ++ if v = w then [data] else [] := by
  simp only [State.takenBy, List.filter_append, List.map_append]
  split <;> simp_all

namespace Thread.Calls

variable {t : Thread} {taken : List (List UInt8)}

/-- A thread goes on with its call. -/
theorem goto (h : t.Calls taken) {k : Place} (hf : k.Fits) (hw : k.waiting = t.place.waiting)
    (hc : k.current = t.place.current) : Thread.Calls { t with place := k } taken where
  fits := hf
  sent := by
    rw [← h.sent, ← hw]
  finished := by
    show t.returned.map Prod.fst ++ k.current = t.called
    rw [hc]
    exact h.finished
  results := h.results

/-- A thread gets the mutex for the response that it is to send. -/
theorem take (h : t.Calls taken) {data : List UInt8} (hk : t.place = .lock data) :
    Thread.Calls { t with place := .head 0 data } (taken ++ [data]) where
  fits := by
    have hf := h.fits
    rwa [hk] at hf
  sent := by
    have hs := h.sent
    rw [hk] at hs
    show taken ++ [data] ++ [] = _
    rw [List.append_nil]
    exact hs
  finished := by
    have hd := h.finished
    rwa [hk] at hd
  results := h.results

theorem call (h : t.Calls taken) (hk : t.place = .idle) (data : List UInt8) :
    Thread.Calls { t with place := .test data, called := t.called ++ [data] } taken where
  fits := trivial
  sent := by
    have hs := h.sent
    rw [hk] at hs
    rw [List.filter_append, ← hs, List.append_assoc]
    congr 1
    by_cases hfit : data.length ≤ maxCommandBytes <;> simp [Place.waiting, hfit]
  finished := by
    have hd := h.finished
    rw [hk] at hd
    rw [← hd]
    simp [Place.current]
  results := h.results

/-- A call is over; nothing waits for the mutex any more. -/
theorem finish (h : t.Calls taken) {data : List UInt8} (hc : t.place.current = [data])
    (hw : t.place.waiting = []) :
    Thread.Calls { t with place := .idle, returned := t.returned ++ [(data, result data)] } taken where
  fits := trivial
  sent := by
    rw [← h.sent, hw]
    rfl
  finished := by
    rw [← h.finished, hc]
    simp [Place.current]
  results r hr := by
    rcases List.mem_append.mp hr with hr | hr
    · exact h.results r hr
    · rw [List.mem_singleton.mp hr]

end Thread.Calls

namespace Inv

variable {s : State} (h : Inv s) {v : Nat}

include h

/-- What is left to write does not depend on a thread without the mutex. -/
theorem left_outside (hout : ¬ (s.threads v).place.Inside) (t : Thread) :
    (s.setThread v t).left = s.left := by
  have hne : s.writer ≠ some v := fun hw => hout ((h.mutex v).mpr hw)
  unfold State.left State.setThread
  cases hw : s.writer with
  | none => rfl
  | some w =>
    have hwv : w ≠ v := fun e => hne (by rw [hw, e])
    simp [Function.update_of_ne hwv]

theorem left_inside (hin : (s.threads v).place.Inside) : s.left = (s.threads v).place.left := by
  rw [State.left, (h.mutex v).mp hin]

theorem mutex_keeps {t : Thread} (hin : t.place.Inside ↔ (s.threads v).place.Inside) (w : Nat) :
    (Function.update s.threads v t w).place.Inside ↔ s.writer = some w := by
  by_cases hw : w = v
  · rw [hw, Function.update_self, hin]
    exact h.mutex v
  · rw [Function.update_of_ne hw]
    exact h.mutex w

theorem calls_keep {t : Thread} (ht : t.Calls (s.takenBy v)) (w : Nat) :
    (Function.update s.threads v t w).Calls (s.takenBy w) := by
  by_cases hw : w = v
  · rw [hw, Function.update_self]
    exact ht
  · rw [Function.update_of_ne hw]
    exact h.calls w

/-- A thread without the mutex goes on, and does not get it. -/
theorem outside {t : Thread} (hout : ¬ (s.threads v).place.Inside) (ht : ¬ t.place.Inside)
    (hcalls : t.Calls (s.takenBy v)) : Inv (s.setThread v t) where
  mutex := h.mutex_keeps (iff_of_false ht hout)
  bytes := by
    rw [h.left_outside hout]
    exact h.bytes
  calls := h.calls_keep hcalls

/-- A thread gets the mutex. -/
theorem lock {data : List UInt8} (hk : (s.threads v).place = .lock data) (hw : s.writer = none) :
    Inv { s.goto v (.head 0 data) with writer := some v, taken := s.taken ++ [(v, data)] } where
  mutex w := by
    show (Function.update s.threads v _ w).place.Inside ↔ some v = some w
    by_cases hwv : w = v
    · rw [hwv, Function.update_self]
      exact iff_of_true trivial rfl
    · rw [Function.update_of_ne hwv, h.mutex w, hw]
      exact iff_of_false (Option.some_ne_none w).symm fun e => hwv (Option.some.inj e).symm
  bytes := by
    have hb := h.bytes
    rw [State.left, hw, List.append_nil] at hb
    have hl : State.left { s.goto v (.head 0 data) with
        writer := some v, taken := s.taken ++ [(v, data)] } = frame data := by
      simp [State.left, State.goto, State.setThread, Place.left, header_append]
    rw [hl]
    show s.socket ++ frame data = (s.taken ++ [(v, data)]).flatMap fun x => frame x.2
    rw [hb, List.flatMap_append, State.frames]
    simp
  calls w := by
    show (Function.update s.threads v _ w).Calls (State.takenBy { s with
      taken := s.taken ++ [(v, data)] } w)
    rw [takenBy_append]
    by_cases hwv : w = v
    · rw [hwv, Function.update_self, if_pos rfl]
      exact (h.calls v).take hk
    · rw [Function.update_of_ne hwv, if_neg (Ne.symm hwv), List.append_nil]
      exact h.calls w

/-- The thread with the mutex writes the next of its bytes, or none. -/
theorem writes {k k' : Place} {b : List UInt8} (hk : (s.threads v).place = k) (hin : k.Inside)
    (hin' : k'.Inside) (hleft : k.left = b ++ k'.left) (hf : k.Fits → k'.Fits)
    (hwait : k'.waiting = k.waiting) (hcur : k'.current = k.current) :
    Inv { s.goto v k' with socket := s.socket ++ b } := by
  subst hk
  refine ⟨h.mutex_keeps (iff_of_true hin' hin), ?_,
    h.calls_keep ((h.calls v).goto (hf (h.calls v).fits) hwait hcur)⟩
  have hb := h.bytes
  rw [h.left_inside hin, hleft, ← List.append_assoc] at hb
  have hl : State.left { s.goto v k' with socket := s.socket ++ b } = k'.left := by
    simp [State.left, State.goto, State.setThread, (h.mutex v).mp hin]
  rw [hl]
  exact hb

/-- A buffer is written. -/
theorem written {k k' : Place} (hk : (s.threads v).place = k) (hin : k.Inside) (hin' : k'.Inside)
    (hleft : k.left = k'.left) (hf : k.Fits → k'.Fits) (hwait : k'.waiting = k.waiting)
    (hcur : k'.current = k.current) : Inv (s.goto v k') := by
  have hw := h.writes (b := []) hk hin hin' hleft hf hwait hcur
  rwa [List.append_nil] at hw

/-- The thread with the mutex has written everything, and gives it back. -/
theorem unlock {data : List UInt8} (hk : (s.threads v).place = .unlock data) :
    Inv { s.finish v data 0 with writer := none } where
  mutex w := by
    have hv := (h.mutex v).mp (by rw [hk]; trivial)
    show (Function.update s.threads v _ w).place.Inside ↔ none = some w
    by_cases hwv : w = v
    · rw [hwv, Function.update_self]
      exact iff_of_false id (Option.some_ne_none v).symm
    · rw [Function.update_of_ne hwv, h.mutex w, hv]
      exact iff_of_false (fun e => hwv (Option.some.inj e).symm)
        (Option.some_ne_none w).symm
  bytes := by
    have hb := h.bytes
    rw [h.left_inside (by rw [hk]; trivial), hk] at hb
    exact hb
  calls := by
    have hf := (h.calls v).fits
    rw [hk] at hf
    have hret : result data = 0 := if_pos hf
    rw [← hret]
    exact h.calls_keep ((h.calls v).finish (by rw [hk]; rfl) (by rw [hk]; rfl))

/-- A round of `blockingWrite`, of a buffer that is what `k` has left up to `rest`. -/
theorem write {toWrite rest : List UInt8} {writeOffset : Nat} {k : Nat → Place} {out : Option Nat}
    {s' : State} (hs : s.write v toWrite writeOffset k out = some s')
    (hk : (s.threads v).place = k writeOffset) (hleft : ∀ n, (k n).left = toWrite.drop n ++ rest)
    (hin : ∀ n, (k n).Inside) (hf : ∀ n, (k writeOffset).Fits → (k n).Fits)
    (hwait : ∀ n, (k n).waiting = (k writeOffset).waiting)
    (hcur : ∀ n, (k n).current = (k writeOffset).current) : Inv s' := by
  obtain ⟨w, hw, rfl⟩ := Option.map_eq_some_iff.mp hs
  refine h.writes hk (hin _) (hin _) ?_ (hf _) (hwait _) (hcur _)
  rw [hleft, hleft, blockingWrite_drop hw, List.append_assoc]

end Inv

theorem Inv.init : Inv State.init where
  mutex v := iff_of_false id (Option.some_ne_none v).symm
  bytes := rfl
  calls _ := ⟨trivial, rfl, rfl, fun _ hr => absurd hr List.not_mem_nil⟩

theorem Inv.sendResponseRaw {s s' : State} (h : Inv s) {v fd : Nat} {out : Option Nat}
    (hs : s.sendResponseRaw v (some fd) out = some s') : Inv s' := by
  unfold State.sendResponseRaw at hs
  split at hs
  · cases hs
  · next data hk =>
    have hout : ¬ (s.threads v).place.Inside := by
      rw [hk]
      exact id
    split at hs
    · next hfd => cases hfd
    split at hs
    · next hlarge =>
      cases hs
      have hret : result data = -1 := if_neg (Nat.not_le.mpr hlarge)
      rw [State.finish, ← hret]
      refine h.outside hout id ((h.calls v).finish (by rw [hk]; rfl) ?_)
      rw [hk]
      exact if_neg (Nat.not_le.mpr hlarge)
    · next hfit =>
      cases hs
      refine h.outside hout id ((h.calls v).goto (Nat.not_lt.mp hfit) ?_ (by rw [hk]; rfl))
      rw [hk]
      exact (if_pos (Nat.not_lt.mp hfit)).symm
  · next data hk =>
    split at hs
    · next hw =>
      cases hs
      exact h.lock hk hw
    · cases hs
  · next off data hk =>
    split at hs
    · exact h.write hs hk (fun _ => rfl) (fun _ => trivial) (fun _ => id) (fun _ => rfl)
        fun _ => rfl
    · next hend =>
      cases hs
      refine h.written hk trivial trivial ?_ id rfl rfl
      rw [Place.left, List.drop_eq_nil_of_le (Nat.not_lt.mp hend)]
      rfl
  · next off data hk =>
    split at hs
    · exact h.write hs hk (fun _ => (List.append_nil _).symm) (fun _ => trivial) (fun _ => id)
        (fun _ => rfl) fun _ => rfl
    · next hend =>
      cases hs
      exact h.written hk trivial trivial (List.drop_eq_nil_of_le (Nat.not_lt.mp hend)) id rfl rfl
  · next data hk =>
    cases hs
    exact h.unlock hk

theorem Inv.step {s s' : State} (h : Inv s) {fd : Nat} {a : Act}
    (hs : Framing.step (some fd) s a = some s') : Inv s' := by
  cases a with
  | call v data =>
    simp only [Framing.step] at hs
    split at hs
    · next hk =>
      cases hs
      refine h.outside ?_ id ((h.calls v).call hk data)
      rw [hk]
      exact id
    · cases hs
  | go v out => exact h.sendResponseRaw hs

/-! ## Runs -/

/-- The thread is in no call. -/
def State.Idle (s : State) (v : Nat) : Prop := (s.threads v).place = .idle

/-- What a thread is to get for its responses. -/
def Thread.expected (t : Thread) : List (List UInt8 × Int) :=
  t.called.map fun data => (data, result data)

/-- The responses of a thread that are not too large. -/
def Thread.small (t : Thread) : List (List UInt8) :=
  t.called.filter (·.length ≤ maxCommandBytes)

structure Framed (s : State) : Prop where
  /-- Nothing but frames is on the socket, in the order in which the mutex was taken; while a thread
  holds it, there may be some bytes missing at the end. -/
  frames : ∃ left, s.socket ++ left = s.frames ∧ (s.writer = none → left = [])
  fits : ∀ x ∈ s.taken, x.2.length ≤ maxCommandBytes
  /-- A thread takes the mutex for its responses that are not too large, in order, each once. -/
  order : ∀ v, s.takenBy v <+: (s.threads v).small
  sent : ∀ v, s.Idle v → s.takenBy v = (s.threads v).small
  results : ∀ v, (s.threads v).returned <+: (s.threads v).expected
  finished : ∀ v, s.Idle v → (s.threads v).returned = (s.threads v).expected

theorem Thread.Calls.returned_eq {t : Thread} {taken : List (List UInt8)} (h : t.Calls taken) :
    t.returned = (t.returned.map Prod.fst).map fun data => (data, result data) := by
  rw [List.map_map]
  conv_lhs => rw [← List.map_id t.returned]
  apply List.map_congr_left
  intro r hr
  exact Prod.ext rfl (h.results r hr)

theorem Inv.framed {s : State} (h : Inv s) : Framed s where
  frames := by
    refine ⟨s.left, h.bytes, fun hw => ?_⟩
    rw [State.left, hw]
  fits x hx := by
    have hmem : x.2 ∈ s.takenBy x.1 :=
      List.mem_map.mpr ⟨x, List.mem_filter.mpr ⟨hx, decide_eq_true rfl⟩, rfl⟩
    have hs := List.mem_append_left (s.threads x.1).place.waiting hmem
    rw [(h.calls x.1).sent] at hs
    exact of_decide_eq_true (List.mem_filter.mp hs).2
  order v := ⟨_, (h.calls v).sent⟩
  sent v hv := by
    have hs := (h.calls v).sent
    rw [State.Idle] at hv
    rw [hv] at hs
    rwa [show Place.idle.waiting = [] from rfl, List.append_nil] at hs
  results v := by
    rw [(h.calls v).returned_eq, Thread.expected, ← (h.calls v).finished, List.map_append]
    exact List.prefix_append _ _
  finished v hv := by
    have hf := (h.calls v).finished
    rw [State.Idle] at hv
    rw [hv, show Place.idle.current = [] from rfl, List.append_nil] at hf
    rw [(h.calls v).returned_eq, hf, Thread.expected]

/-- **Framing of the responses.** Whatever the threads send, in whichever order they go on, and however
their writes are cut or interrupted: on the socket are whole frames, in the order in which the mutex
was taken. -/
theorem run_framed {fd : Nat} {as : List Act} {s : State}
    (h : run (Framing.step (some fd)) State.init as = some s) : Framed s :=
  (run_keeps (fun _ _ _ hs hstep => Inv.step hs hstep) Inv.init h).framed

/-- Two responses, in the other order than they were called, and one that is too large. The writes of
the first are cut, and interrupted. -/
theorem run_framed_two :
    ∃ s, run (Framing.step (some 5)) State.init
        [.call 0 [1, 2], .call 1 [3], .call 2 (List.replicate 8193 0), .go 0 none, .go 1 none,
          .go 1 none, .go 1 (some 3), .go 1 none, .go 2 none, .go 1 (some 1), .go 1 none,
          .go 1 (some 1), .go 1 none, .go 1 none, .go 0 none, .go 0 (some 4), .go 0 none,
          .go 0 (some 0), .go 0 (some 2), .go 0 none, .go 0 none] = some s ∧
      s.socket = [0, 0, 0, 1, 3, 0, 0, 0, 2, 1, 2] ∧ Framed s := by
  have hrun : ((run (Framing.step (some 5)) State.init
      [.call 0 [1, 2], .call 1 [3], .call 2 (List.replicate 8193 0), .go 0 none, .go 1 none,
        .go 1 none, .go 1 (some 3), .go 1 none, .go 2 none, .go 1 (some 1), .go 1 none,
        .go 1 (some 1), .go 1 none, .go 1 none, .go 0 none, .go 0 (some 4), .go 0 none,
        .go 0 (some 0), .go 0 (some 2), .go 0 none, .go 0 none]).map (·.socket)) =
          some [0, 0, 0, 1, 3, 0, 0, 0, 2, 1, 2] := by
    decide +kernel
  obtain ⟨s, hs, hsocket⟩ := Option.map_eq_some_iff.mp hrun
  exact ⟨s, hs, hsocket, run_framed hs⟩

end Twm.Ril.Framing
