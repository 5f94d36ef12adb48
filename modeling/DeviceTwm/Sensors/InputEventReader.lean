import DeviceTwm.Lib.Circular
import DeviceTwm.Lib.Run

/-!
# The buffer of sensor events (`InputEventReader.cpp`)

`InputEventCircularReader` reads input events from a device into an array that has twice as many places
as the queue: an event may be read into the second half, and is then copied to the start.

* `Reader`: the array and the pointers into it, as indices; `none` stands for an access outside of the
  array.
* `Queue.fill`: what `fill` is for, on the list of the pending events. `fill_refines`,
  `readEvent_refines` and `next_refines`: the reader does that.
* `session_faithful`: over all calls, the events that were handed out and those that are pending are
  the events that were read.
-/

open Lib

namespace Twm.Sensors

/-- An `input_event`, of `sz` bytes. -/
structure Event (sz : Nat) where
  bytes : List UInt8
  length_eq : bytes.length = sz

variable {sz : Nat}

theorem Event.ext {e e' : Event sz} (h : e.bytes = e'.bytes) : e = e' := by
  cases e
  cases e'
  cases h
  rfl

/-- The event after bytes were read into it. -/
def Event.overwrite (e : Event sz) (b : List UInt8) (h : b.length ≤ sz) : Event sz where
  bytes := b ++ e.bytes.drop b.length
  length_eq := by
    rw [List.length_append, List.length_drop, e.length_eq]
    omega

/-- What `read` returns that was asked for `sz` bytes. -/
inductive ReadResult (sz : Nat)
  | error (errno : Nat) (pos : 0 < errno)
  | bytes (b : List UInt8) (le : b.length ≤ sz)

/-- `InputEventCircularReader`; the pointers are indices of `mBuffer`. -/
structure Reader (sz : Nat) where
  buffer : List (Event sz)
  bufferEnd : Nat
  head : Nat
  curr : Nat
  freeSpace : Int

/-- The constructor; the array comes with whatever is in it. -/
def Reader.new (numEvents : Nat) (buffer : List (Event sz)) : Reader sz :=
  ⟨buffer, numEvents, 0, 0, numEvents⟩

/-- `memcpy(mBuffer, mBuffer + src, n)`. -/
def copyToFront (buffer : List (Event sz)) (src n : Nat) : Option (List (Event sz)) :=
  if src + n ≤ buffer.length ∧ n ≤ src then some ((buffer.drop src).take n ++ buffer.drop n) else none

def EINVAL : Int := 22

def Reader.fill (r : Reader sz) (result : ReadResult sz) : Option (Int × Reader sz) :=
  if r.freeSpace ≠ 0 then do
    -- `read` is given the place of one event, whatever space is free.
    let place ← r.buffer[r.head]?
    match result with
    | .error errno _ => some (-errno, r)
    | .bytes b h =>
      let r := { r with buffer := r.buffer.set r.head (place.overwrite b h) }
      if b.length % sz ≠ 0 then some (-EINVAL, r)
      else
        let numEventsRead := b.length / sz
        if numEventsRead ≠ 0 then
          let r := { r with
            head := r.head + numEventsRead, freeSpace := r.freeSpace - numEventsRead }
          if r.bufferEnd < r.head then do
            let s := r.head - r.bufferEnd
            let buffer ← copyToFront r.buffer r.bufferEnd s
            some (numEventsRead, { r with buffer := buffer, head := s })
          else some (numEventsRead, r)
        else some (0, r)
  else some (0, r)

/-- What is returned, and `*events`. -/
def Reader.readEvent (r : Reader sz) : Int × Nat :=
  let available := r.bufferEnd - r.freeSpace
  (if available ≠ 0 then 1 else 0, r.curr)

def Reader.next (r : Reader sz) : Reader sz :=
  { r with
    curr := if r.bufferEnd ≤ r.curr + 1 then 0 else r.curr + 1
    freeSpace := r.freeSpace + 1 }

/-! ## The queue -/

/-- The whole events of a read. -/
def ReadResult.events : ReadResult sz → List (Event sz)
  | error _ _ => []
  | bytes b _ => if h : b.length = sz then [⟨b, h⟩] else []

/-- The read did not fail, and gave no part of an event. -/
def ReadResult.Whole : ReadResult sz → Prop
  | error _ _ => False
  | bytes b _ => b.length % sz = 0

instance ReadResult.decidableWhole : DecidablePred (@ReadResult.Whole sz)
  | error _ _ => .isFalse id
  | bytes b _ => inferInstanceAs (Decidable (b.length % sz = 0))

/-- `fill` on the pending events, with room for `n`. -/
def Queue.fill (n : Nat) (pending : List (Event sz)) (result : ReadResult sz) :
    Int × List (Event sz) :=
  if pending.length = n then (0, pending)
  else
    match result with
    | .error errno _ => (-errno, pending)
    | .bytes b _ =>
      if b.length % sz ≠ 0 then (-EINVAL, pending)
      else ((b.length / sz : Nat), pending ++ result.events)

/-- The reader has these events pending. -/
structure Reader.Represents (r : Reader sz) (pending : List (Event sz)) : Prop where
  length_buffer : r.buffer.length = r.bufferEnd * 2
  curr_lt : r.curr < r.bufferEnd
  head_le : r.head ≤ r.bufferEnd
  head_mod : r.head % r.bufferEnd = (r.curr + pending.length) % r.bufferEnd
  length_le : pending.length ≤ r.bufferEnd
  free : r.freeSpace = r.bufferEnd - pending.length
  queued : Queued r.buffer r.bufferEnd r.curr pending

variable {r : Reader sz} {pending : List (Event sz)} {buffer : List (Event sz)} {e : Event sz}

/-- One event is copied from the second half to the start. -/
theorem copyToFront_one {n : Nat} (hlen : buffer.length = n * 2) (hpos : 0 < n) :
    ∃ buffer', copyToFront buffer n 1 = some buffer' ∧ buffer'.length = buffer.length ∧
      buffer'[0]? = buffer[n]? ∧ ∀ j, j ≠ 0 → buffer'[j]? = buffer[j]? := by
  have hfront : ((buffer.drop n).take 1).length = 1 := by
    rw [List.length_take, List.length_drop]
    omega
  refine ⟨_, if_pos ⟨by omega, hpos⟩, ?_, ?_, fun j hj => ?_⟩
  · rw [List.length_append, hfront, List.length_drop]
    omega
  · rw [List.getElem?_append_left (by omega), List.getElem?_take_of_lt Nat.zero_lt_one,
      List.getElem?_drop, Nat.add_zero]
  · rw [List.getElem?_append_right (by omega), hfront, List.getElem?_drop,
      Nat.add_sub_cancel' (Nat.pos_of_ne_zero hj)]

namespace Reader.Represents

theorem full_iff (h : r.Represents pending) : r.freeSpace = 0 ↔ pending.length = r.bufferEnd := by
  rw [h.free]
  omega

/-- The place at the head is not one of the pending events. -/
theorem getElem?_set_head (h : r.Represents pending) :
    ∀ j < r.bufferEnd, j ≠ (r.curr + pending.length) % r.bufferEnd →
      (r.buffer.set r.head e)[j]? = r.buffer[j]? := by
  intro j hj hne
  refine List.getElem?_set_ne fun heq => hne ?_
  rw [← h.head_mod, heq, Nat.mod_eq_of_lt hj]

/-- What is read into the place at the head changes no pending event. -/
theorem set_head (h : r.Represents pending) (hlt : pending.length < r.bufferEnd) :
    ({ r with buffer := r.buffer.set r.head e } : Reader sz).Represents pending where
  length_buffer := by
    rw [← h.length_buffer]
    exact List.length_set
  curr_lt := h.curr_lt
  head_le := h.head_le
  head_mod := h.head_mod
  length_le := h.length_le
  free := h.free
  queued := h.queued.keep hlt h.getElem?_set_head

/-- The head is moved on over a new event in its place. -/
theorem push (h : r.Represents pending) (hlt : pending.length < r.bufferEnd)
    (hhead : r.head < r.bufferEnd) :
    ({ r with
      buffer := r.buffer.set r.head e, head := r.head + 1,
      freeSpace := r.freeSpace - 1 } : Reader sz).Represents (pending ++ [e]) where
  length_buffer := by
    rw [← h.length_buffer]
    exact List.length_set
  curr_lt := h.curr_lt
  head_le := hhead
  head_mod := by
    rw [List.length_append, List.length_singleton, ← Nat.add_assoc]
    exact Nat.ModEq.add_right 1 h.head_mod
  length_le := by
    rw [List.length_append]
    exact hlt
  free := by
    rw [List.length_append, List.length_singleton]
    have := h.free
    push_cast
    omega
  queued := by
    refine h.queued.push hlt h.getElem?_set_head ?_
    have hlen := h.length_buffer
    rw [← h.head_mod, Nat.mod_eq_of_lt hhead]
    exact List.getElem?_set_self (by omega)

/-- A new event is past the end, and is copied to the start. -/
theorem push_wrap (h : r.Represents pending) (hlt : pending.length < r.bufferEnd)
    (hhead : r.head = r.bufferEnd) {buffer' : List (Event sz)}
    (hlen : buffer'.length = r.buffer.length) (h0 : buffer'[0]? = some e)
    (hrest : ∀ j, j ≠ 0 → buffer'[j]? = (r.buffer.set r.head e)[j]?) :
    ({ r with buffer := buffer', head := 1, freeSpace := r.freeSpace - 1 } : Reader sz).Represents
      (pending ++ [e]) := by
  have hslot : (r.curr + pending.length) % r.bufferEnd = 0 := by
    rw [← h.head_mod, hhead, Nat.mod_self]
  refine ⟨hlen.trans h.length_buffer, h.curr_lt, Nat.zero_lt_of_lt h.curr_lt, ?_, ?_, ?_, ?_⟩
  · rw [List.length_append, List.length_singleton, ← Nat.add_assoc]
    exact (Nat.ModEq.add_right 1 (hslot.trans (Nat.zero_mod _).symm)).symm
  · rw [List.length_append]
    exact hlt
  · rw [List.length_append, List.length_singleton]
    have := h.free
    push_cast
    omega
  · refine h.queued.push hlt (fun j hj hne => ?_) ?_
    · rw [hrest j (hslot ▸ hne)]
      exact h.getElem?_set_head j hj hne
    · rw [hslot, h0]

end Reader.Represents

/-! ## The operations -/

theorem Event.overwrite_whole {place : Event sz} {b : List UInt8} (h : b.length ≤ sz)
    (hb : b.length = sz) : place.overwrite b h = ⟨b, hb⟩ := by
  refine Event.ext ?_
  show b ++ place.bytes.drop b.length = b
  rw [List.drop_eq_nil_of_le (by rw [place.length_eq, hb]), List.append_nil]

/-- A read that is not partial gives one event or none. -/
theorem length_cases {k : Nat} (hle : k ≤ sz) (hmod : k % sz = 0) : k = 0 ∨ k = sz := by
  rcases Nat.lt_or_eq_of_le hle with hlt | heq
  · rw [Nat.mod_eq_of_lt hlt] at hmod
    exact .inl hmod
  · exact .inr heq

theorem fill_refines (hsz : 0 < sz) (h : r.Represents pending) (result : ReadResult sz) :
    ∃ r', r.fill result = some ((Queue.fill r.bufferEnd pending result).1, r') ∧
      r'.bufferEnd = r.bufferEnd ∧ r'.Represents (Queue.fill r.bufferEnd pending result).2 := by
  have hpos : 0 < r.bufferEnd := Nat.zero_lt_of_lt h.curr_lt
  have hlen := h.length_buffer
  have hhead := h.head_le
  unfold Reader.fill Queue.fill
  by_cases hfull : pending.length = r.bufferEnd
  · rw [if_neg (not_not_intro (h.full_iff.mpr hfull)), if_pos hfull]
    exact ⟨r, rfl, rfl, h⟩
  have hlt : pending.length < r.bufferEnd := Nat.lt_of_le_of_ne h.length_le hfull
  have hplace : r.head < r.buffer.length := by omega
  rw [if_pos (fun h0 => hfull (h.full_iff.mp h0)), if_neg hfull, List.getElem?_eq_getElem hplace]
  cases result with
  | error errno pos => exact ⟨r, rfl, rfl, h⟩
  | bytes b hb =>
    dsimp only [bind, Option.bind]
    by_cases hmod : b.length % sz = 0
    rotate_left
    · rw [if_pos hmod, if_pos hmod]
      exact ⟨_, rfl, rfl, h.set_head hlt⟩
    rw [if_neg (not_not_intro hmod), if_neg (not_not_intro hmod)]
    rcases length_cases hb hmod with h0 | hwhole
    · -- Nothing was read.
      have hno : (ReadResult.bytes b hb).events = [] := dif_neg (by omega)
      rw [if_neg (not_not_intro (by rw [h0, Nat.zero_div])), hno, h0, Nat.zero_div, List.append_nil]
      exact ⟨_, rfl, rfl, h.set_head hlt⟩
    · have hone : b.length / sz = 1 := by rw [hwhole, Nat.div_self hsz]
      have hevent : (ReadResult.bytes b hb).events = [⟨b, hwhole⟩] := dif_pos hwhole
      rw [hone, if_pos Nat.one_ne_zero, Event.overwrite_whole hb hwhole, hevent]
      by_cases hend : r.head = r.bufferEnd
      · have hself : (r.buffer.set r.head ⟨b, hwhole⟩)[r.bufferEnd]? = some ⟨b, hwhole⟩ := by
          rw [← hend]
          exact List.getElem?_set_self hplace
        have hlen' : (r.buffer.set r.head ⟨b, hwhole⟩).length = r.bufferEnd * 2 := by
          rw [List.length_set, hlen]
        obtain ⟨buffer', hcopy, hlength, hzero, hrest⟩ := copyToFront_one hlen' hpos
        have hpush := h.push_wrap hlt hend (hlength.trans List.length_set) (hzero.trans hself) hrest
        rw [if_pos (show r.bufferEnd < r.head + 1 by omega),
          show r.head + 1 - r.bufferEnd = 1 by omega, hcopy]
        exact ⟨_, rfl, rfl, hpush⟩
      · rw [if_neg (show ¬ r.bufferEnd < r.head + 1 by omega)]
        exact ⟨_, rfl, rfl, h.push hlt (by omega)⟩

/-- `readEvent` says whether an event is pending, and points to the first one. -/
theorem readEvent_refines (h : r.Represents pending) :
    r.readEvent.1 = (if pending = [] then 0 else 1) ∧
      ∀ e ∈ pending.head?, r.buffer[r.readEvent.2]? = some e := by
  constructor
  · have havail : (r.bufferEnd : Int) - r.freeSpace = pending.length := by
      rw [h.free]
      omega
    unfold Reader.readEvent
    dsimp only
    rw [havail]
    cases pending with
    | nil => rfl
    | cons e q => rw [if_pos (by rw [List.length_cons]; omega), if_neg (List.cons_ne_nil _ _)]
  · intro e he
    cases pending with
    | nil => cases he
    | cons x q =>
      cases he
      have hhead := h.queued.head
      rwa [Nat.mod_eq_of_lt h.curr_lt] at hhead

theorem next_refines (h : r.Represents (e :: pending)) : r.next.Represents pending where
  length_buffer := h.length_buffer
  curr_lt := by
    show (if r.bufferEnd ≤ r.curr + 1 then 0 else r.curr + 1) < r.bufferEnd
    rw [wrap_eq h.curr_lt]
    exact Nat.mod_lt _ (Nat.zero_lt_of_lt h.curr_lt)
  head_le := h.head_le
  head_mod := by
    show r.head % r.bufferEnd =
      ((if r.bufferEnd ≤ r.curr + 1 then 0 else r.curr + 1) + pending.length) % r.bufferEnd
    rw [wrap_eq h.curr_lt, h.head_mod, Nat.mod_add_mod, List.length_cons, Nat.add_assoc,
      Nat.add_comm 1]
  length_le := Nat.le_of_succ_le h.length_le
  free := by
    show r.freeSpace + 1 = (r.bufferEnd : Int) - pending.length
    rw [h.free, List.length_cons]
    push_cast
    omega
  queued := by
    show Queued r.buffer r.bufferEnd (if r.bufferEnd ≤ r.curr + 1 then 0 else r.curr + 1) pending
    rw [wrap_eq h.curr_lt]
    exact h.queued.pop

theorem represents_new {numEvents : Nat} (hn : 1 ≤ numEvents)
    (hlen : buffer.length = numEvents * 2) :
    (Reader.new numEvents buffer).Represents [] where
  length_buffer := hlen
  curr_lt := hn
  head_le := Nat.zero_le _
  head_mod := rfl
  length_le := Nat.zero_le _
  free := (Int.sub_zero _).symm
  queued := .nil

/-! ## Runs -/

inductive Call (sz : Nat)
  | fill (result : ReadResult sz)
  | readEvent
  | next

/-- The reader with what happened so far: the events that `read` gave, those that were handed out, and
the one that `readEvent` has shown since the last `next`. -/
structure Session (sz : Nat) where
  reader : Reader sz
  got : List (Event sz)
  taken : List (Event sz)
  shown : Option (Event sz)

def Session.start (numEvents : Nat) (buffer : List (Event sz)) : Session sz :=
  ⟨Reader.new numEvents buffer, [], [], none⟩

/-- One call; `none`: it goes outside of the array. `read` is not called when no space is free. -/
def Session.step (s : Session sz) : Call sz → Option (Session sz)
  | .fill result => do
    let (_, reader) ← s.reader.fill result
    some { s with
      reader := reader
      got := s.got ++ if s.reader.freeSpace ≠ 0 then result.events else [] }
  | .readEvent =>
    let (available, event) := s.reader.readEvent
    if available ≠ 0 then do
      let e ← s.reader.buffer[event]?
      some { s with shown := some e }
    else some { s with shown := none }
  | .next =>
    some { s with reader := s.reader.next, taken := s.taken ++ s.shown.toList, shown := none }

/-- `next` follows a `readEvent` that returned an event. -/
def Session.Allowed (s : Session sz) : Call sz → Prop
  | .next => s.shown ≠ none
  | _ => True

/-- The events that were read are those that were handed out, and then the pending ones. -/
structure Session.Pending (s : Session sz) (numEvents : Nat) (pending : List (Event sz)) : Prop where
  size : s.reader.bufferEnd = numEvents
  represents : s.reader.Represents pending
  got : s.got = s.taken ++ pending
  shown : ∀ e ∈ s.shown, pending.head? = some e

theorem queue_fill_eq (n : Nat) (result : ReadResult sz) :
    (Queue.fill n pending result).2 =
      pending ++ if pending.length ≠ n then result.events else [] := by
  unfold Queue.fill
  by_cases h : pending.length = n
  · rw [if_pos h, if_neg (not_not_intro h), List.append_nil]
  · rw [if_neg h, if_pos h]
    cases result with
    | error errno pos => exact (List.append_nil _).symm
    | bytes b hb =>
      dsimp only
      by_cases hmod : b.length % sz = 0
      · rw [if_neg (not_not_intro hmod)]
      · have hne : b.length ≠ sz := fun heq => hmod (by rw [heq, Nat.mod_self])
        have hno : (ReadResult.bytes b hb).events = [] := dif_neg hne
        rw [if_pos hmod, hno, List.append_nil]

variable {s : Session sz} {numEvents : Nat}

/-- An allowed call stays inside the array and keeps the events. -/
theorem Session.step_pending (hsz : 0 < sz) (h : s.Pending numEvents pending) (c : Call sz)
    (hc : s.Allowed c) : ∃ s', s.step c = some s' ∧ ∃ pending', s'.Pending numEvents pending' := by
  cases c with
  | fill result =>
    obtain ⟨reader, hrun, hsize, hrep⟩ := fill_refines hsz h.represents result
    refine ⟨_, by rw [Session.step, hrun]; rfl, _, hsize.trans h.size, hrep, ?_, ?_⟩
    · show s.got ++ (if s.reader.freeSpace ≠ 0 then result.events else []) = s.taken ++ _
      rw [queue_fill_eq, h.got, List.append_assoc]
      simp only [ne_eq, h.represents.full_iff]
    · intro e he
      rw [queue_fill_eq, List.head?_append, h.shown e he]
      rfl
  | readEvent =>
    obtain ⟨hret, hevent⟩ := readEvent_refines h.represents
    unfold Session.step
    dsimp only
    cases pending with
    | nil =>
      rw [if_neg (not_not_intro (hret.trans (if_pos rfl)))]
      exact ⟨_, rfl, [], h.size, h.represents, h.got, fun e he => nomatch he⟩
    | cons x q =>
      have hone : s.reader.readEvent.1 = 1 := hret.trans (if_neg (List.cons_ne_nil _ _))
      rw [if_pos (by rw [hone]; decide), hevent x rfl]
      refine ⟨_, rfl, x :: q, h.size, h.represents, h.got, fun e he => ?_⟩
      cases he
      rfl
  | next =>
    obtain ⟨e, he⟩ := Option.ne_none_iff_exists'.mp hc
    have hhead := h.shown e he
    cases pending with
    | nil => cases hhead
    | cons x q =>
      cases hhead
      refine ⟨_, rfl, q, h.size, next_refines h.represents, ?_, fun e he => nomatch he⟩
      show s.got = s.taken ++ s.shown.toList ++ q
      rw [he, h.got, List.append_assoc]
      rfl

/-- What holds after any calls, with these events pending. -/
structure Session.Faithful (s : Session sz) (numEvents : Nat) (pending : List (Event sz)) : Prop where
  /-- The events that were read are those that were handed out, in order, and the pending ones. -/
  got : s.got = s.taken ++ pending
  shown : ∀ e ∈ s.shown, pending.head? = some e
  /-- `fill` adds what `read` gives and returns how many events that are. It adds none when the buffer is
  full, or when the read failed or was partial. -/
  fill : ∀ result, ∃ n reader, s.reader.fill result = some (n, reader) ∧
    if pending.length = numEvents then n = 0 ∧ reader.Represents pending
    else if result.Whole then n = result.events.length ∧ reader.Represents (pending ++ result.events)
    else n < 0 ∧ reader.Represents pending
  /-- `readEvent` finds the first pending event. -/
  readEvent : s.reader.readEvent.1 = (if pending = [] then 0 else 1) ∧
    ∀ e ∈ pending.head?, s.reader.buffer[s.reader.readEvent.2]? = some e

theorem ReadResult.length_events {b : List UInt8} (hsz : 0 < sz) (hb : b.length ≤ sz)
    (hmod : b.length % sz = 0) : b.length / sz = (ReadResult.bytes b hb).events.length := by
  rcases length_cases hb hmod with h0 | hwhole
  · have hno : (ReadResult.bytes b hb).events = [] := dif_neg (by omega)
    rw [hno, h0, Nat.zero_div, List.length_nil]
  · have hevent : (ReadResult.bytes b hb).events = [⟨b, hwhole⟩] := dif_pos hwhole
    rw [hevent, hwhole, Nat.div_self hsz, List.length_singleton]

theorem Session.Pending.faithful (hsz : 0 < sz) (h : s.Pending numEvents pending) :
    s.Faithful numEvents pending where
  got := h.got
  shown := h.shown
  fill result := by
    obtain ⟨reader, hrun, -, hrep⟩ := fill_refines hsz h.represents result
    refine ⟨_, reader, hrun, ?_⟩
    rw [h.size] at hrep ⊢
    unfold Queue.fill at hrep ⊢
    by_cases hfull : pending.length = numEvents
    · rw [if_pos hfull] at hrep ⊢
      rw [if_pos hfull]
      exact ⟨rfl, hrep⟩
    rw [if_neg hfull] at hrep ⊢
    rw [if_neg hfull]
    cases result with
    | error errno pos =>
      refine (if_neg id).mpr ⟨?_, hrep⟩
      show -(errno : Int) < 0
      omega
    | bytes b hb =>
      dsimp only at hrep ⊢
      by_cases hmod : b.length % sz = 0
      · have hwhole : (ReadResult.bytes b hb).Whole := hmod
        rw [if_neg (not_not_intro hmod)] at hrep ⊢
        rw [if_pos hwhole]
        exact ⟨congrArg Nat.cast (ReadResult.length_events hsz hb hmod), hrep⟩
      · have hpartial : ¬ (ReadResult.bytes b hb).Whole := hmod
        rw [if_pos hmod] at hrep ⊢
        rw [if_neg hpartial]
        exact ⟨(by decide : -EINVAL < 0), hrep⟩
  readEvent := readEvent_refines h.represents

/-- **The events that are handed out are the events that were read.** For every capacity, every initial
array and all calls in which `next` follows a `readEvent` that returned an event, no call goes outside
of the array, and after them the events are where they should be. -/
theorem session_faithful (hsz : 0 < sz) (hn : 1 ≤ numEvents) (buffer : List (Event sz))
    (hlen : buffer.length = numEvents * 2) (calls : List (Call sz))
    (hok : RunOk Session.step Session.Allowed (Session.start numEvents buffer) calls) :
    ∃ s pending, run Session.step (Session.start numEvents buffer) calls = some s ∧
      s.Faithful numEvents pending := by
  have hstart : (Session.start numEvents buffer).Pending numEvents [] :=
    ⟨rfl, represents_new hn hlen, rfl, fun e he => nomatch he⟩
  obtain ⟨s, hrun, pending, hs⟩ := run_exists
    (I := fun s : Session sz => ∃ pending, s.Pending numEvents pending)
    (fun s c h hc => h.elim fun pending h => s.step_pending hsz h c hc) ⟨[], hstart⟩ hok
  exact ⟨s, pending, hrun, hs.faithful hsz⟩

/-- An event of one byte. -/
def oneByte (x : UInt8) : Event 1 := ⟨[x], rfl⟩

/-- Two events through a queue of one; the second is read into the second half of the array. -/
def twoReads : List (Call 1) :=
  [.fill (.bytes [7] (by decide)), .readEvent, .next,
    .fill (.bytes [8] (by decide)), .readEvent, .next]

theorem session_twoReads :
    ∃ s pending, run Session.step (Session.start 1 [oneByte 0, oneByte 0]) twoReads = some s ∧
      s.Faithful 1 pending :=
  session_faithful (by decide) (by decide) _ rfl twoReads
    ⟨trivial, trivial, nofun, trivial, trivial, nofun, trivial⟩

end Twm.Sensors
