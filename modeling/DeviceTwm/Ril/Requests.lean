import DeviceTwm.Ril.Payload
import DeviceTwm.Ril.Responses

/-!
# The life of a request

`s_pendingRequests` of `ril.cpp` from `processCommandBuffer` and `issueLocalRequest` to
`RIL_onRequestComplete`. A step is one call of these, or of `onCommandsSocketClosed`.

A request has an address, which is the token of the vendor and is used again once the request is
freed, and a number of its own (`serial`), which the source does not have. `calloc` gives an address
that is not null and that is not in use.

* `log`: the commands that were received, the calls of `onRequest`, the completions and the replies.
* `LifeCycle`: the pending requests are those that the vendor has; every command is answered, or given
  to the vendor; no request is answered twice.
* `lifeCycle_iff`: it holds throughout a run exactly if no command has a payload that its dispatch
  function rejects. `invalidCommandBlock` only writes to the log: the request stays on the list, and
  nobody answers it.
-/

open Lib

namespace Twm.Ril.Requests

/-- `RequestInfo`. -/
structure RequestInfo where
  addr : Nat
  serial : Nat
  token : Int32
  /-- `pCI`. -/
  request : Int32
  cancelled : Bool
  /-- `local`. -/
  isLocal : Bool
  deriving DecidableEq

inductive Event
  /-- `processCommandBuffer` makes a request. -/
  | received (serial : Nat) (request token : Int32)
  /-- `onRequest` is called; the data of a local request is left out. -/
  | onRequest (serial : Nat) (request : Int32) (data : Option Data)
  /-- `RIL_onRequestComplete` takes the request from the list. -/
  | completed (serial : Nat)
  /-- `sendResponse` writes to the command socket. -/
  | reply (serial : Nat) (token : Int32) (data : List UInt8)
  deriving DecidableEq

namespace Event

def serial : Event → Nat
  | .received n _ _ | .onRequest n _ _ | .completed n | .reply n _ _ => n

def isOnRequest : Event → Bool
  | .onRequest .. => true
  | _ => false

def isReply : Event → Bool
  | .reply .. => true
  | _ => false

end Event

structure State where
  /-- `s_pendingRequests`. -/
  pending : List RequestInfo
  /-- How many requests were made. -/
  made : Nat
  /-- `s_fdCommand` is not -1. -/
  connected : Bool
  /-- A dispatch function has faulted. -/
  dead : Bool
  log : List Event
  deriving DecidableEq

/-- After `RIL_register`. -/
def State.init : State := ⟨[], 0, false, false, []⟩

inductive Step
  /-- `processCommandBuffer`; `t` and `ut` are what is on the stack. -/
  | command (buffer : List UInt8) (addr : Nat) (t : Int32) (ut : UInt8)
  /-- `issueLocalRequest`. -/
  | issueLocal (request : Int32) (addr : Nat)
  /-- `RIL_onRequestComplete`, with what `responseFunction` puts in the parcel. -/
  | complete (t : Nat) (e : Nat) (response : Option Payload)
  /-- `listenCallback` accepts a connection. -/
  | connect
  /-- `processCommandsCallback` closes the connection. -/
  | close
  /-- The debug port closes it. -/
  | debugClose
  deriving DecidableEq

namespace State

variable (s : State)

/-- The requests on the list. -/
def serials : List Nat := s.pending.map (·.serial)

/-- `calloc` may give this address. -/
def Free (addr : Nat) : Prop := addr ≠ 0 ∧ addr ∉ s.pending.map (·.addr)

instance (addr : Nat) : Decidable (s.Free addr) := inferInstanceAs (Decidable (_ ∧ _))

/-- A new request at the head of the list. -/
def push (addr : Nat) (token request : Int32) (isLocal : Bool) (es : List Event) : State :=
  { s with
    pending := ⟨addr, s.made, token, request, false, isLocal⟩ :: s.pending
    made := s.made + 1
    log := s.log ++ es }

section

variable {P : Type} (lib : Parcel P) (cfg : Config)

def processCommandBuffer (buffer : List UInt8) (addr : Nat) (t : Int32) (ut : UInt8) : State :=
  let (request, l) := (readInt32 lib).run ⟨lib.setData buffer, true, t, ut⟩
  let (token, l) := (readInt32 lib).run l
  if l.status then
    match command request with
    | none => s
    | some f =>
      match ((dispatchFunction lib cfg f).run ⟨l.p, true, t, ut⟩).1 with
      | .request data =>
        s.push addr token request false
          [.received s.made request token, .onRequest s.made request (some data)]
      | .invalid => s.push addr token request false [.received s.made request token]
      | .fault => { s.push addr token request false [.received s.made request token] with dead := true }
  else s

end

def issueLocalRequest (request : Int32) (addr : Nat) : State :=
  s.push addr (-1) request true [.onRequest s.made request none]

/-- `checkAndDequeueRequestInfo`. -/
def checkAndDequeueRequestInfo (t : Nat) : List RequestInfo → Option (RequestInfo × List RequestInfo)
  | [] => none
  | r :: rs =>
    if r.addr = t then some (r, rs)
    else (checkAndDequeueRequestInfo t rs).map fun x => (x.1, r :: x.2)

/-- `sendResponse`: what is written. -/
def sendResponse (r : RequestInfo) (data : List UInt8) : List Event :=
  if s.connected = true ∧ data.length ≤ maxCommandBytes then [.reply r.serial r.token data] else []

/-- `RIL_onRequestComplete`. -/
def onRequestComplete (t e : Nat) (response : Option Payload) : State :=
  if t = 0 then s
  else
    match checkAndDequeueRequestInfo t s.pending with
    | none => s
    | some (r, pending) =>
      let sent :=
        if r.isLocal = true ∨ r.cancelled = true then []
        else s.sendResponse r (solicited r.token.toUInt32.toNat e response)
      { s with pending := pending, log := s.log ++ .completed r.serial :: sent }

/-- `onCommandsSocketClosed`. -/
def onCommandsSocketClosed : State :=
  { s with pending := s.pending.map ({ · with cancelled := true }) }

end State

def step {P : Type} (lib : Parcel P) (cfg : Config) (s : State) : Step → Option State
  | .command buffer addr t ut =>
    if s.dead = false ∧ s.Free addr then some (s.processCommandBuffer lib cfg buffer addr t ut)
    else none
  | .issueLocal request addr =>
    if s.dead = false ∧ s.Free addr then some (s.issueLocalRequest request addr) else none
  | .complete t e response =>
    if s.dead = false then some (s.onRequestComplete t e response) else none
  | .connect =>
    if s.dead = false ∧ s.connected = false then some { s with connected := true } else none
  | .close =>
    if s.dead = false ∧ s.connected = true then
      some { s with connected := false }.onCommandsSocketClosed
    else none
  | .debugClose => if s.dead = false then some { s with connected := false } else none

/-! ## What a run keeps -/

/-- Calls of `onRequest` for a request. -/
def onRequests (n : Nat) (log : List Event) : Nat :=
  log.countP fun e => e.isOnRequest && e.serial == n

/-- Replies to a request. -/
def replies (n : Nat) (log : List Event) : Nat :=
  log.countP fun e => e.isReply && e.serial == n

/-- The pending requests are those that were given to the vendor and are not completed. A command that
was received was given to the vendor once, or was answered once. No request is answered twice. -/
structure LifeCycle (s : State) : Prop where
  exact : ∀ n, n ∈ s.serials ↔ onRequests n s.log ≠ 0 ∧ .completed n ∉ s.log
  nodup : s.serials.Nodup
  answered : ∀ n request token, .received n request token ∈ s.log →
    onRequests n s.log = 1 ∨
      onRequests n s.log = 0 ∧ replies n s.log = 1 ∧ ∃ data, .reply n token data ∈ s.log
  once : ∀ n, replies n s.log ≤ 1

/-- The header of a command. -/
def header {P : Type} (lib : Parcel P) : StateT P Option (Int32 × Int32) := do
  let request ← Fields.int lib
  let token ← Fields.int lib
  return (request, token)

/-- If the header of the command is complete and its request number is supported, then the payload is
one that the dispatch function accepts. -/
def wellFormed {P : Type} (lib : Parcel P) (cfg : Config) (buffer : List UInt8) : Bool :=
  ((header lib).run (lib.setData buffer)).all fun x =>
    (command x.1.1).all fun f => ((payload lib cfg f).run x.2).isSome

/-! ### `processCommandBuffer` -/

section

variable {P : Type} {lib : Parcel P} (hl : lib.Lawful) (cfg : Config) (s : State)

/-- The two reads of the header. -/
def readHeader (lib : Parcel P) : StateM (Locals P) (Int32 × Int32) := do
  let request ← readInt32 lib
  let token ← readInt32 lib
  return (request, token)

include hl

theorem readHeader_agrees : Agrees (laxity lib) (readHeader lib) (header lib) :=
  (readInt32_agrees hl).bind fun _ => (readInt32_agrees hl).bind fun _ => .pure _

/-- Nothing is done; or the request is given to the vendor, and the payload is well formed; or it is
not, and the request is only put on the list. -/
theorem processCommandBuffer_cases (buffer : List UInt8) (addr : Nat) (t : Int32) (ut : UInt8) :
    (wellFormed lib cfg buffer = true ∧ s.processCommandBuffer lib cfg buffer addr t ut = s) ∨
    (∃ request token data, wellFormed lib cfg buffer = true ∧
      s.processCommandBuffer lib cfg buffer addr t ut = s.push addr token request false
        [.received s.made request token, .onRequest s.made request (some data)]) ∨
    ∃ request token dead, wellFormed lib cfg buffer = false ∧
      s.processCommandBuffer lib cfg buffer addr t ut =
        { s.push addr token request false [.received s.made request token] with dead := dead } := by
  have heq : s.processCommandBuffer lib cfg buffer addr t ut =
      let x := (readHeader lib).run ⟨lib.setData buffer, true, t, ut⟩
      if x.2.status then
        match command x.1.1 with
        | none => s
        | some f =>
          match ((dispatchFunction lib cfg f).run ⟨x.2.p, true, t, ut⟩).1 with
          | .request data =>
            s.push addr x.1.2 x.1.1 false
              [.received s.made x.1.1 x.1.2, .onRequest s.made x.1.1 (some data)]
          | .invalid => s.push addr x.1.2 x.1.1 false [.received s.made x.1.1 x.1.2]
          | .fault =>
            { s.push addr x.1.2 x.1.1 false [.received s.made x.1.1 x.1.2] with dead := true }
      else s := rfl
  have hh := readHeader_agrees hl
  rw [heq, wellFormed]
  cases hy : (header lib).run (lib.setData buffer) with
  | none =>
    have hst := (hh.fails ⟨lib.setData buffer, true, t, ut⟩ hy rfl).1
    left
    simp [hst]
  | some x =>
    obtain ⟨⟨request, token⟩, p⟩ := x
    obtain ⟨l, hr, hp, hg⟩ := hh.ok ⟨lib.setData buffer, true, t, ut⟩ _ _ rfl hy
    have hst : l.status = true := hg
    have hlp : l.p = p := hp
    simp only [hr, hst, if_true, hlp, Option.all_some]
    cases hc : command request with
    | none =>
      left
      exact ⟨rfl, rfl⟩
    | some f =>
      have hacc := congrArg Option.isSome (dispatchFunction_accepted cfg hl f ⟨p, true, t, ut⟩ rfl)
      rw [Option.isSome_map] at hacc
      simp only [Option.all_some, ← hacc]
      cases ho : ((dispatchFunction lib cfg f).run ⟨p, true, t, ut⟩).1 with
      | request data => exact .inr (.inl ⟨request, token, data, rfl, rfl⟩)
      | invalid => exact .inr (.inr ⟨request, token, s.dead, rfl, rfl⟩)
      | fault => exact .inr (.inr ⟨request, token, true, rfl, rfl⟩)

end

/-! ### Counting -/

theorem onRequests_append (n : Nat) (log es : List Event) :
    onRequests n (log ++ es) = onRequests n log + onRequests n es :=
  List.countP_append

theorem replies_append (n : Nat) (log es : List Event) :
    replies n (log ++ es) = replies n log + replies n es :=
  List.countP_append

theorem onRequests_eq_zero {n : Nat} {log : List Event}
    (h : ∀ e ∈ log, e.isOnRequest = true → e.serial ≠ n) : onRequests n log = 0 := by
  refine List.countP_eq_zero.mpr fun e he hc => ?_
  rw [Bool.and_eq_true, beq_iff_eq] at hc
  exact h e he hc.1 hc.2

theorem replies_eq_zero {n : Nat} {log : List Event}
    (h : ∀ e ∈ log, e.isReply = true → e.serial ≠ n) : replies n log = 0 := by
  refine List.countP_eq_zero.mpr fun e he hc => ?_
  rw [Bool.and_eq_true, beq_iff_eq] at hc
  exact h e he hc.1 hc.2

/-! ### Every run -/

/-- What holds in every run, whatever the commands are. -/
structure Book (s : State) : Prop where
  pending_lt : ∀ n ∈ s.serials, n < s.made
  log_lt : ∀ e ∈ s.log, e.serial < s.made
  nodup : s.serials.Nodup
  notCompleted : ∀ n ∈ s.serials, .completed n ∉ s.log
  kept : ∀ n, onRequests n s.log ≠ 0 → .completed n ∉ s.log → n ∈ s.serials
  handedOnce : ∀ n, onRequests n s.log ≤ 1
  replied : ∀ n, replies n s.log ≠ 0 → .completed n ∈ s.log
  once : ∀ n, replies n s.log ≤ 1

/-- Every request that is on the list, and every command, was given to the vendor. -/
structure Handed (s : State) : Prop where
  pending : ∀ n ∈ s.serials, onRequests n s.log ≠ 0
  received : ∀ n request token, .received n request token ∈ s.log → onRequests n s.log ≠ 0

theorem Book.lifeCycle {s : State} (h : Book s) (hh : Handed s) : LifeCycle s where
  exact n := ⟨fun hn => ⟨hh.pending n hn, h.notCompleted n hn⟩, fun ⟨ho, hc⟩ => h.kept n ho hc⟩
  nodup := h.nodup
  answered n request token hr := by
    have h1 := h.handedOnce n
    have h0 := hh.received n request token hr
    left
    omega
  once := h.once

/-- What is added to the log when a request is made. -/
structure Fresh (n : Nat) (es : List Event) : Prop where
  serial : ∀ e ∈ es, e.serial = n
  notReply : ∀ e ∈ es, e.isReply = false
  notCompleted : ∀ m, .completed m ∉ es
  once : onRequests n es ≤ 1

namespace Book

variable {s : State}

theorem onRequests_made (h : Book s) : onRequests s.made s.log = 0 :=
  onRequests_eq_zero fun e he _ => Nat.ne_of_lt (h.log_lt e he)

theorem replies_made (h : Book s) : replies s.made s.log = 0 :=
  replies_eq_zero fun e he _ => Nat.ne_of_lt (h.log_lt e he)

theorem completed_made (h : Book s) : .completed s.made ∉ s.log :=
  fun hm => Nat.lt_irrefl _ (h.log_lt _ hm)

theorem push (h : Book s) (addr : Nat) (token request : Int32) (isLocal dead : Bool)
    {es : List Event} (hes : Fresh s.made es) :
    Book { s.push addr token request isLocal es with dead := dead } where
  pending_lt n hn := by
    rcases List.mem_cons.mp hn with rfl | hn
    · exact Nat.lt_succ_self _
    · exact Nat.lt_succ_of_lt (h.pending_lt n hn)
  log_lt e he := by
    rcases List.mem_append.mp he with he | he
    · exact Nat.lt_succ_of_lt (h.log_lt e he)
    · rw [hes.serial e he]
      exact Nat.lt_succ_self _
  nodup := List.nodup_cons.mpr ⟨fun hm => Nat.lt_irrefl _ (h.pending_lt _ hm), h.nodup⟩
  notCompleted n hn hc := by
    rcases List.mem_append.mp hc with hc | hc
    · rcases List.mem_cons.mp hn with rfl | hn
      · exact h.completed_made hc
      · exact h.notCompleted n hn hc
    · exact hes.notCompleted _ hc
  kept n ho hc := by
    by_cases hn : n = s.made
    · subst hn
      exact List.mem_cons_self
    · have hz : onRequests n es = 0 :=
        onRequests_eq_zero fun e he _ hen => hn (hen ▸ hes.serial e he)
      refine List.mem_cons_of_mem _ (h.kept n ?_ fun hm => hc (List.mem_append_left _ hm))
      rw [State.push, onRequests_append, hz] at ho
      exact ho
  handedOnce n := by
    show onRequests n (s.log ++ es) ≤ 1
    rw [onRequests_append]
    by_cases hn : n = s.made
    · subst hn
      rw [h.onRequests_made]
      have := hes.once
      omega
    · have hz : onRequests n es = 0 :=
        onRequests_eq_zero fun e he _ hen => hn (hen ▸ hes.serial e he)
      have := h.handedOnce n
      omega
  replied n hr := by
    have hz : replies n es = 0 :=
      replies_eq_zero fun e he her => by rw [hes.notReply e he] at her; cases her
    refine List.mem_append_left _ (h.replied n ?_)
    rw [State.push, replies_append, hz] at hr
    exact hr
  once n := by
    have hz : replies n es = 0 :=
      replies_eq_zero fun e he her => by rw [hes.notReply e he] at her; cases her
    show replies n (s.log ++ es) ≤ 1
    rw [replies_append, hz]
    exact h.once n

/-- What a request is about does not depend on the connection. -/
theorem congr {s' : State} (h : Book s) (hp : s'.serials = s.serials) (hm : s'.made = s.made)
    (hlog : s'.log = s.log) : Book s' := by
  obtain ⟨h₁, h₂, h₃, h₄, h₅, h₆, h₇, h₈⟩ := h
  rw [← hp, ← hm] at h₁
  rw [← hlog, ← hm] at h₂
  rw [← hp] at h₃
  rw [← hp, ← hlog] at h₄ h₅
  rw [← hlog] at h₆ h₇ h₈
  exact ⟨h₁, h₂, h₃, h₄, h₅, h₆, h₇, h₈⟩

end Book

/-! ### `RIL_onRequestComplete` -/

theorem checkAndDequeue_eq {t : Nat} {l rest : List RequestInfo} {r : RequestInfo}
    (h : State.checkAndDequeueRequestInfo t l = some (r, rest)) :
    ∃ a b, l = a ++ r :: b ∧ rest = a ++ b := by
  induction l generalizing rest with
  | nil => cases h
  | cons x l ih =>
    unfold State.checkAndDequeueRequestInfo at h
    split at h
    · cases h
      exact ⟨[], l, rfl, rfl⟩
    · obtain ⟨⟨r', rest'⟩, hx, hr⟩ := Option.map_eq_some_iff.mp h
      cases hr
      obtain ⟨a, b, rfl, rfl⟩ := ih hx
      exact ⟨x :: a, b, rfl, rfl⟩

/-- What is added to the log when a request is completed. -/
structure Completion (n : Nat) (es : List Event) : Prop where
  serial : ∀ e ∈ es, e.serial = n
  notRequest : ∀ e ∈ es, e.isOnRequest = false
  notReceived : ∀ m request token, .received m request token ∉ es
  completed : .completed n ∈ es
  once : replies n es ≤ 1

theorem completion_events (s : State) (r : RequestInfo) (data : List UInt8) (silent : Prop)
    [Decidable silent] :
    Completion r.serial (.completed r.serial :: if silent then [] else s.sendResponse r data) := by
  have hone : Completion r.serial [.completed r.serial] := by
    refine ⟨?_, ?_, ?_, List.mem_cons_self, Nat.zero_le _⟩ <;> simp [Event.serial, Event.isOnRequest]
  split
  · exact hone
  · unfold State.sendResponse
    split
    · refine ⟨?_, ?_, ?_, List.mem_cons_self, ?_⟩
      · simp [Event.serial]
      · simp [Event.isOnRequest]
      · simp
      · simp [replies, Event.isReply, Event.serial]
    · exact hone

namespace Book

variable {s : State} {a b : List RequestInfo} {r : RequestInfo} {es : List Event}

/-- One request leaves the list. -/
theorem serials_perm (hp : s.pending = a ++ r :: b) (log : List Event) :
    s.serials.Perm (r.serial :: State.serials { s with pending := a ++ b, log := log }) := by
  simp only [State.serials, hp, List.map_append, List.map_cons]
  exact List.perm_middle

theorem complete (h : Book s) (hp : s.pending = a ++ r :: b) (hes : Completion r.serial es) :
    Book { s with pending := a ++ b, log := s.log ++ es } := by
  have hperm := serials_perm hp (s.log ++ es)
  obtain ⟨hnot, hnodup⟩ := List.nodup_cons.mp (hperm.nodup_iff.mp h.nodup)
  have hr : r.serial ∈ s.serials := hperm.mem_iff.mpr List.mem_cons_self
  have hzero : ∀ n, onRequests n es = 0 := fun n =>
    onRequests_eq_zero fun e he ho => by rw [hes.notRequest e he] at ho; cases ho
  have hreply : ∀ n, n ≠ r.serial → replies n es = 0 := fun n hn =>
    replies_eq_zero fun e he _ hen => hn (hen ▸ hes.serial e he)
  constructor
  case pending_lt =>
    intro n hn
    exact h.pending_lt n (hperm.mem_iff.mpr (List.mem_cons_of_mem _ hn))
  case log_lt =>
    intro e he
    rcases List.mem_append.mp he with he | he
    · exact h.log_lt e he
    · rw [hes.serial e he]
      exact h.pending_lt _ hr
  case nodup => exact hnodup
  case notCompleted =>
    intro n hn hc
    rcases List.mem_append.mp hc with hc | hc
    · exact h.notCompleted n (hperm.mem_iff.mpr (List.mem_cons_of_mem _ hn)) hc
    · exact hnot (hes.serial _ hc ▸ hn)
  case kept =>
    intro n ho hc
    rw [onRequests_append, hzero, Nat.add_zero] at ho
    have hn := h.kept n ho fun hm => hc (List.mem_append_left _ hm)
    rcases List.mem_cons.mp (hperm.mem_iff.mp hn) with rfl | hn
    · exact absurd (List.mem_append_right _ hes.completed) hc
    · exact hn
  case handedOnce =>
    intro n
    rw [onRequests_append, hzero, Nat.add_zero]
    exact h.handedOnce n
  case replied =>
    intro n hn
    by_cases hnr : n = r.serial
    · rw [hnr]
      exact List.mem_append_right _ hes.completed
    · rw [replies_append, hreply n hnr, Nat.add_zero] at hn
      exact List.mem_append_left _ (h.replied n hn)
  case once =>
    intro n
    rw [replies_append]
    by_cases hnr : n = r.serial
    · -- it was pending, so it was not answered before
      have h0 : replies n s.log = 0 := by
        by_contra hne
        exact h.notCompleted n (hnr ▸ hr) (h.replied n hne)
      have := hnr ▸ hes.once
      omega
    · rw [hreply n hnr]
      exact h.once n

end Book

/-! ### Requests that the vendor has -/

namespace Handed

variable {s : State} {a b : List RequestInfo} {r : RequestInfo} {es : List Event}

theorem congr {s' : State} (h : Handed s) (hp : s'.serials = s.serials) (hlog : s'.log = s.log) :
    Handed s' := by
  obtain ⟨h₁, h₂⟩ := h
  rw [← hp, ← hlog] at h₁
  rw [← hlog] at h₂
  exact ⟨h₁, h₂⟩

/-- A request that was given to the vendor stays so. -/
theorem onRequests_append_ne {n : Nat} {log : List Event} (h : onRequests n log ≠ 0)
    (es : List Event) : onRequests n (log ++ es) ≠ 0 := by
  rw [onRequests_append]
  omega

theorem push (h : Handed s) (addr : Nat) (token request : Int32) (isLocal : Bool)
    (hes : onRequests s.made es ≠ 0)
    (hr : ∀ n request token, .received n request token ∈ es → n = s.made) :
    Handed (s.push addr token request isLocal es) where
  pending n hn := by
    rcases List.mem_cons.mp hn with rfl | hn
    · rw [State.push, onRequests_append]
      show _ + onRequests s.made es ≠ 0
      omega
    · exact onRequests_append_ne (h.pending n hn) es
  received n request token hm := by
    rcases List.mem_append.mp hm with hm | hm
    · exact onRequests_append_ne (h.received n request token hm) es
    · rw [hr n request token hm, State.push, onRequests_append]
      omega

theorem complete (h : Handed s) (hp : s.pending = a ++ r :: b) (hes : Completion r.serial es) :
    Handed { s with pending := a ++ b, log := s.log ++ es } where
  pending n hn :=
    onRequests_append_ne (h.pending n ((Book.serials_perm hp _).mem_iff.mpr
      (List.mem_cons_of_mem _ hn))) es
  received n request token hm := by
    rcases List.mem_append.mp hm with hm | hm
    · exact onRequests_append_ne (h.received n request token hm) es
    · exact absurd hm (hes.notReceived n request token)

end Handed

/-! ## Runs -/

/-- A command of the step is well formed. -/
def Step.wellFormed {P : Type} (lib : Parcel P) (cfg : Config) : Step → Bool
  | .command buffer .. => Requests.wellFormed lib cfg buffer
  | _ => true

section

variable {P : Type} {lib : Parcel P} {cfg : Config} {s s' : State}

theorem fresh_received (n : Nat) (request token : Int32) :
    Fresh n [.received n request token] := by
  refine ⟨?_, ?_, ?_, Nat.zero_le _⟩ <;> simp [Event.serial, Event.isReply]

/-- What is added to the log when the vendor is given the request. -/
structure Given (n : Nat) (es : List Event) : Prop extends Fresh n es where
  handed : onRequests n es ≠ 0
  received : ∀ m request token, .received m request token ∈ es → m = n

theorem given_command (n : Nat) (request token : Int32) (data : Data) :
    Given n [.received n request token, .onRequest n request (some data)] := by
  refine ⟨⟨?_, ?_, ?_, ?_⟩, ?_, fun m request token hm => ?_⟩
  · simp [Event.serial]
  · simp [Event.isReply]
  · simp
  · simp [onRequests, Event.isOnRequest, Event.serial]
  · simp [onRequests, Event.isOnRequest, Event.serial]
  · simp only [List.mem_cons, Event.received.injEq, reduceCtorEq, List.not_mem_nil, or_false] at hm
    exact hm.1

theorem given_local (n : Nat) (request : Int32) : Given n [.onRequest n request none] := by
  refine ⟨⟨?_, ?_, ?_, ?_⟩, ?_, ?_⟩
  · simp [Event.serial]
  · simp [Event.isReply]
  · simp
  · simp [onRequests, Event.isOnRequest, Event.serial]
  · simp [onRequests, Event.isOnRequest, Event.serial]
  · simp

/-- `RIL_onRequestComplete` does nothing, or takes one request from the list. -/
theorem onRequestComplete_cases (s : State) (t e : Nat) (response : Option Payload) :
    s.onRequestComplete t e response = s ∨
    ∃ a r b es, s.pending = a ++ r :: b ∧ Completion r.serial es ∧
      s.onRequestComplete t e response = { s with pending := a ++ b, log := s.log ++ es } := by
  unfold State.onRequestComplete
  split
  · exact .inl rfl
  · split
    · exact .inl rfl
    · next r pending h =>
      obtain ⟨a, b, hp, rfl⟩ := checkAndDequeue_eq h
      exact .inr ⟨a, r, b, _, hp, completion_events s r _ _, rfl⟩

theorem close_serials (s : State) : s.onCommandsSocketClosed.serials = s.serials := by
  simp [State.onCommandsSocketClosed, State.serials, Function.comp_def]

/-- A step leaves the requests as they are, gives one to the vendor, completes one, or rejects a command
whose request is on the list by then. -/
theorem step_cases (hl : lib.Lawful) (l : Step) (hs : step lib cfg s l = some s') :
    (l.wellFormed lib cfg = true ∧ s'.serials = s.serials ∧ s'.made = s.made ∧ s'.log = s.log) ∨
    (l.wellFormed lib cfg = true ∧ ∃ addr token request isLocal es, Given s.made es ∧
      s' = s.push addr token request isLocal es) ∨
    (l.wellFormed lib cfg = true ∧ ∃ a r b es, s.pending = a ++ r :: b ∧ Completion r.serial es ∧
      s' = { s with pending := a ++ b, log := s.log ++ es }) ∨
    (l.wellFormed lib cfg = false ∧ ∃ addr token request dead,
      s' = { s.push addr token request false [.received s.made request token] with dead := dead }) := by
  cases l with
  | command buffer addr t ut =>
    simp only [step, Option.ite_none_right_eq_some, Option.some.injEq] at hs
    obtain ⟨-, rfl⟩ := hs
    obtain ⟨hok, heq⟩ | ⟨request, token, data, hok, heq⟩ | ⟨request, token, dead, hbad, heq⟩ :=
      processCommandBuffer_cases hl cfg s buffer addr t ut
    · rw [heq]
      exact .inl ⟨hok, rfl, rfl, rfl⟩
    · exact .inr (.inl ⟨hok, addr, token, request, false, _, given_command .., heq⟩)
    · exact .inr (.inr (.inr ⟨hbad, addr, token, request, dead, heq⟩))
  | issueLocal request addr =>
    simp only [step, Option.ite_none_right_eq_some, Option.some.injEq] at hs
    obtain ⟨-, rfl⟩ := hs
    exact .inr (.inl ⟨rfl, addr, -1, request, true, _, given_local .., rfl⟩)
  | complete t e response =>
    simp only [step, Option.ite_none_right_eq_some, Option.some.injEq] at hs
    obtain ⟨-, rfl⟩ := hs
    obtain heq | hcompleted := onRequestComplete_cases s t e response
    · rw [heq]
      exact .inl ⟨rfl, rfl, rfl, rfl⟩
    · exact .inr (.inr (.inl ⟨rfl, hcompleted⟩))
  | connect =>
    simp only [step, Option.ite_none_right_eq_some, Option.some.injEq] at hs
    obtain ⟨-, rfl⟩ := hs
    exact .inl ⟨rfl, rfl, rfl, rfl⟩
  | close =>
    simp only [step, Option.ite_none_right_eq_some, Option.some.injEq] at hs
    obtain ⟨-, rfl⟩ := hs
    exact .inl ⟨rfl, close_serials _, rfl, rfl⟩
  | debugClose =>
    simp only [step, Option.ite_none_right_eq_some, Option.some.injEq] at hs
    obtain ⟨-, rfl⟩ := hs
    exact .inl ⟨rfl, rfl, rfl, rfl⟩

theorem step_book (hl : lib.Lawful) (l : Step) (h : Book s) (hs : step lib cfg s l = some s') :
    Book s' := by
  rcases step_cases hl l hs with ⟨-, hserials, hmade, hlog⟩ |
    ⟨-, addr, token, request, isLocal, es, hes, rfl⟩ | ⟨-, a, r, b, es, hp, hes, rfl⟩ |
    ⟨-, addr, token, request, dead, rfl⟩
  · exact h.congr hserials hmade hlog
  · exact h.push addr token request isLocal s.dead hes.toFresh
  · exact h.complete hp hes
  · exact h.push addr token request false dead (fresh_received ..)

theorem step_handed (hl : lib.Lawful) (l : Step) (h : Handed s) (hok : l.wellFormed lib cfg = true)
    (hs : step lib cfg s l = some s') : Handed s' := by
  rcases step_cases hl l hs with ⟨-, hserials, -, hlog⟩ |
    ⟨-, addr, token, request, isLocal, es, hes, rfl⟩ | ⟨-, a, r, b, es, hp, hes, rfl⟩ | ⟨hbad, -⟩
  · exact h.congr hserials hlog
  · exact h.push addr token request isLocal hes.handed hes.received
  · exact h.complete hp hes
  · rw [hbad] at hok
    cases hok

/-- A command that is rejected is neither given to the vendor nor answered. -/
theorem step_rejected (hl : lib.Lawful) (l : Step) (h : Book s) (hbad : l.wellFormed lib cfg = false)
    (hs : step lib cfg s l = some s') : ¬ LifeCycle s' := by
  obtain ⟨addr, token, request, dead, rfl⟩ : ∃ addr token request dead,
      s' = { s.push addr token request false [.received s.made request token] with dead := dead } := by
    rcases step_cases hl l hs with ⟨hok, -⟩ | ⟨hok, -⟩ | ⟨hok, -⟩ | ⟨-, hrejected⟩
    · rw [hok] at hbad
      cases hbad
    · rw [hok] at hbad
      cases hbad
    · rw [hok] at hbad
      cases hbad
    · exact hrejected
  intro hlc
  have hreq : onRequests s.made (s.log ++ [.received s.made request token]) = 0 := by
    rw [onRequests_append, h.onRequests_made]
    rfl
  have hrep : replies s.made (s.log ++ [.received s.made request token]) = 0 := by
    rw [replies_append, h.replies_made]
    rfl
  rcases hlc.answered s.made request token (by simp [State.push]) with ha | ⟨-, ha, -⟩
  · rw [State.push, hreq] at ha
    cases ha
  · rw [State.push, hrep] at ha
    cases ha

theorem init_book : Book State.init := by
  constructor <;> simp [State.init, State.serials, onRequests, replies]

theorem init_handed : Handed State.init := by
  constructor <;> simp [State.init, State.serials]

/-- A run keeps the books of the requests, whatever the commands are. -/
theorem run_book (hl : lib.Lawful) {ls : List Step}
    (hrun : run (step lib cfg) State.init ls = some s) : Book s :=
  run_keeps (fun _ l _ h hs => step_book hl l h hs) init_book hrun

/-- And the requests on the list are those that the vendor has, if no command is rejected. -/
theorem run_handed (hl : lib.Lawful) {ls : List Step} (hok : ∀ l ∈ ls, l.wellFormed lib cfg = true)
    (hrun : run (step lib cfg) State.init ls = some s) : Handed s := by
  have hrok : RunOk (step lib cfg) (fun _ l => l.wellFormed lib cfg = true) State.init ls :=
    runOk_of_mem (fun l hl _ => hok l hl) _
  exact run_invariant (fun _ l _ h hok hs => step_handed hl l h hok hs) init_handed hrok hrun

/-- The life of every request is as it should be throughout a run, exactly if every command of the
run that has a supported request number has the payload of that request. -/
theorem lifeCycle_iff (hl : lib.Lawful) (cfg : Config) (ls : List Step)
    (hrun : (run (step lib cfg) State.init ls).isSome) :
    (∀ ks s, ks <+: ls → run (step lib cfg) State.init ks = some s → LifeCycle s) ↔
      ∀ l ∈ ls, l.wellFormed lib cfg = true := by
  constructor
  · intro hlc l hmem
    obtain ⟨ks, rest, rfl⟩ := List.append_of_mem hmem
    -- the state before the step, and the one after it
    obtain ⟨s', hs'⟩ := Option.isSome_iff_exists.mp hrun
    rw [run_append] at hs'
    obtain ⟨s₁, h₁, hs'⟩ := Option.bind_eq_some_iff.mp hs'
    obtain ⟨s₂, h₂, -⟩ := Option.bind_eq_some_iff.mp hs'
    by_contra hbad
    refine step_rejected hl l (run_book hl h₁) (by simpa using hbad) h₂ ?_
    refine hlc (ks ++ [l]) s₂ ⟨rest, by simp⟩ ?_
    rw [run_append, h₁]
    simp [run, h₂]
  · intro hok ks s hpre hks
    have hks' : ∀ l ∈ ks, l.wellFormed lib cfg = true := fun l hl => hok l (hpre.subset hl)
    exact (run_book hl hks).lifeCycle (run_handed hl hks' hks)

end

/-! ## A parcel -/

/-- `PAD_SIZE`. -/
def padSize (n : Nat) : Nat := (n + 3) / 4 * 4

/-- The bytes that are left of a parcel, as `Parcel` reads them on a little-endian machine. -/
def bytesParcel : Parcel (List UInt8) where
  setData := id
  readInt32 p :=
    if 4 ≤ p.length then (some (UInt32.ofNat (ofLe32 p)).toInt32, p.drop 4) else (none, p)
  read p := if 4 ≤ p.length then (p.head?, p.drop 4) else (none, p)
  readInplace len p :=
    let n := len.toUInt32.toNat
    if padSize n ≤ p.length then (some (p.take n), p.drop (padSize n)) else (none, p)
  readString16Inplace p :=
    if 4 ≤ p.length then
      let n := ofLe32 p
      let p := p.drop 4
      if n < 2 ^ 31 - 1 ∧ padSize (2 * (n + 1)) ≤ p.length then
        (some ((List.range n).map fun i => (p.getD (2 * i) 0).toUInt16 +
          256 * (p.getD (2 * i + 1) 0).toUInt16), p.drop (padSize (2 * (n + 1))))
      else (none, p)
    else (none, p)
  strndup16to8 s := s.map (·.toUInt8)

/-- A number cannot be read when less than four bytes are left. -/
theorem bytesParcel_readInt32 (p : List UInt8) :
    (bytesParcel.readInt32 p).1 = none ↔ ¬ 4 ≤ p.length := by
  simp only [bytesParcel]
  split <;> simp_all

theorem bytesParcel_lawful : bytesParcel.Lawful where
  int32_fails p h := by
    rw [bytesParcel_readInt32] at h
    simp [bytesParcel, h]
  byte_fails p h := by
    simp only [bytesParcel] at h ⊢
    split at h
    · next h4 =>
      rw [List.head?_eq_none_iff] at h
      subst h
      cases h4
    · next h4 => rw [if_neg h4]
  byte_room p := by
    rw [bytesParcel_readInt32]
    simp only [bytesParcel]
    split
    · next h4 =>
      rw [List.head?_eq_none_iff]
      constructor
      · rintro rfl
        cases h4
      · exact absurd h4
    · next h4 => exact ⟨fun _ => h4, fun _ => rfl⟩
  string_fails p h := by
    rw [bytesParcel_readInt32] at h
    simp [bytesParcel, h]

/-- Version 3 of the vendor's library, 8 KiB of stack, and the sizes of `ril_cdma_sms.h`. -/
def exampleConfig : Config := ⟨3, 8192, 36, 36, 255, 20, 12⟩

/-- `RIL_REQUEST_RADIO_POWER`, with the token 7: the radio is switched on. -/
def radioPower : List UInt8 := [23, 0, 0, 0, 7, 0, 0, 0, 1, 0, 0, 0, 1, 0, 0, 0]

/-- The vendor completes the request twice. -/
theorem lifeCycle_radioPower :
    ∃ s, run (step bytesParcel exampleConfig) State.init
        [.connect, .command radioPower 1 0 0, .complete 1 0 none, .complete 1 0 none] = some s ∧
      LifeCycle s := by
  have hrun : (run (step bytesParcel exampleConfig) State.init
      [.connect, .command radioPower 1 0 0, .complete 1 0 none, .complete 1 0 none]).isSome = true := by
    decide +kernel
  obtain ⟨s, hs⟩ := Option.isSome_iff_exists.mp hrun
  refine ⟨s, hs, ?_⟩
  exact (lifeCycle_iff bytesParcel_lawful exampleConfig
    [.connect, .command radioPower 1 0 0, .complete 1 0 none, .complete 1 0 none]
    (by decide +kernel)).mpr (by decide +kernel) _ s List.prefix_rfl hs

/-- The payload is missing: the request stays on the list, and is not answered. -/
theorem lifeCycle_rejected :
    ∃ s, run (step bytesParcel exampleConfig) State.init
        [.connect, .command (radioPower.take 8) 1 0 0] = some s ∧
      s.serials = [0] ∧ onRequests 0 s.log = 0 ∧ replies 0 s.log = 0 ∧ ¬ LifeCycle s := by
  refine ⟨⟨[⟨1, 0, 7, 23, false, false⟩], 1, true, false, [.received 0 23 7]⟩, by decide +kernel, rfl,
    rfl, rfl, fun h => ?_⟩
  exact absurd rfl ((h.exact 0).mp List.mem_cons_self).1

end Twm.Ril.Requests
