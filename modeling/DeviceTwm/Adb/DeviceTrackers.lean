import DeviceTwm.Adb.LocalSocket
import Mathlib.Data.List.Nodup

/-!
# The device trackers (`transport.c` of `adb`)

A client that asks for `host:track-devices` is connected to a device tracker, which sends it the list of
devices at once and every time the list has changed. `update_transports` goes through
`device_tracker_list` and gives the list to the socket of each client. When a write to a client fails, its
socket closes the tracker, which leaves the list and is freed while the loop is at it.

* `none` stands for a tracker or a socket that is used after it was freed, or a null pointer.
* A tracker and a socket are named by a number; the next tracker is read from the list.
* `Safe`: the event function that connects a client goes on with its socket, which the first list may have
  closed. When it has met the end of the file too, it closes the socket again.
* `Inv`: each tracker in the list has a client that is connected to it, and the other way round.
* `trackers_good`: a run uses what was freed exactly when it meets that case, and every client is given
  every list from the one at its connection on, until it is closed.
-/

open Lib

namespace Twm.Adb.DeviceTrackers

open LocalSocket

/-! ## The code -/

/-- `device_tracker`: the peer of its socket, and `update_needed`. -/
structure Tracker where
  peer : Option Nat
  updateNeeded : Nat
  deriving DecidableEq

/-- The socket of a client, and its peer when that is a tracker. -/
structure Client where
  sock : Sock
  tracker : Option Nat
  deriving DecidableEq

structure World where
  trackers : Nat → Option Tracker
  /-- How many trackers were made. -/
  count : Nat
  /-- `device_tracker_list`. -/
  list : List Nat
  clients : Nat → Option Client
  /-- What `list_transports_msg` prints. -/
  msg : List UInt8
  /-- The lists that there were, the newest last. -/
  log : List (List UInt8)
  /-- How many there were when a client was connected. -/
  since : Nat → Nat
  /-- The packets that were given to the socket of a client. -/
  given : Nat → List (List UInt8)

def World.init (msg : List UInt8) : World :=
  ⟨fun _ => none, 0, [], fun _ => none, msg, [msg], fun _ => 0, fun _ => []⟩

namespace World

variable (w : World)

def setTracker (t : Nat) (k : Option Tracker) : World :=
  { w with trackers := Function.update w.trackers t k }

def setClient (c : Nat) (x : Option Client) : World :=
  { w with clients := Function.update w.clients c x }

/-- The socket of a client after one of its functions; it is freed when it is destroyed. -/
def setSock (c : Nat) (x : Client) (s : Sock) : World :=
  w.setClient c (if s.status = .destroyed then none else some { x with sock := s })

/-- `device_tracker_remove` and `free`. -/
def removeTracker (t : Nat) : World :=
  { w.setTracker t none with list := w.list.erase t }

/-- `device_tracker_close`: the peer, if there is one, is closed first. -/
def deviceTrackerClose (t : Nat) : Option World :=
  match w.trackers t with
  | none => none
  | some k =>
    match k.peer with
    | none => some (w.removeTracker t)
    | some c =>
      match w.clients c with
      | none => none
      | some x => some ((w.setSock c { x with tracker := none } x.sock.peerCloses).removeTracker t)

/-- A function of the socket has made `s` of it. When it has closed its peer, the tracker, whose own
peer was cleared, is closed. -/
def sockBecomes (c : Nat) (x : Client) (s : Sock) : Option World :=
  if x.sock.peer = .other ∧ s.peer = .none then
    match x.tracker with
    | none => none
    | some t =>
      match w.trackers t with
      | none => none
      | some k => ((w.setTracker t (some { k with peer := none })).deviceTrackerClose t).map fun w =>
          w.setSock c { x with tracker := none } s
  else some (w.setSock c x s)

/-- `device_tracker_send`; `ws` is what the writes to the descriptor of the client return. -/
def deviceTrackerSend (t : Nat) (ws : List WriteResult) : Option World :=
  match w.trackers t with
  | none => none
  | some k =>
    match k.peer with
    | none => none
    | some c =>
      match w.clients c with
      | none => none
      | some x =>
        { w with given := Function.update w.given c (w.given c ++ [w.msg]) }.sockBecomes c x
          (x.sock.enqueue w.msg ws).2

/-- `device_tracker_ready`. -/
def deviceTrackerReady (t : Nat) (ws : List WriteResult) : Option World :=
  match w.trackers t with
  | none => none
  | some k =>
    if 0 < k.updateNeeded then
      (w.setTracker t (some { k with updateNeeded := 0 })).deviceTrackerSend t ws
    else some w

/-- `create_device_tracker`, and how a smart socket connects the socket of the client `c` to it. -/
def createDeviceTracker (c : Nat) (s : Sock) : World :=
  { w.setTracker w.count (some ⟨some c, 1⟩) with
    count := w.count + 1
    list := w.count :: w.list
    clients := Function.update w.clients c (some ⟨{ s with peer := .other }, some w.count⟩)
    since := Function.update w.since c (w.log.length - 1)
    given := Function.update w.given c [] }

/-- `tracker->next`. -/
def next (t : Nat) : Option Nat := (w.list.dropWhile (· ≠ t)).tail.head?

/-- The loop of `update_transports`, for `n` rounds. -/
def updateLoop (ws : Nat → List WriteResult) : Nat → World → Option Nat → Option World
  | _, w, none => some w
  | 0, _, some _ => none
  | n + 1, w, some t =>
    if (w.trackers t).isNone then none
    else
      let next := w.next t
      -- note: this may destroy the tracker if the connection is closed
      match w.deviceTrackerSend t (ws t) with
      | none => none
      | some w => updateLoop ws n w next

/-- `update_transports`, when `list_transports_msg` prints `msg`. -/
def updateTransports (msg : List UInt8) (ws : Nat → List WriteResult) : Option World :=
  updateLoop ws w.list.length { w with msg := msg, log := w.log ++ [msg] } w.list.head?

/-- The `FDE_WRITE` part of `local_socket_event_func`. When everything was written, the peer is told that
it may go on. -/
def clientWritable (c : Nat) (ws : List WriteResult) : Option World :=
  match w.clients c with
  | none => none
  | some x =>
    let (on, s) := x.sock.writePart ws
    if s.status = .crashed then none
    else
      (w.sockBecomes c x s).bind fun w =>
        if on then x.tracker.bind fun t => w.deviceTrackerReady t [] else some w

/-- The end of the `FDE_READ` part of `local_socket_event_func`: `s->close(s)` at the end of the file. -/
def endOfRead (c : Nat) (eof : Bool) : Option World :=
  if eof then
    match w.clients c with
    | none => none
    | some x => w.sockBecomes c x x.sock.endOfFile
  else some w

/-- The `FDE_READ` part of `local_socket_event_func`. What is read is given to the peer, and a tracker
then closes (`device_tracker_enqueue`). -/
def clientReadable (c : Nat) (rs : List FdRead) : Option World :=
  match w.clients c with
  | none => none
  | some x =>
    let (buf, eof) := Sock.fill rs []
    if buf ≠ [] ∧ x.sock.peer = .other then x.tracker.bind fun t => w.deviceTrackerClose t
    else w.endOfRead c eof

/-- The `FDE_READ` part that brings the request of the client to its smart socket. The tracker has sent its
list when `enqueue` returns 0. -/
def clientConnects (c : Nat) (s : Sock) (eof : Bool) (ws : List WriteResult) : Option World :=
  ((w.createDeviceTracker c s).deviceTrackerReady w.count ws).bind fun w => w.endOfRead c eof

end World

inductive Call
  /-- The client `c`, whose socket is `s` by now, asks for the devices; `eof`: the same event has met the
  end of its file. -/
  | connect (c : Nat) (s : Sock) (eof : Bool) (ws : List WriteResult)
  /-- The list of devices has changed. -/
  | update (msg : List UInt8) (ws : Nat → List WriteResult)
  | writable (c : Nat) (ws : List WriteResult)
  | readable (c : Nat) (rs : List FdRead)

def step (w : World) : Call → Option World
  | .connect c s eof ws => w.clientConnects c s eof ws
  | .update msg ws => w.updateTransports msg ws
  | .writable c ws => w.clientWritable c ws
  | .readable c rs => w.clientReadable c rs

/-- What the calls rely on: a client is new and its socket has a descriptor and is open, and the events
are those of a socket that was not freed. -/
def CallOk (w : World) : Call → Prop
  | .connect c s _ _ => (w.clients c).isNone = true ∧ s.kind = .fd ∧ s.status = .live ∧ s.closing = false
  | .update _ _ => True
  | .writable c _ => (w.clients c).isSome = true
  | .readable c _ => (w.clients c).isSome = true

/-- At the end of its file, a client that is connected is not closed by its first list. -/
def Safe (w : World) : Call → Prop
  | .connect _ s eof ws =>
    eof = true → (({ s with peer := .other } : Sock).enqueue w.msg ws).2.status ≠ .destroyed
  | _ => True

/-! ## Sockets -/

/-- A socket that is connected to a tracker. -/
structure Open (s : Sock) : Prop where
  kind : s.kind = .fd
  peer : s.peer = .other
  live : s.status = .live
  closing : s.closing = false

/-- A socket that has lost its tracker: it waits until its packets are written, or is gone. -/
structure Shut (s : Sock) : Prop where
  kind : s.kind = .fd
  peer : s.peer = .none
  status : s.status = .destroyed ∨ s.status = .live ∧ s.closing = true

variable {s : Sock}

theorem shut_close (hk : s.kind = .fd) (hs : s.status = .live) : Shut s.close := by
  have hclose : s.close = { s with notify := false }.closeLocked := by
    rw [Sock.close, hk]
  rw [hclose, Sock.closeLocked]
  split
  · exact ⟨by simpa using hk, by simp, .inl rfl⟩
  · exact ⟨by simpa using hk, by simp, .inr ⟨by simpa using hs, rfl⟩⟩

theorem shut_peerCloses (hk : s.kind = .fd) (hs : s.status = .live) : Shut s.peerCloses :=
  shut_close (s := { s with peer := .none }) hk hs

theorem enqueue_cases (h : Open s) (data : List UInt8) (ws : List WriteResult) :
    Open (s.enqueue data ws).2 ∨ Shut (s.enqueue data ws).2 := by
  have htail (p : APacket) : Open (s.queueTail p) := ⟨h.kind, h.peer, h.live, h.closing⟩
  rw [Sock.enqueue, h.kind]
  dsimp only
  split
  · split
    · exact .inl h
    · exact .inl (htail _)
    · exact .inr (shut_close h.kind h.live)
  · exact .inl (htail _)

theorem endOfFile_shut (hk : s.kind = .fd) (hs : s.status = .live) : Shut s.endOfFile := by
  rw [Sock.endOfFile, if_pos hs]
  exact shut_close hk hs

/-- The socket of a client, when its packets are written. -/
theorem writePart_open (h : Open s) (ws : List WriteResult) :
    Open (s.writePart ws).2 ∨ (s.writePart ws).1 = false ∧ Shut (s.writePart ws).2 := by
  rcases hd : Sock.drain ws s.queue with ⟨q, out, d⟩
  rw [Sock.writePart, hd]
  cases d with
  | blocked => exact .inl ⟨h.kind, h.peer, h.live, h.closing⟩
  | failed error => exact .inr ⟨rfl, shut_close h.kind h.live⟩
  | empty =>
    dsimp only
    rw [h.closing, if_neg (by decide), h.peer]
    exact .inl ⟨h.kind, rfl, h.live, rfl⟩

theorem writePart_shut (h : Shut s) (hs : s.status = .live) (ws : List WriteResult) :
    (s.writePart ws).1 = false ∧ Shut (s.writePart ws).2 := by
  have hclosing : s.closing = true := by
    rcases h.status with hd | ⟨-, hc⟩
    · exact absurd (hd.symm.trans hs) nofun
    · exact hc
  rcases hd : Sock.drain ws s.queue with ⟨q, out, d⟩
  rw [Sock.writePart, hd]
  cases d with
  | blocked => exact ⟨rfl, h.kind, h.peer, .inr ⟨hs, hclosing⟩⟩
  | failed error => exact ⟨rfl, shut_close h.kind hs⟩
  | empty =>
    dsimp only
    rw [hclosing, if_pos rfl]
    exact ⟨rfl, shut_close h.kind hs⟩

/-! ## The invariant -/

/-- The trackers in `todo` have still to be given the newest list. -/
structure Inv (w : World) (todo : List Nat) : Prop where
  nodup : w.list.Nodup
  /-- The trackers in the list are those that were not freed. -/
  live : ∀ t, t ∈ w.list ↔ (w.trackers t).isSome = true
  fresh : ∀ t, w.count ≤ t → w.trackers t = none
  tracker : ∀ t k, w.trackers t = some k → k.updateNeeded = 0 ∧
    ∃ c x, k.peer = some c ∧ w.clients c = some x ∧ x.tracker = some t
  client : ∀ c x, w.clients c = some x →
    (Open x.sock ∧ ∃ t, x.tracker = some t ∧ w.trackers t = some ⟨some c, 0⟩) ∨
      Shut x.sock ∧ x.sock.status = .live ∧ x.tracker = none
  last : w.log.getLast? = some w.msg
  since : ∀ c, w.since c < w.log.length
  given : ∀ c x t, w.clients c = some x → x.tracker = some t →
    w.given c ++ (if t ∈ todo then [w.msg] else []) = w.log.drop (w.since c)
  begins : ∀ c, w.given c <+: w.log.drop (w.since c)

variable {w : World} {todo : List Nat} {c t : Nat} {x : Client}

/-- The client of a tracker. -/
theorem Inv.of_tracker (hi : Inv w todo) {k : Tracker} (hk : w.trackers t = some k) :
    ∃ c x, k = ⟨some c, 0⟩ ∧ w.clients c = some x ∧ x.tracker = some t ∧ Open x.sock := by
  obtain ⟨hu, c, x, hc, hx, ht⟩ := hi.tracker t k hk
  refine ⟨c, x, ?_, hx, ht, ?_⟩
  · rw [← hc, ← hu]
  · rcases hi.client c x hx with ⟨ho, -⟩ | ⟨-, -, hnone⟩
    · exact ho
    · exact absurd (ht.symm.trans hnone) nofun

/-- The tracker of a client. -/
theorem Inv.of_client (hi : Inv w todo) (hx : w.clients c = some x) (ht : x.tracker = some t) :
    Open x.sock ∧ w.trackers t = some ⟨some c, 0⟩ := by
  rcases hi.client c x hx with ⟨ho, t', ht', hk⟩ | ⟨-, -, hnone⟩
  · cases ht.symm.trans ht'
    exact ⟨ho, hk⟩
  · exact absurd (ht.symm.trans hnone) nofun

/-- Two clients have two trackers. -/
theorem Inv.client_ne (hi : Inv w todo) (hx : w.clients c = some x) (ht : x.tracker = some t)
    {c' t' : Nat} {y : Client} (hy : w.clients c' = some y) (ht' : y.tracker = some t')
    (hne : c' ≠ c) : t' ≠ t := by
  rintro rfl
  have hc := (hi.of_client hx ht).2.symm.trans (hi.of_client hy ht').2
  cases hc
  exact hne rfl

theorem setSock_other {c' : Nat} {s : Sock} (hne : c' ≠ c) :
    (w.setSock c x s).clients c' = w.clients c' := Function.update_of_ne hne _ _

theorem setSock_live {s : Sock} (hs : s.status ≠ .destroyed) :
    (w.setSock c x s).clients c = some { x with sock := s } := by
  rw [World.setSock, if_neg hs]
  exact Function.update_self _ _ _

theorem setSock_destroyed {s : Sock} (hs : s.status = .destroyed) :
    (w.setSock c x s).clients c = none := by
  rw [World.setSock, if_pos hs]
  exact Function.update_self _ _ _

/-- The socket of a client changes, and stays as it was connected. -/
theorem Inv.setSock (hi : Inv w todo) (hx : w.clients c = some x) {s : Sock}
    (hs : Open x.sock ∧ Open s ∨ Shut x.sock ∧ Shut s) : Inv (w.setSock c x s) todo := by
  have hget {c' : Nat} {y : Client} (hy : (w.setSock c x s).clients c' = some y) :
      c' = c ∧ s.status = .live ∧ y = { x with sock := s } ∨ c' ≠ c ∧ w.clients c' = some y := by
    rcases eq_or_ne c' c with rfl | hne
    · by_cases hd : s.status = .destroyed
      · rw [setSock_destroyed hd] at hy
        cases hy
      · rw [setSock_live hd] at hy
        refine .inl ⟨rfl, ?_, (Option.some.inj hy).symm⟩
        rcases hs with ⟨-, ho⟩ | ⟨-, hsh⟩
        · exact ho.live
        · exact (hsh.status.resolve_left hd).1
    · exact .inr ⟨hne, setSock_other hne ▸ hy⟩
  refine ⟨hi.nodup, hi.live, hi.fresh, fun t k hk => ?_, fun c' y hy => ?_, hi.last, hi.since,
    fun c' y t hy ht => ?_, hi.begins⟩
  · obtain ⟨hu, c', y, hc, hy, ht⟩ := hi.tracker t k hk
    rcases eq_or_ne c' c with rfl | hne
    · cases hx.symm.trans hy
      have ho : Open s := by
        rcases hs with ⟨-, ho⟩ | ⟨hsh, -⟩
        · exact ho
        · exact absurd (hsh.peer.symm.trans (hi.of_client hx ht).1.peer) nofun
      exact ⟨hu, c', _, hc, setSock_live (by rw [ho.live]; nofun), ht⟩
    · exact ⟨hu, c', y, hc, (setSock_other hne).trans hy, ht⟩
  · rcases hget hy with ⟨rfl, hlive, rfl⟩ | ⟨-, hy⟩
    · rcases hi.client c' x hx with ⟨ho, htr⟩ | ⟨hsh, -, hnone⟩
      · rcases hs with ⟨-, ho'⟩ | ⟨hsh, -⟩
        · exact .inl ⟨ho', htr⟩
        · exact absurd (hsh.peer.symm.trans ho.peer) nofun
      · rcases hs with ⟨ho, -⟩ | ⟨-, hsh'⟩
        · exact absurd (hsh.peer.symm.trans ho.peer) nofun
        · exact .inr ⟨hsh', hlive, hnone⟩
    · exact hi.client c' y hy
  · rcases hget hy with ⟨rfl, -, rfl⟩ | ⟨-, hy⟩
    · exact hi.given c' x t hx ht
    · exact hi.given c' y t hy ht

/-- The tracker of a client is freed, and the socket of the client is shut. -/
theorem Inv.detached (hi : Inv w todo) (hx : w.clients c = some x) (ht : x.tracker = some t)
    {s : Sock} (hs : Shut s) :
    Inv ((w.setSock c { x with tracker := none } s).removeTracker t) todo := by
  have hk := (hi.of_client hx ht).2
  have htr {t' : Nat} {k : Tracker} (h : Function.update w.trackers t none t' = some k) :
      t' ≠ t ∧ w.trackers t' = some k := by
    rcases eq_or_ne t' t with rfl | hne
    · rw [Function.update_self] at h
      cases h
    · exact ⟨hne, by rwa [Function.update_of_ne hne] at h⟩
  have hget {c' : Nat} {y : Client}
      (hy : (w.setSock c { x with tracker := none } s).clients c' = some y) :
      c' = c ∧ y = ⟨s, none⟩ ∧ s.status = .live ∨ c' ≠ c ∧ w.clients c' = some y := by
    rcases eq_or_ne c' c with rfl | hne
    · by_cases hd : s.status = .destroyed
      · rw [setSock_destroyed hd] at hy
        cases hy
      · rw [setSock_live hd] at hy
        exact .inl ⟨rfl, (Option.some.inj hy).symm, (hs.status.resolve_left hd).1⟩
    · exact .inr ⟨hne, setSock_other hne ▸ hy⟩
  refine ⟨hi.nodup.erase t, fun t' => ?_, fun t' hle => ?_, fun t' k hk' => ?_, fun c' y hy => ?_,
    hi.last, hi.since, fun c' y t' hy ht' => ?_, hi.begins⟩
  · change t' ∈ w.list.erase t ↔ (Function.update w.trackers t none t').isSome = true
    rw [hi.nodup.mem_erase_iff, hi.live]
    rcases eq_or_ne t' t with rfl | hne
    · simp
    · simp [hne]
  · change Function.update w.trackers t none t' = none
    rw [Function.update_apply]
    split
    · rfl
    · exact hi.fresh t' hle
  · obtain ⟨hne, hk'⟩ := htr hk'
    obtain ⟨hu, c', y, hc, hy, hty⟩ := hi.tracker t' k hk'
    have hcc : c' ≠ c := by
      rintro rfl
      cases hx.symm.trans hy
      exact hne (Option.some.inj (hty.symm.trans ht))
    exact ⟨hu, c', y, hc, (setSock_other hcc).trans hy, hty⟩
  · rcases hget hy with ⟨rfl, rfl, hlive⟩ | ⟨hne, hy⟩
    · exact .inr ⟨hs, hlive, rfl⟩
    · refine (hi.client c' y hy).imp_left fun ⟨ho, t', ht', hk'⟩ => ⟨ho, t', ht', ?_⟩
      exact (Function.update_of_ne (hi.client_ne hx ht hy ht' hne) _ _).trans hk'
  · rcases hget hy with ⟨rfl, rfl, -⟩ | ⟨-, hy⟩
    · cases ht'
    · exact hi.given c' y t' hy ht'

/-! ## What the functions keep -/

/-- The list stays, or loses the tracker `t`. -/
def Drops (w w' : World) (t : Nat) : Prop := w'.list = w.list ∨ w'.list = w.list.erase t

theorem sockBecomes_open (hi : Inv w todo) (hx : w.clients c = some x) (ht : x.tracker = some t)
    {s : Sock} (hs : Open s ∨ Shut s) :
    ∃ w', w.sockBecomes c x s = some w' ∧ Inv w' todo ∧ Drops w w' t := by
  obtain ⟨ho, hk⟩ := hi.of_client hx ht
  rw [World.sockBecomes]
  rcases hs with hs | hs
  · have hno : ¬ (x.sock.peer = .other ∧ s.peer = .none) := fun hp =>
      absurd (hs.peer.symm.trans hp.2) nofun
    rw [if_neg hno]
    exact ⟨_, rfl, hi.setSock hx (.inl ⟨ho, hs⟩), .inl rfl⟩
  · rw [if_pos ⟨ho.peer, hs.peer⟩, ht]
    dsimp only
    rw [hk]
    have hclose : (w.setTracker t (some ⟨none, 0⟩)).deviceTrackerClose t =
        some ((w.setTracker t (some ⟨none, 0⟩)).removeTracker t) := by
      rw [World.deviceTrackerClose, World.setTracker]
      dsimp only
      rw [Function.update_self]
    have hsame : ((w.setTracker t (some ⟨none, 0⟩)).removeTracker t).setSock c
        { x with tracker := none } s = (w.setSock c { x with tracker := none } s).removeTracker t := by
      simp only [World.removeTracker, World.setTracker, World.setSock, World.setClient,
        Function.update_idem]
    dsimp only
    rw [hclose, Option.map_some, hsame]
    exact ⟨_, rfl, hi.detached hx ht hs, .inr rfl⟩

theorem sockBecomes_shut (hi : Inv w todo) (hx : w.clients c = some x) {s : Sock}
    (hx' : Shut x.sock) (hs : Shut s) :
    ∃ w', w.sockBecomes c x s = some w' ∧ Inv w' todo := by
  have hno : ¬ (x.sock.peer = .other ∧ s.peer = .none) := fun hp =>
    absurd (hx'.peer.symm.trans hp.1) nofun
  rw [World.sockBecomes, if_neg hno]
  exact ⟨_, rfl, hi.setSock hx (.inr ⟨hx', hs⟩)⟩

/-- The client of `t` is given the newest list. -/
theorem Inv.give {rest : List Nat} (hi : Inv w (t :: rest)) (ht : t ∉ rest)
    (hx : w.clients c = some x) (hxt : x.tracker = some t) :
    Inv { w with given := Function.update w.given c (w.given c ++ [w.msg]) } rest := by
  have hgive := hi.given c x t hx hxt
  rw [if_pos List.mem_cons_self] at hgive
  refine ⟨hi.nodup, hi.live, hi.fresh, hi.tracker, hi.client, hi.last, hi.since,
    fun c' y t' hy ht' => ?_, fun c' => ?_⟩
  · dsimp only
    rcases eq_or_ne c' c with rfl | hne
    · cases hx.symm.trans hy
      cases hxt.symm.trans ht'
      rw [Function.update_self, if_neg ht, List.append_nil]
      exact hgive
    · have hmem : t' ∈ t :: rest ↔ t' ∈ rest := by
        rw [List.mem_cons, or_iff_right (hi.client_ne hx hxt hy ht' hne)]
      rw [Function.update_of_ne hne]
      simpa only [hmem] using hi.given c' y t' hy ht'
  · dsimp only
    rcases eq_or_ne c' c with rfl | hne
    · rw [Function.update_self]
      exact hgive ▸ List.prefix_rfl
    · rw [Function.update_of_ne hne]
      exact hi.begins c'

theorem deviceTrackerSend_spec {rest : List Nat} (hi : Inv w (t :: rest)) (ht : t ∉ rest)
    {k : Tracker} (hk : w.trackers t = some k) (ws : List WriteResult) :
    ∃ w', w.deviceTrackerSend t ws = some w' ∧ Inv w' rest ∧ Drops w w' t := by
  obtain ⟨c, x, rfl, hx, hxt, ho⟩ := hi.of_tracker hk
  rw [World.deviceTrackerSend, hk]
  dsimp only
  rw [hx]
  obtain ⟨w', hw', hi', hd⟩ := sockBecomes_open (hi.give ht hx hxt) hx hxt (enqueue_cases ho w.msg ws)
  exact ⟨w', hw', hi', hd⟩

theorem next_eq {pre rest : List Nat} (hl : w.list = pre ++ t :: rest) (ht : t ∉ pre) :
    w.next t = rest.head? := by
  have hdrop : (pre ++ t :: rest).dropWhile (· ≠ t) = t :: rest := by
    have hne : ∀ k ∈ pre, decide (k ≠ t) = true := fun k hk =>
      decide_eq_true fun he : k = t => ht (he ▸ hk)
    rw [List.dropWhile_append_of_pos hne]
    exact List.dropWhile_cons_of_neg (by simp)
  rw [World.next, hl, hdrop, List.tail_cons]

/-- The loop gives the newest list to the trackers that are left, whatever the writes return. -/
theorem updateLoop_spec (ws : Nat → List WriteResult) {n : Nat} (hn : todo.length ≤ n)
    (hi : Inv w todo) (hl : ∃ pre, w.list = pre ++ todo) :
    ∃ w', World.updateLoop ws n w todo.head? = some w' ∧ Inv w' [] := by
  induction todo generalizing w n with
  | nil => exact ⟨w, by cases n <;> rfl, hi⟩
  | cons t rest ih =>
    rcases n with - | n
    · cases hn
    obtain ⟨pre, hl⟩ := hl
    have hnodup := hi.nodup
    rw [hl] at hnodup
    obtain ⟨-, hcons, hdisj⟩ := List.nodup_append.mp hnodup
    have hpre : t ∉ pre := fun hm => hdisj t hm t List.mem_cons_self rfl
    obtain ⟨k, hk⟩ := Option.isSome_iff_exists.mp ((hi.live t).mp (by
      rw [hl]
      exact List.mem_append_right _ List.mem_cons_self))
    obtain ⟨w₁, hsend, hi₁, hdrops⟩ := deviceTrackerSend_spec hi (List.nodup_cons.mp hcons).1 hk (ws t)
    have hl₁ : ∃ pre, w₁.list = pre ++ rest := by
      rcases hdrops with hd | hd
      · exact ⟨pre ++ [t], by rw [hd, hl, List.append_assoc]; rfl⟩
      · exact ⟨pre, by rw [hd, hl, List.erase_append_right _ hpre, List.erase_cons_head]⟩
    rw [List.head?_cons, World.updateLoop, hk, if_neg (by simp), hsend, next_eq hl hpre]
    exact ih (Nat.le_of_succ_le_succ hn) hi₁ hl₁

/-- Everyone has still to be given a new list. -/
theorem Inv.changed (hi : Inv w []) (msg : List UInt8) :
    Inv { w with msg := msg, log := w.log ++ [msg] } w.list where
  nodup := hi.nodup
  live := hi.live
  fresh := hi.fresh
  tracker := hi.tracker
  client := hi.client
  last := List.getLast?_concat
  since c := by
    rw [List.length_append]
    exact Nat.lt_add_right _ (hi.since c)
  given c x t hx ht := by
    have hmem : t ∈ w.list := (hi.live t).mpr (by rw [(hi.of_client hx ht).2]; rfl)
    have hold := hi.given c x t hx ht
    rw [if_neg List.not_mem_nil, List.append_nil] at hold
    dsimp only
    rw [if_pos hmem, hold, List.drop_append_of_le_length (Nat.le_of_lt (hi.since c))]
  begins c := by
    rw [List.drop_append_of_le_length (Nat.le_of_lt (hi.since c))]
    exact (hi.begins c).trans (List.prefix_append _ _)

theorem updateTransports_spec (hi : Inv w []) (msg : List UInt8) (ws : Nat → List WriteResult) :
    ∃ w', w.updateTransports msg ws = some w' ∧ Inv w' [] :=
  updateLoop_spec ws (Nat.le_refl _) (hi.changed msg) ⟨[], rfl⟩

/-- A client that is new is connected to a tracker, which has to send it the list. -/
theorem Inv.created (hi : Inv w []) (hc : w.clients c = none) {s : Sock} (hk : s.kind = .fd)
    (hs : s.status = .live) (hcl : s.closing = false) :
    Inv ((w.createDeviceTracker c s).setTracker w.count (some ⟨some c, 0⟩)) [w.count] := by
  have hnone := hi.fresh w.count (Nat.le_refl _)
  have hnew : w.count ∉ w.list := fun hm => by
    have := (hi.live _).mp hm
    rw [hnone] at this
    cases this
  have htrackers : ((w.createDeviceTracker c s).setTracker w.count (some ⟨some c, 0⟩)).trackers =
      Function.update w.trackers w.count (some ⟨some c, 0⟩) := Function.update_idem _ _ _
  have hpos := hi.since c
  obtain ⟨log, hlog⟩ := List.getLast?_eq_some_iff.mp hi.last
  have hcc {c' : Nat} {y : Client} (hy : w.clients c' = some y) : c' ≠ c := by
    rintro rfl
    rw [hc] at hy
    cases hy
  have hget {c' : Nat} {y : Client}
      (hy : Function.update w.clients c (some ⟨{ s with peer := .other }, some w.count⟩) c' = some y) :
      c' = c ∧ y = ⟨{ s with peer := .other }, some w.count⟩ ∨ c' ≠ c ∧ w.clients c' = some y := by
    rcases eq_or_ne c' c with rfl | hne
    · rw [Function.update_self] at hy
      exact .inl ⟨rfl, (Option.some.inj hy).symm⟩
    · exact .inr ⟨hne, by rwa [Function.update_of_ne hne] at hy⟩
  refine ⟨List.nodup_cons.mpr ⟨hnew, hi.nodup⟩, fun t => ?_, fun t hle => ?_, fun t k hk' => ?_,
    fun c' y hy => ?_, hi.last, fun c' => ?_, fun c' y t hy ht => ?_, fun c' => ?_⟩
  · rw [htrackers]
    refine List.mem_cons.trans ?_
    rcases eq_or_ne t w.count with rfl | hne
    · simp
    · simpa [hne] using hi.live t
  · have hlt : w.count < t := hle
    rw [htrackers, Function.update_of_ne (Nat.ne_of_gt hlt)]
    exact hi.fresh t (Nat.le_of_lt hlt)
  · rw [htrackers] at hk'
    rcases eq_or_ne t w.count with rfl | hne
    · rw [Function.update_self] at hk'
      cases hk'
      exact ⟨rfl, c, _, rfl, Function.update_self _ _ _, rfl⟩
    · rw [Function.update_of_ne hne] at hk'
      obtain ⟨hu, c', y, hpeer, hy, ht⟩ := hi.tracker t k hk'
      exact ⟨hu, c', y, hpeer, (Function.update_of_ne (hcc hy) _ _).trans hy, ht⟩
  · rw [htrackers]
    rcases hget hy with ⟨rfl, rfl⟩ | ⟨hne, hy⟩
    · exact .inl ⟨⟨hk, rfl, hs, hcl⟩, w.count, rfl, Function.update_self _ _ _⟩
    · refine (hi.client c' y hy).imp_left fun ⟨ho, t, ht, hkt⟩ => ⟨ho, t, ht, ?_⟩
      have hne' : t ≠ w.count := by
        rintro rfl
        rw [hnone] at hkt
        cases hkt
      rw [Function.update_of_ne hne', hkt]
  · change Function.update w.since c (w.log.length - 1) c' < w.log.length
    rw [Function.update_apply]
    split
    · omega
    · exact hi.since c'
  · change Function.update w.given c [] c' ++ _ = w.log.drop (Function.update w.since c _ c')
    rcases hget hy with ⟨rfl, rfl⟩ | ⟨hne, hy⟩
    · cases ht
      rw [Function.update_self, Function.update_self, if_pos List.mem_cons_self, List.nil_append, hlog,
        List.length_append, List.length_singleton, Nat.add_sub_cancel, List.drop_left]
      rfl
    · have hne' : t ∉ [w.count] := fun hm => by
        have hkt := (hi.of_client hy ht).2
        rw [List.mem_singleton.mp hm, hnone] at hkt
        cases hkt
      have hold := hi.given c' y t hy ht
      rw [if_neg List.not_mem_nil] at hold
      rw [Function.update_of_ne hne, Function.update_of_ne hne, if_neg hne']
      exact hold
  · change Function.update w.given c [] c' <+: w.log.drop (Function.update w.since c _ c')
    rcases eq_or_ne c' c with rfl | hne
    · rw [Function.update_self]
      exact List.nil_prefix
    · rw [Function.update_of_ne hne, Function.update_of_ne hne]
      exact hi.begins c'

/-- A socket is freed when the function that was called destroyed it. -/
theorem sockBecomes_client {w' : World} {s : Sock} (h : w.sockBecomes c x s = some w') :
    w'.clients c = none ↔ s.status = .destroyed := by
  have hset {v : World} {y : Client} : (v.setSock c y s).clients c = none ↔ s.status = .destroyed := by
    by_cases hd : s.status = .destroyed
    · exact iff_of_true (setSock_destroyed hd) hd
    · rw [setSock_live hd]
      exact iff_of_false (Option.some_ne_none _) hd
  rw [World.sockBecomes] at h
  split at h
  · split at h
    · cases h
    split at h
    · cases h
    obtain ⟨v, -, rfl⟩ := Option.map_eq_some_iff.mp h
    exact hset
  · cases h
    exact hset

theorem endOfRead_inv (hi : Inv w []) (hx : w.clients c = some x) (eof : Bool) :
    ∃ w', w.endOfRead c eof = some w' ∧ Inv w' [] := by
  rw [World.endOfRead]
  split
  · rw [hx]
    dsimp only
    rcases hi.client c x hx with ⟨ho, t, ht, -⟩ | ⟨hsh, hlive, -⟩
    · obtain ⟨w', hw', hi', -⟩ := sockBecomes_open hi hx ht (.inr (endOfFile_shut ho.kind ho.live))
      exact ⟨w', hw', hi'⟩
    · exact sockBecomes_shut hi hx hsh (endOfFile_shut hsh.kind hlive)
  · exact ⟨w, rfl, hi⟩

/-- The connection of a client, up to the return of `enqueue`: the socket is gone if its first list could
not be written. -/
theorem ready_inv (hi : Inv w []) {s : Sock} (ws : List WriteResult) (hc : w.clients c = none)
    (hk : s.kind = .fd) (hs : s.status = .live) (hcl : s.closing = false) :
    ∃ w', (w.createDeviceTracker c s).deviceTrackerReady w.count ws = some w' ∧ Inv w' [] ∧
      (w'.clients c = none ↔
        (({ s with peer := .other } : Sock).enqueue w.msg ws).2.status = .destroyed) := by
  have hget : (w.createDeviceTracker c s).trackers w.count = some ⟨some c, 1⟩ :=
    Function.update_self _ _ _
  rw [World.deviceTrackerReady, hget]
  obtain ⟨w', hw', hi', -⟩ := deviceTrackerSend_spec (hi.created hc hk hs hcl) List.not_mem_nil
    (Function.update_self _ _ _) ws
  refine ⟨w', hw', hi', ?_⟩
  have hk' : ((w.createDeviceTracker c s).setTracker w.count (some ⟨some c, 0⟩)).trackers w.count =
      some ⟨some c, 0⟩ := Function.update_self _ _ _
  have hx : ((w.createDeviceTracker c s).setTracker w.count (some ⟨some c, 0⟩)).clients c =
      some ⟨{ s with peer := .other }, some w.count⟩ := Function.update_self _ _ _
  rw [World.deviceTrackerSend, hk'] at hw'
  dsimp only at hw'
  rw [hx] at hw'
  exact sockBecomes_client hw'

theorem connect_inv (hi : Inv w []) {s : Sock} (eof : Bool) (ws : List WriteResult)
    (hok : CallOk w (.connect c s eof ws)) :
    (Safe w (.connect c s eof ws) → ∃ w', step w (.connect c s eof ws) = some w' ∧ Inv w' []) ∧
      (¬ Safe w (.connect c s eof ws) → step w (.connect c s eof ws) = none) := by
  obtain ⟨hc, hk, hs, hcl⟩ := hok
  obtain ⟨w₁, hw₁, hi₁, hgone⟩ := ready_inv hi ws (Option.isNone_iff_eq_none.mp hc) hk hs hcl
  rw [step, World.clientConnects, hw₁, Option.bind_some]
  cases hx : w₁.clients c with
  | some x =>
    refine ⟨fun _ => endOfRead_inv hi₁ hx eof, fun hno => absurd (fun _ => ?_) hno⟩
    exact fun hd => Option.some_ne_none x (hx.symm.trans (hgone.mpr hd))
  | none =>
    constructor
    · intro hsafe
      have heof : ¬ eof = true := fun he => hsafe he (hgone.mp hx)
      rw [World.endOfRead, if_neg heof]
      exact ⟨w₁, rfl, hi₁⟩
    · intro hno
      have heof : eof = true := by
        by_contra he
        exact hno fun h => absurd h he
      rw [World.endOfRead, if_pos heof, hx]

theorem writable_inv (hi : Inv w []) (ws : List WriteResult) (hok : (w.clients c).isSome = true) :
    ∃ w', step w (.writable c ws) = some w' ∧ Inv w' [] := by
  obtain ⟨x, hx⟩ := Option.isSome_iff_exists.mp hok
  rw [step, World.clientWritable, hx]
  dsimp only
  rcases hwp : x.sock.writePart ws with ⟨on, s⟩
  dsimp only
  rcases hi.client c x hx with ⟨ho, t, ht, hk⟩ | ⟨hsh, hlive, hnone⟩
  · have hs := writePart_open ho ws
    rw [hwp] at hs
    have hcrash : s.status ≠ .crashed := by
      rcases hs with hs | ⟨-, hs⟩
      · rw [hs.live]
        nofun
      · rcases hs.status with h | ⟨h, -⟩ <;> (rw [h]; nofun)
    obtain ⟨w', hw', hi', -⟩ := sockBecomes_open hi hx ht (hs.imp_right And.right)
    rw [if_neg hcrash, hw', Option.bind_some]
    cases on with
    | false => exact ⟨w', rfl, hi'⟩
    | true =>
      -- the tracker is told to go on, and has nothing to send
      have hopen : Open s := hs.resolve_right fun h => absurd h.1 nofun
      have hbecomes := hw'
      have hno : ¬ (x.sock.peer = .other ∧ s.peer = .none) := fun hp =>
        absurd (hopen.peer.symm.trans hp.2) nofun
      rw [World.sockBecomes, if_neg hno] at hbecomes
      cases hbecomes
      rw [if_pos rfl, ht, Option.bind_some, World.deviceTrackerReady]
      have hkt : (w.setSock c x s).trackers t = some ⟨some c, 0⟩ := hk
      rw [hkt]
      exact ⟨_, rfl, hi'⟩
  · obtain ⟨hon, hs⟩ := writePart_shut hsh hlive ws
    rw [hwp] at hon hs
    have hcrash : s.status ≠ .crashed := by
      rcases hs.status with h | ⟨h, -⟩ <;> (rw [h]; nofun)
    obtain ⟨w', hw', hi'⟩ := sockBecomes_shut hi hx hsh hs
    rw [if_neg hcrash, hw', Option.bind_some, if_neg (Bool.eq_false_iff.mp hon)]
    exact ⟨w', rfl, hi'⟩

theorem readable_inv (hi : Inv w []) (rs : List FdRead) (hok : (w.clients c).isSome = true) :
    ∃ w', step w (.readable c rs) = some w' ∧ Inv w' [] := by
  obtain ⟨x, hx⟩ := Option.isSome_iff_exists.mp hok
  rw [step, World.clientReadable, hx]
  dsimp only
  generalize Sock.fill rs [] = r
  split
  · next hgiven =>
    rcases hi.client c x hx with ⟨ho, t, ht, hk⟩ | ⟨hsh, -, -⟩
    · rw [ht, Option.bind_some, World.deviceTrackerClose, hk]
      dsimp only
      rw [hx]
      exact ⟨_, rfl, hi.detached hx ht (shut_peerCloses ho.kind ho.live)⟩
    · exact absurd (hsh.peer.symm.trans hgiven.2) nofun
  · exact endOfRead_inv hi hx r.2

/-- A call that is safe keeps the invariant, and one that is not uses a socket that was freed. -/
theorem step_inv (hi : Inv w []) {l : Call} (hok : CallOk w l) :
    (Safe w l → ∃ w', step w l = some w' ∧ Inv w' []) ∧ (¬ Safe w l → step w l = none) := by
  cases l with
  | connect c s eof ws => exact connect_inv hi eof ws hok
  | update msg ws => exact ⟨fun _ => updateTransports_spec hi msg ws, fun h => absurd trivial h⟩
  | writable c ws => exact ⟨fun _ => writable_inv hi ws hok, fun h => absurd trivial h⟩
  | readable c rs => exact ⟨fun _ => readable_inv hi rs hok, fun h => absurd trivial h⟩

theorem init_inv (msg : List UInt8) : Inv (World.init msg) [] where
  nodup := List.nodup_nil
  live _ := iff_of_false List.not_mem_nil Bool.false_ne_true
  fresh _ _ := rfl
  tracker _ _ h := absurd h (Option.some_ne_none _).symm
  client _ _ h := absurd h (Option.some_ne_none _).symm
  last := rfl
  since _ := Nat.one_pos
  given _ _ _ h := absurd h (Option.some_ne_none _).symm
  begins _ := List.nil_prefix

/-- What the clients rely on. -/
structure Good (w : World) : Prop where
  /-- A tracker that was not freed is in the list, and has a client that is connected to it. -/
  live : ∀ t, t ∈ w.list ↔ ∃ c x, w.trackers t = some ⟨some c, 0⟩ ∧ w.clients c = some x ∧
    x.sock.peer = .other ∧ x.tracker = some t
  nodup : w.list.Nodup
  /-- A client that is connected was given every list since then. -/
  all : ∀ c x, w.clients c = some x → x.sock.peer = .other → w.given c = w.log.drop (w.since c)
  /-- One that was closed was given the first of them, in order. -/
  begins : ∀ c, w.given c <+: w.log.drop (w.since c)

theorem Inv.good (hi : Inv w []) : Good w where
  live t := by
    rw [hi.live, Option.isSome_iff_exists]
    constructor
    · rintro ⟨k, hk⟩
      obtain ⟨c, x, rfl, hx, ht, ho⟩ := hi.of_tracker hk
      exact ⟨c, x, hk, hx, ho.peer, ht⟩
    · rintro ⟨c, x, hk, -⟩
      exact ⟨_, hk⟩
  nodup := hi.nodup
  all c x hx hp := by
    rcases hi.client c x hx with ⟨-, t, ht, -⟩ | ⟨hsh, -⟩
    · have hgiven := hi.given c x t hx ht
      rwa [if_neg List.not_mem_nil, List.append_nil] at hgiven
    · exact absurd (hsh.peer.symm.trans hp) nofun
  begins := hi.begins

/-- **Device trackers**: a run of connections, changes of the list, and events of the clients uses no
tracker and no socket after it was freed, exactly when it is safe; and each client is given every list
since it was connected, until it is closed. -/
theorem trackers_good (msg : List UInt8) (ls : List Call) (hok : RunOk step CallOk (World.init msg) ls) :
    ((run step (World.init msg) ls).isSome = true ↔ RunOk step Safe (World.init msg) ls) ∧
      ∀ w, run step (World.init msg) ls = some w → Good w := by
  refine ⟨run_isSome_iff (I := fun w => Inv w []) (fun w l hi hl => step_inv hi hl) (init_inv msg) hok,
    fun w hrun => ?_⟩
  have hstep (w : World) (l : Call) (w' : World) (hi : Inv w []) (hl : CallOk w l)
      (hs : step w l = some w') : Inv w' [] := by
    obtain ⟨hsafe, hno⟩ := step_inv hi hl
    by_cases h : Safe w l
    · obtain ⟨w₁, hw₁, hi₁⟩ := hsafe h
      cases hs.symm.trans hw₁
      exact hi₁
    · exact absurd (hs.symm.trans (hno h)) (Option.some_ne_none _)
  exact (run_invariant hstep (init_inv msg) hok hrun).good

instance (w : World) : (l : Call) → Decidable (CallOk w l)
  | .connect c s _ _ => (inferInstance : Decidable ((w.clients c).isNone = true ∧ s.kind = .fd ∧
      s.status = .live ∧ s.closing = false))
  | .update _ _ => isTrue trivial
  | .writable c _ => (inferInstance : Decidable ((w.clients c).isSome = true))
  | .readable c _ => (inferInstance : Decidable ((w.clients c).isSome = true))

instance (w : World) : (l : Call) → Decidable (Safe w l)
  | .connect _ s eof ws => (inferInstance : Decidable (eof = true →
      (({ s with peer := .other } : Sock).enqueue w.msg ws).2.status ≠ .destroyed))
  | .update _ _ | .writable _ _ | .readable _ _ => isTrue trivial

/-- The socket of a client, connected to its smart socket. -/
def newSock : Sock := ⟨.fd, .smart, false, [], false, .live, Fde.init, [], [], [], false⟩

/-- Two clients, of which one is gone when the list changes and the other one sends something. A third is at
the end of its file when it is connected. -/
def threeClients : List Call :=
  [.connect 0 newSock false [.wrote 1], .connect 1 newSock false [],
    .update [49] fun t => if t = 0 then [.fail] else [.wrote 1], .readable 1 [.got [120]],
    .connect 2 newSock true [.wrote 1]]

theorem trackers_good_two : ∃ w, run step (World.init [48]) threeClients = some w ∧ Good w := by
  obtain ⟨hiff, hgood⟩ := trackers_good [48] threeClients (by decide +kernel)
  obtain ⟨w, hw⟩ := Option.isSome_iff_exists.mp (hiff.mpr (by decide +kernel))
  exact ⟨w, hw, hgood w hw⟩

-- Its first list cannot be written: the socket is freed, and closed again.
example : run step (World.init [48]) [.connect 0 newSock true [.fail]] = none := rfl

end Twm.Adb.DeviceTrackers
