import DeviceTwm.Adb.SmartChunks
import DeviceTwm.Adb.WritePaths

/-!
# What `enqueue` tells its caller

`local_socket_event_func` gives a packet to the peer of its socket, and goes on with the socket unless
`enqueue` returns a negative value: that is to say that the peer has closed the socket. There are six
kinds of peers. A local socket that fails to write closes itself, and its peer with it, and returns 1;
and a smart socket that connects the socket to `track-devices` returns 0 even when the list of devices,
which is written to the socket at once, cannot be written. In every other case the result is the truth
(`enqueue_truthful_iff`).

`outcome` is what this comes to in the terms of `Sock.pass`, and `pass_eq` that the two agree.
-/

open Lib

namespace Twm.Adb.LocalSocket

open Sock SmartSocket

/-- The peer of a socket. -/
inductive PeerSock
  | localSocket (q : Sock)
  | remote
  | smart (build : Build) (pktFirst : Option (List UInt8))
  | jdwp
  | jdwpTracker
  | deviceTracker

/-- What an `enqueue` depends on besides. -/
structure Circumstances where
  /-- What `adb_write` returns for the descriptor of the peer. -/
  writes : List WriteResult
  /-- `handle_host_request` returns 0. -/
  handled : Bool
  /-- `create_host_service_socket` returns a socket, for other services than `track-devices`. -/
  found : Bool
  /-- The list of devices, and what `adb_write` returns when it is written to the caller. -/
  devices : List UInt8
  devicesWrites : List WriteResult
  /-- `s->transport` is there and not offline. -/
  online : Bool

namespace Sock

variable (s : Sock) (c : Circumstances)

/-- The second half of `smart_socket_enqueue`, for the request `text` of the socket `s`. -/
def request (build : Build) (text : List UInt8) : Int × Sock :=
  match build, parse text with
  | .host, .host _ _ service =>
    if (str "transport").isPrefixOf service then (0, s)
    else if c.handled then (-1, s.peerCloses)
    else if service = str "track-devices" then
      -- the tracker is the new peer, and is ready at once
      (0, ({ s with peer := .other, notify := false }.enqueue c.devices c.devicesWrites).2)
    else if c.found then (0, { s with peer := .other, notify := false })
    else (-1, s.peerCloses)
  | _, _ =>
    if c.online then (1, { s with peer := .none, notify := true }.note .sentOpen)
    else (-1, s.peerCloses)

/-- `smart_socket_enqueue`, once the packet is part of the buffer. -/
def smartLook (build : Build) (data : List UInt8) : Int × Sock :=
  match hear data with
  | .incomplete => (0, s)
  | .bad => (-1, s.peerCloses)
  | .request text => s.request c build text

/-- `s->peer->enqueue(s->peer, p)`: what it returns, and what has become of `s`. -/
def enqueueTo (peer : PeerSock) (data : List UInt8) : Int × Sock :=
  match peer with
  | .localSocket q =>
    if q.queue = [] then
      match push c.writes (.full data) with
      | .done => (0, s)
      | .backlog _ => (1, s)
      -- `q` closes, and its peer with it
      | .failed => (1, s.peerCloses)
    else (1, s)
  | .remote => (1, s.note (.sentWrte data))
  | .smart build none => s.smartLook c build data
  | .smart build (some first) =>
    if maxPayload < first.length + data.length then (-1, s.peerCloses)
    else s.smartLook c build (first ++ data)
  -- you can't write to these
  | .jdwp | .jdwpTracker => (-1, s.close)
  | .deviceTracker => (-1, s.peerCloses)

end Sock

/-- A negative result says that the socket is gone, and no other one does when it is. -/
def Truthful (r : Int × Sock) : Prop :=
  (r.2.status ≠ .live → r.1 < 0) ∧ (0 ≤ r.1 → r.2.status = .live)

/-- The writes of a packet with `len` bytes to go come to an error before it is written. -/
def Fails : Nat → List WriteResult → Prop
  | 0, _ => False
  | _ + 1, [] | _ + 1, .again :: _ => False
  | _ + 1, .wrote 0 :: _ | _ + 1, .fail :: _ | _ + 1, .intr :: _ => True
  | len + 1, .wrote (n + 1) :: ws => Fails (len - n) ws

/-- The packet completes a request for `track-devices`. -/
def Tracks (c : Circumstances) (build : Build) (data : List UInt8) : Prop :=
  build = .host ∧ c.handled = false ∧ ∃ text ttype serial, hear data = .request text ∧
    parse text = .host ttype serial (str "track-devices")

/-- A write fails that closes the socket: of a local peer with an empty queue, or of the list of
devices. A socket that has packets in its queue outlives the first, and the second is not tried. -/
def ClosedByWrite (s : Sock) (c : Circumstances) (peer : PeerSock) (data : List UInt8) : Prop :=
  s.queue = [] ∧
    match peer with
    | .localSocket q => q.queue = [] ∧ Fails data.length c.writes
    | .smart build pktFirst => Tracks c build (pktFirst.getD [] ++ data) ∧
        (∀ first, pktFirst = some first → first.length + data.length ≤ maxPayload) ∧
        Fails c.devices.length c.devicesWrites
    | _ => False

/-! ## Who closes the socket -/

theorem push_failed_iff (ws : List WriteResult) (p : APacket) :
    push ws p = .failed ↔ Fails p.len ws := by
  induction ws generalizing p with
  | nil =>
    rw [push]
    cases hp : p.len with
    | zero => simp [Fails]
    | succ n => simp [Fails]
  | cons w ws ih =>
    rw [push]
    cases hp : p.len with
    | zero => simp [Fails]
    | succ n =>
      rw [if_neg (Nat.succ_ne_zero n)]
      cases w with
      | again => simp [Fails, fastWrite]
      | fail => simp [Fails, fastWrite]
      | intr => simp [Fails, fastWrite]
      | wrote k =>
        obtain _ | k := k
        · simp [Fails, fastWrite]
        have hlen : (p.advance (k + 1)).len = n - k := by
          simp only [APacket.advance]
          omega
        rw [Fails, ← hlen]
        exact ih (p.advance (k + 1))

/-- A socket without packets in its queue is gone when it is closed; another one is not. -/
theorem close_status {s : Sock} (hk : s.kind = .fd) (hs : s.Listed) :
    s.close.status = .live ↔ s.queue ≠ [] := by
  obtain ⟨hlive, hclosing⟩ := hs
  unfold close closeLocked
  rw [hk]
  by_cases hq : s.queue = [] <;> simp [hq, hclosing, hlive]

theorem peerCloses_status {s : Sock} (hk : s.kind = .fd) (hs : s.Listed) :
    s.peerCloses.status = .live ↔ s.queue ≠ [] :=
  close_status (s := { s with peer := .none }) hk hs

/-- A packet for the socket itself, whose writes fail. -/
theorem enqueue_status {s : Sock} (hk : s.kind = .fd) (hs : s.Listed) (data : List UInt8)
    (ws : List WriteResult) :
    (s.enqueue data ws).2.status = .live ↔ s.queue ≠ [] ∨ ¬ Fails data.length ws := by
  by_cases hq : s.queue = []
  · have hfails := push_failed_iff ws (.full data)
    rw [enqueue_eq hk hq, or_iff_right (by simpa using hq)]
    change _ ↔ ¬ Fails (APacket.full data).len ws
    rw [← hfails]
    cases push ws (.full data) with
    | done => simp [afterPush, hs.1]
    | backlog p => simp [afterPush, queueTail, hs.1]
    | failed => simp [afterPush, close_status hk hs, hq]
  · have htail : (s.enqueue data ws).2 = s.queueTail (.full data) := by
      simp only [enqueue, hk, if_neg hq]
    rw [htail]
    exact iff_of_true hs.1 (.inl hq)

theorem truthful_neg (s : Sock) : Truthful (-1, s) :=
  have hneg : (-1 : Int) < 0 := by decide
  ⟨fun _ => hneg, fun h => absurd h (Int.not_le.mpr hneg)⟩

/-- Where the result is not negative, it is the truth when the socket is alive. -/
theorem truthful_iff {r : Int × Sock} (h : 0 ≤ r.1) : Truthful r ↔ r.2.status = .live := by
  constructor
  · exact fun ht => ht.2 h
  · exact fun hlive => ⟨fun hne => absurd hlive hne, fun _ => hlive⟩

theorem request_truthful_iff {s : Sock} (hk : s.kind = .fd) (hs : s.Listed) (c : Circumstances)
    (build : Build) (text : List UInt8) :
    Truthful (s.request c build text) ↔
      ¬ (s.queue = [] ∧ (build = .host ∧ c.handled = false ∧ ∃ ttype serial,
        parse text = .host ttype serial (str "track-devices")) ∧
        Fails c.devices.length c.devicesWrites) := by
  unfold request
  split
  · rename_i _ _ ttype serial service hparse
    by_cases ht : (str "transport").isPrefixOf service
    · rw [if_pos ht]
      refine iff_of_true ((truthful_iff (Int.le_refl 0)).mpr hs.1) ?_
      rintro ⟨-, ⟨-, -, ttype', serial', hparse'⟩, -⟩
      cases hparse.symm.trans hparse'
      exact absurd ht (by decide)
    · rw [if_neg ht]
      by_cases hh : c.handled
      · rw [if_pos hh]
        refine iff_of_true (truthful_neg _) ?_
        rintro ⟨-, ⟨-, hno, -⟩, -⟩
        rw [hh] at hno
        cases hno
      · rw [if_neg hh]
        by_cases hd : service = str "track-devices"
        · -- the list of devices is written to the caller
          subst hd
          have hstatus := enqueue_status (s := { s with peer := .other, notify := false }) hk hs
            c.devices c.devicesWrites
          rw [if_pos rfl, truthful_iff (Int.le_refl 0), hstatus]
          simp only [hparse]
          grind
        · rw [if_neg hd]
          have hno : ¬ ∃ ttype' serial',
              parse text = .host ttype' serial' (str "track-devices") := by
            rintro ⟨ttype', serial', hparse'⟩
            cases hparse.symm.trans hparse'
            exact hd rfl
          split
          · exact iff_of_true ((truthful_iff (Int.le_refl 0)).mpr hs.1) (fun h => hno h.2.1.2.2)
          · exact iff_of_true (truthful_neg _) (fun h => hno h.2.1.2.2)
  · rename_i hother
    refine iff_of_true ?_ ?_
    · split
      · exact (truthful_iff Int.one_nonneg).mpr hs.1
      · exact truthful_neg _
    · rintro ⟨-, ⟨hb, -, ttype, serial, hparse⟩, -⟩
      exact hother _ _ _ hb hparse

theorem smartLook_truthful_iff {s : Sock} (hk : s.kind = .fd) (hs : s.Listed) (c : Circumstances)
    (build : Build) (data : List UInt8) :
    Truthful (s.smartLook c build data) ↔
      ¬ (s.queue = [] ∧ Tracks c build data ∧ Fails c.devices.length c.devicesWrites) := by
  unfold smartLook Tracks
  cases hh : hear data with
  | incomplete =>
    refine iff_of_true ((truthful_iff (Int.le_refl 0)).mpr hs.1) ?_
    rintro ⟨-, ⟨-, -, text, -, -, h, -⟩, -⟩
    cases h
  | bad =>
    refine iff_of_true (truthful_neg _) ?_
    rintro ⟨-, ⟨-, -, text, -, -, h, -⟩, -⟩
    cases h
  | request text =>
    dsimp only
    rw [request_truthful_iff hk hs]
    simp only [Heard.request.injEq]
    grind

/-- **What `enqueue` returns.** It is the truth, for a socket with a descriptor and a peer of any kind,
in just the cases in which no write closes the socket. -/
theorem enqueue_truthful_iff {s : Sock} (hk : s.kind = .fd) (hs : s.Listed) (peer : PeerSock)
    (c : Circumstances) (data : List UInt8) :
    Truthful (s.enqueueTo c peer data) ↔ ¬ ClosedByWrite s c peer data := by
  unfold enqueueTo ClosedByWrite
  match peer with
  | .localSocket q =>
    have hfails : push c.writes (.full data) = .failed ↔ Fails data.length c.writes :=
      push_failed_iff c.writes (.full data)
    dsimp only
    by_cases hq : q.queue = []
    · rw [if_pos hq]
      cases hp : push c.writes (.full data) with
      | done =>
        rw [hp] at hfails
        exact iff_of_true ((truthful_iff (Int.le_refl 0)).mpr hs.1)
          (fun h => Pushed.noConfusion (hfails.mpr h.2.2))
      | backlog p =>
        rw [hp] at hfails
        exact iff_of_true ((truthful_iff Int.one_nonneg).mpr hs.1)
          (fun h => Pushed.noConfusion (hfails.mpr h.2.2))
      | failed =>
        rw [hp] at hfails
        rw [truthful_iff Int.one_nonneg, peerCloses_status hk hs]
        have hf := hfails.mp rfl
        grind
    · rw [if_neg hq]
      exact iff_of_true ((truthful_iff Int.one_nonneg).mpr hs.1) (fun h => hq h.2.1)
  | .remote => exact iff_of_true ((truthful_iff Int.one_nonneg).mpr hs.1) (fun h => h.2)
  | .smart build none =>
    rw [smartLook_truthful_iff hk hs]
    simp
  | .smart build (some first) =>
    dsimp only
    split
    · rename_i hover
      refine iff_of_true (truthful_neg _) ?_
      rintro ⟨-, -, hfit, -⟩
      have := hfit first rfl
      omega
    · rename_i hfit
      rw [smartLook_truthful_iff hk hs]
      simp [Nat.not_lt.mp hfit]
  | .jdwp | .jdwpTracker | .deviceTracker => exact iff_of_true (truthful_neg _) (fun h => h.2)

/-- A client of `wait-for-any`, and the service that takes what it sends. -/
theorem truthful_short_write :
    Truthful ((Sock.init .hostService).enqueueTo ⟨[.wrote 1, .again], false, false, [], [], true⟩
      (.localSocket (Sock.init .hostService)) [1, 2]) :=
  (enqueue_truthful_iff rfl (by decide) _ _ _).mpr (fun h => h.2.2)

/-- The service's write fails: the client's socket is destroyed, and 1 is returned. -/
theorem untruthful_failed_write :
    ((Sock.init .hostService).enqueueTo ⟨[.fail], false, false, [], [], true⟩
      (.localSocket (Sock.init .hostService)) [1]).1 = 1 ∧
    ((Sock.init .hostService).enqueueTo ⟨[.fail], false, false, [], [], true⟩
      (.localSocket (Sock.init .hostService)) [1]).2.status = .destroyed ∧
    ¬ Truthful ((Sock.init .hostService).enqueueTo ⟨[.fail], false, false, [], [], true⟩
      (.localSocket (Sock.init .hostService)) [1]) :=
  ⟨by decide, by decide, fun h => absurd (h.2 (by decide)) (by decide)⟩

/-! ## The caller -/

/-- How the caller sees its peer. -/
def PeerSock.peer : PeerSock → Peer
  | .remote => .remote
  | .smart .. => .smart
  | _ => .other

/-- What `local_socket_event_func` does with the result; `none`: it returns at once. -/
def resume (r : Int × Sock) : Option Sock :=
  if r.1 < 0 then none
  else if 0 < r.1 then
    some (if r.2.status = .live then { r.2 with fde := r.2.fde.delRead }
      else { r.2 with status := .crashed })
  else some r.2

/-- What a smart socket does with the request `text`. -/
def requestOutcome (c : Circumstances) (build : Build) (text : List UInt8) : Enqueue :=
  match build, parse text with
  | .host, .host _ _ service =>
    if (str "transport").isPrefixOf service then .takes
    else if c.handled then .refuses
    else if service = str "track-devices" then .connects (some (c.devices, c.devicesWrites))
    else if c.found then .connects none
    else .refuses
  | _, _ => if c.online then .opens else .refuses

def lookOutcome (c : Circumstances) (build : Build) (data : List UInt8) : Enqueue :=
  match hear data with
  | .incomplete => .takes
  | .bad => .refuses
  | .request text => requestOutcome c build text

/-- What the peer does, as it is told to `Sock.pass`. -/
def outcome (c : Circumstances) (peer : PeerSock) (data : List UInt8) : Enqueue :=
  match peer with
  | .localSocket q =>
    if q.queue = [] then
      match push c.writes (.full data) with
      | .done => .takes
      | .backlog _ => .backlog
      | .failed => .closesUs
    else .backlog
  | .remote => .backlog
  | .smart build none => lookOutcome c build data
  | .smart build (some first) =>
    if maxPayload < first.length + data.length then .refuses
    else lookOutcome c build (first ++ data)
  | .jdwp | .jdwpTracker | .deviceTracker => .refuses

theorem pass_request {s : Sock} (hs : s.Listed) (hp : s.peer = .smart) (c : Circumstances)
    (build : Build) (text buf : List UInt8) :
    s.pass buf (requestOutcome c build text) = resume (s.request c build text) := by
  unfold requestOutcome request
  split
  · split
    · simp [Sock.pass, hp, resume]
    · split
      · simp [Sock.pass, hp, resume]
      · split
        · simp [Sock.pass, hp, resume]
        · split
          · simp [Sock.pass, hp, resume]
          · simp [Sock.pass, hp, resume]
  · split
    · simp [Sock.pass, hp, resume, note, hs.1]
    · simp [Sock.pass, hp, resume]

theorem pass_look {s : Sock} (hs : s.Listed) (hp : s.peer = .smart) (c : Circumstances)
    (build : Build) (data buf : List UInt8) :
    s.pass buf (lookOutcome c build data) = resume (s.smartLook c build data) := by
  unfold lookOutcome smartLook
  cases hear data with
  | incomplete => simp [Sock.pass, hp, resume]
  | bad => simp [Sock.pass, hp, resume]
  | request text => exact pass_request hs hp c build text buf

/-- The packet goes on as `enqueueTo` says. -/
theorem pass_eq {s : Sock} (hs : s.Listed) {peer : PeerSock} (hp : s.peer = peer.peer)
    (c : Circumstances) (data : List UInt8) :
    s.pass data (outcome c peer data) = resume (s.enqueueTo c peer data) := by
  unfold outcome enqueueTo
  match peer with
  | .localSocket q =>
    have hother : s.peer = .other := hp
    dsimp only
    split
    · cases push c.writes (.full data) with
      | done => simp [Sock.pass, hother, resume]
      | backlog p => simp [Sock.pass, hother, resume, hs.1]
      | failed => simp [Sock.pass, hother, resume]
    · simp [Sock.pass, hother, resume, hs.1]
  | .remote =>
    have hremote : s.peer = .remote := hp
    simp [Sock.pass, hremote, resume, note, hs.1]
  | .smart build none => exact pass_look hs hp c build data data
  | .smart build (some first) =>
    dsimp only
    split
    · have hsmart : s.peer = .smart := hp
      simp [Sock.pass, hsmart, resume]
    · exact pass_look hs hp c build (first ++ data) data
  | .jdwp | .jdwpTracker | .deviceTracker =>
    have hother : s.peer = .other := hp
    simp [Sock.pass, hother, resume]

end Twm.Adb.LocalSocket
