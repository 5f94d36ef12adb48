import DeviceTwm.Adb.LocalSocket
import DeviceTwm.Lib.Trace

/-!
# One `WRITE` in flight

A side of a stream may not send a second `A_WRTE` before it has received an `A_OKAY` for the first.
A local socket keeps to it because `remote_socket_enqueue` returns 1: the socket does not want
`FDE_READ` until `ready` is called. The steps that do not keep to it are these (`KeepsPace`).

* `jdwp_process_list_updated` sends the new list to every tracker.
* `find_local_socket` finds a socket by its id only, so an `A_OKAY` from any transport calls `ready`.
-/

namespace Twm.Adb.LocalSocket

namespace Fde

variable (f : Fde) (read write : Bool)

@[simp] theorem set_wantRead : (f.set read write).wantRead = read := by
  unfold set
  split
  · next h => exact h.1
  · dsimp only
    split <;> rfl

theorem set_evRead (h : (f.set read write).evRead = true) : f.evRead = true := by
  unfold set at h
  split at h
  · exact h
  · dsimp only at h
    split at h
    · exact (Bool.and_eq_true_iff.mp h).1
    · exact h

end Fde

/-! ## The packets of a stream -/

def Event.isWrte : Event → Bool
  | .sentWrte _ => true
  | _ => false

def Event.isOkay : Event → Bool
  | .gotOkay => true
  | _ => false

/-- An `A_WRTE` was sent, and no `A_OKAY` was received since. -/
def inFlight (log : List Event) : Bool := Lib.pending Event.isWrte Event.isOkay log

/-- Between two `A_WRTE` that are sent, an `A_OKAY` is received. -/
def OneInFlight (log : List Event) : Prop := Lib.Separated Event.isWrte Event.isOkay log

namespace Sock

/-- A socket that has a packet in flight does not read from its descriptor, and its peer is no socket
of this process. A service has sent its first list. -/
structure Paced (s : Sock) : Prop where
  service : s.kind ≠ .jdwp false ∧ s.kind ≠ .jdwpTracker true
  quiet : s.kind = .fd → inFlight s.log = true → s.fde.wantRead = false ∧ s.fde.evRead = false
  remote : s.kind ≠ .fd ∨ inFlight s.log = true → s.peer ≠ .smart ∧ s.peer ≠ .other
  paced : OneInFlight s.log

/-- Nothing is written to the stream, and nothing more is read from the descriptor. -/
structure Calm (s s' : Sock) : Prop where
  kind : s'.kind = s.kind
  peer : s'.peer = s.peer ∨ s'.peer = .none
  wantRead : s'.fde.wantRead = true → s.fde.wantRead = true
  evRead : s'.fde.evRead = true → s.fde.evRead = true
  inFlight : inFlight s'.log = inFlight s.log
  paced : OneInFlight s.log → OneInFlight s'.log

variable {s s' s'' : Sock}

theorem Calm.refl (s : Sock) : s.Calm s := ⟨rfl, .inl rfl, id, id, rfl, id⟩

theorem Calm.trans (h : s.Calm s') (h' : s'.Calm s'') : s.Calm s'' where
  kind := h'.kind.trans h.kind
  peer := by
    rcases h'.peer with hp | hp
    · rw [hp]
      exact h.peer
    · exact .inr hp
  wantRead hw := h.wantRead (h'.wantRead hw)
  evRead he := h.evRead (h'.evRead he)
  inFlight := h'.inFlight.trans h.inFlight
  paced ho := h'.paced (h.paced ho)

/-- What is calm keeps the pace. -/
theorem Paced.calm (h : s.Paced) (hc : s.Calm s') : s'.Paced where
  service := hc.kind ▸ h.service
  quiet hk hf := by
    obtain ⟨hw, he⟩ := h.quiet (hc.kind ▸ hk) (hc.inFlight ▸ hf)
    constructor
    · by_contra hne
      rw [hc.wantRead (by simpa using hne)] at hw
      cases hw
    · by_contra hne
      rw [hc.evRead (by simpa using hne)] at he
      cases he
  remote hf := by
    rcases hc.peer with hp | hp
    · rw [hp]
      rw [hc.kind, hc.inFlight] at hf
      exact h.remote hf
    · rw [hp]
      exact ⟨nofun, nofun⟩
  paced := hc.paced h.paced

/-- A packet that is not an `A_WRTE` or an `A_OKAY` to us. -/
theorem note_calm (s : Sock) {e : Event} (hw : e.isWrte = false) (ho : e.isOkay = false) :
    s.Calm (s.note e) where
  kind := rfl
  peer := .inl rfl
  wantRead := id
  evRead := id
  inFlight := Lib.pending_snoc_neutral hw ho
  paced h := h.snoc fun he => by rw [hw] at he; cases he

theorem note_sentWrte (data : List UInt8) (h : OneInFlight s.log) (hf : inFlight s.log = false) :
    OneInFlight (s.note (.sentWrte data)).log :=
  h.snoc fun _ => hf

theorem inFlight_gotOkay (s : Sock) : inFlight (s.note .gotOkay).log = false :=
  Lib.pending_snoc _ _

/-! ### Closing and writing are calm -/

theorem closePeer_calm (s : Sock) : s.Calm s.closePeer := by
  have hnone : s.Calm { s with peer := .none } := ⟨rfl, .inr rfl, id, id, rfl, id⟩
  unfold closePeer
  split
  · exact hnone.trans (note_calm _ rfl rfl)
  · exact hnone

theorem closeLocked_calm (s : Sock) : s.Calm s.closeLocked := by
  apply s.closePeer_calm.trans
  simp only [closeLocked]
  split
  · exact ⟨rfl, .inl rfl, id, id, rfl, id⟩
  · refine ⟨rfl, .inl rfl, fun hw => ?_, Fde.set_evRead _ _ _, rfl, id⟩
    rw [Fde.delRead, Fde.set_wantRead] at hw
    cases hw

theorem close_calm (s : Sock) : s.Calm s.close := by
  unfold close
  split
  · exact (⟨rfl, .inl rfl, id, id, rfl, id⟩ : s.Calm { s with notify := false }).trans
      (closeLocked_calm _)
  · exact s.closePeer_calm.trans ⟨rfl, .inl rfl, id, id, rfl, id⟩

theorem peerCloses_calm (s : Sock) : s.Calm s.peerCloses :=
  (⟨rfl, .inr rfl, id, id, rfl, id⟩ : s.Calm { s with peer := .none }).trans (close_calm _)

theorem queueTail_calm (s : Sock) (p : APacket) : s.Calm (s.queueTail p) := by
  refine ⟨rfl, .inl rfl, fun hw => ?_, Fde.set_evRead _ _ _, rfl, id⟩
  rwa [queueTail, Fde.addWrite, Fde.set_wantRead] at hw

theorem enqueue_calm (s : Sock) (data : List UInt8) (ws : List WriteResult) :
    s.Calm (s.enqueue data ws).2 := by
  unfold enqueue
  split
  · split
    · split
      · exact .refl s
      · exact s.queueTail_calm _
      · exact s.close_calm
    · exact s.queueTail_calm _
  · exact s.closePeer_calm.trans ⟨rfl, .inl rfl, id, id, rfl, id⟩

theorem handleWrte_calm (s : Sock) (data : List UInt8) (ws : List WriteResult) :
    s.Calm (s.handleWrte data ws) := by
  simp only [handleWrte]
  split
  · exact (s.enqueue_calm data ws).trans (note_calm _ rfl rfl)
  · exact s.enqueue_calm data ws

theorem writePart_calm (s : Sock) (ws : List WriteResult) : s.Calm (s.writePart ws).2 := by
  have hwr : ∀ q out fd, s.Calm { s with queue := q, written := out, failed := fd } :=
    fun _ _ _ => ⟨rfl, .inl rfl, id, id, rfl, id⟩
  have hdel : ∀ q out st, s.Calm
      { s with queue := q, written := out, status := st, fde := s.fde.delWrite } := by
    refine fun _ _ _ => ⟨rfl, .inl rfl, fun hw => ?_, Fde.set_evRead _ _ _, rfl, id⟩
    rwa [Fde.delWrite, Fde.set_wantRead] at hw
  simp only [writePart]
  split
  · exact hwr _ _ _
  · exact (hwr _ _ _).trans (close_calm _)
  · split
    · exact (hwr _ _ _).trans (close_calm _)
    · split
      · exact hdel _ _ _
      · exact (hdel _ _ s.status).trans (note_calm _ rfl rfl)
      · exact hdel _ _ _

theorem endOfFile_calm (s : Sock) : s.Calm s.endOfFile := by
  unfold endOfFile
  split
  · exact s.close_calm
  · exact ⟨rfl, .inl rfl, id, id, rfl, id⟩

/-! ### Reading -/

/-- A packet is sent, and reads are no longer wanted. -/
theorem sentWrte_paced (data : List UInt8) (h : s.Paced) (hf : inFlight s.log = false)
    (hp : s.peer = .remote) (he : s.fde.evRead = false) :
    Paced { s.note (.sentWrte data) with fde := s.fde.delRead } where
  service := h.service
  quiet _ _ := by
    refine ⟨Fde.set_wantRead _ _ _, ?_⟩
    by_contra hne
    have hev : s.fde.evRead = true := Fde.set_evRead _ _ _ (eq_true_of_ne_false hne)
    rw [hev] at he
    cases he
  remote _ := by
    show s.peer ≠ .smart ∧ s.peer ≠ .other
    rw [hp]
    exact ⟨nofun, nofun⟩
  paced := note_sentWrte data h.paced hf

theorem delRead_calm (s : Sock) : s.Calm { s with fde := s.fde.delRead } := by
  refine ⟨rfl, .inl rfl, fun hw => ?_, Fde.set_evRead _ _ _, rfl, id⟩
  rw [Fde.delRead, Fde.set_wantRead] at hw
  cases hw

/-- A smart socket connects the socket to a service. -/
theorem connects_paced (h : s.Paced) (hp : s.peer = .smart) :
    Paced { s with peer := .other, notify := false } where
  service := h.service
  quiet := h.quiet
  remote hf := absurd hp (h.remote hf).1
  paced := h.paced

theorem pass_paced {buf : List UInt8} {e : Enqueue} (h : s.Paced) (hf : inFlight s.log = false)
    (he : s.fde.evRead = false) (hs : s.pass buf e = some s') : s'.Paced := by
  unfold pass at hs
  split at hs
  · cases hs
    exact h
  · next hp =>
    cases hs
    exact sentWrte_paced buf h hf hp he
  · cases hs
    have hnone : s.Calm { s with peer := .none, notify := true } :=
      ⟨rfl, .inr rfl, id, id, rfl, id⟩
    exact h.calm ((hnone.trans (note_calm _ rfl rfl)).trans (delRead_calm _))
  · next hp =>
    cases hs
    exact connects_paced h hp
  · next hp =>
    cases hs
    exact (connects_paced h hp).calm (enqueue_calm _ _ _)
  · cases hs
  · cases hs
  · cases hs
    exact h.calm s.delRead_calm
  · cases hs
    split
    · exact h.calm (s.peerCloses_calm.trans (delRead_calm _))
    · exact h.calm (s.peerCloses_calm.trans ⟨rfl, .inl rfl, id, id, rfl, id⟩)
  · cases hs
    exact h

theorem readPart_paced (rs : List FdRead) (e : Enqueue) (h : s.Paced)
    (hf : inFlight s.log = false) (he : s.fde.evRead = false) : (s.readPart rs e).Paced := by
  simp only [readPart]
  split
  · exact h.calm s.peerCloses_calm
  · next s' hs =>
    have hs' : s'.Paced := by
      split at hs
      · cases hs
        exact h
      · exact pass_paced h hf he hs
    split
    · exact hs'.calm s'.endOfFile_calm
    · exact hs'

theorem dequeue_calm (s : Sock) : s.Calm { s with fde := s.fde.dequeue } :=
  ⟨rfl, .inl rfl, id, fun he => (nomatch he), rfl, id⟩

/-- A read was reported, so nothing is in flight, and it was taken from the descriptor. -/
theorem readPart_paced_of_calm (rs : List FdRead) (e : Enqueue) (h : s.Paced) (hk : s.kind = .fd)
    (hev : s.fde.evRead = true) (hc : Calm { s with fde := s.fde.dequeue } s') :
    (s'.readPart rs e).Paced := by
  have hf : inFlight s.log = false := by
    by_contra hf
    have := (h.quiet hk (eq_true_of_ne_false hf)).2
    rw [hev] at this
    cases this
  have he : s'.fde.evRead = false := by
    by_contra hne
    have := hc.evRead (eq_true_of_ne_false hne)
    cases this
  exact readPart_paced rs e (h.calm (s.dequeue_calm.trans hc)) (hc.inFlight.trans hf) he

theorem eventFunc_paced (write : Bool) (ws : List WriteResult) (rs : List FdRead) (e : Enqueue)
    (h : s.Paced) (hk : s.kind = .fd) :
    (Sock.eventFunc { s with fde := s.fde.dequeue } write s.fde.evRead ws rs e).Paced := by
  have hstep : ∀ on s', Calm { s with fde := s.fde.dequeue } s' →
      (if on = true ∧ s.fde.evRead = true then s'.readPart rs e else s').Paced := by
    intro on s' hc
    split
    · next hon => exact readPart_paced_of_calm rs e h hk hon.2 hc
    · exact h.calm (s.dequeue_calm.trans hc)
  cases write with
  | true => exact hstep _ _ (writePart_calm _ ws)
  | false => exact hstep _ _ (.refl _)

theorem select_paced (read write : Bool) (h : s.Paced) (hk : s.kind = .fd) :
    Paced { s with fde := s.fde.process read write } := by
  refine ⟨h.service, fun _ hf => ?_, h.remote, h.paced⟩
  obtain ⟨hw, he⟩ := h.quiet hk hf
  simp only [Fde.process]
  split
  · exact ⟨hw, by simp [hw, he]⟩
  · exact ⟨hw, he⟩

/-- The new list of processes is sent to a tracker. -/
theorem listUpdated_paced (list : List UInt8) (h : s.Paced) (hk : s.kind ≠ .fd)
    (hf : inFlight s.log = false) : (s.note (.sentWrte list)).Paced where
  service := h.service
  quiet hk' := absurd hk' hk
  remote _ := h.remote (.inl hk)
  paced := note_sentWrte list h.paced hf

/-! ### `ready` -/

/-- `ready` is called when nothing is in flight; a service that has sent its first list ends, or does
nothing. -/
theorem ready_paced (list : List UInt8) (h : s.Paced)
    (hf : s.kind = .fd → inFlight s.log = false) : (s.ready list).Paced := by
  unfold ready
  split
  · next hk =>
    refine ⟨h.service, fun _ hin => ?_, h.remote, h.paced⟩
    rw [hf hk] at hin
    cases hin
  · next hk => exact absurd hk h.service.1
  · exact h.calm (s.closePeer_calm.trans ⟨rfl, .inl rfl, id, id, rfl, id⟩)
  · next hk => exact absurd hk h.service.2
  · exact h

theorem gotOkay_paced (h : s.Paced) : (s.note .gotOkay).Paced where
  service := h.service
  quiet _ hf := by rw [inFlight_gotOkay] at hf; cases hf
  remote hf := by
    rcases hf with hk | hf
    · exact h.remote (.inl hk)
    · rw [inFlight_gotOkay] at hf
      cases hf
  paced := h.paced.snoc fun he => (nomatch he)

/-- A remote socket is made for a socket that has none, and `ready` is called. -/
theorem bind_ready_paced (list : List UInt8) (h : s.Paced)
    (hf : s.kind = .fd → inFlight s.log = false) :
    ((if s.peer = .none then { s with peer := .remote } else s).ready list).Paced := by
  split
  · exact ready_paced list ⟨h.service, h.quiet, fun _ => ⟨nofun, nofun⟩, h.paced⟩ hf
  · exact ready_paced list h hf

theorem handleOkay_paced (own : Bool) (list : List UInt8) (h : s.Paced)
    (hok : own = true ∨ s.kind ≠ .fd ∨ inFlight s.log = false) :
    (s.handleOkay own list).Paced := by
  simp only [handleOkay]
  by_cases hn : own = true ∨ s.peer = .none
  · rw [if_pos hn]
    exact bind_ready_paced list (gotOkay_paced h) fun _ => s.inFlight_gotOkay
  · rw [if_neg hn]
    refine bind_ready_paced list h fun hk => ?_
    rcases hok with ho | hk' | hf
    · exact absurd (.inl ho) hn
    · exact absurd hk hk'
    · exact hf

end Sock

/-! ## Runs -/

/-- The list of processes changes only while nothing is in flight, and so for an `A_OKAY` from
another transport. -/
def KeepsPace (s : Sock) : Step → Prop
  | .okay own _ => own = true ∨ s.kind ≠ .fd ∨ inFlight s.log = false
  | .listUpdated _ => inFlight s.log = false
  | _ => True

instance (s : Sock) : ∀ l, Decidable (KeepsPace s l)
  | .okay .. => inferInstanceAs (Decidable (_ ∨ _ ∨ _))
  | .listUpdated .. => inferInstanceAs (Decidable (_ = _))
  | .select .. | .dispatch .. | .wrte .. | .clse | .peerCloses | .peerEnqueue .. | .peerReady
  | .closeAll => .isTrue trivial

theorem step_paced (s : Sock) (l : Step) (s' : Sock) (h : s.Paced) (hok : KeepsPace s l)
    (hs : step s l = some s') : s'.Paced := by
  cases l with
  | select read write =>
    obtain ⟨⟨-, hk⟩, rfl⟩ := step_stepsTo hs
    exact Sock.select_paced read write h hk
  | dispatch ws rs e =>
    obtain ⟨⟨-, hk, -⟩, rfl⟩ := step_stepsTo hs
    exact Sock.eventFunc_paced s.fde.evWrite ws rs e h hk
  | okay own list =>
    obtain ⟨-, rfl⟩ := step_stepsTo hs
    exact Sock.handleOkay_paced own list h hok
  | wrte data ws =>
    obtain ⟨-, rfl⟩ := step_stepsTo hs
    exact h.calm (s.handleWrte_calm data ws)
  | clse =>
    obtain ⟨-, rfl⟩ := step_stepsTo hs
    exact h.calm s.close_calm
  | peerCloses =>
    obtain ⟨-, rfl⟩ := step_stepsTo hs
    exact h.calm s.peerCloses_calm
  | peerEnqueue data ws =>
    obtain ⟨-, rfl⟩ := step_stepsTo hs
    exact h.calm (s.enqueue_calm data ws)
  | peerReady =>
    obtain ⟨⟨-, hp⟩, rfl⟩ := step_stepsTo hs
    refine Sock.ready_paced [] h fun _ => ?_
    by_contra hf
    exact (h.remote (.inr (eq_true_of_ne_false hf))).2 hp
  | closeAll =>
    obtain ⟨-, rfl⟩ := step_stepsTo hs
    exact h.calm s.closeLocked_calm
  | listUpdated list =>
    obtain ⟨⟨-, b, hk⟩, rfl⟩ := step_stepsTo hs
    exact Sock.listUpdated_paced list h (by simp [hk]) hok

theorem oneInFlight_one (e : Event) : OneInFlight [e] :=
  Lib.separated_nil.snoc fun _ => rfl

/-- At the start at most the first list of a service is in flight. -/
theorem init_paced (start : Start) : (Sock.init start).Paced := by
  cases start with
  | service =>
    exact ⟨⟨nofun, nofun⟩, fun _ hf => (nomatch hf), fun _ => ⟨nofun, nofun⟩, oneInFlight_one _⟩
  | client =>
    refine ⟨⟨nofun, nofun⟩, fun _ hf => (nomatch hf), fun hf => ?_, Lib.separated_nil⟩
    rcases hf with hk | hf
    · exact absurd rfl hk
    · cases hf
  | forward =>
    exact ⟨⟨nofun, nofun⟩, fun _ hf => (nomatch hf), fun _ => ⟨nofun, nofun⟩, oneInFlight_one _⟩
  | hostService =>
    refine ⟨⟨nofun, nofun⟩, fun _ hf => (nomatch hf), fun hf => ?_, Lib.separated_nil⟩
    rcases hf with hk | hf
    · exact absurd rfl hk
    · cases hf
  | jdwp list =>
    exact ⟨⟨nofun, nofun⟩, nofun, fun _ => ⟨nofun, nofun⟩, (oneInFlight_one _).snoc fun _ => rfl⟩
  | jdwpTracker list =>
    exact ⟨⟨nofun, nofun⟩, nofun, fun _ => ⟨nofun, nofun⟩, (oneInFlight_one _).snoc fun _ => rfl⟩

/-- In a run that keeps the pace, an `A_OKAY` is received between any two `A_WRTE` that a side of the
stream sends. -/
theorem one_write_in_flight (start : Start) (ls : List Step) (s : Sock)
    (hok : Lib.RunOk step KeepsPace (Sock.init start) ls)
    (hrun : Lib.run step (Sock.init start) ls = some s) : OneInFlight s.log :=
  (Lib.run_invariant step_paced (init_paced start) hok hrun).paced

/-- A service sends a packet, and the next one after the `A_OKAY`. -/
theorem one_write_in_flight_service : ∃ s, Lib.run step (Sock.init .service)
    [.select true false, .dispatch [] [.got [1]] .takes, .okay true [], .select true false,
      .dispatch [] [.got [2]] .takes] = some s ∧
    s.log = [.sentOkay, .sentWrte [1], .gotOkay, .sentWrte [2]] ∧ OneInFlight s.log :=
  ⟨_, rfl, rfl, one_write_in_flight .service
    [.select true false, .dispatch [] [.got [1]] .takes, .okay true [], .select true false,
      .dispatch [] [.got [2]] .takes] _ (by decide +kernel) rfl⟩

/-- A process starts before the first list of a tracker is acknowledged; and an `A_OKAY` from another
transport names the socket of a service. -/
theorem two_writes_in_flight :
    (∃ s, Lib.run step (Sock.init (.jdwpTracker [1])) [.listUpdated [1, 2]] = some s ∧
      s.log = [.sentOkay, .sentWrte [1], .sentWrte [1, 2]] ∧ ¬ OneInFlight s.log) ∧
    ∃ s, Lib.run step (Sock.init .service)
      [.select true false, .dispatch [] [.got [1]] .takes, .okay false [], .select true false,
        .dispatch [] [.got [2]] .takes] = some s ∧
      s.log = [.sentOkay, .sentWrte [1], .sentWrte [2]] ∧ ¬ OneInFlight s.log := by
  refine ⟨⟨_, rfl, rfl, fun h => ?_⟩, ⟨_, rfl, rfl, fun h => ?_⟩⟩
  · obtain ⟨z, hz, -⟩ := h [.sentOkay] (.sentWrte [1]) [] (.sentWrte [1, 2]) [] rfl rfl rfl
    cases hz
  · obtain ⟨z, hz, -⟩ := h [.sentOkay] (.sentWrte [1]) [] (.sentWrte [2]) [] rfl rfl rfl
    cases hz

end Twm.Adb.LocalSocket
