import DeviceTwm.Adb.Isolation

/-!
# Streams of a transport that goes offline

`handle_offline` closes the streams of a transport through its disconnect hooks. Only a remote socket
has such a hook: a socket that waits for the `A_OKAY` of its `A_OPEN` belongs to the transport by its
`transport` field alone, and is left as it is.
-/

namespace Twm.Adb.SocketTable

open LocalSocket

/-- Its peer is a remote socket on the transport. -/
def Entry.Streams (e : Entry) (t : Nat) : Prop :=
  e.sock.peer = .remote ∧ e.remotes.getLast? = some t

/-- It has sent an `A_OPEN` to the transport, and waits for the `A_OKAY`. -/
def Entry.Opening (e : Entry) (t : Nat) : Prop :=
  e.transport = some t ∧ e.sock.peer = .none ∧ e.sock.Listed

instance (e : Entry) (t : Nat) : Decidable (e.Streams t) := inferInstanceAs (Decidable (_ ∧ _))
instance (e : Entry) (t : Nat) : Decidable (e.Opening t) := inferInstanceAs (Decidable (_ ∧ _))

/-- The packet puts the transport offline: `A_SYNC(0, ..)`, or `A_CNXN` when it was online. -/
def Disconnects (st : State) (t : Nat) (p : Packet) : Prop :=
  p.command = .sync ∧ p.arg0 = 0 ∨ p.command = .cnxn ∧ st.online t = true

instance (st : State) (t : Nat) (p : Packet) : Decidable (Disconnects st t p) :=
  inferInstanceAs (Decidable (_ ∨ _))

/-- It is not bound to the transport. -/
def Entry.Unbound (e : Entry) (t : Nat) : Prop := ¬ e.Streams t ∧ ¬ e.Opening t

/-- No socket is bound to the transport any more. -/
def State.Unbound (st : State) (t : Nat) : Prop := ∀ n e, st.socks n = some e → e.Unbound t

variable {st : State} {t n : Nat} {e : Entry} {p : Packet} {env : Env}

theorem closeLocked_not_listed (s : Sock) : ¬ s.closeLocked.Listed := by
  simp only [Sock.closeLocked]
  split
  · rintro ⟨hl, -⟩
    cases hl
  · rintro ⟨-, hc⟩
    cases hc

/-- A socket that its peer closes is destroyed, or goes to the closing list. -/
theorem peerCloses_not_listed (s : Sock) : ¬ s.peerCloses.Listed := by
  simp only [Sock.peerCloses, Sock.close]
  split
  · exact closeLocked_not_listed _
  · rintro ⟨hl, -⟩
    cases hl

theorem Entry.Opening.not_streams (h : e.Opening t) : ¬ e.Streams t := by
  rintro ⟨hp, -⟩
  rw [h.2.1] at hp
  cases hp

/-- What `handle_offline` does to one socket. -/
theorem handleOffline_socks (st : State) (t n : Nat) :
    (st.handleOffline t).socks n = (st.socks n).map fun e =>
      if e.Streams t then { e with sock := e.sock.peerCloses } else e := rfl

theorem handleOffline_unbound (h : ∀ n e, st.socks n = some e → ¬ e.Opening t) :
    (st.handleOffline t).Unbound t := by
  intro n e' he'
  rw [handleOffline_socks] at he'
  obtain ⟨e, he, rfl⟩ := Option.map_eq_some_iff.mp he'
  split
  · refine ⟨?_, fun ho => peerCloses_not_listed e.sock ho.2.2⟩
    rintro ⟨hp, -⟩
    have hnone : e.sock.peerCloses.peer = .none := by
      rcases (Sock.close_calm { e.sock with peer := .none }).peer with hp | hp <;> exact hp
    rw [hnone] at hp
    cases hp
  · next hs => exact ⟨hs, h n e he⟩

theorem handleOffline_opening (hn : st.socks n = some e) (h : e.Opening t) :
    (st.handleOffline t).socks n = some e := by
  rw [handleOffline_socks, hn, Option.map_some, if_neg h.not_streams]

/-- A socket without a transport, and without a remote socket. -/
theorem Entry.unbound_of_free (ht : e.transport = none) (hp : e.sock.peer ≠ .remote) :
    e.Unbound t := by
  refine ⟨fun h => hp h.1, ?_⟩
  rintro ⟨h, -⟩
  rw [ht] at h
  cases h

/-- The list of devices goes to sockets that have no transport. -/
theorem updateTransports_unbound (hst : Holds Entry.Ok st) (env : Env) :
    (st.updateTransports env).Unbound t ↔ st.Unbound t := by
  have hentry : ∀ n e, st.socks n = some e → ((if e.tracker = true ∧ e.sock.peer = .other then
      { e.give env.devices with sock := (e.sock.enqueue env.devices (env.writes n)).2 }
      else e).Unbound t ↔ e.Unbound t) := by
    intro n e he
    split
    · next ht =>
      obtain ⟨htr, -⟩ := (hst.all n e he).free (.inr ht.2)
      refine iff_of_true (Entry.unbound_of_free htr ?_) (Entry.unbound_of_free htr ?_)
      · rcases (e.sock.enqueue_calm env.devices (env.writes n)).peer with hp | hp <;>
          simp [hp, ht.2]
      · simp [ht.2]
    · rfl
  constructor
  · intro h n e he
    exact (hentry n e he).mp (h n _ (State.mapSocks_socks st _ he))
  · intro h n e' he'
    obtain ⟨e, he, rfl⟩ := Option.map_eq_some_iff.mp he'
    exact (hentry n e he).mpr (h n e he)

theorem parseBanner_unbound (hst : Holds Entry.Ok st) (banner : List UInt8) (env : Env) :
    (st.parseBanner banner t env).Unbound t ↔ st.Unbound t := by
  simp only [State.parseBanner]
  split
  · exact updateTransports_unbound (hst.online _) env
  · rfl

theorem handleOffline_unbound_iff :
    (st.handleOffline t).Unbound t ↔ ∀ n e, st.socks n = some e → ¬ e.Opening t := by
  refine ⟨fun h n e he ho => ?_, handleOffline_unbound⟩
  exact (h n e (handleOffline_opening he ho)).2 ho

/-- A packet that puts the transport offline closes all its streams, if no socket waits for one to be
opened. -/
theorem offline_unbound_iff {evs : List Event} (hrun : Lib.run step .init evs = some st) (t : Nat)
    (p : Packet) (env : Env) (hp : Disconnects st t p) :
    (st.handlePacket t p env).Unbound t ↔ ∀ n e, st.socks n = some e → ¬ e.Opening t := by
  have hst := run_ok hrun
  rcases hp with ⟨hc, h0⟩ | ⟨hc, hon⟩
  · simp only [State.handlePacket, hc, h0, if_true]
    exact handleOffline_unbound_iff
  · simp only [State.handlePacket, hc, hon, if_true]
    rw [parseBanner_unbound (hst.handleOffline Entry.Ok.stable t)]
    exact handleOffline_unbound_iff

/-- The rest of the system gives a service, and takes no data. -/
def idle : Env := ⟨some .fd, fun _ => [], [], []⟩

/-- The streams of transport 1 are a service and a forwarded connection. -/
def twoStreams : List Event :=
  [.packet 1 ⟨.cnxn, 0, 0, text "device::"⟩ idle, .packet 1 ⟨.openStream, 7, 0, text "tcp:80"⟩ idle,
    .forward 1, .packet 1 ⟨.okay, 8, 2, []⟩ idle]

theorem offline_unbound_twoStreams :
    ∃ st, Lib.run step .init twoStreams = some st ∧
      (st.socks 0).any (·.Streams 1) = true ∧ (st.socks 1).any (·.Streams 1) = true ∧
      (st.handlePacket 1 ⟨.cnxn, 0, 0, text "device::"⟩ idle).Unbound 1 := by
  have h : (Lib.run step .init twoStreams).any (fun st =>
      ((st.socks 0).any (·.Streams 1) && (st.socks 1).any (·.Streams 1)) && st.made = 2 &&
        st.online 1 && (List.range 2).all fun n => (st.socks n).all (¬ ·.Opening 1)) = true := by
    decide +kernel
  obtain ⟨st, hst, hs⟩ := (Option.any_eq_true ..).mp h
  simp only [Bool.and_eq_true, decide_eq_true_eq, List.all_eq_true, List.mem_range] at hs
  obtain ⟨⟨⟨⟨h₀, h₁⟩, hmade⟩, hon⟩, hall⟩ := hs
  refine ⟨st, hst, h₀, h₁, (offline_unbound_iff hst 1 _ idle (.inr ⟨rfl, hon⟩)).mpr ?_⟩
  intro n e he
  have hn := (run_ok hst).num_lt he
  rw [hmade] at hn
  simpa [he] using hall n hn

/-- A forwarded connection waits for its stream to be opened, and goes on waiting. -/
theorem offline_leaves_opening :
    ∃ st, Lib.run step .init [.packet 1 ⟨.cnxn, 0, 0, text "device::"⟩ idle, .forward 1] = some st ∧
      st.online 1 = true ∧ ¬ (st.handlePacket 1 ⟨.cnxn, 0, 0, text "device::"⟩ idle).Unbound 1 := by
  have h : (Lib.run step .init
      [.packet 1 ⟨.cnxn, 0, 0, text "device::"⟩ idle, .forward 1]).any (fun st => st.online 1 &&
        ((st.handlePacket 1 ⟨.cnxn, 0, 0, text "device::"⟩ idle).socks 0).any (·.Opening 1)) = true := by
    decide +kernel
  obtain ⟨st, hst, hs⟩ := (Option.any_eq_true ..).mp h
  simp only [Bool.and_eq_true] at hs
  obtain ⟨e, he, ho⟩ := (Option.any_eq_true ..).mp hs.2
  exact ⟨st, hst, hs.1, fun hu => (hu 0 e he).2 (of_decide_eq_true ho)⟩

end Twm.Adb.SocketTable
