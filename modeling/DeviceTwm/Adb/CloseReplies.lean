import DeviceTwm.Adb.SocketOffline

/-!
# The answer to a `CLOSE`

The recipient of an `A_CLSE` should not respond to it in any way. `handle_packet` calls `close` of the
socket that the packet names, as it would for any other reason, and `close` tells the peer: when that is
a remote socket, `remote_socket_close` sends an `A_CLSE` (`silent_iff`).

* `Shuts`: what a step can do to a socket, as far as its `A_CLSE` is concerned.
* `SockKept`: what every socket keeps by itself holds of the sockets of the table, over all runs.

The answer is the only `A_CLSE` of its stream: the socket is found no longer (`run_closesOnce`).
-/

namespace Twm.Adb.LocalSocket.Sock

/-- The `A_CLSE` that were sent on the stream. -/
def closes (s : Sock) : Nat := s.log.count .sentClse

/-- An `A_CLSE` is sent at most once, and then the socket is shut: it has no peer and is not found. -/
structure Shuts (s s' : Sock) : Prop where
  listed : s'.Listed → s.Listed
  remote : s'.peer = .remote → s.peer = .remote
  none : s.peer = .none → s'.peer = .none
  closes : s'.closes = s.closes ∨
    s.peer = .remote ∧ s'.peer = .none ∧ ¬ s'.Listed ∧ s'.closes = s.closes + 1

/-- At most one `A_CLSE` was sent, and none by a socket that still has a peer or that can be found. -/
structure ClosesOnce (s : Sock) : Prop where
  le_one : s.closes ≤ 1
  shut : s.closes ≠ 0 → s.peer = .none ∧ ¬ s.Listed

variable {s s' s'' : Sock}

theorem Shuts.refl (s : Sock) : s.Shuts s := ⟨id, id, id, .inl rfl⟩

theorem Shuts.trans (h : s.Shuts s') (h' : s'.Shuts s'') : s.Shuts s'' where
  listed hl := h.listed (h'.listed hl)
  remote hp := h.remote (h'.remote hp)
  none hp := h'.none (h.none hp)
  closes := by
    rcases h.closes with hc | ⟨hp, hp', hl, hc⟩
    · rcases h'.closes with hc' | ⟨hp', hrest, hl', hc'⟩
      · exact .inl (hc'.trans hc)
      · exact .inr ⟨h.remote hp', hrest, hl', by omega⟩
    · rcases h'.closes with hc' | ⟨hremote, -⟩
      · exact .inr ⟨hp, h'.none hp', fun hl' => hl (h'.listed hl'), by omega⟩
      · rw [hp'] at hremote
        cases hremote

/-- No `A_CLSE` is sent, and the socket gets no peer that it did not have. -/
theorem Shuts.of_closes (hl : s'.Listed → s.Listed) (hp : s'.peer = s.peer ∨ s'.peer = .none)
    (hc : s'.closes = s.closes) : s.Shuts s' where
  listed := hl
  remote hr := by
    rcases hp with hp | hp
    · rwa [← hp]
    · rw [hp] at hr
      cases hr
  none hn := by
    rcases hp with hp | hp
    · rwa [hp]
    · exact hp
  closes := .inl hc

theorem ClosesOnce.shuts (h : s.ClosesOnce) (hs : s.Shuts s') : s'.ClosesOnce := by
  rcases hs.closes with hc | ⟨hp, hp', hl, hc⟩
  · refine ⟨hc ▸ h.le_one, fun hne => ?_⟩
    obtain ⟨hp, hl⟩ := h.shut (hc ▸ hne)
    exact ⟨hs.none hp, fun hl' => hl (hs.listed hl')⟩
  · have h0 : s.closes = 0 := by
      by_contra hne
      rw [(h.shut hne).1] at hp
      cases hp
    exact ⟨by omega, fun _ => ⟨hp', hl⟩⟩

theorem note_closes (s : Sock) (e : Event) :
    (s.note e).closes = s.closes + if e = .sentClse then 1 else 0 := by
  simp [closes, note, List.count_append, List.count_singleton]

theorem note_shuts (s : Sock) {e : Event} (he : e ≠ .sentClse) : s.Shuts (s.note e) :=
  .of_closes id (.inl rfl) (by rw [note_closes, if_neg he, Nat.add_zero])

/-! ### `close` -/

theorem closePeer_closes (s : Sock) :
    s.closePeer.closes = s.closes + if s.peer = .remote then 1 else 0 := by
  unfold closePeer
  split
  · next hp => rw [note_closes, if_pos rfl, if_pos hp]; rfl
  · next hp => rw [if_neg hp]; rfl

/-- Whatever shuts the socket when its peer was closed. -/
theorem Shuts.of_closePeer (hl : ¬ s'.Listed) (hp : s'.peer = .none)
    (hc : s'.closes = s.closePeer.closes) : s.Shuts s' where
  listed hl' := absurd hl' hl
  remote hr := by rw [hp] at hr; cases hr
  none _ := hp
  closes := by
    rw [closePeer_closes] at hc
    split at hc
    · next hr => exact .inr ⟨hr, hp, hl, hc⟩
    · exact .inl hc

theorem destroyed_not_listed (s : Sock) : ¬ Listed { s with status := .destroyed } := by
  rintro ⟨hl, -⟩
  cases hl

theorem closeLocked_peer (s : Sock) : s.closeLocked.peer = .none := by
  simp only [closeLocked]
  split
  · exact s.closePeer_peer
  · exact s.closePeer_peer

theorem closeLocked_closes (s : Sock) : s.closeLocked.closes = s.closePeer.closes := by
  simp only [closeLocked]
  split <;> rfl

theorem close_not_listed (s : Sock) : ¬ s.close.Listed := by
  unfold close
  split
  · exact SocketTable.closeLocked_not_listed _
  · exact destroyed_not_listed _

theorem close_peer (s : Sock) : s.close.peer = .none := by
  unfold close
  split
  · exact closeLocked_peer _
  · exact s.closePeer_peer

/-- `close` sends an `A_CLSE` just when the peer is a remote socket. -/
theorem close_closes (s : Sock) :
    s.close.closes = s.closes + if s.peer = .remote then 1 else 0 := by
  unfold close
  split
  · rw [closeLocked_closes, closePeer_closes]
    rfl
  · exact s.closePeer_closes

theorem peerCloses_closes (s : Sock) : s.peerCloses.closes = s.closes :=
  close_closes _

theorem closeLocked_shuts (s : Sock) : s.Shuts s.closeLocked :=
  .of_closePeer (SocketTable.closeLocked_not_listed s) s.closeLocked_peer s.closeLocked_closes

theorem close_shuts (s : Sock) : s.Shuts s.close :=
  .of_closePeer s.close_not_listed s.close_peer (by rw [close_closes, closePeer_closes])

theorem peerCloses_shuts (s : Sock) : s.Shuts s.peerCloses :=
  .of_closes (fun hl => absurd hl (SocketTable.peerCloses_not_listed s))
    (.inr (close_peer _)) s.peerCloses_closes

theorem end_shuts (s : Sock) : s.Shuts { s.closePeer with status := .destroyed } :=
  .of_closePeer (destroyed_not_listed _) s.closePeer_peer rfl

/-! ### The other operations -/

theorem enqueue_shuts (s : Sock) (data : List UInt8) (ws : List WriteResult) :
    s.Shuts (s.enqueue data ws).2 := by
  have htail : ∀ p, s.Shuts (s.queueTail p) := fun _ => .of_closes id (.inl rfl) rfl
  unfold enqueue
  split
  · split
    · split
      · exact .refl s
      · exact htail _
      · exact s.close_shuts
    · exact htail _
  · exact s.end_shuts

theorem ready_shuts (s : Sock) (list : List UInt8) : s.Shuts (s.ready list) := by
  have hkind : ∀ k, s.Shuts { s with kind := k } := fun _ => .of_closes id (.inl rfl) rfl
  unfold ready
  split
  · exact .of_closes id (.inl rfl) rfl
  · exact (hkind _).trans (note_shuts _ (by simp))
  · exact s.end_shuts
  · exact (hkind _).trans (note_shuts _ (by simp))
  · exact .refl s

theorem handleWrte_shuts (s : Sock) (data : List UInt8) (ws : List WriteResult) :
    s.Shuts (s.handleWrte data ws) := by
  simp only [handleWrte]
  split
  · exact (s.enqueue_shuts data ws).trans (note_shuts _ (by simp))
  · exact s.enqueue_shuts data ws

theorem crashed_shuts (s : Sock) : s.Shuts { s with status := .crashed } :=
  .of_closes (fun hl => nomatch hl.1) (.inl rfl) rfl

theorem endOfFile_shuts (s : Sock) : s.Shuts s.endOfFile := by
  unfold endOfFile
  split
  · exact s.close_shuts
  · exact s.crashed_shuts

theorem writePart_shuts (s : Sock) (ws : List WriteResult) : s.Shuts (s.writePart ws).2 := by
  have hwr : ∀ q out fd fde, s.Shuts { s with queue := q, written := out, failed := fd, fde := fde } :=
    fun _ _ _ _ => .of_closes id (.inl rfl) rfl
  simp only [writePart]
  split
  · exact hwr _ _ _ _
  · exact (hwr _ _ _ _).trans (close_shuts _)
  · split
    · exact (hwr _ _ _ _).trans (close_shuts _)
    · split
      · exact (hwr _ _ s.failed s.fde.delWrite).trans (crashed_shuts _)
      · exact (hwr _ _ _ _).trans (note_shuts _ (by simp))
      · exact hwr _ _ _ _

theorem delRead_shuts (s : Sock) : s.Shuts { s with fde := s.fde.delRead } :=
  .of_closes id (.inl rfl) rfl

/-- A smart socket is replaced by another socket of this process. -/
theorem connects_shuts (hp : s.peer = .smart) :
    s.Shuts { s with peer := .other, notify := false } where
  listed := id
  remote := nofun
  none hn := by rw [hp] at hn; cases hn
  closes := .inl rfl

theorem pass_shuts {buf : List UInt8} {e : Enqueue} (h : s.pass buf e = some s') : s.Shuts s' := by
  unfold pass at h
  split at h
  · cases h
    exact .refl s
  · cases h
    have hsent : s.Shuts (s.note (.sentWrte buf)) := s.note_shuts (by simp)
    exact hsent.trans (delRead_shuts _)
  · cases h
    have hnone : s.Shuts { s with peer := .none, notify := true } := .of_closes id (.inr rfl) rfl
    have hopen : s.Shuts ({ s with peer := .none, notify := true }.note .sentOpen) :=
      hnone.trans (note_shuts _ (by simp))
    exact hopen.trans (delRead_shuts _)
  · next hp =>
    cases h
    exact connects_shuts hp
  · next hp =>
    cases h
    exact (connects_shuts hp).trans (enqueue_shuts _ _ _)
  · cases h
  · cases h
  · cases h
    exact s.delRead_shuts
  · cases h
    split
    · exact s.peerCloses_shuts.trans (delRead_shuts _)
    · exact s.peerCloses_shuts.trans (crashed_shuts _)
  · cases h
    exact .refl s

theorem readPart_shuts (s : Sock) (rs : List FdRead) (e : Enqueue) : s.Shuts (s.readPart rs e) := by
  simp only [readPart]
  split
  · exact s.peerCloses_shuts
  · next s' hs =>
    have hs' : s.Shuts s' := by
      split at hs
      · cases hs
        exact .refl s
      · exact pass_shuts hs
    split
    · exact hs'.trans s'.endOfFile_shuts
    · exact hs'

theorem eventFunc_shuts (s : Sock) (write read : Bool) (ws : List WriteResult) (rs : List FdRead)
    (e : Enqueue) : s.Shuts (s.eventFunc write read ws rs e) := by
  have hstep : ∀ on s', s.Shuts s' →
      s.Shuts (if on = true ∧ read = true then s'.readPart rs e else s') := by
    intro on s' hs
    split
    · exact hs.trans (s'.readPart_shuts rs e)
    · exact hs
  cases write with
  | true => exact hstep _ _ (s.writePart_shuts ws)
  | false => exact hstep _ _ (.refl s)

/-- `A_OKAY` gives a peer to a socket only while it can be found. -/
theorem handleOkay_closesOnce (h : s.ClosesOnce) (hl : s.Listed) (own : Bool) (list : List UInt8) :
    (s.handleOkay own list).ClosesOnce := by
  have h0 : s.closes = 0 := by
    by_contra hne
    exact (h.shut hne).2 hl
  have hfresh : ∀ x : Sock, x.closes = 0 → x.ClosesOnce :=
    fun x hx => ⟨by omega, fun hne => absurd hx hne⟩
  have hready : ∀ x : Sock, x.closes = 0 →
      ((if x.peer = .none then { x with peer := .remote } else x).ready list).ClosesOnce := by
    intro x hx
    refine (hfresh _ ?_).shuts (ready_shuts _ list)
    split
    · exact hx
    · exact hx
  simp only [handleOkay]
  split
  · exact hready _ (by rw [note_closes, h0, if_neg (by simp)])
  · exact hready _ h0

theorem init_closesOnce (start : Start) : (Sock.init start).ClosesOnce := by
  have h0 : (Sock.init start).closes = 0 := by cases start <;> rfl
  exact ⟨by omega, fun hne => absurd h0 hne⟩

end Twm.Adb.LocalSocket.Sock

namespace Twm.Adb.SocketTable

open LocalSocket

theorem localStep_shuts {s s' : Sock} {l : Step} (h : localStep s l = some s') : s.Shuts s' := by
  have hfde : ∀ f, s.Shuts { s with fde := f } := fun _ => .of_closes id (.inl rfl) rfl
  cases l with
  | select read write =>
    obtain ⟨-, rfl⟩ := localStep_stepsTo h
    exact hfde _
  | dispatch ws rs e =>
    obtain ⟨-, rfl⟩ := localStep_stepsTo h
    exact (hfde _).trans (Sock.eventFunc_shuts _ _ _ ws rs e)
  | okay own list => cases h
  | wrte data ws => cases h
  | clse => cases h
  | peerCloses =>
    obtain ⟨-, rfl⟩ := localStep_stepsTo h
    exact s.peerCloses_shuts
  | peerEnqueue data ws =>
    obtain ⟨-, rfl⟩ := localStep_stepsTo h
    exact s.enqueue_shuts data ws
  | peerReady =>
    obtain ⟨-, rfl⟩ := localStep_stepsTo h
    exact s.ready_shuts []
  | closeAll =>
    obtain ⟨-, rfl⟩ := localStep_stepsTo h
    exact s.closeLocked_shuts
  | listUpdated list =>
    obtain ⟨-, rfl⟩ := localStep_stepsTo h
    exact s.note_shuts (by simp)

/-! ## What every socket keeps by itself -/

/-- Whatever happens to a socket of the table, `I` is kept. -/
structure SockKept (I : Sock → Prop) : Prop where
  init : ∀ start, I (.init start)
  close : ∀ s, I s → I s.close
  peerCloses : ∀ s, I s → I s.peerCloses
  enqueue : ∀ s data ws, I s → I (s.enqueue data ws).2
  handleOkay : ∀ s own list, s.Listed → I s → I (s.handleOkay own list)
  handleWrte : ∀ s data ws, I s → I (s.handleWrte data ws)
  localStep : ∀ s l s', localStep s l = some s' → I s → I s'

namespace SockKept

variable {I : Sock → Prop} {st st' : State} {t n : Nat} {e : Entry} {p : Packet} {env : Env}

theorem made (hI : SockKept I) (h : Made e) : I e.sock := by
  have hmake : ∀ start t remotes partner, I (Entry.make start t remotes partner).sock :=
    fun start _ _ _ => hI.init start
  cases h <;> exact hmake _ _ _ _

theorem closePartner (hI : SockKept I) (h : Holds (I ·.sock) st) (e : Entry) (s : Sock) :
    Holds (I ·.sock) (st.closePartner e s) :=
  h.closePartner_of (fun x hx => hI.peerCloses x.sock hx) e s

theorem act (hI : SockKept I) (h : Holds (I ·.sock) st) (hn : n < st.made) (e : Entry) {s : Sock}
    (hs : I s) : Holds (I ·.sock) (st.act n e s) := by
  refine hI.closePartner (h.put hn ?_) e s
  exact hs

theorem handleOffline (hI : SockKept I) (h : Holds (I ·.sock) st) (t : Nat) :
    Holds (I ·.sock) (st.handleOffline t) := by
  refine (h.mapSocks _ fun n e he => ?_).online _
  split
  · exact hI.peerCloses e.sock he
  · exact he

theorem parseBanner (hI : SockKept I) (h : Holds (I ·.sock) st) (banner : List UInt8) (t : Nat)
    (env : Env) : Holds (I ·.sock) (st.parseBanner banner t env) := by
  simp only [State.parseBanner]
  split
  · refine (h.online _).mapSocks _ fun n e he => ?_
    split
    · exact hI.enqueue e.sock _ _ he
    · exact he
  · exact h.online _

theorem okay (hI : SockKept I) (h : Holds (I ·.sock) st) (hf : st.find p.arg1 = some (n, e)) :
    Holds (I ·.sock) (st.okay t env n e) := by
  have hn := (State.find_spec hf).1
  have he := h.all n e hn.2.1
  simp only [State.okay]
  split
  · exact hI.act h hn.1 _ (hI.handleOkay e.sock _ _ hn.2.2.2 he)
  · exact hI.act h hn.1 _ (hI.handleOkay e.sock _ _ hn.2.2.2 he)

theorem handlePacket (hI : SockKept I) (h : Holds (I ·.sock) st) :
    Holds (I ·.sock) (st.handlePacket t p env) := by
  unfold State.handlePacket
  split
  · split
    · exact hI.handleOffline h t
    · exact h
  · simp only
    split
    · exact hI.parseBanner (hI.handleOffline h t) _ t env
    · exact hI.parseBanner h _ t env
  · split
    · split
      · exact h
      · exact h.openService (fun _ => hI.made) t env _
    · exact h
  · split
    · split
      · exact h
      · next hf => exact hI.okay h hf
    · exact h
  · split
    · split
      · exact h
      · next n e hf =>
        have hn := (State.find_spec hf).1
        exact hI.act h hn.1 e (hI.close e.sock (h.all n e hn.2.1))
    · exact h
  · split
    · split
      · exact h
      · next n e hf =>
        have hn := (State.find_spec hf).1
        exact hI.act h hn.1 _ (hI.handleWrte e.sock _ _ (h.all n e hn.2.1))
    · exact h
  · exact h

theorem step (hI : SockKept I) {ev : Event} (h : Holds (I ·.sock) st)
    (hs : SocketTable.step st ev = some st') : Holds (I ·.sock) st' := by
  cases ev with
  | packet t p env =>
    cases hs
    exact hI.handlePacket h
  | client =>
    cases hs
    refine h.install fun e he => ?_
    cases he
    exact hI.made .client
  | forward t =>
    cases hs
    refine h.install fun e he => ?_
    cases he
    exact hI.made (.forward t)
  | socket n l via =>
    simp only [SocketTable.step] at hs
    split at hs
    · cases hs
    · next e he =>
      split at hs
      · cases hs
      · next s hl =>
        have hput : Holds (I ·.sock) (st.put n (some (State.moved e s l via st.made))) :=
          h.put (h.num_lt he) (hI.localStep e.sock l s hl (h.all n e he))
        split at hs
        · cases hs
          refine hput.install fun x hx => ?_
          split at hx
          · cases hx
            exact hI.made (.hostService n)
          · cases hx
        · cases hs
          exact hI.closePartner hput e s

/-- It holds of every socket of a reachable table. -/
theorem run (hI : SockKept I) {evs : List Event} (h : Lib.run SocketTable.step .init evs = some st) :
    Holds (I ·.sock) st :=
  Lib.run_keeps (fun _ _ _ hs hstep => hI.step hs hstep) (init_holds _) h

end SockKept

theorem closesOnce_kept : SockKept Sock.ClosesOnce where
  init := Sock.init_closesOnce
  close := fun s h => h.shuts s.close_shuts
  peerCloses := fun s h => h.shuts s.peerCloses_shuts
  enqueue := fun s data ws h => h.shuts (s.enqueue_shuts data ws)
  handleOkay := fun _ own list hl h => Sock.handleOkay_closesOnce h hl own list
  handleWrte := fun s data ws h => h.shuts (s.handleWrte_shuts data ws)
  localStep := fun _ _ _ hl h => h.shuts (localStep_shuts hl)

/-! ## `A_CLSE` -/

namespace State

/-- The `A_CLSE` that were sent on the stream of the socket. -/
def closes (st : State) (n : Nat) : Nat :=
  match st.socks n with
  | none => 0
  | some e => e.sock.closes

/-- On the stream of each socket at most one `A_CLSE` was sent. -/
def ClosesOnce (st : State) : Prop := ∀ n, st.closes n ≤ 1

/-- The socket has no peer, and no packet finds it. -/
def TornDown (st : State) (n : Nat) : Prop :=
  ∀ e, st.socks n = some e → e.sock.peer = .none ∧ ¬ e.sock.Listed

variable {st : State} {n m : Nat} {e : Entry} {s : Sock}

theorem closes_of_socks (h : st.socks n = some e) : st.closes n = e.sock.closes := by
  rw [closes, h]

theorem closes_congr {st' : State} (h : st'.socks n = st.socks n) : st'.closes n = st.closes n := by
  rw [closes, closes, h]

/-- The peer of a socket of this process is no remote socket. -/
theorem closePartner_closes (st : State) (e : Entry) (s : Sock) (m : Nat) :
    (st.closePartner e s).closes m = st.closes m := by
  unfold closePartner
  split
  · split
    · rfl
    · next k hk =>
      by_cases hm : m = k
      · subst hm
        cases hx : st.socks m with
        | none => exact closes_congr (by rw [put_self, hx, Option.map_none])
        | some x =>
          have hput := put_self st m (some { x with sock := x.sock.peerCloses })
          rw [Option.map_some, closes_of_socks hput, closes_of_socks hx]
          exact x.sock.peerCloses_closes
      · exact closes_congr (put_of_ne _ _ hm)
  · rfl

theorem act_closes (st : State) (n : Nat) (e : Entry) (s : Sock) :
    (st.act n e s).closes n = s.closes := by
  rw [act, closePartner_closes, closes_of_socks (put_self ..)]

theorem act_closes_of_ne (st : State) (e : Entry) (s : Sock) (h : m ≠ n) :
    (st.act n e s).closes m = st.closes m := by
  rw [act, closePartner_closes]
  exact closes_congr (put_of_ne _ _ h)

/-- The socket is closed, and its peer with it; they may be the same. -/
theorem act_tornDown (st : State) (n : Nat) (e : Entry) : (st.act n e e.sock.close).TornDown n := by
  have hclosed : (st.put n (some { e with sock := e.sock.close })).TornDown n := by
    intro x hx
    rw [put_self] at hx
    cases hx
    exact ⟨e.sock.close_peer, e.sock.close_not_listed⟩
  intro x hx
  unfold act closePartner at hx
  split at hx
  · split at hx
    · exact hclosed x hx
    · next k hk =>
      by_cases hn : n = k
      · subst hn
        rw [put_self] at hx
        obtain ⟨y, -, rfl⟩ := Option.map_eq_some_iff.mp hx
        exact ⟨Sock.close_peer _, peerCloses_not_listed _⟩
      · rw [put_of_ne _ _ hn] at hx
        exact hclosed x hx
  · exact hclosed x hx

end State

/-- An `A_CLSE` tears down the socket that it names, and none is sent in response. -/
def Silent (st : State) : Event → Prop
  | .packet t p env => p.command = .clse →
      (∀ n, (st.handlePacket t p env).closes n = st.closes n) ∧
      ∀ n e, st.online t = true → st.find p.arg1 = some (n, e) →
        (st.handlePacket t p env).TornDown n
  | _ => True

/-- An `A_CLSE` does not name a socket whose peer is a remote socket. -/
def Streamless (st : State) : Event → Prop
  | .packet t p _ => p.command = .clse → st.online t = true → ∀ x ∈ st.find p.arg1,
      x.2.sock.peer ≠ .remote
  | _ => True

instance (st : State) : ∀ ev, Decidable (Streamless st ev)
  | .packet .. => inferInstanceAs (Decidable (_ → _ → ∀ _ ∈ _, _))
  | .socket .. | .client | .forward .. => .isTrue trivial

theorem silent_iff (st : State) (ev : Event) : Silent st ev ↔ Streamless st ev := by
  cases ev with
  | packet t p env =>
    refine forall_congr' fun hc => ?_
    by_cases hon : st.online t = true
    · cases hf : st.find p.arg1 with
      | none => simp [State.handlePacket, hc, hon, hf]
      | some ne =>
        obtain ⟨n, e⟩ := ne
        have hact : st.handlePacket t p env = st.act n e e.sock.close := by
          simp only [State.handlePacket, hc, hon, hf, if_true]
        have hclose : (st.act n e e.sock.close).closes n =
            st.closes n + if e.sock.peer = .remote then 1 else 0 := by
          rw [State.act_closes, Sock.close_closes,
            State.closes_of_socks (State.find_spec hf).1.2.1]
        rw [hact]
        constructor
        · rintro ⟨hsame, -⟩ - x hx hremote
          cases hx
          have := hsame n
          rw [hclose, if_pos hremote] at this
          omega
        · intro hpeer
          have hnot := hpeer hon (n, e) rfl
          refine ⟨fun m => ?_, fun m x _ hx => ?_⟩
          · by_cases hm : m = n
            · subst hm
              rw [hclose, if_neg hnot, Nat.add_zero]
            · exact st.act_closes_of_ne e _ hm
          · cases hx
            exact st.act_tornDown n e
    · have hkeep : st.handlePacket t p env = st := by
        simp only [State.handlePacket, hc, hon, if_false, Bool.false_eq_true]
      rw [hkeep]
      exact iff_of_true ⟨fun _ => rfl, fun _ _ hon' => absurd hon' hon⟩ fun hon' => absurd hon' hon
  | socket n l via => rfl
  | client => rfl
  | forward t => rfl

/-- In every run, each stream is closed with at most one `A_CLSE` of ours. -/
theorem run_closesOnce {evs : List Event} {st : State} (h : Lib.run step .init evs = some st) :
    st.ClosesOnce := by
  intro n
  unfold State.closes
  cases he : st.socks n with
  | none => exact Nat.zero_le 1
  | some e => exact ((closesOnce_kept.run h).all n e he).le_one

/-- **Answers to a `CLOSE`.** In every run at most one `A_CLSE` is sent on each stream; and each `A_CLSE`
that is received tears down what it names and goes unanswered, in just the runs in which none names a
socket whose peer is a remote socket. -/
theorem closes_unanswered_iff {evs : List Event} {st : State}
    (h : Lib.run step .init evs = some st) :
    Lib.RunOk step Silent .init evs ∧ st.ClosesOnce ↔ Lib.RunOk step Streamless .init evs := by
  constructor
  · rintro ⟨hok, -⟩
    exact hok.imp fun s ev => (silent_iff s ev).mp
  · intro hok
    exact ⟨hok.imp fun s ev => (silent_iff s ev).mpr, run_closesOnce h⟩

/-- A forwarded connection waits for its stream, and the other side closes it. -/
theorem closes_unanswered_opening : ∃ st, Lib.run step .init
      [.packet 1 ⟨.cnxn, 0, 0, text "device::"⟩ idle, .forward 1, .packet 1 ⟨.clse, 0, 1, []⟩ idle] =
        some st ∧
    st.closes 0 = 0 ∧ Lib.RunOk step Silent .init
      [.packet 1 ⟨.cnxn, 0, 0, text "device::"⟩ idle, .forward 1, .packet 1 ⟨.clse, 0, 1, []⟩ idle] := by
  have h : (Lib.run step .init [.packet 1 ⟨.cnxn, 0, 0, text "device::"⟩ idle, .forward 1,
      .packet 1 ⟨.clse, 0, 1, []⟩ idle]).any (·.closes 0 = 0) = true := by decide +kernel
  obtain ⟨st, hst, hs⟩ := (Option.any_eq_true ..).mp h
  exact ⟨st, hst, by simpa using hs, ((closes_unanswered_iff hst).mpr (by decide +kernel)).1⟩

/-- The other side opens a stream and closes it, and its `A_CLSE` is answered. -/
theorem clse_answered : ∃ st, Lib.run step .init
      [.packet 1 ⟨.cnxn, 0, 0, text "device::"⟩ idle, .packet 1 ⟨.openStream, 7, 0, text "tcp:80"⟩ idle,
        .packet 1 ⟨.clse, 7, 1, []⟩ idle] = some st ∧
    st.closes 0 = 1 ∧ ¬ Lib.RunOk step Silent .init
      [.packet 1 ⟨.cnxn, 0, 0, text "device::"⟩ idle, .packet 1 ⟨.openStream, 7, 0, text "tcp:80"⟩ idle,
        .packet 1 ⟨.clse, 7, 1, []⟩ idle] := by
  have h : (Lib.run step .init [.packet 1 ⟨.cnxn, 0, 0, text "device::"⟩ idle,
      .packet 1 ⟨.openStream, 7, 0, text "tcp:80"⟩ idle, .packet 1 ⟨.clse, 7, 1, []⟩ idle]).any
        (·.closes 0 = 1) = true := by decide +kernel
  obtain ⟨st, hst, hs⟩ := (Option.any_eq_true ..).mp h
  refine ⟨st, hst, by simpa using hs, fun hok => ?_⟩
  exact absurd (hok.imp fun s ev => (silent_iff s ev).mp) (by decide +kernel)

end Twm.Adb.SocketTable
