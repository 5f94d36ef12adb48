import DeviceTwm.Adb.SocketTable

/-!
# What a transport can do to the sockets of another

A packet from a transport changes the sockets of that transport. Two things go further.

* After `A_CNXN` the list of devices is written to the sockets whose peer is a device tracker.
* `A_OKAY`, `A_CLSE` and `A_WRTE` change the socket that they name, whatever transport it belongs to
  (`Respects` leaves these packets out).
-/

namespace Twm.Adb.SocketTable

open LocalSocket

/-! ## The peer of a socket -/

/-- Only a smart socket is replaced by another peer. -/
def PeerMoves (s s' : Sock) : Prop :=
  s'.peer = s.peer ∨ s'.peer = .none ∨ s.peer = .smart ∧ s'.peer = .other

theorem PeerMoves.of_calm {s s' : Sock} (h : s.Calm s') : PeerMoves s s' := by
  rcases h.peer with hp | hp
  · exact .inl hp
  · exact .inr (.inl hp)

theorem PeerMoves.calm {s s' s'' : Sock} (h : PeerMoves s s') (hc : s'.Calm s'') :
    PeerMoves s s'' := by
  rcases hc.peer with hp | hp
  · rw [PeerMoves, hp]
    exact h
  · exact .inr (.inl hp)

/-- A step that comes from a calm state. -/
theorem PeerMoves.of_calm_left {s s' s'' : Sock} (hc : s.Calm s') (h : PeerMoves s' s'') :
    PeerMoves s s'' := by
  rcases hc.peer with hp | hp
  · rw [PeerMoves, ← hp]
    exact h
  · rcases h with h | h | ⟨h, -⟩
    · exact .inr (.inl (h.trans hp))
    · exact .inr (.inl h)
    · rw [hp] at h
      cases h

theorem ready_peer (s : Sock) (list : List UInt8) :
    (s.ready list).peer = s.peer ∨ (s.ready list).peer = .none := by
  unfold Sock.ready
  split
  · exact .inl rfl
  · exact .inl rfl
  · exact .inr s.closePeer_peer
  · exact .inl rfl
  · exact .inl rfl

theorem pass_peer {s s' : Sock} {buf : List UInt8} {e : Enqueue} (h : s.pass buf e = some s') :
    PeerMoves s s' := by
  unfold Sock.pass at h
  split at h
  · cases h
    exact .inl rfl
  · cases h
    exact .inl rfl
  · cases h
    exact .inr (.inl rfl)
  · next hp =>
    cases h
    exact .inr (.inr ⟨hp, rfl⟩)
  · next data ws hp =>
    cases h
    have hc := Sock.enqueue_calm { s with peer := .other, notify := false } data ws
    rcases hc.peer with hc | hc
    · exact .inr (.inr ⟨hp, hc⟩)
    · exact .inr (.inl hc)
  · cases h
  · cases h
  · cases h
    exact .inl rfl
  · cases h
    refine PeerMoves.of_calm (s.peerCloses_calm.trans ?_)
    split
    · exact Sock.delRead_calm _
    · exact ⟨rfl, .inl rfl, id, id, rfl, id⟩
  · cases h
    exact .inl rfl

theorem readPart_peer (s : Sock) (rs : List FdRead) (e : Enqueue) :
    PeerMoves s (s.readPart rs e) := by
  simp only [Sock.readPart]
  split
  · exact .of_calm s.peerCloses_calm
  · next s' hs =>
    have hs' : PeerMoves s s' := by
      split at hs
      · cases hs
        exact .inl rfl
      · exact pass_peer hs
    split
    · exact hs'.calm s'.endOfFile_calm
    · exact hs'

theorem eventFunc_peer (s : Sock) (write read : Bool) (ws : List WriteResult) (rs : List FdRead)
    (e : Enqueue) : PeerMoves s (s.eventFunc write read ws rs e) := by
  have hstep : ∀ on s', s.Calm s' →
      PeerMoves s (if on = true ∧ read = true then s'.readPart rs e else s') := by
    intro on s' hc
    split
    · exact .of_calm_left hc (readPart_peer s' rs e)
    · exact .of_calm hc
  cases write with
  | true => exact hstep _ _ (s.writePart_calm ws)
  | false => exact hstep _ _ (.refl s)

theorem localStep_peer {s s' : Sock} {l : Step} (h : localStep s l = some s') : PeerMoves s s' := by
  cases l with
  | select read write =>
    obtain ⟨-, rfl⟩ := localStep_stepsTo h
    exact .inl rfl
  | dispatch ws rs e =>
    obtain ⟨-, rfl⟩ := localStep_stepsTo h
    exact .of_calm_left s.dequeue_calm (eventFunc_peer _ _ _ ws rs e)
  | okay own list => cases h
  | wrte data ws => cases h
  | clse => cases h
  | peerCloses =>
    obtain ⟨-, rfl⟩ := localStep_stepsTo h
    exact .of_calm s.peerCloses_calm
  | peerEnqueue data ws =>
    obtain ⟨-, rfl⟩ := localStep_stepsTo h
    exact .of_calm (s.enqueue_calm data ws)
  | peerReady =>
    obtain ⟨-, rfl⟩ := localStep_stepsTo h
    rcases ready_peer s [] with hp | hp
    · exact .inl hp
    · exact .inr (.inl hp)
  | closeAll =>
    obtain ⟨-, rfl⟩ := localStep_stepsTo h
    exact .of_calm s.closeLocked_calm
  | listUpdated list =>
    obtain ⟨-, rfl⟩ := localStep_stepsTo h
    exact .inl rfl

/-- `A_OKAY` gives a peer to a socket that has none. -/
theorem handleOkay_peer (s : Sock) (own : Bool) (list : List UInt8) :
    (s.handleOkay own list).peer = .none ∨
      (s.handleOkay own list).peer = (if s.peer = .none then .remote else s.peer) := by
  have hp : ∀ x : Sock, x.peer = s.peer →
      ((if x.peer = .none then { x with peer := .remote } else x).ready list).peer = .none ∨
      ((if x.peer = .none then { x with peer := .remote } else x).ready list).peer =
        (if s.peer = .none then .remote else s.peer) := by
    intro x hx
    rw [← hx]
    split
    · rcases ready_peer { x with peer := .remote } list with h | h
      · exact .inr h
      · exact .inl h
    · rcases ready_peer x list with h | h
      · exact .inr h
      · exact .inl h
  simp only [Sock.handleOkay]
  split
  · exact hp _ rfl
  · exact hp _ rfl

/-- A socket that its smart socket connects has that smart socket no longer. -/
theorem pass_connects {s s' : Sock} {buf : List UInt8} (h : s.pass buf (.connects none) = some s') :
    s'.peer ≠ .smart := by
  unfold Sock.pass at h
  cases hp : s.peer with
  | none =>
    simp only [hp, Option.some.injEq] at h
    subst h
    simp [hp]
  | remote =>
    simp only [hp, Option.some.injEq] at h
    subst h
    simp [Sock.note, hp]
  | smart =>
    simp only [hp, Option.some.injEq] at h
    subst h
    simp
  | other =>
    simp only [hp, Option.some.injEq] at h
    subst h
    simp [hp]

theorem readPart_connects (s : Sock) {rs : List FdRead} (h : (Sock.fill rs []).1 ≠ []) :
    (s.readPart rs (.connects none)).peer ≠ .smart := by
  have hcalm : ∀ x y : Sock, x.Calm y → x.peer ≠ .smart → y.peer ≠ .smart := by
    intro x y hc hx
    rcases hc.peer with hp | hp
    · rwa [hp]
    · simp [hp]
  simp only [Sock.readPart, if_neg h]
  split
  · exact hcalm _ _ (Sock.close_calm _) (by simp)
  · next s' hs =>
    split
    · exact hcalm _ _ s'.endOfFile_calm (pass_connects hs)
    · exact pass_connects hs

/-- The events that are wanted do not matter to whether the event function goes on to read. -/
theorem writePart_fde (s : Sock) (f : Fde) (ws : List WriteResult) :
    ({ s with fde := f }.writePart ws).1 = (s.writePart ws).1 := by
  simp only [Sock.writePart]
  split
  · rfl
  · rfl
  · split
    · rfl
    · split <;> rfl

theorem connectsTo_peer {s s' : Sock} {l : Step} (hc : connectsTo s l = true)
    (h : localStep s l = some s') : s'.peer ≠ .smart := by
  unfold connectsTo at hc
  split at hc
  · next ws rs =>
    obtain ⟨-, rfl⟩ := localStep_stepsTo h
    simp only [asks, Bool.and_eq_true, Bool.or_eq_true, Bool.not_eq_true', decide_eq_true_eq] at hc
    obtain ⟨⟨⟨-, hr⟩, hw⟩, hf⟩ := hc
    simp only [Sock.eventFunc, hr, and_true]
    cases hev : s.fde.evWrite with
    | false => exact readPart_connects _ hf
    | true =>
      have hon : ({ s with fde := s.fde.dequeue }.writePart ws).1 = true := by
        rw [writePart_fde]
        simpa [hev] using hw
      simp only [if_true, hon]
      exact readPart_connects _ hf
  · cases hc

/-! ## The table -/

namespace State

variable {st : State} {n m : Nat} {e : Entry} {s : Sock}

@[simp] theorem put_self (st : State) (n : Nat) (e : Option Entry) : (st.put n e).socks n = e :=
  Function.update_self ..

theorem put_of_ne (st : State) (e : Option Entry) (h : m ≠ n) : (st.put n e).socks m = st.socks m :=
  Function.update_of_ne h ..

theorem closePartner_of_ne (st : State) (s : Sock) (h : e.partner ≠ some m) :
    (st.closePartner e s).socks m = st.socks m := by
  unfold closePartner
  split
  · split
    · rfl
    · next k hk =>
      refine put_of_ne _ _ fun hmk => h ?_
      rw [hmk, hk]
  · rfl

theorem closePartner_of_peer (st : State) (s : Sock) (h : e.sock.peer ≠ .other) :
    st.closePartner e s = st := by
  rw [closePartner, if_neg fun hc => h hc.1]

theorem act_of_ne (st : State) (s : Sock) (hn : m ≠ n) (hp : e.partner ≠ some m) :
    (st.act n e s).socks m = st.socks m := by
  rw [act, closePartner_of_ne _ _ hp, put_of_ne _ _ hn]

theorem install_of_ne (st : State) (e : Option Entry) (h : m ≠ st.made) :
    (st.install e).socks m = st.socks m :=
  put_of_ne _ _ h

theorem mapSocks_socks (st : State) (f : Nat → Entry → Entry) (h : st.socks n = some e) :
    (st.mapSocks f).socks n = some (f n e) := by
  simp [mapSocks, h]

theorem findSome?_range {α : Type} {f : Nat → Option α} {k : Nat} {a : α}
    (h : (List.range k).findSome? f = some a) :
    ∃ n, n < k ∧ f n = some a ∧ ∀ m, m < n → f m = none := by
  induction k with
  | zero => cases h
  | succ k ih =>
    rw [List.range_succ, List.findSome?_append] at h
    cases hk : (List.range k).findSome? f with
    | some b =>
      rw [hk] at h
      cases h
      obtain ⟨n, hn, hf, hm⟩ := ih hk
      exact ⟨n, by omega, hf, hm⟩
    | none =>
      rw [hk] at h
      have hf : f k = some a := by simpa using h
      refine ⟨k, by omega, hf, fun m hm => ?_⟩
      exact List.findSome?_eq_none_iff.mp hk m (List.mem_range.mpr hm)

/-- The socket that `find_local_socket` looks for. -/
def Matches (st : State) (id n : Nat) (e : Entry) : Prop :=
  n < st.made ∧ st.socks n = some e ∧ idOf n = id ∧ e.sock.Listed

/-- `find_local_socket` finds the first one. -/
theorem find_spec {id : Nat} (h : st.find id = some (n, e)) :
    st.Matches id n e ∧ ∀ m x, st.Matches id m x → n ≤ m := by
  obtain ⟨k, hk, hf, hmin⟩ := findSome?_range h
  cases hs : st.socks k with
  | none => simp [hs] at hf
  | some x =>
    simp only [hs, Option.ite_none_right_eq_some, Option.some.injEq, Prod.mk.injEq] at hf
    obtain ⟨⟨hid, hl⟩, rfl, rfl⟩ := hf
    refine ⟨⟨hk, hs, hid, hl⟩, fun m y hm => ?_⟩
    by_contra hlt
    have := hmin m (by omega)
    simp [hm.2.1, hm.2.2.1, hm.2.2.2] at this

theorem find_eq_none_iff {id : Nat} : st.find id = none ↔ ∀ n e, ¬ st.Matches id n e := by
  constructor
  · rintro h n e ⟨hn, he, hid, hl⟩
    have := List.findSome?_eq_none_iff.mp h n (List.mem_range.mpr hn)
    simp [he, hid, hl] at this
  · intro h
    cases hf : st.find id with
    | none => rfl
    | some ne => exact absurd (find_spec hf).1 (h _ _)

theorem find_of_matches {id : Nat} (h : st.Matches id n e) (hmin : ∀ m x, st.Matches id m x → n ≤ m) :
    st.find id = some (n, e) := by
  cases hf : st.find id with
  | none => exact absurd h (find_eq_none_iff.mp hf n e)
  | some mx =>
    obtain ⟨m, x⟩ := mx
    obtain ⟨hm, hmin'⟩ := find_spec hf
    obtain rfl : n = m := Nat.le_antisymm (hmin m x hm) (hmin' n e h)
    obtain rfl : e = x := Option.some.inj (h.2.1.symm.trans hm.2.1)
    rfl

end State

/-! ## What holds of every socket -/

/-- `P` is kept by what does not give the socket another peer. -/
def Stable (P : Entry → Prop) : Prop :=
  ∀ e s given, P e → s.peer = e.sock.peer ∨ s.peer = .none → P { e with sock := s, given := given }

/-- `P` holds of the sockets, and new ones have new numbers. -/
structure Holds (P : Entry → Prop) (st : State) : Prop where
  lt : ∀ n, st.made ≤ n → st.socks n = none
  all : ∀ n e, st.socks n = some e → P e

namespace Holds

variable {P : Entry → Prop} {st : State} {n : Nat} {e : Entry}

theorem num_lt (h : Holds P st) (hn : st.socks n = some e) : n < st.made := by
  by_contra hlt
  rw [h.lt n (by omega)] at hn
  cases hn

theorem put (h : Holds P st) (hn : n < st.made) (he : P e) : Holds P (st.put n (some e)) where
  lt := by
    intro m hm
    have hm : st.made ≤ m := hm
    rw [State.put_of_ne _ _ (by omega)]
    exact h.lt m hm
  all := by
    intro m x hx
    by_cases hmn : m = n
    · subst hmn
      rw [State.put_self] at hx
      cases hx
      exact he
    · rw [State.put_of_ne _ _ hmn] at hx
      exact h.all m x hx

theorem mapSocks (h : Holds P st) (f : Nat → Entry → Entry) (hf : ∀ n e, P e → P (f n e)) :
    Holds P (st.mapSocks f) where
  lt := by
    intro n hn
    simp [State.mapSocks, h.lt n hn]
  all := by
    intro n x hx
    obtain ⟨e, he, rfl⟩ := Option.map_eq_some_iff.mp hx
    exact hf n e (h.all n e he)

theorem install (h : Holds P st) {o : Option Entry} (ho : ∀ e, o = some e → P e) :
    Holds P (st.install o) where
  lt := by
    intro n hn
    have hn : st.made + 1 ≤ n := hn
    rw [State.install_of_ne _ _ (by omega)]
    exact h.lt n (by omega)
  all := by
    intro n x hx
    by_cases hn : n = st.made
    · subst hn
      exact ho x ((State.put_self ..).symm.trans hx)
    · rw [State.install_of_ne _ _ hn] at hx
      exact h.all n x hx

/-- All that closing one end does to the other is to tell it. -/
theorem closePartner_of (h : Holds P st)
    (hP : ∀ x : Entry, P x → P { x with sock := x.sock.peerCloses }) (e : Entry) (s : Sock) :
    Holds P (st.closePartner e s) := by
  unfold State.closePartner
  split
  · split
    · exact h
    · next m hm =>
      cases hx : st.socks m with
      | none =>
        rw [Option.map_none, ← hx, State.put, Function.update_eq_self]
        exact h
      | some x => exact h.put (h.num_lt hx) (hP x (h.all m x hx))
  · exact h

theorem closePartner (h : Holds P st) (hP : Stable P) (e : Entry) (s : Sock) :
    Holds P (st.closePartner e s) :=
  h.closePartner_of (fun x hx => hP x _ _ hx x.sock.peerCloses_calm.peer) e s

theorem act (h : Holds P st) (hP : Stable P) (hn : n < st.made) {s : Sock}
    (hs : P { e with sock := s }) : Holds P (st.act n e s) :=
  (h.put hn hs).closePartner hP e s

theorem online (h : Holds P st) (online : Nat → Bool) : Holds P { st with online := online } :=
  ⟨h.lt, h.all⟩

theorem handleOffline (h : Holds P st) (hP : Stable P) (t : Nat) : Holds P (st.handleOffline t) := by
  refine (h.mapSocks _ fun n e he => ?_).online _
  split
  · exact hP e _ _ he e.sock.peerCloses_calm.peer
  · exact he

theorem parseBanner (h : Holds P st) (hP : Stable P) (banner : List UInt8) (t : Nat) (env : Env) :
    Holds P (st.parseBanner banner t env) := by
  simp only [State.parseBanner]
  split
  · refine (h.online _).mapSocks _ fun n e he => ?_
    split
    · exact hP e _ _ he (e.sock.enqueue_calm _ _).peer
    · exact he
  · exact h.online _

end Holds

/-! ## What a step must keep -/

/-- The sockets that are made. -/
inductive Made : Entry → Prop
  | service (t : Nat) : Made (.make .service none [t] none)
  | jdwp (t : Nat) (list : List UInt8) : Made (.make (.jdwp list) none [t] none)
  | trackJdwp (t : Nat) (list : List UInt8) : Made (.make (.jdwpTracker list) none [t] none)
  | hostService (n : Nat) : Made (.make .hostService none [] (some n))
  | client : Made (.make .client none [] none)
  | forward (t : Nat) : Made (.make .forward (some t) [] none)

/-- The socket gets a remote socket of the transport as its peer. -/
def Entry.joined (e : Entry) (t : Nat) (s : Sock) : Entry :=
  { e with remotes := e.remotes ++ [t], sock := s }

/-- Besides `Stable`: what `P` must do, in a state, for a step to keep it. -/
structure Keeps (P : Entry → Prop) (st : State) (ev : Event) : Prop where
  made : ∀ e, Made e → P e
  joined : ∀ t p env n e s, ev = .packet t p env → p.command = .okay → st.find p.arg1 = some (n, e) →
    e.sock.peer = .none → s.peer = .none ∨ s.peer = .remote → P e → P (e.joined t s)
  moved : ∀ e s l via made, localStep e.sock l = some s → P e → P (State.moved e s l via made)

section Keeps

variable {P : Entry → Prop} {st st' : State} {t n : Nat} {e : Entry} {p : Packet} {env : Env}

theorem Holds.openService (h : Holds P st) (hP : ∀ e, Made e → P e) (t : Nat) (env : Env)
    (service : Service) : Holds P (st.openService t env service) := by
  cases service with
  | fd =>
    refine h.install fun e he => ?_
    cases he
    exact hP _ (.service t)
  | jdwp =>
    refine h.install fun e he => ?_
    cases he
    exact hP _ (.jdwp t _)
  | trackJdwp =>
    refine h.install fun e he => ?_
    cases he
    exact hP _ (.trackJdwp t _)

theorem Holds.okay (h : Holds P st) (hP : Stable P) (hk : Keeps P st (.packet t p env))
    (hc : p.command = .okay) (hf : st.find p.arg1 = some (n, e)) : Holds P (st.okay t env n e) := by
  have hn := (State.find_spec hf).1
  have he := h.all n e hn.2.1
  simp only [State.okay]
  split
  · next hp =>
    refine h.act hP hn.1 (hk.joined t p env n e _ rfl hc hf hp ?_ he)
    have hpeer := handleOkay_peer e.sock ((e.remotes ++ [t]).getLast? = some t) env.processes
    rwa [if_pos hp] at hpeer
  · next hp =>
    refine h.act hP hn.1 (hP e _ _ he ?_)
    have hpeer := handleOkay_peer e.sock (e.remotes.getLast? = some t) env.processes
    rw [if_neg hp] at hpeer
    exact hpeer.symm

theorem Holds.handlePacket (h : Holds P st) (hP : Stable P) (hk : Keeps P st (.packet t p env)) :
    Holds P (st.handlePacket t p env) := by
  unfold State.handlePacket
  split
  · split
    · exact h.handleOffline hP t
    · exact h
  · simp only
    split
    · exact (h.handleOffline hP t).parseBanner hP _ t env
    · exact h.parseBanner hP _ t env
  · split
    · split
      · exact h
      · exact h.openService hk.made t env _
    · exact h
  · next hc =>
    split
    · split
      · exact h
      · next n e hf => exact h.okay hP hk hc hf
    · exact h
  · split
    · split
      · exact h
      · next n e hf =>
        have hn := (State.find_spec hf).1
        exact h.act hP hn.1 (hP e _ _ (h.all n e hn.2.1) e.sock.close_calm.peer)
    · exact h
  · split
    · split
      · exact h
      · next n e hf =>
        have hn := (State.find_spec hf).1
        exact h.act hP hn.1 (hP e _ _ (h.all n e hn.2.1) (e.sock.handleWrte_calm _ _).peer)
    · exact h
  · exact h

/-- What holds of every socket is kept by a step. -/
theorem Holds.step {ev : Event} (h : Holds P st) (hP : Stable P) (hk : Keeps P st ev)
    (hs : step st ev = some st') : Holds P st' := by
  cases ev with
  | packet t p env =>
    cases hs
    exact h.handlePacket hP hk
  | client =>
    cases hs
    refine h.install fun e he => ?_
    cases he
    exact hk.made _ .client
  | forward t =>
    cases hs
    refine h.install fun e he => ?_
    cases he
    exact hk.made _ (.forward t)
  | socket n l via =>
    simp only [SocketTable.step] at hs
    split at hs
    · cases hs
    · next e he =>
      split at hs
      · cases hs
      · next s hl =>
        have hput := h.put (h.num_lt he) (hk.moved e s l via st.made hl (h.all n e he))
        split at hs
        · cases hs
          refine hput.install fun x hx => ?_
          split at hx
          · cases hx
            exact hk.made _ (.hostService n)
          · cases hx
        · cases hs
          exact hput.closePartner hP e s

end Keeps

/-! ## Sockets without a transport -/

/-- A socket whose peer is a smart socket, or a socket of this process, has no transport and never had
a remote socket. -/
structure Entry.Ok (e : Entry) : Prop where
  free : e.sock.peer = .smart ∨ e.sock.peer = .other → e.transport = none ∧ e.remotes = []
  fresh : e.sock.peer = .smart → e.tracker = false ∧ e.partner = none
  tracker : e.tracker = true → e.partner = none

theorem Entry.Ok.stable : Stable Entry.Ok := by
  intro e s given he hs
  constructor
  · intro (hp : s.peer = .smart ∨ s.peer = .other)
    refine he.free ?_
    rcases hs with hs | hs
    · rwa [← hs]
    · simp [hs] at hp
  · intro (hp : s.peer = .smart)
    refine he.fresh ?_
    rcases hs with hs | hs
    · rwa [← hs]
    · simp [hs] at hp
  · exact he.tracker

theorem Entry.Ok.of_peer {e : Entry} (hp : e.sock.peer = .none ∨ e.sock.peer = .remote)
    (ht : e.tracker = true → e.partner = none) : e.Ok := by
  refine ⟨fun h => ?_, fun h => ?_, ht⟩
  · rcases hp with hp | hp <;> simp [hp] at h
  · rcases hp with hp | hp <;> simp [hp] at h

theorem Made.ok {e : Entry} (h : Made e) : e.Ok := by
  cases h with
  | service t => exact .of_peer (.inr rfl) (by simp [Entry.make])
  | jdwp t list => exact .of_peer (.inr rfl) (by simp [Entry.make])
  | trackJdwp t list => exact .of_peer (.inr rfl) (by simp [Entry.make])
  | hostService n => exact ⟨fun _ => ⟨rfl, rfl⟩, by simp [Entry.make, Sock.init, Sock.ready, Sock.new],
      by simp [Entry.make]⟩
  | client => exact ⟨fun _ => ⟨rfl, rfl⟩, fun _ => ⟨rfl, rfl⟩, fun _ => rfl⟩
  | forward t => exact .of_peer (.inl rfl) (by simp [Entry.make])

/-- The socket of a device tracker had a smart socket before. -/
theorem tracks_peer {s s' : Sock} {l : Step} (h : tracks s s' l = true) :
    s.peer = .smart ∧ s'.peer = .other := by
  unfold tracks at h
  split at h
  · simpa using h
  · cases h

theorem connectsTo_smart {s : Sock} {l : Step} (h : connectsTo s l = true) : s.peer = .smart := by
  unfold connectsTo at h
  split at h
  · simp only [asks, Bool.and_eq_true, decide_eq_true_eq] at h
    exact h.1.1.1
  · cases h

theorem connectsTo_of_tracks {s s' : Sock} {l : Step} (h : tracks s s' l = true) :
    connectsTo s l = false := by
  unfold tracks at h
  split at h
  · rfl
  · cases h

theorem Entry.Ok.moved {e : Entry} {s : Sock} {l : Step} (he : e.Ok) (h : localStep e.sock l = some s)
    (via : Option Nat) (made : Nat) : (State.moved e s l via made).Ok := by
  have hmove := localStep_peer h
  constructor
  · intro (hp : s.peer = .smart ∨ s.peer = .other)
    have hnone : s.peer ≠ .none := by rintro hn; simp [hn] at hp
    have hpeer : e.sock.peer = .smart ∨ e.sock.peer = .other := by
      rcases hmove with hm | hm | ⟨hm, -⟩
      · rwa [← hm]
      · exact absurd hm hnone
      · exact .inl hm
    rw [State.moved, if_neg fun hc => hnone hc.2.1]
    exact he.free hpeer
  · intro (hp : s.peer = .smart)
    have hpeer : e.sock.peer = .smart := by
      rcases hmove with hm | hm | ⟨hm, -⟩
      · rwa [← hm]
      · simp [hm] at hp
      · exact hm
    obtain ⟨htr, hpa⟩ := he.fresh hpeer
    have hconn : connectsTo e.sock l = false := by
      by_contra hc
      exact connectsTo_peer (by simpa using hc) h hp
    have htracks : tracks e.sock s l = false := by
      by_contra hc
      have := (tracks_peer (by simpa using hc)).2
      simp [hp] at this
    exact ⟨by simp [State.moved, htr, htracks], by simp [State.moved, hconn, hpa]⟩
  · intro ht
    have ht : e.tracker = true ∨ tracks e.sock s l = true := by simpa [State.moved] using ht
    rcases ht with ht | ht
    · have hconn : connectsTo e.sock l = false := by
        by_contra hc
        have := (he.fresh (connectsTo_smart (by simpa using hc))).1
        simp [ht] at this
      simp [State.moved, hconn, he.tracker ht]
    · have hpa := (he.fresh (tracks_peer ht).1).2
      simp [State.moved, connectsTo_of_tracks ht, hpa]

theorem ok_keeps (st : State) (ev : Event) : Keeps Entry.Ok st ev where
  made := fun _ h => h.ok
  joined := fun _ _ _ _ _ _ _ _ _ _ hs he => .of_peer hs he.tracker
  moved := fun _ _ _ via made h he => he.moved h via made

theorem init_holds (P : Entry → Prop) : Holds P State.init where
  lt := fun _ _ => rfl
  all := by
    intro n e he
    cases he

theorem run_ok {evs : List Event} {st : State} (h : Lib.run step .init evs = some st) :
    Holds Entry.Ok st :=
  Lib.run_keeps (fun s ev _ hs hstep => hs.step Entry.Ok.stable (ok_keeps s ev) hstep)
    (init_holds _) h

/-! ## One packet -/

/-- Its peer is a device tracker. -/
def Entry.Tracked (e : Entry) : Prop := e.tracker = true ∧ e.sock.peer = .other

instance (e : Entry) : Decidable e.Tracked := inferInstanceAs (Decidable (_ ∧ _))

/-- The socket that the packet names. -/
def State.named (st : State) (p : Packet) : Option (Nat × Entry) :=
  match p.command with
  | .okay | .clse | .wrte => st.find p.arg1
  | _ => none

/-- The packet names a socket without a stream on the transport: this one, or its peer. -/
def State.Strays (st : State) (t : Nat) (p : Packet) (n : Nat) : Prop :=
  ∃ x ∈ st.named p, ¬ x.2.Owns t ∧ (n = x.1 ∨ x.2.sock.peer = .other ∧ x.2.partner = some n)

instance (st : State) (t : Nat) (p : Packet) (n : Nat) : Decidable (st.Strays t p n) :=
  inferInstanceAs (Decidable (∃ x ∈ st.named p, _))

section Frame

variable {st : State} {t n m : Nat} {e x : Entry} {p : Packet} {env : Env}

/-- The peer of a socket with a stream is not in the table. -/
theorem Entry.Owns.peer_ne (h : x.Owns t) (hx : x.Ok) : x.sock.peer ≠ .other := by
  intro hp
  rcases h with h | ⟨h, -⟩
  · rw [(hx.free (.inr hp)).1] at h
    cases h
  · rw [hp] at h
    cases h

theorem handleOffline_frame (hn : st.socks n = some e) (hb : ¬ e.Bound t) :
    (st.handleOffline t).socks n = some e := by
  simp only [State.handleOffline, State.mapSocks_socks _ _ hn]
  rw [if_neg fun h => hb (.inl (.inr h))]

theorem updateTransports_frame (hn : st.socks n = some e) (ht : ¬ e.Tracked) :
    (st.updateTransports env).socks n = some e := by
  rw [State.updateTransports, State.mapSocks_socks _ _ hn, if_neg]
  exact ht

theorem parseBanner_frame (hn : st.socks n = some e) (ht : ¬ e.Tracked) (banner : List UInt8) :
    (st.parseBanner banner t env).socks n = some e := by
  simp only [State.parseBanner]
  split
  · exact updateTransports_frame hn ht
  · exact hn

/-- The named socket changes, and no socket that it has nothing to do with. -/
theorem act_frame {y : Entry} {s : Sock} (hst : Holds Entry.Ok st) (hn : st.socks n = some e)
    (hb : ¬ e.Bound t) (hm : st.socks m = some x) (hp : y.sock = x.sock) (hpa : y.partner = x.partner)
    (hs : x.Owns t ∨ ¬ (n = m ∨ x.sock.peer = .other ∧ x.partner = some n)) :
    (st.act m y s).socks n = some e := by
  have hne : n ≠ m := by
    rintro rfl
    rcases hs with hs | hs
    · rw [hn] at hm
      cases hm
      exact hb (.inl hs)
    · exact hs (.inl rfl)
  by_cases ho : x.sock.peer = .other
  · have hp' : y.partner ≠ some n := by
      intro hpn
      rcases hs with hs | hs
      · exact hs.peer_ne (hst.all m x hm) ho
      · exact hs (.inr ⟨ho, hpa ▸ hpn⟩)
    rw [State.act_of_ne _ _ hne hp', hn]
  · rw [State.act, State.closePartner_of_peer _ _ (hp ▸ ho), State.put_of_ne _ _ hne, hn]

/-- A packet leaves a socket that is not bound to its transport as it was. -/
theorem handlePacket_frame (hst : Holds Entry.Ok st) (hn : st.socks n = some e) (hb : ¬ e.Bound t)
    (ht : ¬ (p.command = .cnxn ∧ e.Tracked)) (hs : ¬ st.Strays t p n) :
    (st.handlePacket t p env).socks n = some e := by
  have hstray : ∀ m x, st.named p = some (m, x) →
      x.Owns t ∨ ¬ (n = m ∨ x.sock.peer = .other ∧ x.partner = some n) := by
    intro m x hf
    by_contra hc
    rw [not_or, not_not] at hc
    exact hs ⟨(m, x), hf, hc⟩
  -- what the packets for one socket do to it
  have hact : ∀ {m : Nat} {x y : Entry} {s : Sock}, st.find p.arg1 = some (m, x) →
      st.named p = st.find p.arg1 → y.sock = x.sock → y.partner = x.partner →
      (st.act m y s).socks n = some e := fun hf hnamed hy hp =>
    act_frame hst hn hb (State.find_spec hf).1.2.1 hy hp (hstray _ _ (hnamed.trans hf))
  unfold State.handlePacket
  split
  · split
    · exact handleOffline_frame hn hb
    · exact hn
  · next hc =>
    have ht : ¬ e.Tracked := fun h => ht ⟨hc, h⟩
    simp only
    split
    · exact parseBanner_frame (handleOffline_frame hn hb) ht p.data
    · exact parseBanner_frame hn ht p.data
  · split
    · split
      · exact hn
      · next service _ =>
        have hne := Nat.ne_of_lt (hst.num_lt hn)
        cases service <;> exact (State.install_of_ne _ _ hne).trans hn
    · exact hn
  · next hc =>
    split
    · split
      · exact hn
      · next m x hf =>
        refine hact hf (by rw [State.named, hc]) ?_ ?_
        · split <;> rfl
        · split <;> rfl
    · exact hn
  · next hc =>
    split
    · split
      · exact hn
      · next m x hf =>
        exact hact hf (by rw [State.named, hc]) rfl rfl
    · exact hn
  · next hc =>
    split
    · split
      · exact hn
      · next m x hf =>
        exact hact hf (by rw [State.named, hc]) rfl rfl
    · exact hn
  · exact hn

end Frame

end Twm.Adb.SocketTable
