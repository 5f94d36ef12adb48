import DeviceTwm.Adb.Isolation
import DeviceTwm.Lib.Unwinding

/-!
# Runs that differ in the packets of one transport

What the rest of the system sees of a state is the table without the sockets of the transport
(`restrict`). The packets of the transport do not change it, as long as they open no stream, and what
any other event does to it depends on nothing else.

This is about runs in which every packet names a socket of its own transport (`Respects`). There, the
transports that a socket ever had are all the same one (`Entry.Single`).
-/

namespace Twm.Adb.SocketTable

open LocalSocket

/-! ## The transport of a socket -/

/-- The transports that the socket and its peers have had. -/
def Entry.owners (e : Entry) : List Nat := e.transport.toList ++ e.remotes

/-- The socket has had one transport at most, and none if it has a device tracker. -/
structure Entry.Single (e : Entry) : Prop where
  ok : e.Ok
  same : ∀ a ∈ e.owners, ∀ b ∈ e.owners, a = b
  tracker : e.tracker = true → e.owners = []

/-- A packet names a socket with a stream on its own transport. -/
def Respects (st : State) : Event → Prop
  | .packet t p _ => ∀ x ∈ st.named p, x.2.Owns t
  | _ => True

instance (st : State) : DecidablePred (Respects st)
  | .packet t p _ => inferInstanceAs (Decidable (∀ x ∈ st.named p, x.2.Owns t))
  | .socket .. | .client | .forward _ => .isTrue trivial

section Single

variable {e : Entry} {s : Sock} {t u : Nat}

theorem Entry.Owns.mem_owners (h : e.Owns t) : t ∈ e.owners := by
  rcases h with h | ⟨-, h⟩
  · simp [Entry.owners, h]
  · exact List.mem_append_right _ (List.mem_of_getLast? h)

theorem Entry.Ok.owners (h : e.Ok) (hp : e.sock.peer = .smart ∨ e.sock.peer = .other) :
    e.owners = [] := by
  obtain ⟨ht, hr⟩ := h.free hp
  simp [Entry.owners, ht, hr]

theorem Entry.Single.stable : Stable Entry.Single :=
  fun e s given he hs => ⟨Entry.Ok.stable e s given he.ok hs, he.same, he.tracker⟩

theorem Made.single (h : Made e) : e.Single := by
  refine ⟨h.ok, ?_, ?_⟩
  · cases h <;> simp [Entry.owners, Entry.make]
  · intro ht
    cases h <;> cases ht

theorem Entry.Single.joined (h : e.Single) (ho : e.Owns t)
    (hs : s.peer = .none ∨ s.peer = .remote) : (e.joined t s).Single := by
  have hmem := ho.mem_owners
  have hall : ∀ a ∈ (e.joined t s).owners, a = t := by
    intro a ha
    have ha : a ∈ e.owners ∨ a = t := by
      simpa [Entry.owners, Entry.joined, or_assoc] using ha
    rcases ha with ha | ha
    · exact h.same a ha t hmem
    · exact ha
  refine ⟨.of_peer hs h.ok.tracker, fun a ha b hb => (hall a ha).trans (hall b hb).symm, ?_⟩
  intro ht
  rw [h.tracker ht] at hmem
  cases hmem

theorem Entry.Single.moved {l : Step} (h : e.Single) (hl : localStep e.sock l = some s)
    (via : Option Nat) (made : Nat) : (State.moved e s l via made).Single := by
  by_cases hc : e.sock.peer = .smart ∧ s.peer = .none ∧ .sentOpen ∈ s.log
  · obtain ⟨hsm, hno, -⟩ := id hc
    have hr := (h.ok.free (.inl hsm)).2
    refine ⟨h.ok.moved hl via made, ?_, ?_⟩
    · cases via <;> simp [Entry.owners, State.moved, hc, hr]
    · intro ht
      have ht : e.tracker = true ∨ tracks e.sock s l = true := by simpa [State.moved] using ht
      rcases ht with ht | ht
      · rw [(h.ok.fresh hsm).1] at ht
        cases ht
      · have := (tracks_peer ht).2
        simp [hno] at this
  · have hown : (State.moved e s l via made).owners = e.owners := by
      simp [Entry.owners, State.moved, hc]
    refine ⟨h.ok.moved hl via made, by rw [hown]; exact h.same, ?_⟩
    intro ht
    have ht : e.tracker = true ∨ tracks e.sock s l = true := by simpa [State.moved] using ht
    rw [hown]
    rcases ht with ht | ht
    · exact h.tracker ht
    · exact h.ok.owners (.inl (tracks_peer ht).1)

theorem single_keeps {st : State} {ev : Event} (hr : Respects st ev) : Keeps Entry.Single st ev where
  made := fun _ h => h.single
  joined := by
    rintro t p env n e s rfl hc hf - hs he
    exact he.joined (hr (n, e) (by simp [State.named, hc, hf])) hs
  moved := fun _ _ _ via made h he => he.moved h via made

end Single

/-! ## What the others see -/

/-- The socket never had the transport, and no device tracker. -/
def Entry.Foreign (e : Entry) (t : Nat) : Prop := t ∉ e.owners ∧ e.tracker = false

instance (e : Entry) (t : Nat) : Decidable (e.Foreign t) := inferInstanceAs (Decidable (_ ∧ _))

/-- The state without the sockets of the transport. -/
def State.restrict (st : State) (t : Nat) : State where
  socks := fun n => (st.socks n).filter (·.Foreign t)
  made := st.made
  online := Function.update st.online t false

section Foreign

variable {e : Entry} {t u : Nat}

theorem Entry.Owns.foreign (h : e.Owns u) (he : e.Single) (hu : u ≠ t) : e.Foreign t := by
  have hmem := h.mem_owners
  refine ⟨fun ht => hu (he.same u hmem t ht), ?_⟩
  by_contra hc
  rw [he.tracker (by simpa using hc)] at hmem
  cases hmem

theorem Entry.Bound.foreign (h : e.Bound u) (he : e.Single) (hu : u ≠ t) : e.Foreign t := by
  rcases h with h | ⟨h, -⟩
  · exact h.foreign he hu
  · refine ⟨?_, (he.ok.fresh h).1⟩
    rw [he.ok.owners (.inl h)]
    exact List.not_mem_nil

/-- A socket that others do not see closes no socket of the table. -/
theorem Entry.Ok.partner_of_not_foreign (he : e.Ok) (hf : ¬ e.Foreign t) :
    e.sock.peer ≠ .other ∨ e.partner = none := by
  by_contra hc
  rw [not_or, not_not] at hc
  refine hf ⟨?_, ?_⟩
  · rw [he.owners (.inr hc.1)]
    exact List.not_mem_nil
  · by_contra ht
    exact hc.2 (he.tracker (by simpa using ht))

end Foreign

namespace State

variable {st : State} {t n : Nat} {e : Entry}

theorem filter_map (o : Option Entry) {f : Entry → Entry} (hf : ∀ e, (f e).Foreign t ↔ e.Foreign t) :
    (o.map f).filter (·.Foreign t) = (o.filter (·.Foreign t)).map f := by
  cases o with
  | none => rfl
  | some e => by_cases he : e.Foreign t <;> simp [Option.filter, he, hf]

theorem restrict_put (st : State) (n : Nat) (o : Option Entry) :
    (st.put n o).restrict t = (st.restrict t).put n (o.filter (·.Foreign t)) := by
  simp only [restrict, put, State.mk.injEq, and_self, and_true]
  funext m
  by_cases hm : m = n
  · subst hm
    simp
  · simp [Function.update_of_ne hm]

theorem restrict_put_some (st : State) (n : Nat) (he : e.Foreign t) :
    (st.put n (some e)).restrict t = (st.restrict t).put n (some e) := by
  simp [restrict_put, Option.filter, he]

theorem restrict_install (st : State) (o : Option Entry) :
    (st.install o).restrict t = (st.restrict t).install (o.filter (·.Foreign t)) := by
  have h := restrict_put (t := t) st st.made o
  simp only [restrict, put, State.mk.injEq, and_self, and_true] at h
  simp [install, restrict, put, h]

theorem restrict_socks (h : st.socks n = some e) (he : e.Foreign t) :
    (st.restrict t).socks n = some e := by
  simp [restrict, h, Option.filter, he]

theorem restrict_socks_of_not (h : st.socks n = some e) (he : ¬ e.Foreign t) :
    (st.restrict t).socks n = none := by
  simp [restrict, h, Option.filter, he]

theorem restrict_idem (st : State) (t : Nat) : (st.restrict t).restrict t = st.restrict t := by
  simp [restrict]

theorem restrict_mapSocks (st : State) {f : Nat → Entry → Entry}
    (hf : ∀ n e, (f n e).Foreign t ↔ e.Foreign t) :
    (st.mapSocks f).restrict t = (st.restrict t).mapSocks f := by
  simp only [restrict, mapSocks, State.mk.injEq, and_self, and_true]
  funext n
  exact filter_map _ (hf n)

theorem restrict_closePartner (st : State) (e : Entry) (s : Sock) :
    (st.closePartner e s).restrict t = (st.restrict t).closePartner e s := by
  unfold closePartner
  split
  · split
    · rfl
    · rw [restrict_put]
      congr 1
      exact filter_map _ fun x => Iff.rfl
  · rfl

theorem restrict_act (st : State) (n : Nat) (he : e.Foreign t) (s : Sock) :
    (st.act n e s).restrict t = (st.restrict t).act n e s := by
  have hs : { e with sock := s }.Foreign t := he
  rw [act, act, restrict_closePartner, restrict_put_some _ _ hs]

theorem restrict_matches {id : Nat} :
    (st.restrict t).Matches id n e ↔ st.Matches id n e ∧ e.Foreign t := by
  constructor
  · rintro ⟨hn, he, hid, hl⟩
    obtain ⟨he, hf⟩ := Option.filter_eq_some_iff.mp he
    exact ⟨⟨hn, he, hid, hl⟩, by simpa using hf⟩
  · rintro ⟨⟨hn, he, hid, hl⟩, hf⟩
    exact ⟨hn, restrict_socks he hf, hid, hl⟩

/-- The others find a socket that they see. -/
theorem restrict_find {id : Nat} (h : ∀ n e, st.find id = some (n, e) → e.Foreign t) :
    (st.restrict t).find id = st.find id := by
  cases hf : st.find id with
  | none =>
    refine find_eq_none_iff.mpr fun n e hm => ?_
    exact find_eq_none_iff.mp hf n e (restrict_matches.mp hm).1
  | some ne =>
    obtain ⟨hm, hmin⟩ := find_spec hf
    refine find_of_matches (restrict_matches.mpr ⟨hm, h _ _ hf⟩) fun k x hk => ?_
    exact hmin k x (restrict_matches.mp hk).1

/-! ## Packets of the transport -/

theorem closePartner_of_none (st : State) (s : Sock)
    (h : e.sock.peer ≠ .other ∨ e.partner = none) : st.closePartner e s = st := by
  rcases h with h | h
  · exact closePartner_of_peer st s h
  · simp [closePartner, h]

theorem restrict_put_hidden {x y : Entry} (h : st.socks n = some x) (hx : ¬ x.Foreign t)
    (hy : ¬ y.Foreign t) : (st.put n (some y)).restrict t = st.restrict t := by
  rw [restrict_put, Option.filter_some_neg (by simpa using hy), put,
    ← restrict_socks_of_not h hx, Function.update_eq_self]

theorem restrict_act_hidden {x y : Entry} (h : st.socks n = some x) (hx : ¬ x.Foreign t)
    (hy : ¬ y.Foreign t) (hp : y.sock.peer ≠ .other) (s : Sock) :
    (st.act n y s).restrict t = st.restrict t := by
  have hs : ¬ { y with sock := s }.Foreign t := hy
  rw [act, closePartner_of_peer _ _ hp, restrict_put_hidden h hx hs]

theorem restrict_mapSocks_hidden (st : State) {f : Nat → Entry → Entry}
    (hf : ∀ n e, (f n e).Foreign t ↔ e.Foreign t) (hid : ∀ n e, e.Foreign t → f n e = e) :
    (st.mapSocks f).restrict t = st.restrict t := by
  rw [restrict_mapSocks st hf]
  simp only [restrict, mapSocks, State.mk.injEq, and_self, and_true]
  funext n
  cases h : (st.socks n).filter (·.Foreign t) with
  | none => rfl
  | some e =>
    have he : e.Foreign t := by simpa using (Option.filter_eq_some_iff.mp h).2
    rw [Option.map_some, hid n e he]

theorem restrict_online_hidden (st : State) (b : Bool) :
    { st with online := Function.update st.online t b }.restrict t = st.restrict t := by
  simp [restrict]

theorem restrict_handleOffline_hidden (st : State) :
    (st.handleOffline t).restrict t = st.restrict t := by
  refine (restrict_online_hidden (st.mapSocks _) false).trans ?_
  refine restrict_mapSocks_hidden st (fun n e => ?_) fun n e he => ?_
  · split <;> rfl
  · rw [if_neg]
    rintro ⟨hp, hl⟩
    exact he.1 (Entry.Owns.mem_owners (.inr ⟨hp, hl⟩))

theorem restrict_parseBanner_hidden (st : State) (banner : List UInt8) (env : Env) :
    (st.parseBanner banner t env).restrict t = st.restrict t := by
  simp only [parseBanner]
  split
  · refine Eq.trans ?_ (restrict_online_hidden st true)
    refine restrict_mapSocks_hidden _ (fun n e => ?_) fun n e he => ?_
    · split <;> rfl
    · rw [if_neg]
      rintro ⟨ht, -⟩
      rw [he.2] at ht
      cases ht
  · exact restrict_online_hidden st true

end State

/-- A packet opens a stream. -/
def Opens (st : State) : Event → Prop
  | .packet t p env => p.command = .openStream ∧ st.online t = true ∧ env.service.isSome = true
  | _ => False

instance (st : State) : DecidablePred (Opens st)
  | .packet _ p _ => inferInstanceAs (Decidable (p.command = .openStream ∧ _))
  | .socket .. | .client | .forward _ => .isFalse id

section Packets

variable {st : State} {t u : Nat} {p : Packet} {env : Env}

/-- A packet that is about a socket of the transport. -/
theorem named_hidden (hr : Respects st (.packet t p env)) {n : Nat} {e : Entry}
    (hf : st.named p = some (n, e)) : ¬ e.Foreign t :=
  fun h => h.1 (hr (n, e) hf).mem_owners

/-- The others do not see what a packet of the transport does. -/
theorem restrict_packet_hidden (hst : Holds Entry.Single st) (hr : Respects st (.packet t p env))
    (ho : ¬ Opens st (.packet t p env)) : (st.handlePacket t p env).restrict t = st.restrict t := by
  have hact : ∀ n e (y : Entry) s, st.named p = some (n, e) → st.socks n = some e →
      y.sock = e.sock → e.owners ⊆ y.owners → (st.act n y s).restrict t = st.restrict t := by
    intro n e y s hf hn hs hown
    have hx := named_hidden hr hf
    have hy : ¬ y.Foreign t := fun h => h.1 (hown (hr (n, e) hf).mem_owners)
    refine State.restrict_act_hidden hn hx hy ?_ s
    rw [hs]
    exact (hr (n, e) hf).peer_ne (hst.all n e hn).ok
  unfold State.handlePacket
  split
  · split
    · exact st.restrict_handleOffline_hidden
    · rfl
  · simp only
    split
    · rw [State.restrict_parseBanner_hidden, State.restrict_handleOffline_hidden]
    · exact st.restrict_parseBanner_hidden _ env
  · next hc =>
    split
    · next hon =>
      split
      · rfl
      · next service hs => exact absurd ⟨hc, hon, by simp [hs]⟩ ho
    · rfl
  · next hc =>
    split
    · split
      · rfl
      · next n e hf =>
        have hnamed : st.named p = some (n, e) := by rw [State.named, hc, hf]
        refine hact n e _ _ hnamed (State.find_spec hf).1.2.1 ?_ ?_
        · split <;> rfl
        · split
          · simp [Entry.owners]
          · exact List.Subset.refl _
    · rfl
  · next hc =>
    split
    · split
      · rfl
      · next n e hf =>
        have hnamed : st.named p = some (n, e) := by rw [State.named, hc, hf]
        exact hact n e e _ hnamed (State.find_spec hf).1.2.1 rfl (List.Subset.refl _)
    · rfl
  · next hc =>
    split
    · split
      · rfl
      · next n e hf =>
        have hnamed : st.named p = some (n, e) := by rw [State.named, hc, hf]
        exact hact n e (e.give p.data) _ hnamed (State.find_spec hf).1.2.1 rfl (List.Subset.refl _)
    · rfl
  · rfl

theorem restrict_online (st : State) (hu : u ≠ t) (b : Bool) :
    { st with online := Function.update st.online u b }.restrict t =
      { st.restrict t with online := Function.update (st.restrict t).online u b } := by
  simp only [State.restrict, State.mk.injEq, true_and]
  exact Function.update_comm hu ..

theorem restrict_handleOffline (st : State) (hu : u ≠ t) :
    (st.handleOffline u).restrict t = (st.restrict t).handleOffline u := by
  refine (restrict_online (st.mapSocks _) hu false).trans ?_
  rw [State.restrict_mapSocks st fun n e => by split <;> rfl]
  rfl

theorem restrict_parseBanner (st : State) (hu : u ≠ t) (banner : List UInt8) (env : Env) :
    (st.parseBanner banner u env).restrict t = (st.restrict t).parseBanner banner u env := by
  simp only [State.parseBanner]
  split
  · rw [State.updateTransports, State.restrict_mapSocks _ fun n e => by split <;> rfl,
      restrict_online st hu true]
    rfl
  · exact restrict_online st hu true

theorem restrict_openService (st : State) (hu : u ≠ t) (env : Env) (service : Service) :
    (st.openService u env service).restrict t = (st.restrict t).openService u env service := by
  have hf : ∀ start, (Entry.make start none [u] none).Foreign t := by
    intro start
    simp [Entry.Foreign, Entry.owners, Entry.make, hu.symm]
  cases service with
  | fd =>
    refine (State.restrict_install st _).trans ?_
    rw [Option.filter_some_pos (by simpa using hf _)]
    rfl
  | jdwp =>
    refine (State.restrict_install st _).trans ?_
    rw [Option.filter_some_pos (by simpa using hf _)]
    rfl
  | trackJdwp =>
    refine (State.restrict_install st _).trans ?_
    rw [Option.filter_some_pos (by simpa using hf _)]
    rfl

/-- A packet of another transport does what it would do without the sockets of this one. -/
theorem restrict_handlePacket (hst : Holds Entry.Single st) (hr : Respects st (.packet u p env))
    (hu : u ≠ t) : (st.handlePacket u p env).restrict t = (st.restrict t).handlePacket u p env := by
  have hon : (st.restrict t).online u = st.online u := Function.update_of_ne hu ..
  have hforeign : ∀ n e, st.named p = some (n, e) → e.Foreign t := by
    intro n e hf
    have hn : st.socks n = some e := by
      unfold State.named at hf
      split at hf
      · exact (State.find_spec hf).1.2.1
      · exact (State.find_spec hf).1.2.1
      · exact (State.find_spec hf).1.2.1
      · cases hf
    exact (hr (n, e) hf).foreign (hst.all n e hn) hu
  unfold State.handlePacket
  split
  · split
    · exact restrict_handleOffline st hu
    · rfl
  · simp only [hon]
    split
    · rw [restrict_parseBanner _ hu, restrict_handleOffline st hu]
    · exact restrict_parseBanner st hu _ env
  · rw [hon]
    split
    · split
      · rfl
      · exact restrict_openService st hu env _
    · rfl
  · next hc =>
    simp only [State.named, hc] at hforeign
    rw [hon, State.restrict_find hforeign]
    split
    · split
      · rfl
      · next n e hf =>
        refine State.restrict_act st n ?_ _
        split
        · have he := hforeign n e hf
          exact ⟨by simpa [Entry.owners, or_assoc, hu.symm] using he.1, he.2⟩
        · exact hforeign n e hf
    · rfl
  · next hc =>
    simp only [State.named, hc] at hforeign
    rw [hon, State.restrict_find hforeign]
    split
    · split
      · rfl
      · next n e hf => exact State.restrict_act st n (hforeign n e hf) _
    · rfl
  · next hc =>
    simp only [State.named, hc] at hforeign
    rw [hon, State.restrict_find hforeign]
    split
    · split
      · rfl
      · next n e hf =>
        have he : (e.give p.data).Foreign t := hforeign n e hf
        exact State.restrict_act st n he _
    · rfl
  · rfl

end Packets

/-! ## Two runs -/

/-- What the others see of an event. -/
def seen (t : Nat) (st : State) (ev : Event) : State :=
  match step st ev with
  | none => st
  | some st' => st'.restrict t

section Events

variable {st st' : State} {t : Nat} {e : Entry} {s : Sock} {l : Step}

theorem Entry.Ok.foreign_of_smart (h : e.Ok) (hp : e.sock.peer = .smart) : e.Foreign t := by
  refine ⟨?_, (h.fresh hp).1⟩
  rw [h.owners (.inl hp)]
  exact List.not_mem_nil

/-- A socket that the others do not see stays so. -/
theorem moved_hidden (h : e.Ok) (hf : ¬ e.Foreign t) (via : Option Nat) (made : Nat) :
    ¬ (State.moved e s l via made).Foreign t := by
  have hp : e.sock.peer ≠ .smart := fun hp => hf (h.foreign_of_smart hp)
  rintro ⟨ho, ht⟩
  have ht : e.tracker = false ∧ tracks e.sock s l = false := by simpa [State.moved] using ht
  refine hf ⟨?_, ht.1⟩
  simpa [Entry.owners, State.moved, hp] using ho

theorem restrict_socket_hidden (hst : Holds Entry.Single st) {n : Nat} {via : Option Nat}
    (hn : st.socks n = some e) (hf : ¬ e.Foreign t) (hs : step st (.socket n l via) = some st') :
    st'.restrict t = st.restrict t := by
  have hok := (hst.all n e hn).ok
  have hc : connectsTo e.sock l = false := by
    by_contra hc
    exact hf (hok.foreign_of_smart (connectsTo_smart (by simpa using hc)))
  simp only [step, hn] at hs
  split at hs
  · cases hs
  · rw [hc] at hs
    cases hs
    rw [State.closePartner_of_none _ _ (hok.partner_of_not_foreign hf)]
    exact State.restrict_put_hidden hn hf (moved_hidden hok hf via st.made)

theorem restrict_socket (hst : Holds Entry.Single st) {n : Nat} {via : Option Nat}
    (hs : step st (.socket n l via) = some st') :
    st'.restrict t = seen t (st.restrict t) (.socket n l via) := by
  cases hn : st.socks n with
  | none => simp [step, hn] at hs
  | some e =>
    by_cases hf : e.Foreign t
    · have hn' := State.restrict_socks hn hf
      simp only [step, hn] at hs
      simp only [seen, step, hn']
      split at hs
      · cases hs
      · next s hl =>
        split at hs
        · next hc =>
          cases hs
          simp only [if_pos hc]
          rw [State.restrict_install, State.restrict_install, State.restrict_put, State.restrict_put,
            State.restrict_idem]
          rfl
        · next hc =>
          cases hs
          simp only [if_neg hc]
          rw [State.restrict_closePartner, State.restrict_closePartner, State.restrict_put,
            State.restrict_put, State.restrict_idem]
          rfl
    · rw [restrict_socket_hidden hst hn hf hs]
      simp [seen, step, State.restrict_socks_of_not hn hf]

/-- What the others see of an event is decided by what they see of the state. -/
theorem restrict_step (hst : Holds Entry.Single st) {ev : Event} (hr : Respects st ev)
    (hev : ∀ p env, ev ≠ .packet t p env) (hs : step st ev = some st') :
    st'.restrict t = seen t (st.restrict t) ev := by
  cases ev with
  | packet u p env =>
    have hu : u ≠ t := by
      rintro rfl
      exact hev p env rfl
    cases hs
    simp only [seen, step]
    rw [← restrict_handlePacket hst hr hu, State.restrict_idem]
  | socket n l via => exact restrict_socket hst hs
  | client =>
    cases hs
    simp only [seen, step]
    rw [State.restrict_install, State.restrict_install, State.restrict_idem]
  | forward u =>
    cases hs
    simp only [seen, step]
    rw [State.restrict_install, State.restrict_install, State.restrict_idem]

end Events

/-- A packet of the transport. -/
def isPacketOf (t : Nat) : Event → Bool
  | .packet u _ _ => u = t
  | _ => false

/-- Every packet names a socket of its own transport, and those of the transport open no stream. -/
def Confined (t : Nat) (st : State) (ev : Event) : Prop :=
  Respects st ev ∧ (isPacketOf t ev = true → ¬ Opens st ev)

instance (t : Nat) (st : State) (ev : Event) : Decidable (Confined t st ev) :=
  inferInstanceAs (Decidable (_ ∧ (_ → ¬ Opens st ev)))

theorem unwinding (t : Nat) : Lib.Unwinding step (Confined t) (isPacketOf t) (Holds Entry.Single)
    (fun st st' => st.restrict t = st'.restrict t) where
  inv := fun _ _ _ hst hok hs => hst.step Entry.Single.stable (single_keeps hok.1) hs
  symm := fun _ _ h => h.symm
  left := by
    intro st st' ev st₁ hst _ h hev hok hs
    cases ev with
    | packet u p env =>
      obtain rfl : u = t := by simpa [isPacketOf] using hev
      cases hs
      rw [restrict_packet_hidden hst hok.1 (hok.2 hev), h]
    | socket n l via => cases hev
    | client => cases hev
    | forward u => cases hev
  both := by
    intro st st' ev st₁ st₁' hst hst' h hev hok hok' hs hs'
    have hne : ∀ p env, ev ≠ .packet t p env := by
      rintro p env rfl
      simp [isPacketOf] at hev
    rw [restrict_step hst hok.1 hne hs, restrict_step hst' hok'.1 hne hs', h]

/-- A packet leaves the sockets that are not bound to its transport as they were, if it is not about
a socket of another transport; but after `A_CNXN` the device trackers are told of the devices. Runs
that differ in the packets of a transport end in the same state of the sockets that are bound to
others. -/
theorem transport_isolation (t : Nat) :
    (∀ evs st, Lib.run step .init evs = some st → ∀ p env n e, st.socks n = some e → ¬ e.Bound t →
      ¬ (p.command = .cnxn ∧ e.Tracked) → ¬ st.Strays t p n →
      (st.handlePacket t p env).socks n = some e) ∧
    ∀ evs evs' st st', Lib.run step .init evs = some st → Lib.run step .init evs' = some st' →
      Lib.RunOk step (Confined t) .init evs → Lib.RunOk step (Confined t) .init evs' →
      evs.filter (!isPacketOf t ·) = evs'.filter (!isPacketOf t ·) →
      ∀ u n e, u ≠ t → e.Bound u → (st.socks n = some e ↔ st'.socks n = some e) := by
  refine ⟨fun evs st hrun p env n e hn hb ht hs => handlePacket_frame (run_ok hrun) hn hb ht hs, ?_⟩
  intro evs evs' st st' hrun hrun' hok hok' hf u n e hu hb
  have hinit := init_holds Entry.Single
  have hagree := (unwinding t).run_agree hinit hinit rfl hok hok' hf hrun hrun'
  have hst := Lib.run_invariant (unwinding t).inv hinit hok hrun
  have hst' := Lib.run_invariant (unwinding t).inv hinit hok' hrun'
  constructor
  · intro hn
    have hr := State.restrict_socks hn (hb.foreign (hst.all n e hn) hu)
    rw [hagree] at hr
    exact (Option.filter_eq_some_iff.mp hr).1
  · intro hn
    have hr := State.restrict_socks hn (hb.foreign (hst'.all n e hn) hu)
    rw [← hagree] at hr
    exact (Option.filter_eq_some_iff.mp hr).1

/-- A service is found, and every write takes all of a packet. -/
def answering : Env := ⟨some .fd, fun _ => [.wrote 4096], [], text "000ce1\tdevice\n"⟩

/-- Transport 2 opens a stream. A connection is forwarded to transport 1, and there the stream is
opened and written to. -/
def withTraffic : List Event :=
  [.packet 2 ⟨.cnxn, 0, 0, text "device::"⟩ answering,
    .packet 2 ⟨.openStream, 7, 0, text "tcp:80"⟩ answering,
    .packet 1 ⟨.cnxn, 0, 0, text "device::"⟩ answering, .forward 1,
    .packet 1 ⟨.okay, 7, 2, []⟩ answering, .packet 1 ⟨.wrte, 7, 2, [3]⟩ answering]

def withoutTraffic : List Event := withTraffic.filter (!isPacketOf 1 ·)

theorem transport_isolation_forward :
    ∃ st st', Lib.run step .init withTraffic = some st ∧ Lib.run step .init withoutTraffic = some st' ∧
      (st.handlePacket 1 ⟨.clse, 7, 2, []⟩ answering).socks 0 = some (.make .service none [2] none) ∧
      (st.socks 0 = some (.make .service none [2] none) ↔
        st'.socks 0 = some (.make .service none [2] none)) := by
  have h : (Lib.run step .init withTraffic).any (fun st =>
      decide (st.socks 0 = some (.make .service none [2] none)) &&
        !decide (st.Strays 1 ⟨.clse, 7, 2, []⟩ 0)) = true := by decide +kernel
  have h' : (Lib.run step .init withoutTraffic).isSome = true := by decide +kernel
  obtain ⟨st, hst, hs⟩ := (Option.any_eq_true ..).mp h
  obtain ⟨st', hst'⟩ := Option.isSome_iff_exists.mp h'
  simp only [Bool.and_eq_true, decide_eq_true_eq, Bool.not_eq_true', decide_eq_false_iff_not] at hs
  refine ⟨st, st', hst, hst', ?_, ?_⟩
  · exact (transport_isolation 1).1 withTraffic st hst _ _ 0 _ hs.1 (by decide) (by decide) hs.2
  · exact (transport_isolation 1).2 withTraffic withoutTraffic st st' hst hst' (by decide +kernel)
      (by decide +kernel) (by simp [withoutTraffic]) 2 0 _ (by decide) (by decide)

/-- A client that tracks the devices is told of a device that connects; and the ids of the sockets
depend on the streams of all transports. -/
theorem transports_not_isolated :
    (¬ ∀ t evs st, Lib.run step .init evs = some st → ∀ p env n e, st.socks n = some e →
      ¬ e.Bound t → (st.handlePacket t p env).socks n = some e) ∧
    ¬ ∀ t evs evs' st st', Lib.run step .init evs = some st → Lib.run step .init evs' = some st' →
      evs.filter (!isPacketOf t ·) = evs'.filter (!isPacketOf t ·) →
      ∀ u n e, u ≠ t → e.Bound u → (st.socks n = some e ↔ st'.socks n = some e) := by
  constructor
  · intro h
    have hbad : (Lib.run step .init
        [.client, .socket 0 (.select true false) none,
          .socket 0 (.dispatch [] [.got (text "0012host:track-devices")]
            (.connects (some (text "0000", [.wrote 4])))) none]).any (fun st =>
        (st.socks 0).any fun e => !decide (e.Bound 1) &&
          decide ((st.handlePacket 1 ⟨.cnxn, 0, 0, text "device::"⟩ answering).socks 0 ≠ some e))
        = true := by
      decide +kernel
    obtain ⟨st, hst, hs⟩ := (Option.any_eq_true ..).mp hbad
    obtain ⟨e, hn, he⟩ := (Option.any_eq_true ..).mp hs
    rw [Bool.and_eq_true, Bool.not_eq_true', decide_eq_true_eq, decide_eq_false_iff_not] at he
    exact he.2 (h 1 _ st hst _ _ 0 e hn he.1)
  · intro h
    have hone : (Lib.run step .init
        [.packet 2 ⟨.cnxn, 0, 0, text "device::"⟩ answering,
          .packet 2 ⟨.openStream, 7, 0, text "tcp:80"⟩ answering]).any (fun st =>
        decide (st.socks 0 = some (.make .service none [2] none))) = true := by
      decide +kernel
    have htwo : (Lib.run step .init
        [.packet 1 ⟨.cnxn, 0, 0, text "device::"⟩ answering,
          .packet 1 ⟨.openStream, 7, 0, text "tcp:80"⟩ answering,
          .packet 2 ⟨.cnxn, 0, 0, text "device::"⟩ answering,
          .packet 2 ⟨.openStream, 7, 0, text "tcp:80"⟩ answering]).any (fun st =>
        decide (st.socks 0 ≠ some (.make .service none [2] none))) = true := by
      decide +kernel
    obtain ⟨st, hst, hs⟩ := (Option.any_eq_true ..).mp hone
    obtain ⟨st', hst', hs'⟩ := (Option.any_eq_true ..).mp htwo
    have hiff := h 1 _ _ st st' hst hst' rfl 2 0 (.make .service none [2] none) (by decide)
      (by decide)
    exact (of_decide_eq_true hs') (hiff.mp (of_decide_eq_true hs))

end Twm.Adb.SocketTable
