import DeviceTwm.Adb.IoPump
import DeviceTwm.Adb.SocketOffline

/-!
# `A_SYNC` from the remote side

`A_SYNC` is for the threads of a transport only, and a packet with an unknown command must end the
connection (`Internal`). `handle_packet` does not ask where a packet comes from: an `A_SYNC` of the
remote side is handled as one of the output thread, and an unknown command is printed.

* `greeted`: an `A_CNXN` was handled since the transport last went offline, by the packets alone; the
  connection state says the same in every run (`Inv`).
* `Harmless`: what a step may do with a packet of the remote side. `internal_iff_harmless`: that is
  exactly when the step does what is promised.
* `internal_iff`: the same of all runs; and a remote side that uses its five commands is harmless.
-/

open Lib

namespace Twm.Adb.IoPump

open SocketTable (Packet Command State Env)

/-! ## What is promised -/

/-- An `A_SYNC`, or not one of the six commands. -/
def Bad (p : Packet) : Prop := p.command = .sync ∨ p.command = .unknown

instance (p : Packet) : Decidable (Bad p) := inferInstanceAs (Decidable (_ ∨ _))

/-- The sockets, and the connection state and the input thread of the transport, are as they were. -/
structure Untouched (t : Nat) (w w' : World) : Prop where
  socks : w'.table.socks = w.table.socks
  online : w'.table.online t = w.table.online t
  active : (w'.pump t).active = (w.pump t).active
  inputExited : (w'.pump t).inputExited = (w.pump t).inputExited

/-- After a packet, whether an `A_CNXN` came since the transport was last offline. -/
def greet (t : Nat) (greeted : Bool) (x : Nat × Msg) : Bool :=
  if x.1 ≠ t then greeted
  else if x.2.packet.command = .cnxn then true
  else if x.2.packet.command = .sync ∧ x.2.packet.arg0 = 0 then false
  else greeted

def greeted (t : Nat) (handled : List (Nat × Msg)) : Bool := handled.foldl (greet t) false

/-- What the step does with a packet of the remote side. If it must not come from there, it changes
nothing, on its way through either thread, and the connection is closed when it was handled. Before an
`A_CNXN`, none changes a socket. -/
def Internal (cfg : Config) (w : World) (l : Event) : Prop :=
  ∀ w', step cfg w l = some w' →
    match l with
    | .handle t _ => ∀ m ∈ (w.pump t).toMain.head?, m.origin = .remote →
      (Bad m.packet → Untouched t w w' ∧ (w'.pump t).kicked = true) ∧
      (m.packet.command ≠ .cnxn → greeted t w.handled = false → w'.table.socks = w.table.socks)
    | .input t => ∀ m ∈ (w.pump t).toInput.head?, m.origin = .remote → Untouched t w w'
    | _ => True

/-- A packet that must not come from the remote side is handled only when the connection was closed
before, and an `A_SYNC(0, ..)` when there is nothing to put offline; and the input thread takes an
`A_SYNC` only if it does not make it exit, or active. -/
def Harmless (w : World) : Event → Prop
  | .handle t _ => ∀ m ∈ (w.pump t).toMain.head?, m.origin = .remote → Bad m.packet →
      (w.pump t).kicked = true ∧ (m.packet.command = .sync → m.packet.arg0 = 0 →
        w.table.online t = false ∧ ∀ n e, w.table.socks n = some e → ¬ e.Streams t)
  | .input t => ∀ m ∈ (w.pump t).toInput.head?, m.origin = .remote → m.packet.command = .sync →
      (w.pump t).inputExited = false →
        m.packet.arg0 ≠ 0 ∧ (m.packet.arg1 = (w.pump t).syncToken.toNat → (w.pump t).active = true)
  | _ => True

/-! ## The connection state -/

variable {st st' : State} {t : Nat} {p : Packet} {env : Env} {w w' : World} {cfg : Config} {l : Event}

theorem closePartner_online (st : State) (e : SocketTable.Entry) (s : LocalSocket.Sock) :
    (st.closePartner e s).online = st.online := by
  unfold State.closePartner
  split
  · split
    · rfl
    · rfl
  · rfl

theorem act_online (st : State) (n : Nat) (e : SocketTable.Entry) (s : LocalSocket.Sock) :
    (st.act n e s).online = st.online := closePartner_online ..

theorem parseBanner_online (st : State) (banner : List UInt8) (t : Nat) (env : Env) :
    (st.parseBanner banner t env).online = Function.update st.online t true := by
  unfold State.parseBanner
  dsimp only
  split
  · rfl
  · rfl

theorem openService_online (st : State) (t : Nat) (env : Env) (service : SocketTable.Service) :
    (st.openService t env service).online = st.online := by
  cases service <;> rfl

theorem handlePacket_sync (hc : p.command = .sync) :
    st.handlePacket t p env = if p.arg0 = 0 then st.handleOffline t else st := by
  rw [State.handlePacket, hc]

theorem handlePacket_unknown (hc : p.command = .unknown) : st.handlePacket t p env = st := by
  rw [State.handlePacket, hc]

theorem handlePacket_cnxn_online (hc : p.command = .cnxn) :
    (st.handlePacket t p env).online = Function.update st.online t true := by
  rw [State.handlePacket, hc]
  dsimp only
  rw [parseBanner_online]
  split
  · exact Function.update_idem ..
  · rfl

/-- The other commands are for a transport that is online, and leave it so. -/
theorem handlePacket_stream (hs : p.command ≠ .sync) (hc : p.command ≠ .cnxn) :
    (st.handlePacket t p env).online = st.online ∧
      (st.online t = false → st.handlePacket t p env = st) := by
  unfold State.handlePacket
  by_cases hon : st.online t = true
  · refine ⟨?_, fun h => absurd hon (by rw [h]; decide)⟩
    simp only [if_pos hon]
    cases hp : p.command with
    | sync => exact absurd hp hs
    | cnxn => exact absurd hp hc
    | openStream =>
      dsimp only
      split
      · rfl
      · exact openService_online ..
    | okay | clse | wrte =>
      dsimp only
      split
      · rfl
      · exact act_online ..
    | unknown => rfl
  · simp only [if_neg hon]
    cases hp : p.command with
    | sync => exact absurd hp hs
    | cnxn => exact absurd hp hc
    | openStream | okay | clse | wrte | unknown => exact ⟨rfl, fun _ => rfl⟩

/-- `A_CNXN` and `A_SYNC(0, ..)` set the connection state of their transport. -/
theorem handlePacket_online (st : State) (t : Nat) (m : Msg) (env : Env) (u : Nat) :
    (st.handlePacket t m.packet env).online u = greet u (st.online u) (t, m) := by
  unfold greet
  by_cases hc : m.packet.command = .cnxn
  · rw [handlePacket_cnxn_online hc, Function.update_apply]
    by_cases hu : t = u
    · rw [if_pos hu.symm, if_neg (not_not_intro hu), if_pos hc]
    · rw [if_neg (Ne.symm hu), if_pos hu]
  by_cases hs : m.packet.command = .sync ∧ m.packet.arg0 = 0
  · rw [handlePacket_sync hs.1, if_pos hs.2]
    change Function.update st.online t false u = _
    rw [Function.update_apply]
    by_cases hu : t = u
    · rw [if_pos hu.symm, if_neg (not_not_intro hu), if_neg hc, if_pos hs]
    · rw [if_neg (Ne.symm hu), if_pos hu]
  · have hon : (st.handlePacket t m.packet env).online = st.online := by
      by_cases hsync : m.packet.command = .sync
      · rw [handlePacket_sync hsync, if_neg fun h0 => hs ⟨hsync, h0⟩]
      · exact (handlePacket_stream hsync hc).1
    rw [hon, if_neg hc, if_neg hs, ite_self]

/-- What happens to the sockets otherwise sets no connection state. -/
theorem socketStep_online {n : Nat} {s : LocalSocket.Step} {via : Option Nat}
    (h : SocketTable.step st (.socket n s via) = some st') : st'.online = st.online := by
  unfold SocketTable.step at h
  dsimp only at h
  split at h
  · cases h
  · split at h
    · cases h
    · split at h
      · cases h
        rfl
      · cases h
        exact closePartner_online ..

theorem closeAllSockets_online (st : State) (t : Nat) :
    (closeAllSockets st t).online = st.online := by
  unfold closeAllSockets
  refine List.foldlRecOn (motive := fun st' : State => st'.online = st.online) _ _ rfl ?_
  intro st' ih n _
  split
  · exact ih
  · split
    · next e _ _ =>
      cases hstep : SocketTable.step st' (.socket n .closeAll e.smart) with
      | none => exact ih
      | some st'' => exact (socketStep_online hstep).trans ih
    · exact ih

/-- The connection states are what the packets say. -/
def Inv (w : World) : Prop := ∀ t, w.table.online t = greeted t w.handled

theorem inv_init : Inv World.init := fun _ => rfl

theorem Inv.of_eq (h : Inv w) (hon : w'.table.online = w.table.online) (hh : w'.handled = w.handled) :
    Inv w' := by
  intro t
  rw [hon, hh]
  exact h t

theorem step_inv (h : Inv w) (hs : step cfg w l = some w') : Inv w' := by
  unfold step at hs
  cases l with
  | handle t env =>
    dsimp only at hs
    split at hs
    · cases hs
    · next m rest hm =>
      cases hs
      intro u
      show (w.table.handlePacket t m.packet env).online u = greeted u (w.handled ++ [(t, m)])
      rw [handlePacket_online, h u, greeted, greeted, List.foldl_append]
      rfl
  | input t =>
    dsimp only at hs
    split at hs
    · cases hs
    · split at hs
      · cases hs
      · split at hs
        · cases hs
          exact h.of_eq (closeAllSockets_online ..) rfl
        · cases hs
          exact h.of_eq rfl rfl
  | inputFails t =>
    dsimp only at hs
    split at hs
    · cases hs
    · cases hs
      exact h.of_eq (closeAllSockets_online ..) rfl
  | start t ok | receive t r ok | readFails t ok =>
    dsimp only at hs
    split at hs
    · cases hs
      exact h.of_eq rfl rfl
    · cases hs
  | kick t =>
    cases hs
    exact h.of_eq rfl rfl
  | send t p hp =>
    cases hs
    exact h.of_eq rfl rfl
  | socket n s via =>
    obtain ⟨st, hst, rfl⟩ := Option.map_eq_some_iff.mp hs
    exact h.of_eq (socketStep_online hst) rfl
  | client | forward t =>
    cases hs
    exact h.of_eq rfl rfl

/-! ## One step -/

/-- To put a transport offline changes the sockets that stream to it. -/
theorem handleOffline_socks_eq_iff :
    (st.handleOffline t).socks = st.socks ↔ ∀ n e, st.socks n = some e → ¬ e.Streams t := by
  constructor
  · intro h n e he hs
    have hn := congrFun h n
    rw [SocketTable.handleOffline_socks, he, Option.map_some, if_pos hs] at hn
    have hpeer : e.sock.peerCloses.peer = .none := by
      rcases (LocalSocket.Sock.close_calm { e.sock with peer := .none }).peer with hp | hp <;> exact hp
    have hsock : e.sock.peerCloses = e.sock := congrArg SocketTable.Entry.sock (Option.some.inj hn)
    rw [hsock, hs.1] at hpeer
    cases hpeer
  · intro h
    funext n
    rw [SocketTable.handleOffline_socks]
    cases he : st.socks n with
    | none => rfl
    | some e => rw [Option.map_some, if_neg (h n e he)]

/-- The world after the main thread has handled the packet `m`. -/
theorem step_handle {m : Msg} {rest : List Msg} (hm : (w.pump t).toMain = m :: rest)
    (hs : step cfg w (.handle t env) = some w') :
    w'.table = w.table.handlePacket t m.packet env ∧ (w'.pump t).active = (w.pump t).active ∧
      (w'.pump t).inputExited = (w.pump t).inputExited ∧
      (w'.pump t).kicked = (w.pump t).kicked := by
  unfold step at hs
  dsimp only at hs
  rw [hm] at hs
  cases hs
  dsimp only
  rw [Function.update_self]
  exact ⟨rfl, rfl, rfl, rfl⟩

/-- What the main thread does with a packet that must not come from the remote side. -/
theorem untouched_handle_iff {m : Msg} (hbad : Bad m.packet)
    (htable : w'.table = w.table.handlePacket t m.packet env)
    (hactive : (w'.pump t).active = (w.pump t).active)
    (hexited : (w'.pump t).inputExited = (w.pump t).inputExited) :
    Untouched t w w' ↔ (m.packet.command = .sync → m.packet.arg0 = 0 →
      w.table.online t = false ∧ ∀ n e, w.table.socks n = some e → ¬ e.Streams t) := by
  by_cases hoff : m.packet.command = .sync ∧ m.packet.arg0 = 0
  · rw [handlePacket_sync hoff.1, if_pos hoff.2] at htable
    have hself : (w.table.handleOffline t).online t = false := Function.update_self ..
    constructor
    · intro h _ _
      have honline := h.online
      have hsocks := h.socks
      rw [htable, hself] at honline
      rw [htable, handleOffline_socks_eq_iff] at hsocks
      exact ⟨honline.symm, hsocks⟩
    · intro h
      obtain ⟨hon, hstreams⟩ := h hoff.1 hoff.2
      refine ⟨?_, ?_, hactive, hexited⟩
      · rw [htable, handleOffline_socks_eq_iff]
        exact hstreams
      · rw [htable, hself, hon]
  · have hsame : w'.table = w.table := by
      rw [htable]
      rcases hbad with hs | hu
      · rw [handlePacket_sync hs, if_neg fun h0 => hoff ⟨hs, h0⟩]
      · exact handlePacket_unknown hu
    refine iff_of_true ⟨?_, ?_, hactive, hexited⟩ fun hs h0 => absurd ⟨hs, h0⟩ hoff
    · rw [hsame]
    · rw [hsame]

/-- What the input thread does with an `A_SYNC` that does not make it exit. -/
theorem take_active_iff {u : Pump} {m : Msg} :
    (u.take m).active = u.active ↔
      (m.packet.command = .sync → m.packet.arg1 = u.syncToken.toNat → u.active = true) := by
  unfold Pump.take
  by_cases hs : m.packet.command = .sync
  · rw [if_pos hs]
    by_cases ht : m.packet.arg1 = u.syncToken.toNat
    · rw [if_pos ht]
      exact ⟨fun h _ _ => h.symm, fun h => (h hs ht).symm⟩
    · rw [if_neg ht]
      exact iff_of_true rfl fun _ h => absurd h ht
  · rw [if_neg hs]
    refine iff_of_true ?_ fun h => absurd h hs
    split
    · rfl
    · rfl

theorem take_inputExited (u : Pump) (m : Msg) : (u.take m).inputExited = u.inputExited := by
  unfold Pump.take
  split
  · split
    · rfl
    · rfl
  · split
    · rfl
    · rfl

theorem internal_handle_iff (h : Inv w) (t : Nat) (env : Env) :
    Internal cfg w (.handle t env) ↔ Harmless w (.handle t env) := by
  unfold Internal Harmless
  dsimp only
  cases hm : (w.pump t).toMain with
  | nil => exact iff_of_true (fun w' _ m hm' => nomatch hm') fun m hm' => nomatch hm'
  | cons m rest =>
    obtain ⟨w', hs⟩ : ∃ w', step cfg w (.handle t env) = some w' := by
      unfold step
      dsimp only
      rw [hm]
      exact ⟨_, rfl⟩
    obtain ⟨htable, hactive, hexited, hkicked⟩ := step_handle hm hs
    constructor
    · intro hint m' hm' hremote hbad
      cases hm'
      obtain ⟨hun, hk⟩ := (hint w' hs m rfl hremote).1 hbad
      exact ⟨hkicked ▸ hk, (untouched_handle_iff hbad htable hactive hexited).mp hun⟩
    · intro hharm w'' hs'' m' hm' hremote
      cases hm'
      cases hs.symm.trans hs''
      have hun (hbad : Bad m.packet) : Untouched t w w' :=
        (untouched_handle_iff hbad htable hactive hexited).mpr (hharm m rfl hremote hbad).2
      refine ⟨fun hbad => ⟨hun hbad, ?_⟩, fun hc hg => ?_⟩
      · rw [hkicked]
        exact (hharm m rfl hremote hbad).1
      · by_cases hbad : Bad m.packet
        · exact (hun hbad).socks
        · rw [htable, (handlePacket_stream (fun hs => hbad (.inl hs)) hc).2 ((h t).trans hg)]

theorem internal_input_iff (w : World) (t : Nat) :
    Internal cfg w (.input t) ↔ Harmless w (.input t) := by
  unfold Internal Harmless
  dsimp only
  cases hm : (w.pump t).toInput with
  | nil => exact iff_of_true (fun w' _ m hm' => nomatch hm') fun m hm' => nomatch hm'
  | cons m rest =>
    by_cases hexited : (w.pump t).inputExited = true
    · have hnone : step cfg w (.input t) = none := by
        unfold step
        dsimp only
        rw [hm]
        exact if_pos hexited
      refine iff_of_true (fun w' hs => nomatch hnone.symm.trans hs) fun m' hm' _ _ hno => ?_
      rw [hexited] at hno
      cases hno
    have hrunning : (w.pump t).inputExited = false := Bool.eq_false_iff.mpr hexited
    by_cases hoff : m.packet.command = .sync ∧ m.packet.arg0 = 0
    · -- The thread exits.
      have hs : step cfg w (.input t) = some (w.inputExits t { w.pump t with toInput := rest }) := by
        unfold step
        dsimp only
        rw [hm]
        exact (if_neg hexited).trans (if_pos hoff)
      have hgone : ((w.inputExits t { w.pump t with toInput := rest }).pump t).inputExited = true := by
        unfold World.inputExits World.setPump
        dsimp only
        rw [Function.update_self]
      constructor
      · intro hint m' hm' hremote _ _
        cases hm'
        have h := (hint _ hs m rfl hremote).inputExited
        rw [hgone] at h
        exact absurd h.symm hexited
      · intro hharm w' hs' m' hm' hremote
        cases hm'
        exact absurd hoff.2 (hharm m rfl hremote hoff.1 hrunning).1
    · have hs : step cfg w (.input t) =
          some (w.setPump t (Pump.take { w.pump t with toInput := rest } m)) := by
        unfold step
        dsimp only
        rw [hm]
        exact (if_neg hexited).trans (if_neg hoff)
      have hpump : (w.setPump t (Pump.take { w.pump t with toInput := rest } m)).pump t =
          Pump.take { w.pump t with toInput := rest } m := Function.update_self ..
      have htake := take_active_iff (u := { w.pump t with toInput := rest }) (m := m)
      constructor
      · intro hint m' hm' hremote hsync _
        cases hm'
        have h := (hint _ hs m rfl hremote).active
        rw [hpump] at h
        exact ⟨fun h0 => hoff ⟨hsync, h0⟩, htake.mp h hsync⟩
      · intro hharm w' hs' m' hm' hremote
        cases hm'
        cases hs.symm.trans hs'
        refine ⟨rfl, rfl, ?_, ?_⟩
        · rw [hpump]
          exact htake.mpr fun hsync => (hharm m rfl hremote hsync hrunning).2
        · rw [hpump]
          exact take_inputExited ..

/-- **One step** does what is promised exactly when it is harmless. -/
theorem internal_iff_harmless (h : Inv w) (l : Event) : Internal cfg w l ↔ Harmless w l := by
  cases l with
  | handle t env => exact internal_handle_iff h t env
  | input t => exact internal_input_iff w t
  | start | receive | readFails | inputFails | kick | send | socket | client | forward =>
    exact iff_of_true (fun _ _ => trivial) trivial

/-! ## Where packets come from -/

/-- No packet in a socket pair came from the remote side that must not. -/
def Clean (pump : Nat → Pump) : Prop :=
  ∀ t m, m ∈ (pump t).toMain ∨ m ∈ (pump t).toInput → m.origin = .remote → ¬ Bad m.packet

/-- What is received has one of the commands `A_CNXN`, `A_OPEN`, `A_OKAY`, `A_CLSE` and `A_WRTE`. -/
def Valid : Event → Prop
  | .receive _ r _ => ¬ Bad r.toPacket
  | _ => True

variable {pump : Nat → Pump}

/-- A new packet in a socket pair comes from another one, or may be there. -/
theorem Clean.update (h : Clean pump) {u : Pump}
    (hmain : ∀ m ∈ u.toMain, m ∈ (pump t).toMain ∨ (m.origin = .remote → ¬ Bad m.packet))
    (hinput : ∀ m ∈ u.toInput, m ∈ (pump t).toMain ∨ m ∈ (pump t).toInput ∨
      (m.origin = .remote → ¬ Bad m.packet)) : Clean (Function.update pump t u) := by
  intro v m hm
  by_cases hv : v = t
  · subst hv
    rw [Function.update_self] at hm
    rcases hm with hm | hm
    · rcases hmain m hm with hm | hm
      · exact h v m (.inl hm)
      · exact hm
    · rcases hinput m hm with hm | hm | hm
      · exact h v m (.inl hm)
      · exact h v m (.inr hm)
      · exact hm
  · rw [Function.update_of_ne hv] at hm
    exact h v m hm

theorem mem_write {u : Pump} {ok : Bool} {m m' : Msg} (h : m' ∈ (u.write ok m).toMain) :
    m' ∈ u.toMain ∨ m' = m := by
  unfold Pump.write at h
  split at h
  · rcases List.mem_append.mp h with h | h
    · exact .inl h
    · exact .inr (List.mem_singleton.mp h)
  · exact .inl h

theorem write_toInput (u : Pump) (ok : Bool) (m : Msg) : (u.write ok m).toInput = u.toInput := by
  unfold Pump.write
  split
  · rfl
  · rfl

/-- The output thread writes a packet that may be there. -/
theorem Clean.write (h : Clean pump) {u u' : Pump} {ok : Bool} {m : Msg}
    (hm : m.origin = .remote → ¬ Bad m.packet) (hmain : u.toMain = (pump t).toMain)
    (hinput : u.toInput = (pump t).toInput) (hmain' : u'.toMain = (u.write ok m).toMain)
    (hinput' : u'.toInput = (u.write ok m).toInput) : Clean (Function.update pump t u') := by
  refine h.update (fun m' hm' => ?_) fun m' hm' => ?_
  · rw [hmain'] at hm'
    rcases mem_write hm' with hm' | rfl
    · exact .inl (hmain ▸ hm')
    · exact .inr hm
  · rw [hinput', write_toInput, hinput] at hm'
    exact .inr (.inl hm')

/-- What `handle_packet` sends is what it was given, or its own. -/
theorem mem_answers {m m' : Msg} (h : m' ∈ answers cfg m) : m' = m ∨ m'.origin = .mainThread := by
  unfold answers at h
  split at h
  · rcases List.mem_cons.mp h with h | h
    · exact .inl h
    · split at h
      · rw [List.mem_singleton.mp h]
        exact .inr rfl
      · cases h
  · split at h
    · cases h
    · rw [List.mem_singleton.mp h]
      exact .inr rfl
  · cases h

theorem take_queues (u : Pump) (m : Msg) :
    (u.take m).toMain = u.toMain ∧ (u.take m).toInput = u.toInput := by
  unfold Pump.take
  split
  · split
    · exact ⟨rfl, rfl⟩
    · exact ⟨rfl, rfl⟩
  · split
    · exact ⟨rfl, rfl⟩
    · exact ⟨rfl, rfl⟩

theorem step_clean (h : Clean w.pump) (hl : Valid l) (hs : step cfg w l = some w') :
    Clean w'.pump := by
  have hkeep {t : Nat} {u : Pump} (hmain : ∀ m ∈ u.toMain, m ∈ (w.pump t).toMain)
      (hinput : ∀ m ∈ u.toInput, m ∈ (w.pump t).toInput) : Clean (Function.update w.pump t u) :=
    h.update (fun m hm => .inl (hmain m hm)) fun m hm => .inr (.inl (hinput m hm))
  unfold step at hs
  cases l with
  | start t ok =>
    dsimp only at hs
    split at hs
    · cases hs
      exact h.write (u := { w.pump t with output := .pumping, syncToken := (w.pump t).syncToken + 1 })
        (m := .sync 1 ((w.pump t).syncToken + 1).toNat) nofun rfl rfl rfl rfl
    · cases hs
  | receive t r ok =>
    dsimp only at hs
    split at hs
    · cases hs
      exact h.write (u := w.pump t) (m := ⟨.remote, r.toPacket⟩) (fun _ => hl) rfl rfl rfl rfl
    · cases hs
  | readFails t ok =>
    dsimp only at hs
    split at hs
    · cases hs
      exact h.write (u := w.pump t) (m := .sync 0 0) nofun rfl rfl rfl rfl
    · cases hs
  | handle t env =>
    dsimp only at hs
    split at hs
    · cases hs
    · next m rest hm =>
      cases hs
      refine h.update (fun m' hm' => .inl ?_) fun m' hm' => ?_
      · rw [hm]
        exact List.mem_cons_of_mem _ hm'
      · rcases List.mem_append.mp hm' with hm' | hm'
        · exact .inr (.inl hm')
        · rcases mem_answers hm' with rfl | horigin
          · rw [hm]
            exact .inl List.mem_cons_self
          · exact .inr (.inr fun hremote => nomatch horigin.symm.trans hremote)
  | input t =>
    dsimp only at hs
    split at hs
    · cases hs
    · next m rest hm =>
      have hrest : ∀ m' ∈ rest, m' ∈ (w.pump t).toInput := fun m' hm' => by
        rw [hm]
        exact List.mem_cons_of_mem _ hm'
      split at hs
      · cases hs
      · split at hs
        · cases hs
          exact hkeep (fun _ => id) hrest
        · cases hs
          obtain ⟨hmain, hinput⟩ := take_queues { w.pump t with toInput := rest } m
          refine hkeep (fun m' hm' => ?_) fun m' hm' => ?_
          · rwa [hmain] at hm'
          · rw [hinput] at hm'
            exact hrest m' hm'
  | inputFails t =>
    dsimp only at hs
    split at hs
    · cases hs
    · cases hs
      exact hkeep (fun _ => id) fun _ => id
  | kick t =>
    cases hs
    exact hkeep (fun _ => id) fun _ => id
  | send t p hp =>
    cases hs
    refine h.update (fun m hm => .inl hm) fun m hm => ?_
    rcases List.mem_append.mp hm with hm | hm
    · exact .inr (.inl hm)
    · rw [List.mem_singleton.mp hm]
      exact .inr (.inr nofun)
  | socket n s via =>
    obtain ⟨st, -, rfl⟩ := Option.map_eq_some_iff.mp hs
    exact h
  | client | forward t =>
    cases hs
    exact h

theorem clean_init : Clean World.init.pump := by
  rintro t m (hm | hm)
  · cases hm
  · cases hm

theorem Clean.harmless (h : Clean w.pump) (l : Event) : Harmless w l := by
  cases l with
  | handle t env =>
    intro m hm hremote hbad
    exact absurd hbad (h t m (.inl (List.mem_of_mem_head? hm)) hremote)
  | input t =>
    intro m hm hremote hsync
    exact absurd (.inl hsync) (h t m (.inr (List.mem_of_mem_head? hm)) hremote)
  | start | receive | readFails | inputFails | kick | send | socket | client | forward => trivial

/-- **`A_SYNC` stays internal** in a run, if and only if every step is harmless; and so it is when the
remote side sends the five other commands only. -/
theorem internal_iff (cfg : Config) (ls : List Event) :
    (RunOk (step cfg) (Internal cfg) World.init ls ↔ RunOk (step cfg) Harmless World.init ls) ∧
      ((∀ l ∈ ls, Valid l) → RunOk (step cfg) (Internal cfg) World.init ls) := by
  have hinv {ok : World → Event → Prop} (w : World) (l : Event) (w' : World) (h : Inv w) (_ : ok w l)
      (hs : step cfg w l = some w') : Inv w' := step_inv h hs
  have hiff :
      RunOk (step cfg) (Internal cfg) World.init ls ↔ RunOk (step cfg) Harmless World.init ls :=
    ⟨RunOk.imp_of_invariant hinv (fun w l h => (internal_iff_harmless h l).mp) inv_init,
      RunOk.imp_of_invariant hinv (fun w l h => (internal_iff_harmless h l).mpr) inv_init⟩
  refine ⟨hiff, fun hvalid => hiff.mpr ?_⟩
  have hok : RunOk (step cfg) (fun _ => Valid) World.init ls :=
    runOk_of_mem (fun l hl _ => hvalid l hl) _
  exact hok.imp_of_invariant (I := fun w => Clean w.pump) (fun w l w' h hl hs => step_clean h hl hs)
    (fun w l h _ => h.harmless l) clean_init

/-! ## A packet with an undefined command -/

/-- A packet without data that passes both checks. -/
def bare (command arg0 : UInt32) : Received where
  packet :=
    { msg := ⟨command, arg0, 0, 0, 0, command ^^^ 0xffffffff⟩
      data := List.replicate maxPayload 0
      size := List.length_replicate }
  header := by
    unfold Wire.Packet.checkHeader
    dsimp only
    rw [if_neg (not_not_intro rfl)]
    rfl
  data := rfl

/-- The output thread starts, and receives a packet; the main thread handles its `A_SYNC`, then the
packet. -/
def receives (r : Received) (env : Env) : List Event :=
  [.start 0 true, .receive 0 r true, .handle 0 env, .handle 0 env]

theorem not_internal {r : Received} (hbad : Bad r.toPacket) (env : Env) :
    ¬ RunOk (step cfg) (Internal cfg) World.init (receives r env) := by
  intro hok
  have hlast := hok.2.2.2.1
  have hkicked := ((hlast _ rfl _ rfl rfl).1 hbad).2
  cases hkicked

/-- The side of the host. -/
def hostConfig : Config := ⟨true, SocketTable.text "device"⟩

/-- An undefined command does not close the connection, and neither does an `A_SYNC`. -/
theorem bare_not_internal :
    ¬ RunOk (step hostConfig) (Internal hostConfig) World.init
      (receives (bare 0 0) SocketTable.idle) ∧
    ¬ RunOk (step hostConfig) (Internal hostConfig) World.init
      (receives (bare 0x434e5953 0) SocketTable.idle) :=
  ⟨not_internal (.inr rfl) _, not_internal (.inl rfl) _⟩

end Twm.Adb.IoPump
