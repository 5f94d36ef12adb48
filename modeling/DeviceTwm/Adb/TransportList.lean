import DeviceTwm.Adb.Transport

/-!
# The list of transports

`transport_list` is changed in five places: a registration puts a transport at the end, and a removal,
`unregister_transport`, `unregister_all_tcp_transports` and `unregister_usb_transport` take one off.
To take a transport off is to make its neighbours point to each other; its own pointers stay. A
transport that was unregistered is taken off once more, by the message that frees it, and by then its
neighbours may have gone.

`Listed` keeps next to the state which transports are registered and not yet unregistered or removed.
`Intact` says that these are the list. It holds along every run in which each transport that is taken
off is on the list, or has neighbours that are not freed and have not changed since, or are both off
the list (`list_intact`). When one of its neighbours has been removed in the meantime, that one is
freed, is written to, and is back on the list (`freed_is_listed`).
-/

open Lib

namespace Twm.Adb

open Transports

/-- The transports, and those that are registered and not yet unregistered or removed. -/
structure Listed where
  s : Transports
  members : List Nat

namespace Listed

def init : Listed := ⟨Transports.init, []⟩

/-- The transports that are registered after a step. -/
def after (x : Listed) : TStep → List Nat
  | .handle =>
    match x.s.queue with
    | .register t :: _ => x.members ++ [t]
    | .remove t :: _ => x.members.erase t
    | [] => x.members
  | .unregister t => x.members.erase t
  | .unregisterAll _ => x.members.filter fun t => !(x.s.tr t).tcp
  | .unregisterUsb t => x.members.erase t
  | _ => x.members

def step (x : Listed) (l : TStep) : Option Listed := (tstep x.s l).map fun s => ⟨s, x.after l⟩

/-- The head and the transports on the list. -/
def nodes (x : Listed) : List Node := none :: x.members.map some

/-- What the list has to be. -/
structure Intact (x : Listed) : Prop where
  /-- From the head, `next` runs through the members and back, and `prev` the other way. -/
  ring : Ring x.s.links none (x.members.map some)
  /-- `t->next->prev == t` and `t->prev->next == t`. -/
  wellFormed : ∀ v ∈ x.nodes, x.s.links.prev (x.s.links.next v) = v ∧
    x.s.links.next (x.s.links.prev v) = v
  /-- What can be reached from the head is a member, and not freed. -/
  reachable : ∀ n t, x.s.links.next^[n] none = some t →
    t ∈ x.members ∧ (x.s.tr t).phase ≠ .freed

/-- The head is static; the memory of a transport may be anything else's once it is freed. -/
def Allocated (x : Listed) : Node → Prop
  | none => True
  | some t => (x.s.tr t).phase ≠ .freed

instance (x : Listed) : (v : Node) → Decidable (x.Allocated v)
  | none => .isTrue trivial
  | some t => inferInstanceAs (Decidable ((x.s.tr t).phase ≠ .freed))

/-- To take `t` off the list does no harm: it is on it, or neither it nor its neighbours are freed and
nothing changes, or only pointers of transports that are off the list do. -/
def Harmless (x : Listed) (t : Nat) : Prop :=
  t ∈ x.members ∨
  (x.Allocated (some t) ∧ x.Allocated (x.s.links.prev (some t)) ∧
      x.Allocated (x.s.links.next (some t))) ∧
    ((x.s.links.next (x.s.links.prev (some t)) = x.s.links.next (some t) ∧
        x.s.links.prev (x.s.links.next (some t)) = x.s.links.prev (some t)) ∨
      (x.s.links.prev (some t) ∉ x.nodes ∧ x.s.links.next (some t) ∉ x.nodes))

instance (x : Listed) (t : Nat) : Decidable (x.Harmless t) := inferInstanceAs (Decidable (_ ∨ _))

/-- The steps that keep the list. `unregister_usb_transport` looks its transport up on the list. -/
def Ok (x : Listed) : TStep → Prop
  | .handle =>
    match x.s.queue with
    | .remove t :: _ => x.Harmless t
    | _ => True
  | .unregister t => x.Harmless t
  | .unregisterUsb t => t ∈ x.members
  | _ => True

instance (x : Listed) : (l : TStep) → Decidable (x.Ok l)
  | .handle =>
    match h : x.s.queue with
    | .remove t :: _ => decidable_of_iff (x.Harmless t) (by simp [Ok, h])
    | .register _ :: _ => .isTrue (by simp [Ok, h])
    | [] => .isTrue (by simp [Ok, h])
  | .unregister t => inferInstanceAs (Decidable (x.Harmless t))
  | .unregisterUsb t => inferInstanceAs (Decidable (t ∈ x.members))
  | .register .. | .leave .. | .kick .. | .agent .. | .unregistered | .unregisterAll .. =>
    .isTrue trivial

end Listed

/-- A registered transport is started, and no other phase changes. -/
theorem start_phase (s : Transports) (t u : Nat) :
    ((s.start t).tr u).phase = if u = t then .started else (s.tr u).phase := by
  unfold Transports.start
  by_cases hu : u = t
  · subst hu
    split <;> simp [Transports.setTr, Transports.setPc]
  · split <;> simp [Transports.setTr, Transports.setPc, hu]

/-! ## Steps that leave the list alone -/

/-- The list, the phases and the registrations that are under way are the same. -/
structure Quiet (s s' : Transports) : Prop where
  links : s'.links = s.links
  phase : ∀ t, (s'.tr t).phase = (s.tr t).phase
  queued : ∀ t, s'.queue.count (.register t) = s.queue.count (.register t)

namespace Quiet

variable {s s' s'' : Transports}

theorem rfl' : Quiet s s := ⟨rfl, fun _ => rfl, fun _ => rfl⟩

theorem trans (h : Quiet s s') (h' : Quiet s' s'') : Quiet s s'' :=
  ⟨h'.links.trans h.links, fun t => (h'.phase t).trans (h.phase t),
    fun t => (h'.queued t).trans (h.queued t)⟩

theorem setPc (t : Nat) (a : Agent) (pc : Pc) : Quiet s (s.setPc t a pc) :=
  ⟨rfl, fun _ => rfl, fun _ => rfl⟩

theorem setTr {t : Nat} {tr : Transport} (hp : tr.phase = (s.tr t).phase) :
    Quiet s (s.setTr t tr) := by
  refine ⟨rfl, fun u => ?_, fun _ => rfl⟩
  by_cases hu : u = t
  · subst hu
    simpa [Transports.setTr] using hp
  · simp [Transports.setTr, hu]

theorem unref (t : Nat) : Quiet s (s.unref t) := by
  have htr : (unrefLocked (s.tr t)).phase = (s.tr t).phase := by
    by_cases h : (s.tr t).refCount - 1 = 0
    · by_cases hk : (s.tr t).kicked = true <;> simp [unrefLocked, h, hk]
    · simp [unrefLocked, h]
  refine (Quiet.setTr htr).trans ⟨rfl, fun _ => rfl, fun u => ?_⟩
  simp only [Transports.unref, unrefMsgs, List.count_append, Transports.setTr]
  split <;> simp

theorem dropTcp (t : Nat) : Quiet s (s.dropTcp t) := by
  refine .trans (Quiet.setTr ?_) (Quiet.unref t)
  split <;> rfl

theorem foldl_dropTcp (ts : List Nat) : Quiet s (ts.foldl Transports.dropTcp s) := by
  induction ts generalizing s with
  | nil => exact rfl'
  | cons t ts ih => exact (dropTcp t).trans ih

theorem agentStep {t : Nat} {a : Agent} (h : s.agentStep t a = some s') : Quiet s s' := by
  simp only [Transports.agentStep] at h
  split at h
  · cases h
    exact setPc ..
  · split at h
    · cases h
      exact setPc ..
    · cases h
      refine Quiet.trans ?_ (setPc ..)
      exact setTr rfl
  · cases h
    refine Quiet.trans ?_ (setPc ..)
    exact setTr rfl
  · cases h
    exact (unref t).trans (setPc ..)
  · cases h

end Quiet

/-! ## The invariant -/

namespace Listed

/-- The list is the ring of the members, which have been started. A transport whose registration is
under way has one message, and is not a member yet. -/
structure Inv (x : Listed) : Prop where
  ring : Ring x.s.links none (x.members.map some)
  started : ∀ t ∈ x.members, (x.s.tr t).phase = .started
  once : ∀ t, x.s.queue.count (.register t) ≤ 1
  pending : ∀ t ∈ x.members, x.s.queue.count (.register t) = 0
  fresh : ∀ t, (x.s.tr t).phase = .fresh → x.s.queue.count (.register t) = 0

/-- A member is between its neighbours. -/
theorem split_member {m : List Nat} {t : Nat} (ht : t ∈ m) :
    ∃ m₁ m₂, m = m₁ ++ t :: m₂ ∧ m.erase t = m₁ ++ m₂ := by
  obtain ⟨m₁, m₂, hm, h₁⟩ := List.eq_append_cons_of_mem ht
  refine ⟨m₁, m₂, hm, ?_⟩
  rw [hm, List.erase_append_right _ h₁, List.erase_cons_head]

namespace Inv

variable {x : Listed}

theorem init : Inv Listed.init := by
  refine ⟨⟨⟨rfl, rfl⟩, by simp [Listed.init]⟩, ?_, ?_, ?_, ?_⟩
  · intro t ht
    cases ht
  · intro t
    simp [Listed.init, Transports.init]
  · intro t ht
    cases ht
  · intro t _
    rfl

theorem intact (h : Inv x) : Intact x := by
  refine ⟨h.ring, fun v hv => ⟨h.ring.prev_next hv, h.ring.next_prev hv⟩, fun n t hn => ?_⟩
  have hmem := h.ring.iterate_mem n
  rw [hn] at hmem
  have ht : t ∈ x.members := by simpa using hmem
  refine ⟨ht, ?_⟩
  rw [h.started t ht]
  decide

theorem quiet {s' : Transports} (h : Inv x) (hq : Quiet x.s s') : Inv ⟨s', x.members⟩ := by
  refine ⟨?_, fun t ht => ?_, fun t => ?_, fun t ht => ?_, fun t ht => ?_⟩
  · rw [hq.links]
    exact h.ring
  · rw [hq.phase]
    exact h.started t ht
  · rw [hq.queued]
    exact h.once t
  · rw [hq.queued]
    exact h.pending t ht
  · rw [hq.queued]
    exact h.fresh t (hq.phase t ▸ ht)

theorem nodup (h : Inv x) : x.members.Nodup := List.Nodup.of_map some h.ring.items_nodup

/-- Fewer members, in a ring of their own. -/
theorem shrink {links : Links Node} {m : List Nat} (h : Inv x)
    (hr : Ring links none (m.map some)) (hm : ∀ t ∈ m, t ∈ x.members) :
    Inv ⟨{ x.s with links := links }, m⟩ :=
  ⟨hr, fun t ht => h.started t (hm t ht), h.once, fun t ht => h.pending t (hm t ht), h.fresh⟩

/-- What taking a transport off does to the ring, when it does no harm. -/
theorem unlink {t : Nat} (h : Inv x) (ht : x.Harmless t) :
    Ring (x.s.links.unlink (some t)) none ((x.members.erase t).map some) := by
  by_cases hm : t ∈ x.members
  · obtain ⟨m₁, m₂, hsplit, herase⟩ := split_member hm
    have hr := h.ring
    rw [hsplit, List.map_append, List.map_cons] at hr
    rw [herase, List.map_append]
    exact hr.remove
  · rw [List.erase_of_not_mem hm]
    rcases (ht.resolve_left hm).2 with ⟨hn, hp⟩ | ⟨hp, hn⟩
    · -- the neighbours already point to each other
      have heq : x.s.links.unlink (some t) = x.s.links := by
        unfold Links.unlink
        ext v
        · rw [Links.link_next, ← hn, Function.update_eq_self]
        · rw [Links.link_prev, ← hp, Function.update_eq_self]
      rw [heq]
      exact h.ring
    · exact h.ring.frame hp hn

/-! ## Steps -/

theorem register {t : Nat} {tcp noperm : Bool} (h : Inv x) (hf : (x.s.tr t).phase = .fresh) :
    Inv ⟨{ x.s.setTr t { x.s.tr t with phase := .registered, tcp := tcp, noperm := noperm } with
      queue := x.s.queue ++ [.register t] }, x.members⟩ := by
  have hphase : ∀ u, u ≠ t → (Function.update x.s.tr t
      { x.s.tr t with phase := .registered, tcp := tcp, noperm := noperm } u).phase =
      (x.s.tr u).phase := by
    intro u hu
    rw [Function.update_of_ne hu]
  have hcount : ∀ u, u ≠ t → (x.s.queue ++ [TMsg.register t]).count (.register u) =
      x.s.queue.count (.register u) := by
    intro u hu
    simp [List.count_append, Ne.symm hu]
  have hmem : ∀ u ∈ x.members, u ≠ t := by
    rintro u hu rfl
    rw [h.started u hu] at hf
    cases hf
  refine ⟨h.ring, fun u hu => ?_, fun u => ?_, fun u hu => ?_, fun u hu => ?_⟩
  · exact (hphase u (hmem u hu)).trans (h.started u hu)
  · by_cases hu : u = t
    · subst hu
      simp [List.count_append, h.fresh u hf]
    · show (x.s.queue ++ [TMsg.register t]).count (.register u) ≤ 1
      rw [hcount u hu]
      exact h.once u
  · exact (hcount u (hmem u hu)).trans (h.pending u hu)
  · by_cases hut : u = t
    · subst hut
      simp [Transports.setTr] at hu
    · exact (hcount u hut).trans (h.fresh u ((hphase u hut).symm.trans hu))

theorem start {t : Nat} {q : List TMsg} (h : Inv x) (hq : x.s.queue = .register t :: q) :
    Inv ⟨Transports.start { x.s with queue := q } t, x.members ++ [t]⟩ := by
  have hnot : t ∉ x.members := by
    intro ht
    have := h.pending t ht
    rw [hq, List.count_cons_self] at this
    omega
  have hone : q.count (.register t) = 0 := by
    have := h.once t
    rw [hq, List.count_cons_self] at this
    omega
  have hcount : ∀ u, u ≠ t → q.count (.register u) = x.s.queue.count (.register u) := by
    intro u hu
    rw [hq, List.count_cons_of_ne]
    simpa using Ne.symm hu
  have hlinks : (Transports.start { x.s with queue := q } t).links =
      (x.s.links.link (x.s.links.prev none) (some t)).link (some t) none := by
    unfold Transports.start
    split <;> rfl
  have hqueue : (Transports.start { x.s with queue := q } t).queue = q := by
    unfold Transports.start
    split <;> rfl
  have hphase : ∀ u, ((Transports.start { x.s with queue := q } t).tr u).phase =
      if u = t then .started else (x.s.tr u).phase := start_phase { x.s with queue := q } t
  refine ⟨?_, fun u hu => ?_, fun u => ?_, fun u hu => ?_, fun u hu => ?_⟩
  · rw [hlinks, List.map_append, h.ring.prev_head]
    have hr : Ring x.s.links none (x.members.map some ++ []) := by
      rw [List.append_nil]
      exact h.ring
    exact Ring.insert hr (by simpa using hnot) rfl rfl
  · rw [hphase]
    split
    · rfl
    · next hne =>
      rcases List.mem_append.mp hu with hu | hu
      · exact h.started u hu
      · exact absurd (List.mem_singleton.mp hu) hne
  · rw [hqueue]
    by_cases hu : u = t
    · rw [hu, hone]
      omega
    · rw [hcount u hu]
      exact h.once u
  · rw [hqueue]
    by_cases hut : u = t
    · rw [hut, hone]
    · rw [hcount u hut]
      exact h.pending u ((List.mem_append.mp hu).resolve_right (by simpa using hut))
  · rw [hqueue]
    rw [hphase] at hu
    by_cases hut : u = t
    · rw [if_pos hut] at hu
      cases hu
    · rw [if_neg hut] at hu
      rw [hcount u hut]
      exact h.fresh u hu

theorem remove {t : Nat} {q : List TMsg} (h : Inv x) (hq : x.s.queue = .remove t :: q)
    (ht : x.Harmless t) :
    Inv ⟨Transports.remove { x.s with queue := q } t, x.members.erase t⟩ := by
  have hcount : ∀ u, q.count (.register u) = x.s.queue.count (.register u) := by
    intro u
    rw [hq, List.count_cons_of_ne]
    simp
  have hphase : ∀ u, u ≠ t → ((Transports.remove { x.s with queue := q } t).tr u).phase =
      (x.s.tr u).phase := by
    intro u hu
    simp [Transports.remove, Transports.setTr, Transports.unlink, hu]
  have hne : ∀ u ∈ x.members.erase t, u ≠ t ∧ u ∈ x.members := fun u hu =>
    h.nodup.mem_erase_iff.mp hu
  refine ⟨h.unlink ht, fun u hu => ?_, fun u => ?_, fun u hu => ?_, fun u hu => ?_⟩
  · rw [hphase u (hne u hu).1]
    exact h.started u (hne u hu).2
  · exact (hcount u).symm ▸ h.once u
  · exact (hcount u).trans (h.pending u (hne u hu).2)
  · refine (hcount u).trans (h.fresh u ?_)
    by_cases hut : u = t
    · subst hut
      simp [Transports.remove, Transports.setTr] at hu
    · rwa [hphase u hut] at hu

/-- A transport is taken off by one of the `unregister` functions. -/
theorem takeOff {t : Nat} (h : Inv x) (ht : x.Harmless t) :
    Inv ⟨x.s.unlink t, x.members.erase t⟩ :=
  h.shrink (h.unlink ht) fun _ hu => List.mem_of_mem_erase hu

end Inv

/-! ## `unregister_all_tcp_transports` -/

/-- The loop, with the members `m₁` behind it and `m₂` to come. -/
theorem sweep_ring {s : Transports} {fuel : Nat} {links links' : Links Node} {m₁ m₂ ts : List Nat}
    (hr : Ring links none ((m₁ ++ m₂).map some))
    (hs : s.sweep fuel links ((m₂.map some).headD none) = some (ts, links')) :
    Ring links' none ((m₁ ++ m₂.filter fun t => !(s.tr t).tcp).map some) := by
  induction m₂ generalizing fuel links m₁ ts with
  | nil =>
    cases fuel <;> cases hs <;> exact hr
  | cons t m₂ ih =>
    cases fuel with
    | zero => cases hs
    | succ fuel =>
      rw [List.map_append, List.map_cons] at hr
      have hnext : links.next (some t) = (m₂.map some).headD none := hr.around.1
      simp only [List.map_cons, List.headD_cons, Transports.sweep, hnext] at hs
      by_cases ht : (s.tr t).tcp = true
      · rw [if_pos ht] at hs
        obtain ⟨⟨ts', links''⟩, hs', he⟩ := Option.map_eq_some_iff.mp hs
        cases he
        rw [List.filter_cons_of_neg (by simp [ht])]
        exact ih (by rw [List.map_append]; exact hr.remove) hs'
      · rw [if_neg ht] at hs
        rw [List.filter_cons_of_pos (by simpa using ht), List.append_cons]
        refine ih ?_ hs
        rw [List.map_append, List.map_append, List.append_assoc]
        exact hr

theorem Inv.unregisterAll {x : Listed} {fuel : Nat} {ts : List Nat} {links : Links Node} (h : Inv x)
    (hsweep : x.s.sweep fuel x.s.links (x.s.links.next none) = some (ts, links)) :
    Inv ⟨ts.foldl Transports.dropTcp { x.s with links := links },
      x.members.filter fun t => !(x.s.tr t).tcp⟩ := by
  have hring : Ring links none ((x.members.filter fun t => !(x.s.tr t).tcp).map some) := by
    rw [h.ring.next_head] at hsweep
    have hr : Ring x.s.links none (([] ++ x.members).map some) := h.ring
    exact sweep_ring hr hsweep
  exact (h.shrink hring fun t ht => (List.mem_filter.mp ht).1).quiet (.foldl_dropTcp ts)

theorem Inv.step (x : Listed) (l : TStep) (x' : Listed) (h : Inv x) (hok : x.Ok l)
    (hx : x.step l = some x') : Inv x' := by
  obtain ⟨s', hs, rfl⟩ := Option.map_eq_some_iff.mp hx
  cases l with
  | register t tcp noperm =>
    obtain ⟨hf, rfl⟩ := tstep_stepsTo hs
    exact h.register hf
  | handle =>
    simp only [after]
    simp only [Ok] at hok
    obtain ⟨-, t, q, ⟨hq, rfl⟩ | ⟨hq, rfl⟩⟩ := tstep_stepsTo hs
    · rw [hq]
      exact h.start hq
    · rw [hq] at hok ⊢
      exact h.remove hq hok
  | leave t a =>
    obtain ⟨-, rfl⟩ := tstep_stepsTo hs
    exact h.quiet (.setPc ..)
  | kick t n =>
    obtain ⟨-, rfl⟩ := tstep_stepsTo hs
    exact h.quiet (.setPc ..)
  | agent t a => exact h.quiet (.agentStep hs)
  | unregister t =>
    obtain ⟨-, rfl⟩ := tstep_stepsTo hs
    exact (h.takeOff hok).quiet ⟨rfl, fun _ => rfl, fun _ => rfl⟩
  | unregistered =>
    obtain ⟨t, -, -, rfl⟩ := tstep_stepsTo hs
    exact h.quiet ⟨rfl, fun _ => rfl, fun _ => rfl⟩
  | unregisterAll fuel =>
    obtain ⟨-, ts, links, hsweep, rfl⟩ := tstep_stepsTo hs
    exact h.unregisterAll hsweep
  | unregisterUsb t =>
    obtain ⟨-, rfl⟩ := tstep_stepsTo hs
    exact h.takeOff (.inl hok)

/-- **The list of transports.** Along every run in which no transport is taken off that is off the
list and has lost or freed a neighbour since, the list is a ring of the transports that are registered
and not yet unregistered or removed, and none of them is freed. -/
theorem list_intact (ls : List TStep) (x : Listed) (hok : RunOk step Ok init ls)
    (hrun : run step init ls = some x) : Intact x :=
  (run_invariant Inv.step Inv.init hok hrun).intact

/-- Three devices are connected, and the second is unregistered. -/
def disconnect : List TStep :=
  [.register 1 true false, .register 2 true false, .register 3 true false, .handle, .handle, .handle,
    .unregister 2, .agent 2 .unregister, .agent 2 .unregister, .agent 2 .unregister,
    .agent 2 .unregister, .unregistered]

/-- The first thread of the second device leaves, and the device is removed. -/
def removeSecond : List TStep := [.leave 2 .input, .agent 2 .input, .agent 2 .input, .handle]

/-- Both threads of the third device leave, and the device is removed. -/
def removeThird : List TStep :=
  [.leave 3 .input, .agent 3 .input, .agent 3 .input, .agent 3 .input, .agent 3 .input,
    .leave 3 .output, .agent 3 .output, .agent 3 .output, .handle]

/-- The second device is taken off twice, with the same neighbours. -/
theorem list_intact_disconnect :
    ∃ x, run step init (disconnect ++ removeSecond) = some x ∧ x.members = [1, 3] ∧ Intact x := by
  have hany : (run step init (disconnect ++ removeSecond)).any (fun x => x.members = [1, 3]) =
      true := by decide +kernel
  obtain ⟨x, hx, hm⟩ := (Option.any_eq_true ..).mp hany
  exact ⟨x, hx, of_decide_eq_true hm,
    list_intact (disconnect ++ removeSecond) x (by decide +kernel) hx⟩

/-- The third device is removed before the second: the first then points to the third, which is
freed. -/
theorem freed_is_listed :
    ∃ x, run step init (disconnect ++ removeThird ++ removeSecond) = some x ∧
      x.s.links.next^[2] none = some 3 ∧ (x.s.tr 3).phase = .freed ∧ ¬ Intact x := by
  have hany : (run step init (disconnect ++ removeThird ++ removeSecond)).any (fun x =>
      x.s.links.next^[2] none = some 3 ∧ (x.s.tr 3).phase = .freed) = true := by decide +kernel
  obtain ⟨x, hx, h⟩ := (Option.any_eq_true ..).mp hany
  obtain ⟨hnext, hfreed⟩ := of_decide_eq_true h
  exact ⟨x, hx, hnext, hfreed, fun hi => (hi.reachable 2 3 hnext).2 hfreed⟩

end Listed

end Twm.Adb
