import DeviceTwm.Adb.ListenerLists

/-!
# The listener registry over a run

What each call does to the list of listeners (`Effect`, `call_cases`), and what holds after any sequence of
calls (`registry_consistent`): no two listeners have one local name, the hook of a listener is in the
disconnect list of its transport once and nowhere else, and the listeners of a transport that was
disconnected are gone.
-/

open Lib

namespace Twm.Adb.Listener

variable {s s' : Registry} {b b' : Book} {hs : Nat → List Hook} {c : Call} {l r t : Nat} {a : AListener}

/-- What a call that returns the value `v` makes of the listeners `b`. -/
inductive Effect (b : Book) : Call → Int → Book → Prop
  | refused {localName connectTo : List UInt8} {transport : Option Nat} {env : Env} {v : Int} (hv : v ≠ 0) :
      Effect b (.install localName connectTo transport env) v b
  | notFound {localName connectTo : List UInt8} {transport : Option Nat} :
      Effect b (.remove localName connectTo transport) (-1) b
  | rebound {l : Nat} {a : AListener} {connectTo : List UInt8} {transport : Option Nat} {env : Env}
      (hmem : (l, a) ∈ b) : Effect b (.install a.localName connectTo transport env) 0
        (rebound b l { a with connectTo := connectTo, transport := transport })
  | linked {l : Nat} {localName connectTo : List UInt8} {transport : Option Nat} {env : Env}
      (hnew : ∀ e ∈ b, e.2.localName ≠ localName) : Effect b (.install localName connectTo transport env) 0
        (b ++ [(l, ⟨localName, connectTo, transport⟩)])
  | removed {l t : Nat} {a : AListener} (hmem : (l, a) ∈ b) (htr : a.transport = some t) :
      Effect b (.remove a.localName a.connectTo (some t)) 0 (b.filter fun e => e.1 ≠ l)
  | disconnected {t : Nat} : Effect b (.disconnect t) 0 (b.filter fun e => e.2.transport ≠ some t)
  | remoteCreated {t : Nat} {block : Option Nat} : Effect b (.createRemote t block) 0 b
  | remoteClosed {r : Nat} : Effect b (.closeRemote r) 0 b

/-- The call follows no null pointer, and none to freed memory. -/
def Safe (s : Registry) (b : Book) : Call → Prop
  | .install localName _ transport _ => ∀ l a, (l, a) ∈ b → a.localName = localName →
    a.connectTo.head? ≠ some star → CanMove a transport
  | .closeRemote r => (s.remotes.lookup r).isSome
  | _ => True

/-- How a call can end. -/
inductive Ends (s : Registry) (b : Book) (c : Call) : Prop
  | returns (v : Int) (s' : Registry) (b' : Book) (hs' : Nat → List Hook) (hcall : s.call c = .ok (v, s'))
      (hrep : Represents s' b' hs') (heffect : Effect b c v b') (hrefused : v ≠ 0 → s' = s)
  | exits (hcall : s.call c = .error .fatal)
  | faults (hcall : s.call c = .error .fault) (hnot : ¬ Safe s b c)

namespace Represents

theorem install_ends (h : Represents s b hs) (localName connectTo : List UInt8) (transport : Option Nat)
    (env : Env) : Ends s b (.install localName connectTo transport env) := by
  have hcall (o : Except Stop (Int × Registry))
      (ho : s.installListener localName connectTo transport env = o) :
      s.call (.install localName connectTo transport env) = o := ho
  unfold Registry.installListener at hcall
  rw [h.find, ok_bind] at hcall
  rcases hfind : b.find? fun e => decide (e.2.localName = localName) with _ | ⟨l, a⟩
  · rw [hfind] at hcall
    have hnew : ∀ e ∈ b, e.2.localName ≠ localName := by simpa using List.find?_eq_none.mp hfind
    rcases hblock : env.block.filter fun l => (s.listeners.lookup l).isNone with _ | l
    · exact .exits (hcall _ (by simp only [hblock]))
    · obtain ⟨-, hfree⟩ := Option.filter_eq_some_iff.mp hblock
      simp only [hblock] at hcall
      by_cases hmemory : env.memory
      · simp only [hmemory, Bool.not_true, Bool.false_eq_true, if_false] at hcall
        by_cases hfd : env.fd < 0
        · exact .returns (-2) s b hs (hcall _ (if_pos hfd)) h (.refused (by decide)) fun _ => rfl
        · obtain ⟨s', hs', hlink, hrep⟩ := h.linkListener (Option.isNone_iff_eq_none.mp hfree)
            ⟨localName, connectTo, transport⟩
          rw [hlink, ok_bind, if_neg hfd] at hcall
          exact .returns 0 s' _ hs' (hcall _ rfl) hrep (.linked hnew) fun hne => absurd rfl hne
      · exact .exits (hcall _ (by simp [hmemory]))
  · rw [hfind] at hcall
    have hmem := List.mem_of_find?_eq_some hfind
    obtain rfl : a.localName = localName := by simpa using List.find?_some hfind
    dsimp only at hcall
    by_cases hstar : a.connectTo.head? = some star
    · exact .returns (-1) s b hs (hcall _ (if_pos hstar)) h (.refused (by decide)) fun _ => rfl
    rw [if_neg hstar] at hcall
    by_cases hmemory : env.memory
    · simp only [hmemory, Bool.not_true, Bool.false_eq_true, if_false] at hcall
      by_cases hmove : CanMove a transport
      · obtain ⟨s', hs', hrebind, hrep⟩ := h.rebind hmem hmove
        rw [hrebind, ok_bind] at hcall
        exact .returns 0 s' _ hs' (hcall _ rfl) hrep (.rebound hmem) fun hne => absurd rfl hne
      · rw [h.rebind_fault hmem hmove, error_bind] at hcall
        exact .faults (hcall _ rfl) fun hsafe => hmove (hsafe l a hmem rfl hstar)
    · exact .returns (-1) s b hs (hcall _ (by simp [hmemory])) h (.refused (by decide)) fun _ => rfl

theorem remove_ends (h : Represents s b hs) (localName connectTo : List UInt8) (transport : Option Nat) :
    Ends s b (.remove localName connectTo transport) := by
  have hcall (o : Except Stop (Int × Registry)) (ho : s.removeListener localName connectTo transport = o) :
      s.call (.remove localName connectTo transport) = o := ho
  unfold Registry.removeListener at hcall
  rw [h.find, ok_bind] at hcall
  rcases hfind : b.find? fun e => decide (e.2.localName = localName ∧ e.2.connectTo = connectTo ∧
    e.2.transport ≠ none ∧ e.2.transport = transport) with _ | ⟨l, a⟩
  · rw [hfind] at hcall
    exact .returns (-1) s b hs (hcall _ rfl) h .notFound fun _ => rfl
  · rw [hfind] at hcall
    have hmem := List.mem_of_find?_eq_some hfind
    have hfound := List.find?_some hfind
    obtain ⟨rfl, rfl, hsome, rfl⟩ := of_decide_eq_true hfound
    obtain ⟨t, htr⟩ := Option.ne_none_iff_exists'.mp hsome
    obtain ⟨s', hfree, hrep⟩ := h.freeListener hmem
    dsimp only at hcall htr
    rw [hfree, ok_bind] at hcall
    refine .returns 0 s' _ _ (hcall _ rfl) hrep ?_ fun hne => absurd rfl hne
    rw [htr]
    exact .removed hmem htr

/-- Every call returns, unless it ends the process or follows a pointer that it may not follow. -/
theorem call_ends (h : Represents s b hs) (c : Call) : Ends s b c := by
  have hvoid (m : Except Stop Registry) (s' : Registry) (hm : m = .ok s') :
      m.map (fun s => ((0 : Int), s)) = .ok (0, s') := by
    rw [hm]
    rfl
  have hnot {s' : Registry} (hne : (0 : Int) ≠ 0) : s' = s := absurd rfl hne
  cases c with
  | install localName connectTo transport env => exact h.install_ends localName connectTo transport env
  | remove localName connectTo transport => exact h.remove_ends localName connectTo transport
  | disconnect t =>
    obtain ⟨s', hrun, hrep⟩ := h.runTransportDisconnects t
    exact .returns 0 s' _ _ (hvoid _ s' hrun) hrep .disconnected hnot
  | createRemote t block =>
    rcases hblock : block.filter fun r => (s.remotes.lookup r).isNone with _ | r
    · refine .exits ?_
      simp only [Registry.call, Registry.createRemoteSocket, hblock]
      rfl
    · obtain ⟨-, hfree⟩ := Option.filter_eq_some_iff.mp hblock
      obtain ⟨s', hs', hput, hrep⟩ := h.createRemote (Option.isNone_iff_eq_none.mp hfree) t
      refine .returns 0 s' b hs' (hvoid _ s' ?_) hrep .remoteCreated hnot
      simp only [Registry.createRemoteSocket, hblock, hput]
  | closeRemote r =>
    rcases hlookup : s.remotes.lookup r with _ | t
    · refine .faults ?_ fun hsafe => ?_
      · simp only [Registry.call, Registry.freeRemote, hlookup]
        rfl
      · simp [Safe, hlookup] at hsafe
    · obtain ⟨s', hfree, hrep⟩ := h.freeRemote hlookup
      exact .returns 0 s' b _ (hvoid _ s' hfree) hrep .remoteClosed hnot

end Represents

/-! ## What the calls keep -/

/-- Two listeners with one local name are one. -/
def Distinct (b : Book) : Prop := ∀ e ∈ b, ∀ e' ∈ b, e.2.localName = e'.2.localName → e.1 = e'.1

/-- A listener without a transport is a smartsocket. -/
def Starred (b : Book) : Prop := ∀ e ∈ b, e.2.transport = none → e.2.connectTo.head? = some star

/-- The call may put a listener on `t`. -/
def Call.Binds (t : Nat) : Call → Prop
  | .install _ _ transport _ => transport = some t
  | _ => False

namespace Effect

variable {v : Int}

theorem distinct (h : Effect b c v b') (hb : Distinct b) : Distinct b' := by
  cases h with
  | refused => exact hb
  | notFound => exact hb
  | @rebound l a connectTo transport env hmem =>
    rintro ⟨l₁, a₁⟩ h₁ ⟨l₂, a₂⟩ h₂ hname
    rcases (mem_rebound hmem l₁).mp h₁ with ⟨hl₁, rfl⟩ | ⟨-, h₁⟩ <;>
      rcases (mem_rebound hmem l₂).mp h₂ with ⟨hl₂, rfl⟩ | ⟨-, h₂⟩
    · exact hl₁.trans hl₂.symm
    · exact hl₁.trans (hb (l, a) hmem (l₂, a₂) h₂ hname)
    · exact (hb (l₁, a₁) h₁ (l, a) hmem hname).trans hl₂.symm
    · exact hb (l₁, a₁) h₁ (l₂, a₂) h₂ hname
  | linked hnew =>
    intro e he e' he' hname
    rcases List.mem_append.mp he with he | he <;> rcases List.mem_append.mp he' with he' | he'
    · exact hb e he e' he' hname
    · obtain rfl := List.mem_singleton.mp he'
      exact absurd hname (hnew e he)
    · obtain rfl := List.mem_singleton.mp he
      exact absurd hname.symm (hnew e' he')
    · rw [List.mem_singleton.mp he, List.mem_singleton.mp he']
  | removed => exact fun e he e' he' => hb e (List.mem_of_mem_filter he) e' (List.mem_of_mem_filter he')
  | disconnected => exact fun e he e' he' => hb e (List.mem_of_mem_filter he) e' (List.mem_of_mem_filter he')
  | remoteCreated => exact hb
  | remoteClosed => exact hb

/-- A transport gets no listener from a call that does not bind one to it. -/
theorem gone (h : Effect b c v b') (hc : ¬ c.Binds t) (hb : ∀ e ∈ b, e.2.transport ≠ some t) :
    ∀ e ∈ b', e.2.transport ≠ some t := by
  cases h with
  | refused => exact hb
  | notFound => exact hb
  | rebound hmem =>
    rintro ⟨l', a'⟩ he
    rcases (mem_rebound hmem l').mp he with ⟨-, rfl⟩ | ⟨-, he⟩
    · exact hc
    · exact hb _ he
  | linked =>
    intro e he
    rcases List.mem_append.mp he with he | he
    · exact hb e he
    · rw [List.mem_singleton.mp he]
      exact hc
  | removed => exact fun e he => hb e (List.mem_of_mem_filter he)
  | disconnected => exact fun e he => hb e (List.mem_of_mem_filter he)
  | remoteCreated => exact hb
  | remoteClosed => exact hb

/-- Only the smartsocket is installed without a transport. -/
theorem starred (h : Effect b c v b') (hc : FromCallers s c) (hb : Starred b) : Starred b' := by
  have hsmart : (str "*smartsocket*").head? = some star := by decide
  cases h with
  | refused => exact hb
  | notFound => exact hb
  | @rebound l a connectTo transport env hmem =>
    rintro ⟨l', a'⟩ he hnone
    rcases (mem_rebound hmem l').mp he with ⟨-, rfl⟩ | ⟨-, he⟩
    · obtain rfl : transport = none := hnone
      exact hc.1 ▸ hsmart
    · exact hb _ he hnone
  | @linked l localName connectTo transport env hnew =>
    intro e he hnone
    rcases List.mem_append.mp he with he | he
    · exact hb e he hnone
    · obtain rfl := List.mem_singleton.mp he
      obtain rfl : transport = none := hnone
      exact hc.1 ▸ hsmart
  | removed => exact fun e he => hb e (List.mem_of_mem_filter he)
  | disconnected => exact fun e he => hb e (List.mem_of_mem_filter he)
  | remoteCreated => exact hb
  | remoteClosed => exact hb

end Effect

/-- The calls that are made are safe. -/
theorem FromCallers.safe (hc : FromCallers s c) (h : Represents s b hs) (hb : Starred b) : Safe s b c := by
  cases c with
  | install localName connectTo transport env =>
    intro l a hmem _ hstar
    cases transport with
    | none =>
      -- The smartsocket is installed when there is no other listener.
      have hfirst := h.ring.next_head
      rw [hc.2] at hfirst
      cases b with
      | nil => cases hmem
      | cons e b => cases hfirst
    | some t => exact .inr ⟨fun hnone => hstar (hb _ hmem hnone), nofun⟩
  | closeRemote r => exact hc
  | _ => trivial

/-! ## Runs -/

theorem represents_init : Represents .init [] fun _ => [] where
  ring := ⟨⟨rfl, rfl⟩, by simp⟩
  listeners l a := by simp [Registry.init]
  hooked :=
    { rings := by
        refine ⟨fun t => ⟨⟨rfl, rfl⟩, by simp⟩, fun i j x hi hj => ?_⟩
        rw [List.mem_singleton] at hi hj
        exact Hook.disconnects.inj (hi.symm.trans hj)
      mem := fun t x => by cases x <;> simp [Registry.owner, Registry.init]
      heads := fun _ => rfl }
  bare l a hmem := by cases hmem

/-- A call of a run returns. -/
theorem call_of_step (h : step s c = some s') : ∃ v, s.call c = .ok (v, s') := by
  unfold step at h
  rcases hcall : s.call c with e | ⟨v, s₁⟩
  · rw [hcall] at h
    cases h
  · rw [hcall] at h
    cases h
    exact ⟨v, rfl⟩

/-- The pointers are as they should be, and the local names distinct. -/
def Good (P : Book → Prop) (s : Registry) : Prop := ∃ b hs, Represents s b hs ∧ Distinct b ∧ P b

/-- What every effect of a call keeps, every call of a run keeps. -/
theorem Good.step {P P' : Book → Prop} (h : Good P s) (hstep : step s c = some s')
    (hP : ∀ b b' v, Effect b c v b' → P b → P' b') : Good P' s' := by
  obtain ⟨b, hs, hrep, hdistinct, hb⟩ := h
  obtain ⟨v, hcall⟩ := call_of_step hstep
  rcases hrep.call_ends c with ⟨v', s₁, b', hs', hcall', hrep', heffect, -⟩ | hcall' | ⟨hcall', -⟩
  · obtain ⟨rfl, rfl⟩ : v = v' ∧ s' = s₁ := by simpa using hcall.symm.trans hcall'
    exact ⟨b', hs', hrep', heffect.distinct hdistinct, hP b b' v heffect hb⟩
  · cases hcall.symm.trans hcall'
  · cases hcall.symm.trans hcall'

/-- What the registry promises. -/
structure Consistent (s : Registry) : Prop where
  /-- `listener_list` runs through the listeners, each once, forwards and backwards. -/
  list : ∃ ls : List Nat, Ring s.links .list (ls.map .listener) ∧ ∀ l, l ∈ ls ↔ l ∈ s.listeners
  names : ∀ l l' a a', s.listeners.lookup l = some a → s.listeners.lookup l' = some a' →
    a.localName = a'.localName → l = l'
  /-- A hook is in the list of the transport of its listener once, and in no other. -/
  hooks : ∃ hs : Nat → List Hook, (∀ t, Ring s.hooks (.disconnects t) (hs t)) ∧
    ∀ l a, s.listeners.lookup l = some a →
      ∀ t, (hs t).count (.listener l) = if a.transport = some t then 1 else 0

theorem Represents.consistent (h : Represents s b hs) (hb : Distinct b) : Consistent s where
  list := by
    refine ⟨b.map Prod.fst, ?_, h.mem_keys⟩
    rw [List.map_map]
    exact h.ring
  names l l' a a' ha ha' := hb (l, a) ((h.listeners l a).mp ha) (l', a') ((h.listeners l' a').mp ha')
  hooks := by
    refine ⟨hs, h.hooked.rings.ring, fun l a ha t => ?_⟩
    have hmem := h.hooked.mem t (.listener l)
    rw [h.owner_eq ((h.listeners l a).mp ha)] at hmem
    split
    · next htr => exact List.count_eq_one_of_mem (h.hooked.nodup t) (hmem.mpr htr)
    · next htr => exact List.count_eq_zero_of_not_mem fun hin => htr (hmem.mp hin)

/-- After any sequence of calls the registry is consistent, and a transport that was disconnected has the
listeners only that were put on it since. A call that refuses leaves the registry as it is. As long as the
callers keep to what they do, a call returns or ends the process. -/
theorem registry_consistent (cs : List Call) (s : Registry) (hrun : run step .init cs = some s) :
    Consistent s ∧
      (∀ pre t post, cs = pre ++ .disconnect t :: post → (∀ c ∈ post, ¬ c.Binds t) →
        ∀ l a, s.listeners.lookup l = some a → a.transport ≠ some t) ∧
      (∀ c v s', s.call c = .ok (v, s') → v ≠ 0 → s' = s) ∧
      (RunOk step FromCallers .init cs → ∀ c, FromCallers s c →
        s.call c ≠ .error .fault ∧ s.call c ≠ .error .stuck) := by
  have hinit (P : Book → Prop) (hP : P []) : Good P .init := ⟨[], _, represents_init, nofun, hP⟩
  have hany {s s' : Registry} {cs : List Call} (hs : Good (fun _ => True) s) (hrun : run step s cs = some s') :
      Good (fun _ => True) s' :=
    run_keeps (fun _ _ _ h hstep => h.step hstep fun _ _ _ _ _ => trivial) hs hrun
  obtain ⟨b, hs, hrep, hdistinct, -⟩ := hany (hinit _ trivial) hrun
  refine ⟨hrep.consistent hdistinct, ?_, fun c v s' hcall hv => ?_, fun hok c hc => ?_⟩
  · rintro pre t post rfl hpost l a ha
    rw [run_append, Option.bind_eq_some_iff] at hrun
    obtain ⟨s₁, hpre, hrun⟩ := hrun
    obtain ⟨s₂, hdis, hrun⟩ := Option.bind_eq_some_iff.mp hrun
    have hgone : Good (fun b => ∀ e ∈ b, e.2.transport ≠ some t) s₂ := by
      refine (hany (hinit _ trivial) hpre).step hdis fun b b' v heffect _ => ?_
      cases heffect
      exact fun e he => by simpa using (List.mem_filter.mp he).2
    have hok : RunOk step (fun _ c => ¬ Call.Binds t c) s₂ post :=
      runOk_of_mem (fun c hc _ => hpost c hc) s₂
    obtain ⟨b', hs', hrep', -, hb'⟩ := run_invariant
      (fun _ _ _ h hc hstep => h.step hstep fun _ _ _ heffect hb => heffect.gone hc hb) hgone hok hrun
    exact hb' (l, a) ((hrep'.listeners l a).mp ha)
  · rcases hrep.call_ends c with ⟨v', s₁, -, -, hcall', -, -, hrefused⟩ | hcall' | ⟨hcall', -⟩
    · obtain ⟨rfl, rfl⟩ : v = v' ∧ s' = s₁ := by simpa using hcall.symm.trans hcall'
      exact hrefused hv
    · cases hcall.symm.trans hcall'
    · cases hcall.symm.trans hcall'
  · have hstarred := run_invariant (I := Good Starred)
      (fun _ _ _ h hc hstep => h.step hstep fun _ _ _ heffect hb => heffect.starred hc hb) (hinit _ nofun) hok
      hrun
    obtain ⟨b', hs', hrep', -, hb'⟩ := hstarred
    rcases hrep'.call_ends c with ⟨v', s₁, -, -, hcall', -, -, -⟩ | hcall' | ⟨-, hnot⟩
    · rw [hcall']
      exact ⟨nofun, nofun⟩
    · rw [hcall']
      exact ⟨nofun, nofun⟩
    · exact absurd (hc.safe hrep' hb') hnot

/-- A forward is moved from transport 7 to transport 8, another one stays on 7, and 7 disconnects. -/
def forwards : List Call :=
  [.install (str "tcp:5037") (str "*smartsocket*") none ⟨some 0, true, 3⟩,
    .install (str "tcp:6100") (str "tcp:7100") (some 7) ⟨some 1, true, 4⟩,
    .createRemote 7 (some 0),
    .install (str "tcp:6200") (str "tcp:7200") (some 7) ⟨some 2, true, 5⟩,
    .install (str "tcp:6100") (str "local:log") (some 8) ⟨none, true, 0⟩,
    .install (str "tcp:5037") (str "tcp:7300") (some 8) ⟨some 3, true, 6⟩,
    .disconnect 7]

/-- The registry after that. -/
def forwarded : Registry := (run step .init forwards).get (by decide +kernel)

theorem registry_consistent_forwards : Consistent forwarded ∧
    forwarded.listeners.lookup 1 = some ⟨str "tcp:6100", str "local:log", some 8⟩ ∧
      forwarded.listeners.lookup 2 = none :=
  ⟨(registry_consistent forwards forwarded (Option.some_get _).symm).1, by decide +kernel,
    by decide +kernel⟩

end Twm.Adb.Listener
