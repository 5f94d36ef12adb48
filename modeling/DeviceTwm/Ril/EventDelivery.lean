import Mathlib.Logic.Function.Iterate
import DeviceTwm.Ril.EventLists

/-!
# Delivery and cancellation of events

`firePending` reads the next pending event before it calls a callback. If the callback deletes that
event, the event is called all the same, and its own `next` is null (`deleted_is_invoked`).
`ril_event_del` does not take an event off a list at all.

* `cancelled`, `due`: what the trace says about an event.
* `Events.Allowed`: the calls that the loop can take.
* `Events.Inv`: then the lists and the watch table agree with the trace.
* `events_delivered`: so a deleted event is not called, and one that was moved is called once.
-/

open Lib

namespace Twm.Ril

/-- The event was deleted and has not been added since. -/
def cancelled (e : Nat) : List Entry → Bool
  | [] => false
  | .added e' :: t => if e' = e then false else cancelled e t
  | .deleted e' :: t => if e' = e then true else cancelled e t
  | .moved _ :: t | .invoked _ :: t => cancelled e t

/-- No event was called while it was deleted. -/
def Punctual : List Entry → Prop
  | [] => True
  | .invoked e :: t => cancelled e t = false ∧ Punctual t
  | .added _ :: t | .deleted _ :: t | .moved _ :: t => Punctual t

/-- Whether the event was moved and has been neither called nor deleted since. `none`: it was
called when it was not due, or moved when it was. -/
def due (e : Nat) : List Entry → Option Bool
  | [] => some false
  | .added _ :: t => due e t
  | .deleted e' :: t => if e' = e then (due e t).map fun _ => false else due e t
  | .moved e' :: t => if e' = e then (if due e t = some false then some true else none) else due e t
  | .invoked e' :: t =>
    if e' = e then (if due e t = some true then some false else none) else due e t

namespace Events

/-- `removeFromList` does not find the event. -/
def Unlinked (s : Events) (e : Nat) : Prop :=
  s.links.prev (.ev e) = .null ∨ s.links.next (.ev e) = .null

instance (s : Events) (e : Nat) : Decidable (s.Unlinked e) :=
  inferInstanceAs (Decidable (_ ∨ _))

/-- The timer list leads to the event. -/
def OnTimer (s : Events) (e : Nat) : Prop := ∃ n, s.links.next^[n + 1] .timer = .ev e

/-- The node that `firePending` goes on with after the callback. -/
def saved (s : Events) : Option Node :=
  match s.phase with
  | .running _ next => some next
  | _ => none

/-- What a call may not be made on: `ril_event_del` on an event that is on a list,
`ril_timer_delete` on the event that `firePending` goes on with, or on a pending event that is
still watched, and an add on an event that is there already. -/
def Allowed (s : Events) : EStep → Prop
  | .eventSet e _ _ => s.Unlinked e ∧ s.index e = none
  | .eventAdd e => s.index e = none ∧ ¬ s.OnTimer e
  | .eventDel e => s.Unlinked e
  | .timerAdd e _ _ (some _) => s.Unlinked e ∧ s.index e = none
  | .timerAdd _ _ _ none => True
  | .timerDelete e => s.Unlinked e ∨ s.index e = none ∧ s.saved ≠ some (.ev e)
  | .poll .. | .fire | .finish => True

/-- The events `P` are pending and the events `T` are on the timer list, and the trace agrees. -/
structure Inv (s : Events) (P T : List Nat) : Prop where
  lists : Lists s.links P T
  watch : ∀ i e, s.watch i = some e ↔ s.index e = some i
  timers : ∀ e ∈ T, s.index e = none
  due : ∀ e, due e s.trace = some (decide (e ∈ P))
  live : ∀ e, e ∈ P ∨ e ∈ T ∨ s.index e ≠ none → cancelled e s.trace = false
  punctual : Punctual s.trace

/-- The pass goes on with the first pending event. -/
def GoesOn (P : List Nat) : Phase → Prop
  | .waiting => P = []
  | .firing ev | .running _ ev => ev = (P.map .ev).headD .pending
  | .crashed => False

namespace Inv

variable {s : Events} {P T : List Nat} {e : Nat}

theorem init : Inv Events.init [] [] where
  lists := by
    refine ⟨⟨?_, by simp⟩, ⟨?_, by simp⟩, by simp, fun e _ _ => ?_⟩ <;> simp [Events.init]
  watch := by simp [Events.init]
  timers := by simp
  due := by simp [Events.init, Ril.due]
  live := by simp [Events.init, cancelled]
  punctual := trivial

theorem not_unlinked_iff (h : Inv s P T) (e : Nat) : ¬ s.Unlinked e ↔ e ∈ P ∨ e ∈ T :=
  h.lists.linked_iff e

/-- An event that is on no list. -/
theorem unlinked (h : Inv s P T) (he : s.Unlinked e) : e ∉ P ∧ e ∉ T := by
  rw [← not_or, ← h.not_unlinked_iff e, not_not]
  exact he

/-! ## Calls -/

theorem eventSet (h : Inv s P T) (he : s.Unlinked e) (hi : s.index e = none) (fd : Int)
    (persist : Bool) : Inv (s.eventSet e fd persist) P T := by
  obtain ⟨hP, hT⟩ := h.unlinked he
  obtain ⟨hn, hp⟩ := h.lists.free e hP hT
  -- The event has null pointers and no slot already.
  have hlinks : (s.eventSet e fd persist).links = s.links := by
    ext1
    · exact Function.update_eq_self_iff.mpr hn.symm
    · exact Function.update_eq_self_iff.mpr hp.symm
  have hindex : (s.eventSet e fd persist).index = s.index :=
    Function.update_eq_self_iff.mpr hi.symm
  refine ⟨?_, ?_, ?_, h.due, ?_, h.punctual⟩
  · rw [hlinks]
    exact h.lists
  · rw [hindex]
    exact h.watch
  · rw [hindex]
    exact h.timers
  · rw [hindex]
    exact h.live

theorem eventAdd (h : Inv s P T) (hi : s.index e = none) (hT : e ∉ T) :
    Inv (s.eventAdd e) P T := by
  unfold Events.eventAdd
  split
  · exact h
  rename_i i hfind
  have hfree : s.watch i = none := by simpa using List.find?_some hfind
  refine ⟨h.lists, fun j x => ?_, fun x hx => ?_, h.due, fun x hx => ?_, h.punctual⟩
  · exact watch_add h.watch hfree hi j x
  · have hne : x ≠ e := by
      rintro rfl
      exact hT hx
    simpa [log, hne] using h.timers x hx
  · by_cases hxe : x = e
    · simp [log, cancelled, hxe]
    · simp only [log, cancelled, if_neg (Ne.symm hxe)]
      refine h.live x ?_
      simpa [log, hxe] using hx

/-- A slot is emptied. -/
theorem removeWatch (h : Inv s P T) {i : Slot} (hi : s.index e = some i) :
    Inv (s.removeWatch e i) P T := by
  have hindex : ∀ x, (s.removeWatch e i).index x ≠ none → s.index x ≠ none := by
    intro x hx hnone
    apply hx
    simp only [Events.removeWatch, Function.update_apply, hnone, ite_self]
  refine ⟨h.lists, watch_remove h.watch hi, fun x hx => ?_, h.due, fun x hx => ?_, h.punctual⟩
  · by_contra hne
    exact hindex x hne (h.timers x hx)
  · exact h.live x (hx.imp_right (Or.imp_right (hindex x)))

/-- An event that is taken off its list, and has no slot. -/
theorem deleted (h : Inv s P T) (hi : s.index e = none) {L' : Links Node} {P' T' : List Nat}
    (hlists : Lists L' P' T') (hP : ∀ x, x ∈ P' ↔ x ∈ P ∧ x ≠ e)
    (hT : ∀ x, x ∈ T' ↔ x ∈ T ∧ x ≠ e) : Inv ({ s with links := L' }.log (.deleted e)) P' T' := by
  refine ⟨hlists, h.watch, fun x hx => h.timers x ((hT x).mp hx).1, fun x => ?_, fun x hx => ?_,
    h.punctual⟩
  · by_cases hxe : e = x
    · simp [log, Ril.due, h.due, hP, hxe]
    · simp [log, Ril.due, h.due, hP, hxe, Ne.symm hxe]
  · have hxe : x ≠ e := by
      rintro rfl
      rcases hx with hx | hx | hx
      · exact ((hP x).mp hx).2 rfl
      · exact ((hT x).mp hx).2 rfl
      · exact hx hi
    simp only [log, cancelled, if_neg (Ne.symm hxe)]
    refine h.live x (hx.imp ?_ (Or.imp_left ?_))
    · exact fun hx => ((hP x).mp hx).1
    · exact fun hx => ((hT x).mp hx).1

theorem eventDel (h : Inv s P T) (he : s.Unlinked e) : Inv (s.eventDel e) P T := by
  obtain ⟨hP, hT⟩ := h.unlinked he
  unfold Events.eventDel
  split
  · rename_i hi
    exact h.deleted hi h.lists (mem_and_ne hP) (mem_and_ne hT)
  · rename_i i hi
    have hi' : (s.removeWatch e i).index e = none := Function.update_self _ _ _
    exact (h.removeWatch hi).deleted hi' h.lists (mem_and_ne hP) (mem_and_ne hT)

theorem timerAdd (h : Inv s P T) (now tv : Timeval) (fuel : Nat) (he : s.Unlinked e)
    (hi : s.index e = none) :
    (s.timerAdd e now fuel (some tv) = .error .fuel ∧ fuel ≤ T.length) ∨
    ∃ s' T', s.timerAdd e now fuel (some tv) = .ok s' ∧ Inv s' P T' ∧ s'.phase = s.phase := by
  obtain ⟨hP, hT⟩ := h.unlinked he
  rcases h.lists.timerAdd hP hT now tv fuel with hf | ⟨L', T₁, T₂, hsplit, hlists, hok, -, -⟩
  · exact .inl hf
  · right
    refine ⟨_, T₁ ++ e :: T₂, hok, ?_, rfl⟩
    · have hmem : ∀ x, x ∈ T₁ ++ e :: T₂ ↔ x = e ∨ x ∈ T := by
        intro x
        rw [hsplit]
        simp
        tauto
      refine ⟨hlists, h.watch, fun x hx => ?_, h.due, fun x hx => ?_, h.punctual⟩
      · rcases (hmem x).mp hx with rfl | hx
        · exact hi
        · exact h.timers x hx
      · by_cases hxe : e = x
        · simp [log, cancelled, hxe]
        · simp only [log, cancelled, if_neg hxe]
          refine h.live x ?_
          rw [hmem] at hx
          rcases hx with hx | (rfl | hx) | hx
          · exact .inl hx
          · exact absurd rfl hxe
          · exact .inr (.inl hx)
          · exact .inr (.inr hx)

/-- `ril_timer_delete` keeps the first pending event. -/
theorem timerDelete (h : Inv s P T)
    (hok : s.Unlinked e ∨ s.index e = none ∧ P.head? ≠ some e) :
    ∃ s' P' T', s.timerDelete e = .ok s' ∧ Inv s' P' T' ∧ s'.phase = s.phase ∧
      P'.head? = P.head? := by
  rcases h.lists.timerDelete e with
    ⟨-, -, heq⟩ | ⟨L', P₁, P₂, rfl, hlists, heq⟩ | ⟨L', T₁, T₂, rfl, hlists, heq⟩
  · exact ⟨s, P, T, heq, h, rfl, rfl⟩
  · have hP : e ∈ P₁ ++ e :: P₂ := by simp
    have hl := (h.not_unlinked_iff e).mpr (.inl hP)
    obtain ⟨hi, hhead⟩ := hok.resolve_left hl
    have hT := h.lists.disjoint e hP
    refine ⟨_, P₁ ++ P₂, T, heq,
      h.deleted hi hlists (mem_remove h.lists.pending_nodup) (mem_and_ne hT), rfl, ?_⟩
    -- The event is not the first one.
    cases P₁ with
    | nil => exact absurd rfl hhead
    | cons x P₁ => rfl
  · have hT : e ∈ T₁ ++ e :: T₂ := by simp
    have hl := (h.not_unlinked_iff e).mpr (.inr hT)
    have hP : e ∉ P := fun hP => h.lists.disjoint e hP hT
    exact ⟨_, P, T₁ ++ T₂, heq,
      h.deleted (hok.resolve_left hl).1 hlists (mem_and_ne hP) (mem_remove h.lists.timers_nodup),
      rfl, rfl⟩

/-! ## A round of the loop -/

/-- An event is put at the end of the pending list. -/
theorem moved (h : Inv s P T) (he : e ∉ P) {L' : Links Node} {T' : List Nat}
    (hlists : Lists L' (P ++ [e]) T') (hT : ∀ x ∈ T', x ∈ T)
    (hlive : cancelled e s.trace = false) :
    Inv ({ s with links := L' }.log (.moved e)) (P ++ [e]) T' := by
  refine ⟨hlists, h.watch, fun x hx => h.timers x (hT x hx), fun x => ?_, fun x hx => ?_,
    h.punctual⟩
  · by_cases hxe : e = x
    · subst hxe
      simp [log, Ril.due, h.due, he]
    · simp [log, Ril.due, h.due, hxe, Ne.symm hxe]
  · by_cases hxe : x = e
    · subst hxe
      exact hlive
    · refine h.live x (hx.imp (fun hx => ?_) (Or.imp_left (hT x)))
      simpa [hxe] using hx

end Inv

end Events

/-! ## Traces -/

section Traces

variable {t : List Entry} {l : List Nat}

/-- Events that are moved one after the other. -/
theorem due_moved (hl : l.Nodup) (ht : ∀ e ∈ l, due e t = some false) (e : Nat) :
    due e (l.map .moved ++ t) = if e ∈ l then some true else due e t := by
  induction l with
  | nil => rfl
  | cons x l ih =>
    obtain ⟨hx, hl⟩ := List.nodup_cons.mp hl
    have ih := ih hl fun y hy => ht y (List.mem_cons_of_mem _ hy)
    by_cases hxe : x = e
    · subst hxe
      simp [due, ih, hx, ht x List.mem_cons_self]
    · simp [due, ih, hxe, Ne.symm hxe]

theorem cancelled_moved (e : Nat) : cancelled e (l.map .moved ++ t) = cancelled e t := by
  induction l with
  | nil => rfl
  | cons x l ih => simpa [cancelled] using ih

theorem punctual_moved (ht : Punctual t) : Punctual (l.map .moved ++ t) := by
  induction l with
  | nil => exact ht
  | cons x l ih => exact ih

end Traces

namespace Events

/-- What `processReadReadies` does to the watch table, with `P` pending before and `P'` after. -/
structure Polled (s s' : Events) (P P' : List Nat) : Prop where
  fd : s'.fd = s.fd
  persist : s'.persist = s.persist
  pending : ∀ e ∈ P, e ∈ P'
  /-- Only events of the table are moved. -/
  watched : ∀ e ∈ P', e ∉ P → s.index e ≠ none
  kept : ∀ e, e ∈ P ∨ e ∉ P' ∨ s.persist e = true → s'.index e = s.index e
  /-- An event that is not persistent is taken out of the table. -/
  taken : ∀ e ∈ P', e ∉ P → s.persist e = false → s'.index e = none

theorem Polled.refl (s : Events) (P : List Nat) : Polled s s P P :=
  ⟨rfl, rfl, fun _ he => he, fun _ he hn => absurd he hn, fun _ _ => rfl,
    fun _ he hn => absurd he hn⟩

theorem Polled.trans {s s₁ s₂ : Events} {P P₁ P₂ : List Nat} (h₁ : Polled s s₁ P P₁)
    (h₂ : Polled s₁ s₂ P₁ P₂) : Polled s s₂ P P₂ where
  fd := h₂.fd.trans h₁.fd
  persist := h₂.persist.trans h₁.persist
  pending := fun e he => h₂.pending e (h₁.pending e he)
  watched := by
    intro e he heP
    by_cases he₁ : e ∈ P₁
    · exact h₁.watched e he₁ heP
    · rw [← h₁.kept e (.inr (.inl he₁))]
      exact h₂.watched e he he₁
  kept := by
    intro e he
    rw [h₂.kept e, h₁.kept e]
    · exact he.imp_right (Or.imp_left (mt (h₂.pending e)))
    · rw [h₁.persist]
      exact he.imp_left (h₁.pending e)
  taken := by
    intro e he heP hp
    by_cases he₁ : e ∈ P₁
    · rw [h₂.kept e (.inl he₁)]
      exact h₁.taken e he₁ heP hp
    · exact h₂.taken e he he₁ (by rw [h₁.persist]; exact hp)

/-- An event of the table is moved. -/
theorem Polled.move {s s' : Events} {P : List Nat} {e : Nat} (hfd : s'.fd = s.fd)
    (hpersist : s'.persist = s.persist) (he : s.index e ≠ none) (heP : e ∉ P)
    (hindex : ∀ x, s'.index x = if x = e ∧ s.persist e = false then none else s.index x) :
    Polled s s' P (P ++ [e]) where
  fd := hfd
  persist := hpersist
  pending := fun x hx => List.mem_append_left _ hx
  watched := by
    intro x hx hxP
    obtain rfl : x = e := by simpa [hxP] using hx
    exact he
  kept := by
    intro x hx
    rw [hindex, if_neg]
    rintro ⟨rfl, hp⟩
    simp [heP, hp] at hx
  taken := by
    intro x hx hxP hp
    obtain rfl : x = e := by simpa [hxP] using hx
    rw [hindex, if_pos ⟨rfl, hp⟩]

end Events

namespace Events.Inv

variable {s s' : Events} {P T : List Nat} {e : Nat}

/-- The events that `processTimeouts` moves have no slot. -/
theorem processTimeouts (h : Inv s [] T) (now : Timeval) (fuel : Nat) :
    (s.processTimeouts now fuel = .error .fuel ∧ fuel ≤ T.length) ∨
    ∃ s' P' T', s.processTimeouts now fuel = .ok s' ∧ Inv s' P' T' ∧
      (∀ e ∈ P', s'.index e = none) ∧ T = P' ++ T' ∧
      s'.fd = s.fd ∧ s'.persist = s.persist ∧ s'.index = s.index := by
  rcases h.lists.processTimeouts now fuel with hf | ⟨L', T₁, T₂, rfl, hlists, hok, -, -⟩
  · exact .inl hf
  right
  have hdue : ∀ e, Ril.due e s.trace = some false := by simpa using h.due
  have hnd : T₁.Nodup := (List.nodup_append.mp h.lists.timers_nodup).1
  refine ⟨_, T₁, T₂, hok, ?_, ?_, rfl, rfl, rfl, rfl⟩
  · refine ⟨hlists, h.watch, fun e he => h.timers e (by simp [he]), fun e => ?_, fun e he => ?_,
      punctual_moved h.punctual⟩
    · rw [due_moved (List.nodup_reverse.mpr hnd) (fun e _ => hdue e), hdue]
      by_cases he : e ∈ T₁ <;> simp [he]
    · rw [cancelled_moved]
      refine h.live e (.inr ?_)
      simp only [List.mem_append]
      tauto
  · intro e he
    exact h.timers e (by simp [he])

/-- One round of `processReadReadies`, at a slot whose event is not pending yet. -/
theorem readReady (h : Inv s P T) (ready : List Int) (n : Nat) (i : Slot)
    (hP : ∀ e ∈ P, s.watch i ≠ some e) :
    ∃ s' n' P', Events.readReady ready (s, n) i = .ok (s', n') ∧ Inv s' P' T ∧ Polled s s' P P' ∧
      (∀ e ∈ P', e ∈ P ∨ s.watch i = some e) ∧ ∀ j, j ≠ i → s'.watch j = s.watch j := by
  by_cases hn : n = 0
  · exact ⟨s, n, P, by simp [Events.readReady, hn], h, .refl s P, fun _ => .inl, fun _ _ => rfl⟩
  cases hw : s.watch i with
  | none =>
    exact ⟨s, n, P, by simp [Events.readReady, hn, hw], h, .refl s P, fun _ => .inl, fun _ _ => rfl⟩
  | some e =>
  by_cases hfd : s.fd e ∈ ready
  swap
  · exact ⟨s, n, P, by simp [Events.readReady, hn, hw, hfd], h, .refl s P, fun _ => .inl,
      fun _ _ => rfl⟩
  have hindex := (h.watch i e).mp hw
  have heP : e ∉ P := fun he => hP e he hw
  have heT : e ∉ T := fun he => by
    rw [h.timers e he] at hindex
    cases hindex
  obtain ⟨L', hL', hlists⟩ := h.lists.addPending heP heT
  have hlive : cancelled e s.trace = false := h.live e (.inr (.inr (by simp [hindex])))
  have h₁ := h.moved heP hlists (fun _ hx => hx) hlive
  have hs : Events.readReady ready (s, n) i = .ok (if s.persist e then
      { s with links := L' }.log (.moved e) else
      ({ s with links := L' }.log (.moved e)).removeWatch e i, n - 1) := by
    simp only [Events.readReady, hn, hw, hfd, hL', if_true, if_false, bind, Except.bind]
    rfl
  have hmem : ∀ x ∈ P ++ [e], x ∈ P ∨ some e = some x := by
    intro x hx
    simpa [eq_comm] using hx
  refine ⟨_, _, P ++ [e], hs, ?_⟩
  by_cases hp : s.persist e = true
  · rw [if_pos hp]
    refine ⟨h₁, .move rfl rfl (by simp [hindex]) heP fun x => ?_, hmem, fun _ _ => rfl⟩
    simp [log, hp]
  · rw [if_neg hp]
    refine ⟨h₁.removeWatch hindex, .move rfl rfl (by simp [hindex]) heP fun x => ?_, hmem,
      fun j hj => Function.update_of_ne hj ..⟩
    simp [Events.removeWatch, log, Function.update_apply, hp]

/-- The loop of `processReadReadies`, over slots whose events are not pending yet. -/
theorem readReadies (ready : List Int) (is : List Slot) (his : is.Nodup) (h : Inv s P T) (n : Nat)
    (hP : ∀ e ∈ P, ∀ i ∈ is, s.watch i ≠ some e) :
    ∃ r P', is.foldlM (Events.readReady ready) (s, n) = .ok r ∧ Inv r.1 P' T ∧
      Polled s r.1 P P' := by
  induction is generalizing s n P with
  | nil => exact ⟨(s, n), P, rfl, h, .refl s P⟩
  | cons i is ih =>
    obtain ⟨hi, his⟩ := List.nodup_cons.mp his
    obtain ⟨s₁, n₁, P₁, hr, h₁, hpolled, hmem, hwatch⟩ :=
      h.readReady ready n i fun e he => hP e he i List.mem_cons_self
    -- No later slot has the event that was moved.
    have hP₁ : ∀ e ∈ P₁, ∀ j ∈ is, s₁.watch j ≠ some e := by
      intro e he j hj
      have hji : j ≠ i := fun heq => hi (heq ▸ hj)
      rw [hwatch j hji]
      rcases hmem e he with he | hw
      · exact hP e he j (List.mem_cons_of_mem _ hj)
      · intro hwj
        rw [h.watch] at hw hwj
        exact hji (Option.some.inj (hwj.symm.trans hw))
    obtain ⟨r, P', hr', h', hpolled'⟩ := ih his h₁ n₁ hP₁
    refine ⟨r, P', ?_, h', hpolled.trans hpolled'⟩
    rw [List.foldlM_cons, hr]
    exact hr'

/-- A round of the loop comes to the first pending event. -/
theorem poll (h : Inv s [] T) (now : Timeval) (fuel : Nat) (ready : List Int) :
    (s.poll now fuel ready = .error .fuel ∧ fuel ≤ T.length) ∨
    ∃ s' P' T', s.poll now fuel ready = .ok s' ∧ Inv s' P' T' ∧
      s'.phase = .firing ((P'.map .ev).headD .pending) ∧
      ∃ P₁, T = P₁ ++ T' ∧ Polled s s' P₁ P' := by
  rcases h.processTimeouts now fuel with
    ⟨hf, hle⟩ | ⟨s₁, P₁, T₁, hr₁, h₁, hindex, hT, hfd, hpersist, hindex₁⟩
  · left
    refine ⟨?_, hle⟩
    rw [Events.poll, hf]
    rfl
  right
  have hP : ∀ e ∈ P₁, ∀ i ∈ List.finRange maxFdEvents, s₁.watch i ≠ some e := by
    intro e he i _ hw
    rw [h₁.watch, hindex e he] at hw
    cases hw
  obtain ⟨r, P₂, hr₂, h₂, hpolled⟩ :=
    h₁.readReadies ready _ (List.nodup_finRange _) ready.length hP
  refine ⟨{ r.1 with phase := .firing (r.1.links.next .pending) }, P₂, T₁, ?_,
    ⟨h₂.lists, h₂.watch, h₂.timers, h₂.due, h₂.live, h₂.punctual⟩, ?_, P₁, hT, ?_⟩
  · simp only [Events.poll, hr₁, bind, Except.bind, Events.processReadReadies, hr₂]
    rfl
  · rw [h₂.lists.next_pending]
  · refine ⟨hpolled.fd.trans hfd, hpolled.persist.trans hpersist, hpolled.pending, ?_, ?_, ?_⟩
    · simpa [hindex₁] using hpolled.watched
    · simpa [hindex₁, hpersist] using hpolled.kept
    · simpa [hpersist] using hpolled.taken

/-- One round of `firePending` on a list with an event. -/
theorem fire (h : Inv s (e :: P) T) :
    ∃ s', s.fire (.ev e) = .ok s' ∧ Inv s' P T ∧
      s'.phase = .running e ((P.map .ev).headD .pending) := by
  have hl : Lists s.links ([] ++ e :: P) T := h.lists
  obtain ⟨L', hL', (hlists : Lists L' P T)⟩ := hl.removePending
  have hnext : s.links.next (.ev e) = (P.map .ev).headD .pending :=
    hl.next_mem_pending
  have heP : e ∉ P := (List.nodup_cons.mp h.lists.pending_nodup).1
  refine ⟨_, by rw [Events.fire, hL']; rfl, ?_, by rw [← hnext]; rfl⟩
  refine ⟨hlists, h.watch, h.timers, fun x => ?_, fun x hx => ?_, ?_⟩
  · by_cases hxe : e = x
    · subst hxe
      simp [log, Ril.due, h.due, heP]
    · simp [log, Ril.due, h.due, hxe, Ne.symm hxe]
  · exact h.live x (hx.imp_left (List.mem_cons_of_mem _))
  · exact ⟨h.live e (.inl List.mem_cons_self), h.punctual⟩

/-- The timer list leads to each of its events. -/
theorem onTimer (h : Inv s P T) (he : e ∈ T) : s.OnTimer e := by
  have hpath : ∀ {a b : Node} {l : List Node}, Linked s.links a l b → ∀ x ∈ l,
      ∃ n, s.links.next^[n + 1] a = x := by
    intro a b l hl
    induction l generalizing a with
    | nil => simp
    | cons y l ih =>
      intro x hx
      rcases List.mem_cons.mp hx with rfl | hx
      · exact ⟨0, hl.1.1⟩
      · obtain ⟨n, hn⟩ := ih hl.2 x hx
        refine ⟨n + 1, ?_⟩
        rw [Function.iterate_succ_apply, hl.1.1]
        exact hn
  exact hpath h.lists.timers.linked (.ev e) (List.mem_map_of_mem he)

end Events.Inv

/-! ## Runs -/

namespace Events

/-- The invariant for some lists. -/
def Good (s : Events) : Prop := ∃ P T, Inv s P T ∧ GoesOn P s.phase

theorem eventAdd_phase (s : Events) (e : Nat) : (s.eventAdd e).phase = s.phase := by
  unfold eventAdd
  split <;> rfl

theorem eventDel_phase (s : Events) (e : Nat) : (s.eventDel e).phase = s.phase := by
  unfold eventDel
  split <;> rfl

/-- The saved node is the first pending event. -/
theorem head?_ne_of_saved {s : Events} {P : List Nat} {e : Nat} (hph : GoesOn P s.phase)
    (hc : s.phase.calls) (he : s.saved ≠ some (.ev e)) : P.head? ≠ some e := by
  unfold saved at he
  cases hp : s.phase with
  | waiting =>
    rw [hp] at hph
    simp [GoesOn] at hph
    simp [hph]
  | running x next =>
    simp only [hp, GoesOn] at he hph
    rw [hph] at he
    cases P with
    | nil => simp
    | cons y P => simpa using he
  | firing ev => simp [hp, Phase.calls] at hc
  | crashed => simp [hp, Phase.calls] at hc

/-- Another list of pending events with the same first one. -/
theorem GoesOn.congr {P P' : List Nat} {ph : Phase} (h : GoesOn P ph) (hc : ph.calls)
    (hh : P'.head? = P.head?) : GoesOn P' ph := by
  cases P with
  | nil =>
    obtain rfl : P' = [] := by simpa using hh
    exact h
  | cons x P =>
    obtain ⟨P'', rfl⟩ : ∃ P'', P' = x :: P'' := by
      cases P' with
      | nil => simp at hh
      | cons y P' => exact ⟨P', by simpa using hh⟩
    cases ph with
    | waiting => simp [GoesOn] at h
    | running e next => exact h
    | firing ev => exact h
    | crashed => exact h

/-- Every allowed step keeps the invariant. -/
theorem Good.step {s s' : Events} {l : EStep} (h : s.Good) (hok : s.Allowed l)
    (hs : estep s l = some s') : s'.Good := by
  obtain ⟨P, T, hi, hph⟩ := h
  cases l with
  | eventSet e fd persist =>
    simp only [estep] at hs
    split at hs <;> cases hs
    exact ⟨P, T, hi.eventSet hok.1 hok.2 fd persist, hph⟩
  | eventAdd e =>
    simp only [estep] at hs
    split at hs <;> cases hs
    refine ⟨P, T, hi.eventAdd hok.1 fun he => hok.2 (hi.onTimer he), ?_⟩
    rw [eventAdd_phase]
    exact hph
  | eventDel e =>
    simp only [estep] at hs
    split at hs <;> cases hs
    refine ⟨P, T, hi.eventDel hok, ?_⟩
    rw [eventDel_phase]
    exact hph
  | timerAdd e now fuel tv =>
    simp only [estep] at hs
    split at hs
    swap
    · cases hs
    cases tv with
    | none =>
      cases hs
      exact ⟨P, T, hi, hph⟩
    | some tv =>
      rcases hi.timerAdd now tv fuel hok.1 hok.2 with hf | ⟨s₁, T', hr, hi', hp⟩
      · rw [hf.1] at hs
        cases hs
      · rw [hr] at hs
        cases hs
        exact ⟨P, T', hi', hp ▸ hph⟩
  | timerDelete e =>
    simp only [estep] at hs
    split at hs
    swap
    · cases hs
    rename_i hc
    have hok' : s.Unlinked e ∨ s.index e = none ∧ P.head? ≠ some e :=
      hok.imp_right (And.imp_right (head?_ne_of_saved hph hc))
    obtain ⟨s₁, P', T', hr, hi', hp, hh⟩ := hi.timerDelete hok'
    rw [hr] at hs
    cases hs
    exact ⟨P', T', hi', hp ▸ hph.congr hc hh⟩
  | poll now fuel ready =>
    simp only [estep] at hs
    split at hs
    swap
    · cases hs
    rename_i hg
    obtain rfl : P = [] := by simpa [hg.1, GoesOn] using hph
    rcases hi.poll now fuel ready with ⟨hf, -⟩ | ⟨s₁, P', T', hr, hi', hp, -⟩
    · rw [hf] at hs
      cases hs
    · rw [hr] at hs
      cases hs
      refine ⟨P', T', hi', ?_⟩
      rw [hp]
      rfl
  | fire =>
    simp only [estep] at hs
    split at hs
    swap
    · cases hs
    rename_i ev hp
    rw [hp] at hph
    cases hph
    cases P with
    | nil =>
      cases hs
      exact ⟨[], T, ⟨hi.lists, hi.watch, hi.timers, hi.due, hi.live, hi.punctual⟩, rfl⟩
    | cons e P =>
      obtain ⟨s₁, hr, hi', hp'⟩ := hi.fire
      simp only [List.map_cons, List.headD_cons, hr] at hs
      cases hs
      refine ⟨P, T, hi', ?_⟩
      rw [hp']
      rfl
  | finish =>
    simp only [estep] at hs
    split at hs
    · rename_i e next hp
      cases hs
      rw [hp] at hph
      exact ⟨P, T, ⟨hi.lists, hi.watch, hi.timers, hi.due, hi.live, hi.punctual⟩, hph⟩
    · cases hs

/-- A pass over `n` events whose callbacks call nothing. -/
def pass : Nat → List EStep
  | 0 => [.fire]
  | n + 1 => .fire :: .finish :: pass n

/-- A pass that is under way comes to its end. -/
theorem Inv.pass_ends {s : Events} {P T : List Nat} (h : Inv s P T)
    (hp : s.phase = .firing ((P.map .ev).headD .pending)) :
    ∃ s', run estep s (pass P.length) = some s' ∧ s'.phase = .waiting := by
  induction P generalizing s with
  | nil => exact ⟨{ s with phase := .waiting }, by simp [pass, run, estep, hp, Events.fire, after], rfl⟩
  | cons e P ih =>
    obtain ⟨s₁, hr, h₁, hp₁⟩ := h.fire
    have h₂ : Inv { s₁ with phase := .firing ((P.map .ev).headD .pending) } P T :=
      ⟨h₁.lists, h₁.watch, h₁.timers, h₁.due, h₁.live, h₁.punctual⟩
    obtain ⟨s', hrun, hw⟩ := ih h₂ rfl
    refine ⟨s', ?_, hw⟩
    have hfire : estep s .fire = some s₁ := by
      simp only [estep, hp, List.map_cons, List.headD_cons, hr]
      rfl
    have hfinish : estep s₁ .finish = some { s₁ with
        phase := .firing ((P.map .ev).headD .pending) } := by
      simp only [estep, hp₁]
    simp only [List.length_cons, pass, run, hfire, hfinish, Option.bind_some]
    exact hrun

/-- An empty timer list leads to no event. -/
theorem not_onTimer {s : Events} {e : Nat} (h : s.links.next .timer = .timer) : ¬ s.OnTimer e := by
  rintro ⟨n, hn⟩
  rw [Function.iterate_fixed h] at hn
  cases hn

/-- The calls return, and so does a round of the loop up to its first callback. -/
theorem Good.returns {s : Events} (h : s.Good) :
    (s.phase.calls → ∀ e now tv, s.Unlinked e → s.index e = none →
      ∃ fuel, (estep s (.timerAdd e now fuel tv)).isSome) ∧
    (s.phase = .waiting → ∀ now ready, ready.Nodup →
      ∃ fuel, (estep s (.poll now fuel ready)).isSome) := by
  obtain ⟨P, T, hi, hph⟩ := h
  -- One round more than there are timers is enough.
  refine ⟨fun hc e now tv he hix => ⟨T.length + 1, ?_⟩, fun hw now ready hnd => ⟨T.length + 1, ?_⟩⟩
  · simp only [estep, hc, if_true]
    cases tv with
    | none => rfl
    | some tv =>
      rcases hi.timerAdd now tv (T.length + 1) he hix with ⟨-, hle⟩ | ⟨s₁, T', hr, -⟩
      · omega
      · rw [hr]
        rfl
  · simp only [estep, hw, hnd, and_self, if_true]
    obtain rfl : P = [] := by simpa [hw, GoesOn] using hph
    rcases hi.poll now (T.length + 1) ready with ⟨-, hle⟩ | ⟨s₁, P', T', hr, -⟩
    · omega
    · rw [hr]
      rfl

end Events

/-- In every run whose calls are allowed: nothing crashes, no event is called while it is deleted,
and each event that was moved to the pending list is called once unless it is deleted first. A pass
that is under way comes to its end. -/
theorem events_delivered (ls : List EStep) (s : Events)
    (hok : RunOk estep Events.Allowed Events.init ls) (hrun : run estep Events.init ls = some s) :
    s.phase ≠ .crashed ∧ Punctual s.trace ∧ (∀ e, due e s.trace ≠ none) ∧
      (s.phase = .waiting → ∀ e, due e s.trace = some false) ∧
      ∀ ev, s.phase = .firing ev →
        ∃ n s', run estep s (Events.pass n) = some s' ∧ s'.phase = .waiting := by
  have hinit : Events.init.Good := ⟨[], [], .init, rfl⟩
  obtain ⟨P, T, hi, hph⟩ := run_invariant (fun _ _ _ h hl hs => h.step hl hs) hinit hok hrun
  refine ⟨?_, hi.punctual, fun e => ?_, fun hw e => ?_, fun ev hev => ?_⟩
  · intro hc
    rw [hc] at hph
    exact hph
  · rw [hi.due]
    simp
  · rw [hw] at hph
    rw [hi.due, show P = [] from hph]
    rfl
  · rw [hev] at hph
    obtain ⟨s', hr, hw⟩ := hi.pass_ends (hev.trans (congrArg _ hph))
    exact ⟨P.length, s', hr, hw⟩

/-- Calls that can be seen to be allowed without a walk over the timer list. -/
def Events.Plain (s : Events) : EStep → Prop
  | .eventAdd e => s.index e = none ∧ s.links.next .timer = .timer
  | .eventSet e _ _ => s.Unlinked e ∧ s.index e = none
  | .eventDel e => s.Unlinked e
  | .timerAdd e _ _ _ => s.Unlinked e ∧ s.index e = none
  | .timerDelete e => s.Unlinked e ∨ s.index e = none ∧ s.saved ≠ some (.ev e)
  | .poll .. | .fire | .finish => True

instance (s : Events) : (l : EStep) → Decidable (s.Plain l)
  | .eventAdd _ | .eventSet .. | .timerAdd .. => inferInstanceAs (Decidable (_ ∧ _))
  | .eventDel _ | .timerDelete _ => inferInstanceAs (Decidable (_ ∨ _))
  | .poll .. | .fire | .finish => .isTrue trivial

theorem Events.Plain.allowed {s : Events} {l : EStep} (h : s.Plain l) : s.Allowed l := by
  cases l with
  | eventAdd e => exact ⟨h.1, not_onTimer h.2⟩
  | timerAdd e now fuel tv =>
    cases tv with
    | none => trivial
    | some tv => exact h
  | eventSet _ _ _ | eventDel _ | timerDelete _ | poll _ _ _ | fire | finish => exact h

/-- Three timers and a descriptor are due together. The first callback deletes the third timer and
adds it again, and the last one deletes its own event. -/
def deleteLater : List EStep :=
  [.eventSet 0 3 true, .eventAdd 0, .timerAdd 1 ⟨0, 0⟩ 5 (some ⟨1, 0⟩),
    .timerAdd 2 ⟨0, 0⟩ 5 (some ⟨1, 500000⟩), .timerAdd 3 ⟨0, 900000⟩ 5 (some ⟨1, 600000⟩),
    .poll ⟨9, 0⟩ 5 [3], .fire, .timerDelete 3, .timerAdd 3 ⟨9, 0⟩ 5 (some ⟨1, 0⟩), .finish, .fire,
    .finish, .fire, .eventDel 0, .finish, .fire]

/-- The two timers that were not deleted and the descriptor were called, in this order. -/
theorem events_delivered_deleteLater :
    ∃ s, run estep Events.init deleteLater = some s ∧ s.phase = .waiting ∧
      s.trace.filterMap (fun | .invoked e => some e | _ => none) = [0, 2, 1] ∧
      Punctual s.trace ∧ ∀ e, due e s.trace = some false := by
  have hok : RunOk estep Events.Plain Events.init deleteLater := by decide +kernel
  obtain ⟨s, hs⟩ := Option.isSome_iff_exists.mp
    (show (run estep Events.init deleteLater).isSome by decide +kernel)
  have hlast : (run estep Events.init deleteLater).map (fun s => (s.phase,
      s.trace.filterMap fun | .invoked e => some e | _ => none)) = some (.waiting, [0, 2, 1]) := by
    decide +kernel
  rw [hs, Option.map_some, Option.some.injEq, Prod.mk.injEq] at hlast
  obtain ⟨-, hp, -, hdue, -⟩ := events_delivered deleteLater s (hok.imp fun _ _ hl => hl.allowed) hs
  exact ⟨s, hs, hlast.1, hlast.2, hp, hdue hlast.1⟩

/-- Two timers are due together, and the callback of the first deletes the second. -/
def deleteNext : List EStep :=
  [.timerAdd 1 ⟨0, 0⟩ 5 (some ⟨1, 0⟩), .timerAdd 2 ⟨0, 0⟩ 5 (some ⟨2, 0⟩), .poll ⟨9, 0⟩ 5 [],
    .fire, .timerDelete 2, .finish, .fire, .finish, .fire]

/-- The second timer is called although it was deleted, and then the loop crashes. -/
theorem deleted_is_invoked :
    ∃ s, run estep Events.init deleteNext = some s ∧
      s.trace = [.invoked 2, .deleted 2, .invoked 1, .moved 2, .moved 1, .added 2, .added 1] ∧
      ¬ Punctual s.trace ∧ s.phase = .crashed := by
  refine ⟨_, rfl, rfl, fun hp => ?_, rfl⟩
  exact absurd hp.1 (by decide)

end Twm.Ril
