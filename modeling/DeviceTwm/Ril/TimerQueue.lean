import DeviceTwm.Ril.EventDelivery

/-!
# The timer list

Runs of `ril_timer_add`, `ril_timer_delete` and `processTimeouts`, in any order and at any times.

* `Timeval.lt_iff`, `add_micros`, `sub_micros`: the macros of `ril_event.cpp`, in microseconds. The
  seconds of an absolute time have 32 bits, so that a timer of 68 years can be due in the past.
* `life`: what a log says about an event, from its call of `ril_timer_add` on.
* `timer_queue`: the list is sorted, `processTimeouts` takes what is due, and `calcNextTimeout` gives
  the time to the first timer.
-/

open Lib

namespace Twm.Ril

/-! ## Times -/

theorem timeT_of_fits {x : Int} (hl : -2 ^ 31 ≤ x) (hu : x < 2 ^ 31) : timeT x = x := by
  simp only [timeT, Int.bmod]
  omega

namespace Timeval

variable {a b : Timeval}

/-- The time in microseconds. -/
def micros (t : Timeval) : Int := t.sec * 1000000 + t.usec

/-- A time that is not negative. -/
def Valid (t : Timeval) : Prop := 0 ≤ t.sec ∧ t.sec < 2 ^ 31 ∧ 0 ≤ t.usec ∧ t.usec < 1000000

instance (t : Timeval) : Decidable t.Valid := inferInstanceAs (Decidable (_ ∧ _))

theorem lt_iff (ha : a.Valid) (hb : b.Valid) : a.lt b = true ↔ a.micros < b.micros := by
  obtain ⟨-, -, ha₀, ha₁⟩ := ha
  obtain ⟨-, -, hb₀, hb₁⟩ := hb
  unfold lt micros
  split
  · rw [decide_eq_true_eq]
    omega
  · rw [decide_eq_true_eq]
    omega

theorem lt_eq_false_iff (ha : a.Valid) (hb : b.Valid) : a.lt b = false ↔ b.micros ≤ a.micros := by
  rw [← Bool.not_eq_true, lt_iff ha hb]
  omega

theorem add_micros (ha : a.Valid) (hb : b.Valid) (h : a.micros + b.micros < 2 ^ 31 * 1000000) :
    (a.add b).Valid ∧ (a.add b).micros = a.micros + b.micros := by
  obtain ⟨ha₂, ha₃, ha₀, ha₁⟩ := ha
  obtain ⟨hb₂, hb₃, hb₀, hb₁⟩ := hb
  simp only [micros] at h
  have hsec : timeT (a.sec + b.sec) = a.sec + b.sec := timeT_of_fits (by omega) (by omega)
  simp only [add, hsec]
  split
  · rw [timeT_of_fits (by omega) (by omega)]
    simp only [Valid, micros]
    omega
  · simp only [Valid, micros]
    omega

theorem sub_micros (ha : a.Valid) (hb : b.Valid) (h : b.micros ≤ a.micros) :
    (a.sub b).Valid ∧ (a.sub b).micros = a.micros - b.micros := by
  obtain ⟨ha₂, ha₃, ha₀, ha₁⟩ := ha
  obtain ⟨hb₂, hb₃, hb₀, hb₁⟩ := hb
  simp only [micros] at h
  have hsec : timeT (a.sec - b.sec) = a.sec - b.sec := timeT_of_fits (by omega) (by omega)
  simp only [sub, hsec]
  split
  · rw [timeT_of_fits (by omega) (by omega)]
    simp only [Valid, micros]
    omega
  · simp only [Valid, micros]
    omega

end Timeval

/-! ## Runs -/

/-- The event loop, and what happened so far. An entry has a time: when an added timer is due, and the
time at which one is moved. The newest entry is first. -/
structure Queue where
  ev : Events
  log : List (Entry × Int)

def Queue.init : Queue := ⟨.init, []⟩

inductive QStep
  | timerAdd (e : Nat) (now : Timeval) (fuel : Nat) (tv : Option Timeval)
  | timerDelete (e : Nat)
  | processTimeouts (now : Timeval) (fuel : Nat)
  deriving DecidableEq

/-- The entries that the call wrote, with the time. -/
def Queue.next (q : Queue) (time : Int) (s : Events) : Queue where
  ev := s
  log := (s.trace.take (s.trace.length - q.ev.trace.length)).map (·, time) ++ q.log

theorem Queue.next_self (q : Queue) (time : Int) : q.next time q.ev = q := by simp [Queue.next]

/-- A call that has not ended, or that crashes, is no step. -/
def qstep (q : Queue) : QStep → Option Queue
  | .timerAdd e now fuel tv =>
    (q.ev.timerAdd e now fuel tv).toOption.map
      (q.next (now.micros + (tv.map Timeval.micros).getD 0))
  | .timerDelete e => (q.ev.timerDelete e).toOption.map (q.next 0)
  | .processTimeouts now fuel => (q.ev.processTimeouts now fuel).toOption.map (q.next now.micros)

/-- Where an event is. -/
inductive Place
  | free
  | queued (due : Int)
  | pending
  deriving DecidableEq

/-- Where the log leaves an event. It is added when it is on no list, moved once and only after it
was due, and deleted from a list. -/
def life (e : Nat) : List (Entry × Int) → Option Place
  | [] => some .free
  | (.added x, due) :: log =>
    if x = e then
      match life e log with
      | some .free => some (.queued due)
      | _ => none
    else life e log
  | (.moved x, now) :: log =>
    if x = e then
      match life e log with
      | some (.queued due) => if due < now then some .pending else none
      | _ => none
    else life e log
  | (.deleted x, _) :: log =>
    if x = e then
      match life e log with
      | some (.queued _) | some .pending => some .free
      | _ => none
    else life e log
  | (.invoked _, _) :: log => life e log

/-- An event that is on no list is added, and its absolute time has a `time_t`. -/
def Queue.Fits (q : Queue) : QStep → Prop
  | .timerAdd e now _ tv => q.ev.Unlinked e ∧ now.Valid ∧
    ∀ t ∈ tv, t.Valid ∧ now.micros + t.micros < 2 ^ 31 * 1000000
  | .timerDelete _ => True
  | .processTimeouts now _ => now.Valid

instance (q : Queue) : DecidablePred q.Fits
  | .timerAdd e now _ tv => inferInstanceAs (Decidable (q.ev.Unlinked e ∧ now.Valid ∧
    ∀ t ∈ tv, t.Valid ∧ now.micros + t.micros < 2 ^ 31 * 1000000))
  | .timerDelete _ => .isTrue trivial
  | .processTimeouts now _ => inferInstanceAs (Decidable now.Valid)

/-- The place of an event, by the lists. -/
def place (s : Events) (P T : List Nat) (e : Nat) : Place :=
  if e ∈ T then .queued (s.timeout e).micros else if e ∈ P then .pending else .free

/-- The events `P` are pending and the events `T` wait, sorted by their timeouts. -/
structure QueueInv (q : Queue) (P T : List Nat) : Prop where
  lists : Lists q.ev.links P T
  sorted : T.Pairwise fun a b => (q.ev.timeout a).micros ≤ (q.ev.timeout b).micros
  valid : ∀ e ∈ T, (q.ev.timeout e).Valid
  life : ∀ e, life e q.log = some (place q.ev P T e)

namespace QueueInv

variable {q : Queue} {P T : List Nat} {e : Nat}

theorem init : QueueInv .init [] [] where
  lists := Events.Inv.init.lists
  sorted := .nil
  valid := by simp
  life := fun _ => rfl

/-- In a sorted list everything after an event is due later. -/
theorem le_of_head {B : List Nat} {f : Nat → Int} {x : Int}
    (hs : B.Pairwise fun a b => f a ≤ f b) (hB : ∀ b ∈ B.head?, x ≤ f b) : ∀ b ∈ B, x ≤ f b := by
  cases B with
  | nil => simp
  | cons b B =>
    have hb : x ≤ f b := hB b rfl
    intro c hc
    rcases List.mem_cons.mp hc with rfl | hc
    · exact hb
    · exact Int.le_trans hb ((List.pairwise_cons.mp hs).1 c hc)

theorem timerAdd (h : QueueInv q P T) {now tv : Timeval} (hP : e ∉ P) (hT : e ∉ T)
    (hn : now.Valid) (ht : tv.Valid) (hfit : now.micros + tv.micros < 2 ^ 31 * 1000000) (fuel : Nat) :
    (q.ev.timerAdd e now fuel (some tv) = .error .fuel ∧ fuel ≤ T.length) ∨
    ∃ s T', q.ev.timerAdd e now fuel (some tv) = .ok s ∧
      QueueInv (q.next (now.micros + tv.micros) s) P T' := by
  rcases h.lists.timerAdd hP hT now tv fuel with hf | ⟨L', A, B, rfl, hlists, hok, hA, hB⟩
  · exact .inl hf
  right
  obtain ⟨hv, hm⟩ := Timeval.add_micros hn ht hfit
  have hne : ∀ x ∈ A ++ B, x ≠ e := by
    rintro x hx rfl
    exact hT hx
  have hold : ∀ x ∈ A ++ B, Function.update q.ev.timeout e (now.add tv) x = q.ev.timeout x :=
    fun x hx => Function.update_of_ne (hne x hx) ..
  have hnew : Function.update q.ev.timeout e (now.add tv) e = now.add tv := Function.update_self ..
  obtain ⟨hsA, hsB, hsAB⟩ := List.pairwise_append.mp h.sorted
  have hAle : ∀ a ∈ A, (q.ev.timeout a).micros ≤ (now.add tv).micros := by
    intro a ha
    exact Int.le_of_lt ((Timeval.lt_iff (h.valid a (by simp [ha])) hv).mp (hA a ha))
  have hBle : ∀ b ∈ B, (now.add tv).micros ≤ (q.ev.timeout b).micros := by
    refine le_of_head hsB fun b hb => ?_
    have hb' : b ∈ A ++ B := List.mem_append_right _ (List.mem_of_mem_head? hb)
    exact (Timeval.lt_eq_false_iff (h.valid b hb') hv).mp (hB b hb)
  refine ⟨_, A ++ e :: B, hok, ⟨hlists, ?_, ?_, ?_⟩⟩
  · simp only [Queue.next, Events.log]
    rw [List.pairwise_append, List.pairwise_cons]
    refine ⟨hsA.imp_of_mem fun {a b} ha hb hab => ?_, ⟨fun b hb => ?_,
      hsB.imp_of_mem fun {a b} ha hb hab => ?_⟩, fun a ha b hb => ?_⟩
    · rwa [hold a (by simp [ha]), hold b (by simp [hb])]
    · rw [hnew, hold b (by simp [hb])]
      exact hBle b hb
    · rwa [hold a (by simp [ha]), hold b (by simp [hb])]
    · rw [hold a (by simp [ha])]
      rcases List.mem_cons.mp hb with rfl | hb
      · rw [hnew]
        exact hAle a ha
      · rw [hold b (by simp [hb])]
        exact hsAB a ha b hb
  · intro x hx
    by_cases hxe : x = e
    · subst hxe
      simpa [Queue.next, Events.log] using hv
    · have hx : x ∈ A ++ B := by simpa [hxe] using hx
      simp only [Queue.next, Events.log, hold x hx]
      exact h.valid x hx
  · intro x
    have hlog : ∀ s : Events, s.trace = .added e :: q.ev.trace →
        (q.next (now.micros + tv.micros) s).log = (.added e, now.micros + tv.micros) :: q.log := by
      intro s hs
      simp [Queue.next, hs]
    rw [hlog _ rfl]
    by_cases hxe : e = x
    · subst hxe
      have hfree : Ril.life e q.log = some .free := by
        rw [h.life e, place, if_neg hT, if_neg hP]
      simp [Ril.life, hfree, place, Queue.next, Events.log, hm]
    · have hx : x ∈ A ++ e :: B ↔ x ∈ A ++ B := by simp [Ne.symm hxe]
      simp only [Ril.life, if_neg hxe, h.life x, place, hx, Queue.next, Events.log,
        Function.update_of_ne (Ne.symm hxe)]

/-- An event is taken off its list. -/
theorem deleted (h : QueueInv q P T) {L' : Links Node} {P' T' : List Nat} (he : e ∈ P ∨ e ∈ T)
    (hlists : Lists L' P' T') (hsub : T'.Sublist T) (hP : ∀ x, x ∈ P' ↔ x ∈ P ∧ x ≠ e)
    (hT : ∀ x, x ∈ T' ↔ x ∈ T ∧ x ≠ e) :
    QueueInv (q.next 0 ({ q.ev with links := L' }.log (.deleted e))) P' T' where
  lists := hlists
  sorted := h.sorted.sublist hsub
  valid := fun x hx => h.valid x (hsub.subset hx)
  life := by
    intro x
    have hlog : (q.next 0 ({ q.ev with links := L' }.log (.deleted e))).log =
        (.deleted e, 0) :: q.log := by simp [Queue.next, Events.log]
    rw [hlog]
    by_cases hxe : e = x
    · subst hxe
      have hout : place q.ev P' T' e = .free := by simp [place, hP, hT]
      have hin : place q.ev P T e = .pending ∨ ∃ due, place q.ev P T e = .queued due := by
        unfold place
        split
        · exact .inr ⟨_, rfl⟩
        · next hT => exact .inl (if_pos (he.resolve_right hT))
      simp only [Ril.life, if_true, h.life e]
      rcases hin with hin | ⟨due, hin⟩
      · rw [hin]
        exact congrArg some hout.symm
      · rw [hin]
        exact congrArg some hout.symm
    · simp only [Ril.life, if_neg hxe, h.life x]
      simp [place, hP, hT, Ne.symm hxe, Queue.next, Events.log]

theorem timerDelete (h : QueueInv q P T) (e : Nat) :
    ∃ s P' T', q.ev.timerDelete e = .ok s ∧ QueueInv (q.next 0 s) P' T' := by
  rcases h.lists.timerDelete e with
    ⟨-, -, heq⟩ | ⟨L', P₁, P₂, rfl, hlists, heq⟩ | ⟨L', T₁, T₂, rfl, hlists, heq⟩
  · refine ⟨q.ev, P, T, heq, ?_⟩
    rwa [Queue.next_self]
  · have he : e ∈ P₁ ++ e :: P₂ := by simp
    exact ⟨_, P₁ ++ P₂, T, heq, h.deleted (.inl he) hlists (.refl _)
      (mem_remove h.lists.pending_nodup) (mem_and_ne (h.lists.disjoint e he))⟩
  · have he : e ∈ T₁ ++ e :: T₂ := by simp
    have hP : e ∉ P := fun hP => h.lists.disjoint e hP he
    exact ⟨_, P, T₁ ++ T₂, heq, h.deleted (.inr he) hlists
      ((List.sublist_cons_self _ _).append_left _) (mem_and_ne hP) (mem_remove h.lists.timers_nodup)⟩

/-- Events that are moved one after the other. -/
theorem life_moved {l : List Nat} {log : List (Entry × Int)} {now : Int} (hl : l.Nodup)
    (hq : ∀ e ∈ l, ∃ due, Ril.life e log = some (.queued due) ∧ due < now) (e : Nat) :
    Ril.life e (l.map (fun x => (.moved x, now)) ++ log) =
      if e ∈ l then some .pending else Ril.life e log := by
  induction l with
  | nil => rfl
  | cons x l ih =>
    obtain ⟨hx, hl⟩ := List.nodup_cons.mp hl
    have ih := ih hl fun y hy => hq y (List.mem_cons_of_mem _ hy)
    by_cases hxe : x = e
    · subst hxe
      obtain ⟨due, hdue, hlt⟩ := hq x List.mem_cons_self
      simp [Ril.life, ih, hx, hdue, hlt]
    · simp [Ril.life, ih, hxe, Ne.symm hxe]

/-- What is due comes first. -/
theorem split_due (h : QueueInv q P T) {now : Timeval} (hn : now.Valid) {T₁ T₂ : List Nat}
    (hT : T = T₁ ++ T₂) (h₁ : ∀ x ∈ T₁, (q.ev.timeout x).lt now = true)
    (h₂ : ∀ x ∈ T₂.head?, (q.ev.timeout x).lt now = false) :
    (∀ x ∈ T₁, (q.ev.timeout x).micros < now.micros) ∧
      ∀ x ∈ T₂, now.micros ≤ (q.ev.timeout x).micros := by
  subst hT
  refine ⟨fun x hx => (Timeval.lt_iff (h.valid x (by simp [hx])) hn).mp (h₁ x hx), ?_⟩
  refine le_of_head (List.pairwise_append.mp h.sorted).2.1 fun x hx => ?_
  have hx' : x ∈ T₁ ++ T₂ := List.mem_append_right _ (List.mem_of_mem_head? hx)
  exact (Timeval.lt_eq_false_iff (h.valid x hx') hn).mp (h₂ x hx)

theorem processTimeouts (h : QueueInv q P T) {now : Timeval} (hn : now.Valid) (fuel : Nat) :
    (q.ev.processTimeouts now fuel = .error .fuel ∧ fuel ≤ T.length) ∨
    ∃ s, q.ev.processTimeouts now fuel = .ok s ∧ s.timeout = q.ev.timeout ∧
      QueueInv (q.next now.micros s)
        (P ++ T.filter fun e => (q.ev.timeout e).micros < now.micros)
        (T.filter fun e => now.micros ≤ (q.ev.timeout e).micros) := by
  rcases h.lists.processTimeouts now fuel with hf | ⟨L', T₁, T₂, hT, hlists, hok, h₁, h₂⟩
  · exact .inl hf
  right
  obtain ⟨hlt, hle⟩ := h.split_due hn hT h₁ h₂
  subst hT
  have hf₁ : (T₁ ++ T₂).filter (fun e => (q.ev.timeout e).micros < now.micros) = T₁ := by
    rw [List.filter_append, List.filter_eq_self.mpr (by simpa using hlt),
      List.filter_eq_nil_iff.mpr (by simpa using hle), List.append_nil]
  have hf₂ : (T₁ ++ T₂).filter (fun e => now.micros ≤ (q.ev.timeout e).micros) = T₂ := by
    rw [List.filter_append, List.filter_eq_nil_iff.mpr (by simpa using hlt),
      List.filter_eq_self.mpr (by simpa using hle), List.nil_append]
  refine ⟨_, hok, rfl, ?_⟩
  rw [hf₁, hf₂]
  have hnd := (List.nodup_append.mp h.lists.timers_nodup).1
  have hT₂ : ∀ x ∈ T₁, x ∉ T₂ := fun x hx hx' =>
    (List.nodup_append.mp h.lists.timers_nodup).2.2 x hx x hx' rfl
  refine ⟨hlists, (List.pairwise_append.mp h.sorted).2.1, fun x hx => h.valid x (by simp [hx]), ?_⟩
  intro x
  have hlog : ∀ s : Events, s.trace = T₁.reverse.map .moved ++ q.ev.trace →
      (q.next now.micros s).log = T₁.reverse.map (fun x => (.moved x, now.micros)) ++ q.log := by
    intro s hs
    simp [Queue.next, hs]
  rw [hlog _ rfl, life_moved (List.nodup_reverse.mpr hnd)]
  · by_cases hx : x ∈ T₁
    · simp [place, hx, hT₂ x hx]
    · rw [if_neg (by simpa using hx), h.life x]
      simp [place, hx, Queue.next]
  · intro e he
    have he : e ∈ T₁ := by simpa using he
    exact ⟨_, by rw [h.life e, place, if_pos (by simp [he])], hlt e he⟩

theorem step (h : QueueInv q P T) {l : QStep} {q' : Queue} (hok : q.Fits l)
    (hs : qstep q l = some q') : ∃ P' T', QueueInv q' P' T' := by
  cases l with
  | timerAdd e now fuel tv =>
    obtain ⟨he, hn, hfit⟩ := hok
    cases tv with
    | none =>
      obtain rfl : q = q' := by
        simpa [qstep, Events.timerAdd, Except.toOption, Queue.next_self] using hs
      exact ⟨P, T, h⟩
    | some tv =>
      obtain ⟨ht, hlt⟩ := hfit tv rfl
      have hfree : e ∉ P ∧ e ∉ T := by
        rw [← not_or]
        exact fun hl => (h.lists.linked_iff e).mpr hl he
      rcases h.timerAdd hfree.1 hfree.2 hn ht hlt fuel with ⟨hf, -⟩ | ⟨s, T', hs', hinv⟩
      · simp [qstep, hf, Except.toOption] at hs
      · simp only [qstep, hs', Except.toOption, Option.map_some, Option.some.injEq] at hs
        subst hs
        exact ⟨P, T', hinv⟩
  | timerDelete e =>
    obtain ⟨s, P', T', hs', hinv⟩ := h.timerDelete e
    simp only [qstep, hs', Except.toOption, Option.map_some, Option.some.injEq] at hs
    subst hs
    exact ⟨P', T', hinv⟩
  | processTimeouts now fuel =>
    rcases h.processTimeouts hok fuel with ⟨hf, -⟩ | ⟨s, hs', -, hinv⟩
    · simp [qstep, hf, Except.toOption] at hs
    · simp only [qstep, hs', Except.toOption, Option.map_some, Option.some.injEq] at hs
      subst hs
      exact ⟨_, _, hinv⟩

theorem calcNextTimeout_eq_none (h : QueueInv q P T) (now : Timeval) :
    q.ev.calcNextTimeout now = none ↔ T = [] := by
  simp only [Events.calcNextTimeout, h.lists.next_timer]
  cases T with
  | nil => simp
  | cons e T =>
    simp only [List.map_cons, List.headD_cons, reduceCtorEq, if_false, iff_false]
    split <;> simp

theorem calcNextTimeout (h : QueueInv q P (e :: T)) {now : Timeval} (hn : now.Valid) :
    ∃ tv, q.ev.calcNextTimeout now = some tv ∧ tv.Valid ∧
      tv.micros = max 0 ((q.ev.timeout e).micros - now.micros) := by
  have hv := h.valid e List.mem_cons_self
  simp only [Events.calcNextTimeout, h.lists.next_timer, List.map_cons, List.headD_cons, reduceCtorEq,
    if_false, Events.nodeTimeout]
  cases hlt : now.lt (q.ev.timeout e) with
  | true =>
    have hlt := (Timeval.lt_iff hn hv).mp hlt
    obtain ⟨hsv, hsm⟩ := Timeval.sub_micros hv hn (Int.le_of_lt hlt)
    exact ⟨_, rfl, hsv, by omega⟩
  | false =>
    have hle := (Timeval.lt_eq_false_iff hn hv).mp hlt
    refine ⟨⟨0, 0⟩, rfl, by decide, ?_⟩
    simp only [Timeval.micros] at hle ⊢
    omega

end QueueInv

/-! ## The queue -/

/-- The events `P` are pending, and the events `T` wait. -/
structure QueueSpec (q : Queue) (P T : List Nat) : Prop where
  lists : Lists q.ev.links P T
  sorted : T.Pairwise fun a b => (q.ev.timeout a).micros ≤ (q.ev.timeout b).micros
  /-- `ril_timer_add` returns. -/
  adds : ∀ e now tv fuel, q.Fits (.timerAdd e now fuel (some tv)) → T.length < fuel →
    ∃ s, q.ev.timerAdd e now fuel (some tv) = .ok s
  /-- `processTimeouts` returns, and moves what is due in the order of the list. -/
  moves : ∀ now fuel, now.Valid → T.length < fuel → ∃ s, q.ev.processTimeouts now fuel = .ok s ∧
    Lists s.links (P ++ T.filter fun e => (q.ev.timeout e).micros < now.micros)
      (T.filter fun e => now.micros ≤ (q.ev.timeout e).micros)
  next_none : ∀ now, q.ev.calcNextTimeout now = none ↔ T = []
  next : ∀ now, now.Valid → ∀ e ∈ T.head?, ∃ tv, q.ev.calcNextTimeout now = some tv ∧ tv.Valid ∧
    tv.micros = max 0 ((q.ev.timeout e).micros - now.micros)
  /-- Each timer was added, and moved once and not early, or deleted, or is still there. -/
  life : ∀ e, life e q.log = some (place q.ev P T e)

theorem QueueInv.spec {q : Queue} {P T : List Nat} (h : QueueInv q P T) : QueueSpec q P T where
  lists := h.lists
  sorted := h.sorted
  adds := by
    intro e now tv fuel hok hf
    obtain ⟨he, hn, hfit⟩ := hok
    obtain ⟨ht, hlt⟩ := hfit tv rfl
    have hfree : e ∉ P ∧ e ∉ T := by
      rw [← not_or]
      exact fun hl => (h.lists.linked_iff e).mpr hl he
    rcases h.timerAdd hfree.1 hfree.2 hn ht hlt fuel with ⟨-, hle⟩ | ⟨s, -, hs, -⟩
    · omega
    · exact ⟨s, hs⟩
  moves := by
    intro now fuel hn hf
    rcases h.processTimeouts hn fuel with ⟨-, hle⟩ | ⟨s, hs, -, hinv⟩
    · omega
    · exact ⟨s, hs, hinv.lists⟩
  next_none := h.calcNextTimeout_eq_none
  next := by
    intro now hn e he
    cases T with
    | nil => cases he
    | cons x T =>
      cases he
      exact h.calcNextTimeout hn
  life := h.life

/-- The timer list after every run in which the absolute times fit a `time_t`. -/
theorem timer_queue (ls : List QStep) (q : Queue) (hok : RunOk qstep Queue.Fits .init ls)
    (hrun : run qstep .init ls = some q) : ∃ P T, QueueSpec q P T := by
  have hinv : ∃ P T, QueueInv q P T := by
    refine run_invariant (I := fun q => ∃ P T, QueueInv q P T) ?_ ⟨[], [], .init⟩ hok hrun
    rintro s l s' ⟨P, T, h⟩ hl hs
    exact h.step hl hs
  obtain ⟨P, T, h⟩ := hinv
  exact ⟨P, T, h.spec⟩

/-- Two timers are due at 2.5 and at 1.9 s, and a third one is deleted. -/
def threeTimers : List QStep :=
  [.timerAdd 1 ⟨1, 900000⟩ 5 (some ⟨0, 600000⟩), .timerAdd 2 ⟨1, 900000⟩ 5 (some ⟨0, 0⟩),
    .timerAdd 3 ⟨1, 900000⟩ 5 (some ⟨9, 0⟩), .timerDelete 3, .processTimeouts ⟨2, 0⟩ 5]

theorem timer_queue_threeTimers :
    ∃ q, run qstep .init threeTimers = some q ∧
      q.log = [(.moved 2, 2000000), (.deleted 3, 0), (.added 3, 10900000), (.added 2, 1900000),
        (.added 1, 2500000)] ∧ ∃ P T, QueueSpec q P T := by
  have h : (run qstep .init threeTimers).any (fun q => q.log = [(.moved 2, 2000000), (.deleted 3, 0),
      (.added 3, 10900000), (.added 2, 1900000), (.added 1, 2500000)]) = true := by decide +kernel
  obtain ⟨q, hq, hl⟩ := (Option.any_eq_true ..).mp h
  exact ⟨q, hq, of_decide_eq_true hl, timer_queue threeTimers q (by decide +kernel) hq⟩

/-- A timer of `2 ^ 31 - 1` seconds, set 100 seconds after the start, is moved at once. -/
theorem long_timer_is_early :
    ∃ q, run qstep .init [.timerAdd 1 ⟨100, 0⟩ 5 (some ⟨2147483647, 0⟩),
        .processTimeouts ⟨100, 0⟩ 5] = some q ∧
      q.log = [(.moved 1, 100000000), (.added 1, 2147483747000000)] ∧ life 1 q.log = none ∧
      ¬ ∃ P T, QueueSpec q P T := by
  have h : (run qstep .init [.timerAdd 1 ⟨100, 0⟩ 5 (some ⟨2147483647, 0⟩),
      .processTimeouts ⟨100, 0⟩ 5]).any (fun q =>
        q.log = [(.moved 1, 100000000), (.added 1, 2147483747000000)]) = true := by decide +kernel
  obtain ⟨q, hq, hl⟩ := (Option.any_eq_true ..).mp h
  have hl := of_decide_eq_true hl
  have hlife : life 1 q.log = none := by
    rw [hl]
    decide
  refine ⟨q, hq, hl, hlife, ?_⟩
  rintro ⟨P, T, hspec⟩
  have := hspec.life 1
  rw [hlife] at this
  cases this

end Twm.Ril
