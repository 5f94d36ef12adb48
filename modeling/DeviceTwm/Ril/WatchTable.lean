import Mathlib.Data.List.Perm.Subperm
import DeviceTwm.Ril.EventLists

/-!
# The watch table and its descriptors

`ril_event.cpp` keeps three things for `select` and for the callbacks: the watch table, the slot of each
event in the event, and the set of descriptors with a bound on them (`readFds`, `nfds`). This
is the watch table of `Event` with that set; a process has no descriptor past the end of it.

* `WatchSet.Inv`: the three agree.
* `Inv.readReadies`: what the loop of `processReadReadies` queues and removes. The pending list holds
  what was queued if the ready events were on no list before; so it is when `firePending` empties that
  list between two calls, as in `ril_event_loop`, and no event of the table is a timer as well.
* `watch_table_agrees`: all of it after every sequence of calls.
-/

open Lib

namespace Twm.Ril

/-- The events with `readFds` and `nfds`. -/
structure WatchSet where
  ev : Events
  readFds : Int → Bool
  nfds : Int

/-- The loop of `removeWatch`: the highest descriptor of the table, and at least 0. -/
def Events.highest (s : Events) : Int :=
  (List.finRange maxFdEvents).foldl (fun n i =>
    match s.watch i with
    | none => n
    | some rev => if s.fd rev > n then s.fd rev else n) 0

namespace WatchSet

/-- After `ril_event_init`. -/
def init : WatchSet where
  ev := .init
  readFds := fun _ => false
  nfds := 0

variable (t : WatchSet)

def removeWatch (e : Nat) (i : Slot) : WatchSet where
  ev := t.ev.removeWatch e i
  readFds := Function.update t.readFds (t.ev.fd e) false
  nfds := if t.ev.fd e + 1 = t.nfds then (t.ev.removeWatch e i).highest + 1 else t.nfds

/-- One round of `processReadReadies`, with `n` descriptors still to find. -/
def readReady (ready : List Int) (tn : WatchSet × Nat) (i : Slot) : Except Fault (WatchSet × Nat) :=
  let (t, n) := tn
  if n = 0 then .ok (t, n)
  else
    match t.ev.watch i with
    | none => .ok (t, n)
    | some rev =>
      if t.ev.fd rev ∈ ready then do
        let L ← addToList t.ev.links (.ev rev) .pending
        let t := { t with ev := { t.ev with links := L }.log (.moved rev) }
        return (if t.ev.persist rev then t else t.removeWatch rev i, n - 1)
      else .ok (t, n)

def processReadReadies (ready : List Int) : Except Fault WatchSet := do
  let r ← (List.finRange maxFdEvents).foldlM (readReady ready) (t, ready.length)
  return r.1

/-- `ril_event_set`. -/
def eventSet (e : Nat) (fd : Int) (persist : Bool) : WatchSet :=
  { t with ev := t.ev.eventSet e fd persist }

/-- `ril_event_add`. -/
def eventAdd (e : Nat) : WatchSet :=
  match (List.finRange maxFdEvents).find? (t.ev.watch · = none) with
  | none => t
  | some _ =>
    { ev := t.ev.eventAdd e
      readFds := Function.update t.readFds (t.ev.fd e) true
      nfds := if t.ev.fd e ≥ t.nfds then t.ev.fd e + 1 else t.nfds }

/-- `ril_event_del`. -/
def eventDel (e : Nat) : WatchSet :=
  match t.ev.index e with
  | none => { t with ev := t.ev.eventDel e }
  | some i => { t.removeWatch e i with ev := t.ev.eventDel e }

/-! ## The table of `Event` -/

variable {t}

theorem eventAdd_ev (e : Nat) : (t.eventAdd e).ev = t.ev.eventAdd e := by
  unfold eventAdd Events.eventAdd
  cases (List.finRange maxFdEvents).find? (t.ev.watch · = none) <;> rfl

theorem eventDel_ev (e : Nat) : (t.eventDel e).ev = t.ev.eventDel e := by
  unfold eventDel
  cases t.ev.index e <;> rfl

theorem readReady_ev (ready : List Int) (n : Nat) (i : Slot) :
    (readReady ready (t, n) i).map (fun r => (r.1.ev, r.2)) = Events.readReady ready (t.ev, n) i := by
  unfold readReady Events.readReady
  by_cases hn : n = 0
  · simp [hn, Except.map]
  cases hw : t.ev.watch i with
  | none => simp [hn, hw, Except.map]
  | some rev =>
    by_cases hfd : t.ev.fd rev ∈ ready
    · simp only [hn, hw, hfd, if_true, if_false]
      cases addToList t.ev.links (.ev rev) .pending with
      | error f => rfl
      | ok L =>
        cases hp : t.ev.persist rev <;> simp [bind, Except.bind, pure, Except.pure, Except.map, hp,
          Events.log, removeWatch]
    · simp [hn, hw, hfd, Except.map]

theorem readReadies_ev (ready : List Int) (is : List Slot) (n : Nat) :
    (is.foldlM (readReady ready) (t, n)).map (fun r => (r.1.ev, r.2)) =
      is.foldlM (Events.readReady ready) (t.ev, n) := by
  induction is generalizing t n with
  | nil => rfl
  | cons i is ih =>
    have hi := readReady_ev (t := t) ready n i
    rw [List.foldlM_cons, List.foldlM_cons, ← hi]
    cases readReady ready (t, n) i with
    | error f => rfl
    | ok r => exact ih r.2

theorem processReadReadies_ev (ready : List Int) :
    (t.processReadReadies ready).map ev = t.ev.processReadReadies ready := by
  unfold processReadReadies Events.processReadReadies
  rw [← readReadies_ev]
  cases (List.finRange maxFdEvents).foldlM (readReady ready) (t, ready.length) <;> rfl

end WatchSet

/-! ## The highest descriptor -/

theorem Events.le_highest {s : Events} {i : Slot} {e : Nat} (h : s.watch i = some e) :
    s.fd e ≤ s.highest := by
  suffices hle : ∀ (is : List Slot) (n : Int),
      n ≤ is.foldl (fun n i => match s.watch i with
        | none => n
        | some rev => if s.fd rev > n then s.fd rev else n) n ∧
      (i ∈ is → s.fd e ≤ is.foldl (fun n i => match s.watch i with
        | none => n
        | some rev => if s.fd rev > n then s.fd rev else n) n) from
    (hle _ 0).2 (List.mem_finRange i)
  intro is
  induction is with
  | nil => simp
  | cons j is ih =>
    intro n
    rw [List.foldl_cons]
    obtain ⟨hle, hmem⟩ := ih (match s.watch j with
      | none => n
      | some rev => if s.fd rev > n then s.fd rev else n)
    constructor
    · refine Int.le_trans ?_ hle
      cases s.watch j with
      | none => exact Int.le_refl n
      | some rev => grind
    · intro hi
      rcases List.mem_cons.mp hi with rfl | hi
      · refine Int.le_trans ?_ hle
        simp only [h]
        grind
      · exact hmem hi

/-- The event is in the table. -/
def Events.Watches (s : Events) (e : Nat) : Prop := ∃ i, s.watch i = some e

theorem Events.watches_iff {s : Events} (h : ∀ i e, s.watch i = some e ↔ s.index e = some i) (e : Nat) :
    s.Watches e ↔ s.index e ≠ none := by
  rw [Option.ne_none_iff_exists']
  exact exists_congr fun i => h i e

/-- The ready events of some slots, in the order of the slots. -/
def Events.readyAt (s : Events) (ready : List Int) (is : List Slot) : List Nat :=
  is.filterMap fun i => (s.watch i).filter fun e => s.fd e ∈ ready

namespace WatchSet

structure Inv (t : WatchSet) : Prop where
  watch : ∀ i e, t.ev.watch i = some e ↔ t.ev.index e = some i
  fds : ∀ fd, t.readFds fd = true ↔ ∃ e, t.ev.Watches e ∧ t.ev.fd e = fd
  bound : ∀ e, t.ev.Watches e → t.ev.fd e < t.nfds
  distinct : ∀ e x, t.ev.Watches e → t.ev.Watches x → t.ev.fd e = t.ev.fd x → e = x
  /-- `addToList` can write behind the last pending event. -/
  pending : t.ev.links.prev .pending ≠ .null

namespace Inv

variable {t : WatchSet} {e : Nat} {i : Slot}

theorem init : Inv .init where
  watch := by simp [WatchSet.init, Events.init]
  fds := by simp [WatchSet.init, Events.init, Events.Watches]
  bound := by simp [WatchSet.init, Events.init, Events.Watches]
  distinct := by simp [WatchSet.init, Events.init, Events.Watches]
  pending := by simp [WatchSet.init, Events.init]

theorem removeWatch (h : Inv t) (hi : t.ev.watch i = some e) : Inv (t.removeWatch e i) := by
  have hwatch := Events.watch_remove h.watch ((h.watch i e).mp hi)
  have he : t.ev.Watches e := ⟨i, hi⟩
  have hfd : (t.removeWatch e i).ev.fd = t.ev.fd := rfl
  have hw (x : Nat) : (t.removeWatch e i).ev.Watches x ↔ t.ev.Watches x ∧ x ≠ e := by
    refine (Events.watches_iff hwatch x).trans ?_
    rw [Events.watches_iff h.watch]
    by_cases hxe : x = e
    · simp [Events.removeWatch, hxe]
    · simp [Events.removeWatch, hxe]
  refine ⟨hwatch, fun fd => ?_, fun x hx => ?_, fun x y hx hy hxy => ?_, h.pending⟩
  · show Function.update t.readFds (t.ev.fd e) false fd = true ↔ _
    by_cases hfde : fd = t.ev.fd e
    · subst hfde
      rw [Function.update_self]
      refine iff_of_false Bool.false_ne_true ?_
      rintro ⟨x, hx, hxe⟩
      obtain ⟨hx, hne⟩ := (hw x).mp hx
      exact hne (h.distinct x e hx he hxe)
    · rw [Function.update_of_ne hfde, h.fds]
      refine exists_congr fun x => ?_
      rw [hw, hfd]
      constructor
      · rintro ⟨hx, rfl⟩
        exact ⟨⟨hx, fun hxe => hfde (congrArg t.ev.fd hxe)⟩, rfl⟩
      · rintro ⟨⟨hx, -⟩, hxfd⟩
        exact ⟨hx, hxfd⟩
  · obtain ⟨j, hj⟩ := hx
    show t.ev.fd x < if t.ev.fd e + 1 = t.nfds then (t.ev.removeWatch e i).highest + 1 else t.nfds
    split
    · have := Events.le_highest hj
      exact Int.lt_add_one_of_le this
    · exact h.bound x ((hw x).mp ⟨j, hj⟩).1
  · exact h.distinct x y ((hw x).mp hx).1 ((hw y).mp hy).1 hxy

theorem eventSet (h : Inv t) (he : t.ev.index e = none) (fd : Int) (persist : Bool) :
    Inv (t.eventSet e fd persist) := by
  have hindex : (t.eventSet e fd persist).ev.index = t.ev.index :=
    Function.update_eq_self_iff.mpr he.symm
  -- The descriptor of an event of the table stays.
  have hfd (x : Nat) (hx : t.ev.Watches x) : (t.eventSet e fd persist).ev.fd x = t.ev.fd x := by
    refine Function.update_of_ne ?_ ..
    rintro rfl
    exact (Events.watches_iff h.watch x).mp hx he
  refine ⟨fun j x => hindex ▸ h.watch j x, fun fd => ?_, fun x hx => ?_, fun x y hx hy hxy => ?_, ?_⟩
  · refine (h.fds fd).trans (exists_congr fun x => and_congr_right fun hx => ?_)
    rw [hfd x hx]
  · rw [hfd x hx]
    exact h.bound x hx
  · rw [hfd x hx, hfd y hy] at hxy
    exact h.distinct x y hx hy hxy
  · show Function.update t.ev.links.prev (.ev e) .null .pending ≠ .null
    rw [Function.update_of_ne (by simp)]
    exact h.pending

/-- An event with a descriptor of its own is added, or there is no slot for it. -/
theorem eventAdd (h : Inv t) (he : t.ev.index e = none)
    (hfd : ∀ x, t.ev.Watches x → t.ev.fd x ≠ t.ev.fd e) :
    Inv (t.eventAdd e) ∧ ((t.eventAdd e).ev.index e = none ↔ ∀ i, t.ev.watch i ≠ none) := by
  unfold WatchSet.eventAdd Events.eventAdd
  cases hfind : (List.finRange maxFdEvents).find? (t.ev.watch · = none) with
  | none =>
    refine ⟨h, iff_of_true he fun i hi => ?_⟩
    simpa [hi] using List.find?_eq_none.mp hfind i (List.mem_finRange i)
  | some i =>
    have hfree : t.ev.watch i = none := by simpa using List.find?_some hfind
    have hwatch := Events.watch_add h.watch hfree he
    have hindex : Function.update t.ev.index e (some i) e = some i := Function.update_self ..
    have hw (x : Nat) : (∃ j, Function.update t.ev.watch i (some e) j = some x) ↔
        t.ev.Watches x ∨ x = e := by
      rw [exists_congr fun j => hwatch j x, Events.watches_iff h.watch, ← Option.ne_none_iff_exists']
      by_cases hxe : x = e
      · simp [hxe]
      · simp [hxe]
    refine ⟨⟨hwatch, fun fd => ?_, fun x hx => ?_, fun x y hx hy hxy => ?_, h.pending⟩, ?_⟩
    · show Function.update t.readFds (t.ev.fd e) true fd = true ↔
        ∃ x, (∃ j, Function.update t.ev.watch i (some e) j = some x) ∧ t.ev.fd x = fd
      simp only [hw]
      by_cases hfde : fd = t.ev.fd e
      · subst hfde
        rw [Function.update_self]
        exact iff_of_true rfl ⟨e, .inr rfl, rfl⟩
      · rw [Function.update_of_ne hfde, h.fds]
        refine exists_congr fun x => and_congr_left fun hxfd => ?_
        refine (or_iff_left ?_).symm
        rintro rfl
        exact hfde hxfd.symm
    · show t.ev.fd x < if t.ev.fd e ≥ t.nfds then t.ev.fd e + 1 else t.nfds
      rcases (hw x).mp hx with hx₁ | rfl
      · have := h.bound x hx₁
        split <;> omega
      · split <;> omega
    · rcases (hw x).mp hx with hx₁ | rfl
      · rcases (hw y).mp hy with hy₁ | rfl
        · exact h.distinct x y hx₁ hy₁ hxy
        · exact absurd hxy (hfd x hx₁)
      · rcases (hw y).mp hy with hy₁ | rfl
        · exact absurd hxy.symm (hfd y hy₁)
        · rfl
    · refine iff_of_false ?_ fun hall => hall i hfree
      show Function.update t.ev.index e (some i) e ≠ none
      rw [hindex]
      exact Option.some_ne_none i

theorem eventDel (h : Inv t) (e : Nat) : Inv (t.eventDel e) := by
  unfold WatchSet.eventDel Events.eventDel
  cases hi : t.ev.index e with
  | none => exact ⟨h.watch, h.fds, h.bound, h.distinct, h.pending⟩
  | some i =>
    have h' := h.removeWatch ((h.watch i e).mpr hi)
    exact ⟨h'.watch, h'.fds, h'.bound, h'.distinct, h'.pending⟩

/-- The event of a slot is queued. -/
theorem addPending (h : Inv t) (e : Nat) :
    ∃ L, addToList t.ev.links (.ev e) .pending = .ok L ∧
      Inv { t with ev := { t.ev with links := L }.log (.moved e) } := by
  refine ⟨_, if_neg ?_, h.watch, h.fds, h.bound, h.distinct, ?_⟩
  · simp [h.pending]
  · dsimp only [Events.log]
    rw [Function.update_self]
    simp

end Inv

/-- What the rounds of `processReadReadies` over some slots do. -/
structure ReadReadies (ready : List Int) (is : List Slot) (t t' : WatchSet) : Prop where
  fd : t'.ev.fd = t.ev.fd
  persist : t'.ev.persist = t.ev.persist
  /-- The ready events are queued, in the order of the slots. -/
  queued : t'.ev.trace = ((t.ev.readyAt ready is).map .moved).reverse ++ t.ev.trace
  /-- Those that are not persistent are taken out of the table. -/
  watch : ∀ i e, t'.ev.watch i = some e ↔ t.ev.watch i = some e ∧
    ¬ (i ∈ is ∧ t.ev.fd e ∈ ready ∧ t.ev.persist e = false)
  /-- If they were on no list (`firePending` empties the pending list between two calls), they are on the
  pending list. -/
  lists : ∀ P T, Lists t.ev.links P T → (∀ e ∈ t.ev.readyAt ready is, e ∉ P ∧ e ∉ T) →
    Lists t'.ev.links (P ++ t.ev.readyAt ready is) T

namespace ReadReadies

variable {t t' t₁ : WatchSet} {ready : List Int} {is : List Slot} {i : Slot} {e : Nat}

theorem nil (t : WatchSet) (ready : List Int) : ReadReadies ready [] t t where
  fd := rfl
  persist := rfl
  queued := rfl
  watch := by simp
  lists := fun P T h _ => by simpa [Events.readyAt] using h

/-- A slot without a ready event. -/
theorem skip (h : ReadReadies ready is t t') (hi : ∀ e, t.ev.watch i = some e → t.ev.fd e ∉ ready) :
    ReadReadies ready (i :: is) t t' := by
  have hready : t.ev.readyAt ready (i :: is) = t.ev.readyAt ready is := by
    unfold Events.readyAt
    refine List.filterMap_cons_none ?_
    cases hw : t.ev.watch i with
    | none => rfl
    | some e => simp [hi e hw]
  refine ⟨h.fd, h.persist, hready ▸ h.queued, fun j e => ?_, hready ▸ h.lists⟩
  refine (h.watch j e).trans (and_congr_right fun hw => not_congr ?_)
  rw [List.mem_cons]
  refine ⟨fun hrest => ⟨.inr hrest.1, hrest.2⟩, fun hrest => ⟨?_, hrest.2⟩⟩
  refine hrest.1.resolve_left ?_
  rintro rfl
  exact hi e hw hrest.2.1

/-- A slot whose event is ready, and then the others. -/
theorem cons (h : ReadReadies ready is t₁ t') (hw : t.ev.watch i = some e) (hfd : t.ev.fd e ∈ ready)
    (hi : i ∉ is) {L : Links Node} (hL : addToList t.ev.links (.ev e) .pending = .ok L)
    (hfd₁ : t₁.ev.fd = t.ev.fd) (hpersist₁ : t₁.ev.persist = t.ev.persist)
    (htrace₁ : t₁.ev.trace = .moved e :: t.ev.trace) (hlinks₁ : t₁.ev.links = L)
    (hwatch₁ : t₁.ev.watch = if t.ev.persist e then t.ev.watch else Function.update t.ev.watch i none)
    (hslots : ∀ j, t.ev.watch j = some e → j = i) :
    ReadReadies ready (i :: is) t t' := by
  have hother (j : Slot) (hj : j ≠ i) : t₁.ev.watch j = t.ev.watch j := by
    rw [hwatch₁]
    split
    · rfl
    · exact Function.update_of_ne hj ..
  have hready : t.ev.readyAt ready (i :: is) = e :: t₁.ev.readyAt ready is := by
    unfold Events.readyAt
    rw [List.filterMap_cons_some (b := e) (by simp [hw, hfd]), hfd₁]
    refine congrArg _ (List.filterMap_congr fun j hj => ?_)
    have hji : j ≠ i := by
      rintro rfl
      exact hi hj
    rw [hother j hji]
  refine ⟨h.fd.trans hfd₁, h.persist.trans hpersist₁, ?_, fun j x => ?_, fun P T hl hfree => ?_⟩
  · rw [h.queued, htrace₁, hready]
    simp
  · refine (h.watch j x).trans ?_
    rw [hfd₁, hpersist₁, List.mem_cons]
    by_cases hji : j = i
    · subst hji
      rw [hwatch₁]
      cases hp : t.ev.persist e with
      | true =>
        simp [hi, hw]
        rintro rfl
        simp [hp]
      | false =>
        simp [hw]
        rintro rfl
        simp [hp, hfd]
    · rw [hother j hji]
      simp [hji]
  · rw [hready] at hfree ⊢
    obtain ⟨hP, hT⟩ := hfree e List.mem_cons_self
    obtain ⟨L', hL', hlists⟩ := hl.addPending hP hT
    cases hL.symm.trans hL'
    rw [← hlinks₁] at hlists
    have hrest := h.lists _ _ hlists fun x hx => ?_
    · simpa using hrest
    · obtain ⟨hxP, hxT⟩ := hfree x (List.mem_cons_of_mem _ hx)
      refine ⟨?_, hxT⟩
      have hxe : x ≠ e := by
        rintro rfl
        obtain ⟨j, hj, hjx⟩ := List.mem_filterMap.mp hx
        have hji : j ≠ i := by
          rintro rfl
          exact hi hj
        rw [hother j hji] at hjx
        exact hji (hslots j (Option.filter_eq_some_iff.mp hjx).1)
      simpa [hxe] using hxP

end ReadReadies

namespace Inv

variable {t : WatchSet} {ready : List Int}

/-- The loop of `processReadReadies` over some slots, with descriptors enough still to find. -/
theorem readReadies (h : Inv t) {is : List Slot} (his : is.Nodup) {n : Nat}
    (hn : (t.ev.readyAt ready is).length ≤ n) :
    ∃ r, is.foldlM (readReady ready) (t, n) = .ok r ∧ Inv r.1 ∧ ReadReadies ready is t r.1 := by
  induction is generalizing t n with
  | nil => exact ⟨(t, n), rfl, h, .nil t ready⟩
  | cons i is ih =>
    obtain ⟨hi, his⟩ := List.nodup_cons.mp his
    have hskip (hno : ∀ e, t.ev.watch i = some e → t.ev.fd e ∉ ready)
        (hr : readReady ready (t, n) i = .ok (t, n)) :
        ∃ r, (i :: is).foldlM (readReady ready) (t, n) = .ok r ∧ Inv r.1 ∧
          ReadReadies ready (i :: is) t r.1 := by
      have hle : (t.ev.readyAt ready is).length ≤ n := by
        refine Nat.le_trans (List.Sublist.length_le ?_) hn
        exact (List.sublist_cons_self i is).filterMap _
      obtain ⟨r, hfold, hinv, hspec⟩ := ih h his hle
      exact ⟨r, by rw [List.foldlM_cons, hr]; exact hfold, hinv, hspec.skip hno⟩
    cases hw : t.ev.watch i with
    | none =>
      refine hskip (by simp [hw]) ?_
      simp [readReady, hw]
    | some e =>
      by_cases hfd : t.ev.fd e ∈ ready
      swap
      · refine hskip (by simp [hw, hfd]) ?_
        simp [readReady, hw, hfd]
      obtain ⟨L, hL, hinv₁⟩ := h.addPending e
      have hready : t.ev.readyAt ready (i :: is) = e :: t.ev.readyAt ready is :=
        List.filterMap_cons_some (by simp [hw, hfd])
      rw [hready, List.length_cons] at hn
      have hne : n ≠ 0 := by omega
      have hslots (j : Slot) (hj : t.ev.watch j = some e) : j = i :=
        Option.some.inj (((h.watch j e).mp hj).symm.trans ((h.watch i e).mp hw))
      let moved : WatchSet := { t with ev := { t.ev with links := L }.log (.moved e) }
      let t₁ : WatchSet := if t.ev.persist e then moved else moved.removeWatch e i
      have hround : readReady ready (t, n) i = .ok (t₁, n - 1) := by
        simp only [readReady, hne, hw, hfd, hL, if_true, if_false, bind, Except.bind]
        rfl
      have ht₁ : Inv t₁ ∧ t₁.ev.fd = t.ev.fd ∧ t₁.ev.persist = t.ev.persist ∧
          t₁.ev.trace = .moved e :: t.ev.trace ∧ t₁.ev.links = L ∧
          t₁.ev.watch = if t.ev.persist e then t.ev.watch else Function.update t.ev.watch i none := by
        by_cases hp : t.ev.persist e = true
        · rw [show t₁ = moved from if_pos hp, if_pos hp]
          exact ⟨hinv₁, rfl, rfl, rfl, rfl, rfl⟩
        · rw [show t₁ = moved.removeWatch e i from if_neg hp, if_neg hp]
          exact ⟨hinv₁.removeWatch hw, rfl, rfl, rfl, rfl, rfl⟩
      obtain ⟨hinv₂, hfd₁, hpersist₁, htrace₁, hlinks₁, hwatch₁⟩ := ht₁
      have hsame : t₁.ev.readyAt ready is = t.ev.readyAt ready is := by
        unfold Events.readyAt
        refine List.filterMap_congr fun j hj => ?_
        have hji : j ≠ i := by
          rintro rfl
          exact hi hj
        have hj₁ : t₁.ev.watch j = t.ev.watch j := by
          rw [hwatch₁]
          split
          · rfl
          · exact Function.update_of_ne hji ..
        rw [hj₁, hfd₁]
      obtain ⟨r, hfold, hinv, hspec⟩ := ih hinv₂ his (n := n - 1) (by rw [hsame]; omega)
      refine ⟨r, by rw [List.foldlM_cons, hround]; exact hfold, hinv, ?_⟩
      exact hspec.cons hw hfd hi hL hfd₁ hpersist₁ htrace₁ hlinks₁ hwatch₁ hslots

/-- No more events of the table are ready than descriptors: they have different ones. -/
theorem readyAt_length (h : Inv t) (ready : List Int) {is : List Slot} (his : is.Nodup) :
    (t.ev.readyAt ready is).length ≤ ready.length := by
  have hmem {i : Slot} {e : Nat} (he : e ∈ (t.ev.watch i).filter fun e => t.ev.fd e ∈ ready) :
      t.ev.watch i = some e ∧ t.ev.fd e ∈ ready := by
    obtain ⟨hw, hfd⟩ := Option.filter_eq_some_iff.mp he
    exact ⟨hw, by simpa using hfd⟩
  have hnd : (t.ev.readyAt ready is).Nodup := by
    refine his.filterMap fun i j e hi hj => ?_
    exact Option.some.inj (((h.watch i e).mp (hmem hi).1).symm.trans ((h.watch j e).mp (hmem hj).1))
  have hin (e : Nat) (he : e ∈ t.ev.readyAt ready is) : t.ev.Watches e ∧ t.ev.fd e ∈ ready := by
    obtain ⟨j, -, hje⟩ := List.mem_filterMap.mp he
    exact ⟨⟨j, (hmem hje).1⟩, (hmem hje).2⟩
  have hfds : ((t.ev.readyAt ready is).map t.ev.fd).Nodup :=
    hnd.map_on fun x hx y hy hxy => h.distinct x y (hin x hx).1 (hin y hy).1 hxy
  have hsub : (t.ev.readyAt ready is).map t.ev.fd ⊆ ready := by
    intro fd hfd
    obtain ⟨e, he, rfl⟩ := List.mem_map.mp hfd
    exact (hin e he).2
  simpa using (List.subperm_of_subset hfds hsub).length_le

theorem processReadReadies (h : Inv t) (ready : List Int) :
    ∃ t', t.processReadReadies ready = .ok t' ∧ Inv t' ∧
      ReadReadies ready (List.finRange maxFdEvents) t t' := by
  have hnd := List.nodup_finRange maxFdEvents
  obtain ⟨r, hfold, hinv, hspec⟩ := h.readReadies hnd (h.readyAt_length ready hnd)
  refine ⟨r.1, ?_, hinv, hspec⟩
  rw [WatchSet.processReadReadies, hfold]
  rfl

end Inv

end WatchSet

/-! ## Sequences of calls -/

inductive WStep
  | eventSet (e : Nat) (fd : Int) (persist : Bool)
  | eventAdd (e : Nat)
  | eventDel (e : Nat)
  /-- With the descriptors that `select` reports. -/
  | processReadReadies (ready : List Int)
  deriving DecidableEq

def wstep (t : WatchSet) : WStep → Option WatchSet
  | .eventSet e fd persist => some (t.eventSet e fd persist)
  | .eventAdd e => some (t.eventAdd e)
  | .eventDel e => some (t.eventDel e)
  | .processReadReadies ready => (t.processReadReadies ready).toOption

/-- An event is set up and added while it is not in the table, and added with a descriptor that no event
of the table has; `select` reports a set. -/
def WatchSet.Allowed (t : WatchSet) : WStep → Prop
  | .eventSet e _ _ => t.ev.index e = none
  | .eventAdd e => t.ev.index e = none ∧ 0 ≤ t.ev.fd e ∧
    ∀ i, (t.ev.watch i).all fun x => t.ev.fd x ≠ t.ev.fd e
  | .eventDel _ => True
  | .processReadReadies ready => ready.Nodup

instance WatchSet.decidableAllowed (t : WatchSet) : (l : WStep) → Decidable (t.Allowed l)
  | .eventSet .. => inferInstanceAs (Decidable (_ = _))
  | .eventAdd _ => inferInstanceAs (Decidable (_ ∧ _))
  | .eventDel _ => .isTrue trivial
  | .processReadReadies _ => inferInstanceAs (Decidable (List.Nodup _))

theorem WatchSet.Inv.step {t t' : WatchSet} {l : WStep} (h : t.Inv) (hl : t.Allowed l)
    (hstep : wstep t l = some t') : t'.Inv := by
  cases l with
  | eventSet e fd persist =>
    cases hstep
    exact h.eventSet hl fd persist
  | eventAdd e =>
    cases hstep
    obtain ⟨he, -, hfd⟩ := hl
    refine (h.eventAdd he fun x hx => ?_).1
    obtain ⟨i, hi⟩ := hx
    simpa [hi] using hfd i
  | eventDel e =>
    cases hstep
    exact h.eventDel e
  | processReadReadies ready =>
    obtain ⟨t₁, hok, hinv, -⟩ := h.processReadReadies ready
    simp only [wstep, hok] at hstep
    cases hstep
    exact hinv

/-- After every sequence of calls: the slots of the events are those of the watch table, `readFds` is the
set of its descriptors and `nfds` is greater than each; an event is dropped exactly if all slots are
taken; `processReadReadies` queues the ready events of the table and removes those that are not
persistent. -/
theorem watch_table_agrees (ls : List WStep) (t : WatchSet)
    (hok : RunOk wstep WatchSet.Allowed .init ls) (hrun : run wstep .init ls = some t) :
    (∀ i e, t.ev.watch i = some e ↔ t.ev.index e = some i) ∧
      (∀ fd, t.readFds fd = true ↔ ∃ e, t.ev.Watches e ∧ t.ev.fd e = fd) ∧
      (∀ e, t.ev.Watches e → t.ev.fd e < t.nfds) ∧
      (∀ e, t.Allowed (.eventAdd e) →
        ((t.eventAdd e).ev.index e = none ↔ ∀ i, t.ev.watch i ≠ none)) ∧
      ∀ ready, ready.Nodup → ∃ t', t.processReadReadies ready = .ok t' ∧
        WatchSet.ReadReadies ready (List.finRange maxFdEvents) t t' := by
  have h : t.Inv := run_invariant (fun _ _ _ h hl hs => h.step hl hs) WatchSet.Inv.init hok hrun
  refine ⟨h.watch, h.fds, h.bound, fun e he => ?_, fun ready _ => ?_⟩
  · refine (h.eventAdd he.1 fun x hx => ?_).2
    obtain ⟨i, hi⟩ := hx
    simpa [hi] using he.2.2 i
  · obtain ⟨t', hok, -, hspec⟩ := h.processReadReadies ready
    exact ⟨t', hok, hspec⟩

/-- A persistent event and one that is not: both are ready, and the second is taken out. -/
def readyTwice : List WStep :=
  [.eventSet 0 5 true, .eventAdd 0, .eventSet 1 9 false, .eventAdd 1, .processReadReadies [9, 5],
    .eventDel 0, .eventSet 2 7 true, .eventAdd 2]

/-- The bound goes down to 1 with the last event, and up again. -/
theorem watch_table_agrees_readyTwice :
    ∃ t, run wstep .init readyTwice = some t ∧ t.nfds = 8 ∧
      ∀ i e, t.ev.watch i = some e ↔ t.ev.index e = some i := by
  have hok : RunOk wstep WatchSet.Allowed .init readyTwice := by decide +kernel
  have h : (run wstep .init readyTwice).any (·.nfds = 8) := by decide +kernel
  obtain ⟨t, hrun, hn⟩ := (Option.any_eq_true ..).mp h
  exact ⟨t, hrun, of_decide_eq_true hn, (watch_table_agrees readyTwice t hok hrun).1⟩

end Twm.Ril
