import DeviceTwm.Ril.Event

/-!
# The two event lists

* `addToList_ring`, `removeFromList_ring`: the list functions on a ring, and what they leave alone.
* `Lists L P T`: the events `P` are pending and the events `T` are on the timer list.
* `Lists.findLater`, `Lists.timeouts`: where the loops over the timer list end.
* `Lists.timerAdd`, `Lists.processTimeouts`, `Lists.timerDelete`: what the calls return.
* `watch_add`, `watch_remove`: the slots of the events are those of the watch table.
-/

open Lib

namespace Twm.Ril

section Rings

variable {L : Links Node} {s x : Node} {l l₁ l₂ : List Node}

theorem addToList_eq {b : Node} (hx : x ≠ .null) (hb : b ≠ .null) (hp : L.prev b ≠ .null)
    (hpx : L.prev b ≠ x) : addToList L x b = .ok ((L.link (L.prev b) x).link x b) := by
  unfold addToList
  rw [if_neg (by simp [hx, hb, hp])]
  refine congrArg Except.ok (Links.ext ?_ rfl)
  simp only [Function.update_self, Links.link_next]
  exact Function.update_comm (Ne.symm hpx) b x L.next

/-- The end of a part of a ring is the head or an item. -/
theorem headD_mem (s : Node) (l : List Node) : l.headD s ∈ s :: l := by
  cases l <;> simp

theorem getLastD_mem (s : Node) (l : List Node) : l.getLastD s ∈ s :: l := by
  rcases List.eq_nil_or_concat l with rfl | ⟨m, z, rfl⟩ <;> simp

/-- The pointers of other nodes, and so the rings of other nodes. -/
structure Frame (L L' : Links Node) (touched : List Node) : Prop where
  next : ∀ y, y ∉ touched → L'.next y = L.next y
  prev : ∀ y, y ∉ touched → L'.prev y = L.prev y

theorem Frame.ring {L' : Links Node} {touched : List Node} (h : Frame L L' touched)
    (hr : Ring L s l) (hd : ∀ y ∈ s :: l, y ∉ touched) : Ring L' s l :=
  hr.congr (fun y hy => h.next y (hd y hy)) fun y hy => h.prev y (hd y hy)

/-- `addToList` before a node of a ring. -/
theorem addToList_ring (h : Ring L s (l₁ ++ l₂)) (hx : x ∉ s :: (l₁ ++ l₂))
    (hnull : Node.null ∉ x :: s :: (l₁ ++ l₂)) :
    ∃ L', addToList L x (l₂.headD s) = .ok L' ∧ Ring L' s (l₁ ++ x :: l₂) ∧
      Frame L L' (x :: s :: (l₁ ++ l₂)) := by
  have hb : l₂.headD s ∈ s :: (l₁ ++ l₂) := by
    have := headD_mem s l₂
    simp only [List.mem_cons, List.mem_append] at this ⊢
    tauto
  have ha : l₁.getLastD s ∈ s :: (l₁ ++ l₂) := by
    have := getLastD_mem s l₁
    simp only [List.mem_cons, List.mem_append] at this ⊢
    tauto
  have hprev : L.prev (l₂.headD s) = l₁.getLastD s := by
    cases l₂ with
    | nil => simpa using h.prev_head
    | cons y l₂ => exact h.around.2
  have hne : ∀ y ∈ s :: (l₁ ++ l₂), y ≠ .null ∧ y ≠ x := by
    intro y hy
    constructor
    · rintro rfl
      exact hnull (List.mem_cons_of_mem _ hy)
    · rintro rfl
      exact hx hy
  have hxn : x ≠ .null := by
    rintro rfl
    exact hnull List.mem_cons_self
  refine ⟨_, addToList_eq hxn (hne _ hb).1 ?_ ?_, ?_, ?_⟩
  · rw [hprev]
    exact (hne _ ha).1
  · rw [hprev]
    exact (hne _ ha).2
  · rw [hprev]
    exact h.insert hx rfl rfl
  · rw [hprev]
    have hout : ∀ y z, y ∉ x :: s :: (l₁ ++ l₂) → z ∈ x :: s :: (l₁ ++ l₂) → y ≠ z := by
      rintro y z hy hz rfl
      exact hy hz
    constructor
    · intro y hy
      simp only [Links.link_next]
      rw [Function.update_of_ne (hout y x hy List.mem_cons_self),
        Function.update_of_ne (hout y _ hy (List.mem_cons_of_mem _ ha))]
    · intro y hy
      simp only [Links.link_prev]
      rw [Function.update_of_ne (hout y _ hy (List.mem_cons_of_mem _ hb)),
        Function.update_of_ne (hout y x hy List.mem_cons_self)]

/-- `removeFromList` of an item of a ring. -/
theorem removeFromList_ring (h : Ring L s (l₁ ++ x :: l₂))
    (hnull : Node.null ∉ s :: (l₁ ++ x :: l₂)) :
    ∃ L', removeFromList L x = .ok (L', true) ∧ Ring L' s (l₁ ++ l₂) ∧
      L'.next x = .null ∧ L'.prev x = .null ∧ Frame L L' (s :: (l₁ ++ x :: l₂)) := by
  obtain ⟨hn, hp⟩ := h.around
  have hb : l₂.headD s ∈ s :: (l₁ ++ x :: l₂) := by
    have := headD_mem s l₂
    simp only [List.mem_cons, List.mem_append] at this ⊢
    tauto
  have ha : l₁.getLastD s ∈ s :: (l₁ ++ x :: l₂) := by
    have := getLastD_mem s l₁
    simp only [List.mem_cons, List.mem_append] at this ⊢
    tauto
  have hx : x ∈ s :: (l₁ ++ x :: l₂) := by simp
  have hne : ∀ y ∈ s :: (l₁ ++ x :: l₂), y ≠ .null := by
    rintro y hy rfl
    exact hnull hy
  have hxs : x ∉ s :: (l₁ ++ l₂) := by
    have hnd := h.nodup
    rw [List.nodup_cons, List.nodup_middle, List.nodup_cons] at hnd
    simp only [List.mem_cons, List.mem_append, not_or] at hnd ⊢
    exact ⟨Ne.symm hnd.1.2.1, hnd.2.1⟩
  have hcond : ¬ (L.prev x = .null ∨ L.next x = .null) := by
    rw [hn, hp, not_or]
    exact ⟨hne _ ha, hne _ hb⟩
  refine ⟨clear (L.unlink x) x, ?_, ?_, ?_, ?_, ?_⟩
  · rw [removeFromList, if_neg (hne x hx), if_neg hcond]
  · refine h.remove.congr (fun y hy => ?_) fun y hy => ?_
    · exact Function.update_of_ne (by rintro rfl; exact hxs hy) _ _
    · exact Function.update_of_ne (by rintro rfl; exact hxs hy) _ _
  · exact Function.update_self _ _ _
  · exact Function.update_self _ _ _
  · have hout : ∀ y z, y ∉ s :: (l₁ ++ x :: l₂) → z ∈ s :: (l₁ ++ x :: l₂) → y ≠ z := by
      rintro y z hy hz rfl
      exact hy hz
    constructor
    · intro y hy
      simp only [clear, Links.unlink, Links.link_next, hn, hp]
      rw [Function.update_of_ne (hout y x hy hx), Function.update_of_ne (hout y _ hy ha)]
    · intro y hy
      simp only [clear, Links.unlink, Links.link_prev, hn, hp]
      rw [Function.update_of_ne (hout y x hy hx), Function.update_of_ne (hout y _ hy hb)]

end Rings

/-- A list without the event. -/
theorem mem_and_ne {l : List Nat} {e : Nat} (he : e ∉ l) (x : Nat) : x ∈ l ↔ x ∈ l ∧ x ≠ e := by
  refine ⟨fun hx => ⟨hx, ?_⟩, And.left⟩
  rintro rfl
  exact he hx

theorem mem_remove {l₁ l₂ : List Nat} {e : Nat} (hnd : (l₁ ++ e :: l₂).Nodup) (x : Nat) :
    x ∈ l₁ ++ l₂ ↔ x ∈ l₁ ++ e :: l₂ ∧ x ≠ e := by
  rw [List.nodup_middle, List.nodup_cons] at hnd
  simp only [List.mem_append, List.mem_cons] at hnd ⊢
  constructor
  · intro hx
    refine ⟨by tauto, ?_⟩
    rintro rfl
    exact hnd.1 hx
  · tauto

/-- The events `P` are pending, the events `T` are on the timer list, and no other event is on a
list. -/
structure Lists (L : Links Node) (P T : List Nat) : Prop where
  pending : Ring L .pending (P.map .ev)
  timers : Ring L .timer (T.map .ev)
  disjoint : ∀ e ∈ P, e ∉ T
  free : ∀ e, e ∉ P → e ∉ T → L.next (.ev e) = .null ∧ L.prev (.ev e) = .null

namespace Lists

variable {L : Links Node} {P T P₁ P₂ T₁ T₂ : List Nat} {e : Nat}

theorem pending_nodup (h : Lists L P T) : P.Nodup := h.pending.items_nodup.of_map _

theorem timers_nodup (h : Lists L P T) : T.Nodup := h.timers.items_nodup.of_map _

/-- An event is on a list if and only if `removeFromList` finds it there. -/
theorem linked_iff (h : Lists L P T) (e : Nat) :
    ¬ (L.prev (.ev e) = .null ∨ L.next (.ev e) = .null) ↔ e ∈ P ∨ e ∈ T := by
  have hring : ∀ {s : Node} {l : List Nat}, Ring L s (l.map .ev) → s ≠ .null → e ∈ l →
      ¬ (L.prev (.ev e) = .null ∨ L.next (.ev e) = .null) := by
    intro s l hr hs he
    obtain ⟨l₁, l₂, rfl⟩ := List.append_of_mem he
    rw [List.map_append, List.map_cons] at hr
    obtain ⟨hn, hp⟩ := hr.around
    have hnull : ∀ l : List Nat, Node.null ∉ s :: l.map .ev := by simp [Ne.symm hs]
    rw [hn, hp, not_or]
    constructor
    · intro heq
      exact hnull l₁ (heq ▸ getLastD_mem s _)
    · intro heq
      exact hnull l₂ (heq ▸ headD_mem s _)
  constructor
  · intro hl
    by_contra hno
    obtain ⟨hP, hT⟩ := not_or.mp hno
    exact hl (.inl (h.free e hP hT).2)
  · rintro (hP | hT)
    · exact hring h.pending (by decide) hP
    · exact hring h.timers (by decide) hT

/-- An event that is on no list is not found. -/
theorem removeFromList_free (h : Lists L P T) (hP : e ∉ P) (hT : e ∉ T) :
    removeFromList L (.ev e) = .ok (L, false) := by
  rw [removeFromList, if_neg (by simp), if_pos (.inl (h.free e hP hT).2)]

/-- What a write to the nodes of one list leaves of the rest. -/
theorem free_of_frame (h : Lists L P T) {L' : Links Node} {touched : List Node}
    (hf : Frame L L' touched) (he : .ev e ∉ touched) (hP : e ∉ P) (hT : e ∉ T) :
    L'.next (.ev e) = .null ∧ L'.prev (.ev e) = .null := by
  rw [hf.next _ he, hf.prev _ he]
  exact h.free e hP hT

theorem addPending (h : Lists L P T) (hP : e ∉ P) (hT : e ∉ T) :
    ∃ L', addToList L (.ev e) .pending = .ok L' ∧ Lists L' (P ++ [e]) T := by
  have hr : Ring L .pending (P.map .ev ++ []) := by simpa using h.pending
  obtain ⟨L', hL', hring, hf⟩ := addToList_ring (x := .ev e) hr (by simpa using hP) (by simp)
  refine ⟨L', hL', by simpa using hring, ?_, ?_, ?_⟩
  · refine hf.ring h.timers ?_
    simp
    grind [h.disjoint]
  · grind [h.disjoint]
  · intro y hyP hyT
    exact h.free_of_frame hf (by simp at hyP ⊢; tauto) (by simp at hyP; tauto) hyT

theorem addTimer (h : Lists L P (T₁ ++ T₂)) (hP : e ∉ P) (hT : e ∉ T₁ ++ T₂) :
    ∃ L', addToList L (.ev e) ((T₂.map .ev).headD .timer) = .ok L' ∧
      Lists L' P (T₁ ++ e :: T₂) := by
  have hr : Ring L .timer (T₁.map .ev ++ T₂.map .ev) := by simpa using h.timers
  obtain ⟨L', hL', hring, hf⟩ := addToList_ring (x := .ev e) hr (by simpa using hT) (by simp)
  refine ⟨L', hL', ?_, by simpa using hring, ?_, ?_⟩
  · refine hf.ring h.pending ?_
    have := h.disjoint
    simp
    grind
  · have := h.disjoint
    grind
  · intro y hyP hyT
    exact h.free_of_frame hf (by simp at hyT ⊢; tauto) hyP (by simp at hyT ⊢; tauto)

theorem removePending (h : Lists L (P₁ ++ e :: P₂) T) :
    ∃ L', removeFromList L (.ev e) = .ok (L', true) ∧ Lists L' (P₁ ++ P₂) T := by
  have hr : Ring L .pending (P₁.map .ev ++ .ev e :: P₂.map .ev) := by simpa using h.pending
  obtain ⟨L', hL', hring, hn, hp, hf⟩ := removeFromList_ring hr (by simp)
  refine ⟨L', hL', by simpa using hring, ?_, ?_, ?_⟩
  · refine hf.ring h.timers ?_
    have := h.disjoint
    simp
    grind
  · have := h.disjoint
    grind
  · intro y hyP hyT
    by_cases hye : y = e
    · rw [hye]
      exact ⟨hn, hp⟩
    · exact h.free_of_frame hf (by simp at hyP ⊢; tauto) (by simp at hyP ⊢; tauto) hyT

theorem removeTimer (h : Lists L P (T₁ ++ e :: T₂)) :
    ∃ L', removeFromList L (.ev e) = .ok (L', true) ∧ Lists L' P (T₁ ++ T₂) := by
  have hr : Ring L .timer (T₁.map .ev ++ .ev e :: T₂.map .ev) := by simpa using h.timers
  obtain ⟨L', hL', hring, hn, hp, hf⟩ := removeFromList_ring hr (by simp)
  refine ⟨L', hL', ?_, by simpa using hring, ?_, ?_⟩
  · refine hf.ring h.pending ?_
    have := h.disjoint
    simp
    grind
  · have := h.disjoint
    grind
  · intro y hyP hyT
    by_cases hye : y = e
    · rw [hye]
      exact ⟨hn, hp⟩
    · exact h.free_of_frame hf (by simp at hyT ⊢; tauto) hyP (by simp at hyT ⊢; tauto)

/-- The first node of each list. -/
theorem next_pending (h : Lists L P T) : L.next .pending = (P.map .ev).headD .pending :=
  h.pending.next_head

theorem next_timer (h : Lists L P T) : L.next .timer = (T.map .ev).headD .timer :=
  h.timers.next_head

/-- The node after an event of each list. -/
theorem next_mem_pending (h : Lists L (P₁ ++ e :: P₂) T) :
    L.next (.ev e) = (P₂.map .ev).headD .pending := by
  have hr := h.pending
  rw [List.map_append, List.map_cons] at hr
  exact hr.around.1

theorem next_mem_timers (h : Lists L P (T₁ ++ e :: T₂)) :
    L.next (.ev e) = (T₂.map .ev).headD .timer := by
  have hr := h.timers
  rw [List.map_append, List.map_cons] at hr
  exact hr.around.1

/-- The loop of `ril_timer_add` ends at the first event of the timer list that is not earlier. -/
theorem findLater {s : Events} (h : Lists s.links P (T₁ ++ T₂)) (tv : Timeval) (fuel : Nat) :
    (s.findLater tv fuel ((T₂.map .ev).headD .timer) = .error .fuel ∧ fuel ≤ T₂.length) ∨
    ∃ A B, T₂ = A ++ B ∧
      s.findLater tv fuel ((T₂.map .ev).headD .timer) = .ok ((B.map .ev).headD .timer) ∧
      (∀ x ∈ A, (s.timeout x).lt tv = true) ∧ ∀ x ∈ B.head?, (s.timeout x).lt tv = false := by
  induction fuel generalizing T₁ T₂ with
  | zero => exact .inl ⟨rfl, Nat.zero_le _⟩
  | succ fuel ih =>
    cases T₂ with
    | nil => exact .inr ⟨[], [], rfl, by simp [Events.findLater], by simp, by simp⟩
    | cons e T₂ =>
      by_cases hlt : (s.timeout e).lt tv = true
      · have hnext : s.links.next (.ev e) = (T₂.map .ev).headD .timer := h.next_mem_timers
        have hstep : s.findLater tv (fuel + 1) ((List.map Node.ev (e :: T₂)).headD .timer) =
            s.findLater tv fuel ((T₂.map .ev).headD .timer) := by
          rw [← hnext]
          simp [Events.findLater, Events.nodeTimeout, hlt]
        have hsplit : T₁ ++ e :: T₂ = (T₁ ++ [e]) ++ T₂ := by simp
        rw [hstep]
        rw [hsplit] at h
        rcases ih h with ⟨hf, hle⟩ | ⟨A, B, rfl, hok, hA, hB⟩
        · exact .inl ⟨hf, by simpa using hle⟩
        · exact .inr ⟨e :: A, B, rfl, hok, by simpa [hlt] using hA, hB⟩
      · refine .inr ⟨[], e :: T₂, rfl, ?_, by simp, by simpa using hlt⟩
        simp [Events.findLater, Events.nodeTimeout, hlt]

/-- `processTimeouts` moves the first events of the timer list, up to one that is not earlier than
`now`, to the end of the pending list. -/
theorem timeouts (s : Events) (now : Timeval) (fuel : Nat) (h : Lists L P T) :
    (s.timeouts now fuel L ((T.map .ev).headD .timer) = .error .fuel ∧ fuel ≤ T.length) ∨
    ∃ L' T₁ T₂, T = T₁ ++ T₂ ∧
      s.timeouts now fuel L ((T.map .ev).headD .timer) = .ok (L', T₁.map .ev) ∧
      Lists L' (P ++ T₁) T₂ ∧ (∀ x ∈ T₁, (s.timeout x).lt now = true) ∧
      ∀ x ∈ T₂.head?, (s.timeout x).lt now = false := by
  induction fuel generalizing L P T with
  | zero => exact .inl ⟨rfl, Nat.zero_le _⟩
  | succ fuel ih =>
    cases T with
    | nil => exact .inr ⟨L, [], [], rfl, by simp [Events.timeouts], by simpa using h, by simp, by simp⟩
    | cons e T =>
      by_cases hlt : (s.timeout e).lt now = true
      · have h₀ : Lists L P ([] ++ e :: T) := h
        obtain ⟨L₁, hL₁, (h₁ : Lists L₁ P T)⟩ := h₀.removeTimer
        have hT : e ∉ T := (List.nodup_cons.mp h.timers_nodup).1
        have hP : e ∉ P := fun hP => h.disjoint e hP List.mem_cons_self
        obtain ⟨L₂, hL₂, h₂⟩ := h₁.addPending hP hT
        have hnext : L.next (.ev e) = (T.map .ev).headD .timer := h₀.next_mem_timers
        have hstep : s.timeouts now (fuel + 1) L ((List.map Node.ev (e :: T)).headD .timer) =
            (s.timeouts now fuel L₂ ((T.map .ev).headD .timer)).map
              fun r => (r.1, .ev e :: r.2) := by
          rw [← hnext]
          simp only [Events.timeouts, Events.nodeTimeout, List.map_cons, List.headD_cons, hlt, hL₁,
            reduceCtorEq, if_true, if_false, bind, Except.bind, hL₂]
          cases s.timeouts now fuel L₂ (L.next (.ev e)) <;> rfl
        rw [hstep]
        rcases ih h₂ with ⟨hf, hle⟩ | ⟨L', T₁, T₂, hT', hok, h', h₁', h₂'⟩
        · refine .inl ⟨by rw [hf]; rfl, by simpa using hle⟩
        · exact .inr ⟨L', e :: T₁, T₂, by simp [hT'], by rw [hok]; rfl, by simpa using h',
            by simpa [hlt] using h₁', h₂'⟩
      · exact .inr ⟨L, [], e :: T, rfl, by simp [Events.timeouts, Events.nodeTimeout, hlt],
          by simpa using h, by simp, by simpa using hlt⟩

/-! ## Calls -/

variable {s : Events}

theorem timerAdd (h : Lists s.links P T) (hP : e ∉ P) (hT : e ∉ T) (now tv : Timeval) (fuel : Nat) :
    (s.timerAdd e now fuel (some tv) = .error .fuel ∧ fuel ≤ T.length) ∨
    ∃ L' A B, T = A ++ B ∧ Lists L' P (A ++ e :: B) ∧
      s.timerAdd e now fuel (some tv) = .ok ({ s with
        links := L'
        fd := Function.update s.fd e (-1)
        timeout := Function.update s.timeout e (now.add tv) }.log (.added e)) ∧
      (∀ x ∈ A, (s.timeout x).lt (now.add tv) = true) ∧
      ∀ x ∈ B.head?, (s.timeout x).lt (now.add tv) = false := by
  let s₁ : Events := { s with
    fd := Function.update s.fd e (-1)
    timeout := Function.update s.timeout e (now.add tv) }
  have heq : s.timerAdd e now fuel (some tv) =
      (s₁.findLater (s₁.timeout e) fuel (s₁.links.next .timer)).bind fun list =>
        (addToList s₁.links (.ev e) list).bind fun L =>
          .ok ({ s₁ with links := L }.log (.added e)) := rfl
  have hnew : s₁.timeout e = now.add tv := Function.update_self ..
  -- the timeouts of the events on the list are as they were
  have hold : ∀ x ∈ T, s₁.timeout x = s.timeout x := by
    intro x hx
    refine Function.update_of_ne ?_ ..
    rintro rfl
    exact hT hx
  have h₁ : Lists s₁.links P ([] ++ T) := h
  have hstart : s₁.links.next .timer = (T.map .ev).headD .timer := h.next_timer
  rw [heq, hstart, hnew]
  rcases h₁.findLater (now.add tv) fuel with ⟨hf, hle⟩ | ⟨A, B, rfl, hok, hA, hB⟩
  · left
    rw [hf]
    exact ⟨rfl, hle⟩
  · right
    obtain ⟨L', hL', hlists⟩ := h.addTimer hP hT
    refine ⟨L', A, B, rfl, hlists, ?_, fun x hx => ?_, fun x hx => ?_⟩
    · have hL' : addToList s₁.links (.ev e) ((B.map .ev).headD .timer) = .ok L' := hL'
      rw [hok]
      simp only [Except.bind, hL']
      rfl
    · rw [← hold x (by simp [hx])]
      exact hA x hx
    · rw [← hold x (List.mem_append_right _ (List.mem_of_mem_head? hx))]
      exact hB x hx

theorem foldl_logMoved (s : Events) (l : List Nat) :
    (l.map Node.ev).foldl Events.logMoved s =
      { s with trace := l.reverse.map .moved ++ s.trace } := by
  induction l generalizing s with
  | nil => rfl
  | cons x l ih =>
    rw [List.map_cons, List.foldl_cons, ih]
    simp [Events.logMoved, Events.log]

theorem processTimeouts (h : Lists s.links P T) (now : Timeval) (fuel : Nat) :
    (s.processTimeouts now fuel = .error .fuel ∧ fuel ≤ T.length) ∨
    ∃ L' T₁ T₂, T = T₁ ++ T₂ ∧ Lists L' (P ++ T₁) T₂ ∧
      s.processTimeouts now fuel =
        .ok { s with links := L', trace := T₁.reverse.map .moved ++ s.trace } ∧
      (∀ x ∈ T₁, (s.timeout x).lt now = true) ∧ ∀ x ∈ T₂.head?, (s.timeout x).lt now = false := by
  unfold Events.processTimeouts
  rw [h.next_timer]
  rcases h.timeouts s now fuel with ⟨hf, hle⟩ | ⟨L', T₁, T₂, rfl, hok, hlists, h₁, h₂⟩
  · left
    rw [hf]
    exact ⟨rfl, hle⟩
  · right
    refine ⟨L', T₁, T₂, rfl, hlists, ?_, h₁, h₂⟩
    rw [hok, ← foldl_logMoved { s with links := L' }]
    rfl

theorem timerDelete (h : Lists s.links P T) (e : Nat) :
    (e ∉ P ∧ e ∉ T ∧ s.timerDelete e = .ok s) ∨
    (∃ L' P₁ P₂, P = P₁ ++ e :: P₂ ∧ Lists L' (P₁ ++ P₂) T ∧
      s.timerDelete e = .ok ({ s with links := L' }.log (.deleted e))) ∨
    ∃ L' T₁ T₂, T = T₁ ++ e :: T₂ ∧ Lists L' P (T₁ ++ T₂) ∧
      s.timerDelete e = .ok ({ s with links := L' }.log (.deleted e)) := by
  unfold Events.timerDelete
  by_cases hP : e ∈ P
  · obtain ⟨P₁, P₂, rfl⟩ := List.append_of_mem hP
    obtain ⟨L', hL', hlists⟩ := h.removePending
    exact .inr (.inl ⟨L', P₁, P₂, rfl, hlists, by rw [hL']; rfl⟩)
  by_cases hT : e ∈ T
  · obtain ⟨T₁, T₂, rfl⟩ := List.append_of_mem hT
    obtain ⟨L', hL', hlists⟩ := h.removeTimer
    exact .inr (.inr ⟨L', T₁, T₂, rfl, hlists, by rw [hL']; rfl⟩)
  · exact .inl ⟨hP, hT, by rw [h.removeFromList_free hP hT]; rfl⟩

end Lists

/-! ## The watch table -/

namespace Events

variable {s : Events} {e : Nat} {i : Slot}

/-- The watch table and the index agree after a write to slot `i` and to event `e`, when neither had
another partner and neither gets one. -/
theorem watch_update (h : ∀ j x, s.watch j = some x ↔ s.index x = some j) {a : Option Nat}
    {b : Option Slot} (hi : ∀ x, s.watch i = some x → x = e) (he : ∀ j, s.index e = some j → j = i)
    (ha : ∀ x, a = some x → x = e) (hb : ∀ j, b = some j → j = i) (hself : a = some e ↔ b = some i)
    (j : Slot) (x : Nat) :
    Function.update s.watch i a j = some x ↔ Function.update s.index e b x = some j := by
  simp only [Function.update_apply]
  by_cases hj : j = i <;> by_cases hx : x = e
  · simpa [hj, hx] using hself
  · rw [if_pos hj, if_neg hx, hj, ← h i x]
    exact iff_of_false (mt (ha x) hx) (mt (hi x) hx)
  · rw [if_neg hj, if_pos hx, hx, h j e]
    exact iff_of_false (mt (he j) hj) (mt (hb j) hj)
  · rw [if_neg hj, if_neg hx]
    exact h j x

/-- A watch table with an event in a slot that was free. -/
theorem watch_add (h : ∀ j x, s.watch j = some x ↔ s.index x = some j) (hi : s.watch i = none)
    (he : s.index e = none) (j : Slot) (x : Nat) :
    Function.update s.watch i (some e) j = some x ↔ Function.update s.index e (some i) x = some j := by
  refine watch_update h (fun y hy => ?_) (fun k hk => ?_) (by simp) (by simp) (by simp) j x
  · rw [hi] at hy
    cases hy
  · rw [he] at hk
    cases hk

/-- A watch table without the slot of an event. -/
theorem watch_remove (h : ∀ j x, s.watch j = some x ↔ s.index x = some j) (hi : s.index e = some i)
    (j : Slot) (x : Nat) :
    (s.removeWatch e i).watch j = some x ↔ (s.removeWatch e i).index x = some j := by
  refine watch_update h (fun y hy => ?_) (fun k hk => ?_) (by simp) (by simp) (by simp) j x
  · rw [(h i e).mpr hi] at hy
    exact (Option.some.inj hy).symm
  · rw [hi] at hk
    exact (Option.some.inj hk).symm

end Events

end Twm.Ril
