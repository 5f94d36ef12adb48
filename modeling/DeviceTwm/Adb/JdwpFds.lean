import DeviceTwm.Adb.Jdwp

/-!
# The descriptors that are passed to debuggable processes

* `Change`: what one call does to a record; `step_cases` says so of every step.
* `Owned`: what every call keeps. The ends that were made for a process are those that were sent to it,
  in that order, and then those that wait; none was closed.
* `passing_kept_iff`: the queue is short, in order and watched in every run. But an end that was sent stays open
  in `adbd`, so every end is queued or closed just as long as none is sent.
-/

namespace Twm.Adb.Jdwp

open Lib
open Select (Fdevent Word fdeRead fdeWrite fdeEventMask mask)

/-! ## Logs -/

def createdFds (log : List Act) : List Nat := log.filterMap fun
  | .created fd => some fd
  | _ => none

def sentFds (log : List Act) : List Nat := log.filterMap fun
  | .sent fd => some fd
  | _ => none

def closedFds (log : List Act) : List Nat := log.filterMap fun
  | .closed fd => some fd
  | _ => none

section Logs

variable (l₁ l₂ : List Act)

@[simp] theorem createdFds_append : createdFds (l₁ ++ l₂) = createdFds l₁ ++ createdFds l₂ :=
  List.filterMap_append
@[simp] theorem sentFds_append : sentFds (l₁ ++ l₂) = sentFds l₁ ++ sentFds l₂ :=
  List.filterMap_append
@[simp] theorem closedFds_append : closedFds (l₁ ++ l₂) = closedFds l₁ ++ closedFds l₂ :=
  List.filterMap_append

theorem fds_closed (fds : List Nat) : createdFds (fds.map .closed) = [] ∧
    sentFds (fds.map .closed) = [] ∧ closedFds (fds.map .closed) = fds := by
  induction fds with
  | nil => exact ⟨rfl, rfl, rfl⟩
  | cons fd fds ih =>
    obtain ⟨h₁, h₂, h₃⟩ := ih
    exact ⟨h₁, h₂, congrArg (fd :: ·) h₃⟩

end Logs

/-! ## The queue -/

namespace JdwpProcess

variable {p p' : JdwpProcess}

/-- The loop moves each entry to the place before it. -/
theorem shifted_fold (fds : Nat → Nat) (k : Nat) :
    (List.range' 1 k).foldl (fun fds n => Function.update fds (n - 1) (fds n)) fds =
      fun n => if n < k then fds (n + 1) else fds n := by
  induction k with
  | zero => rfl
  | succ k ih =>
    rw [List.range'_concat, List.foldl_concat, ih]
    funext n
    simp only [Nat.one_mul, Nat.add_sub_cancel_left, Function.update_apply]
    by_cases hn : n = k
    · subst hn
      simp [Nat.add_comm 1 n]
    · rw [if_neg hn]
      by_cases hlt : n < k
      · rw [if_pos hlt, if_pos (by omega)]
      · rw [if_neg hlt, if_neg (by omega)]

@[simp] theorem push_outCount (fd : Nat) : (p.push fd).outCount = p.outCount + 1 := rfl
@[simp] theorem push_outFds (fd : Nat) :
    (p.push fd).outFds = Function.update p.outFds p.outCount fd := rfl
@[simp] theorem pop_outCount : p.pop.outCount = p.outCount - 1 := rfl
@[simp] theorem pop_outFds : p.pop.outFds = shifted p.outFds p.outCount := rfl

theorem queued_push (fd : Nat) : (p.push fd).queued = p.queued ++ [fd] := by
  unfold queued
  rw [push_outCount, push_outFds, List.range_succ, List.map_append, List.map_singleton,
    Function.update_self]
  congr 1
  refine List.map_congr_left fun n hn => ?_
  rw [Function.update_of_ne (Nat.ne_of_lt (List.mem_range.mp hn))]

theorem queued_pop (h : 0 < p.outCount) : p.queued = p.outFds 0 :: p.pop.queued := by
  obtain ⟨k, hk⟩ : ∃ k, p.outCount = k + 1 := ⟨p.outCount - 1, by omega⟩
  unfold queued
  rw [pop_outCount, pop_outFds, shifted, hk, List.range_succ_eq_map, List.map_cons, List.map_map,
    Nat.add_sub_cancel, shifted_fold]
  congr 1
  refine List.map_congr_left fun n hn => ?_
  rw [if_pos (List.mem_range.mp hn)]
  rfl

theorem queued_length : p.queued.length = p.outCount := by simp [queued]

theorem queued_ne_nil : p.queued ≠ [] ↔ 0 < p.outCount := by
  rw [← queued_length, List.length_pos_iff]

/-! ## What is wanted -/

/-- `FDE_WRITE` is wanted. -/
def Wants (p : JdwpProcess) : Prop := p.fde.wanted &&& fdeWrite ≠ 0

instance : DecidablePred Wants := fun _ => inferInstanceAs (Decidable (_ ≠ _))

theorem wanted_add_write (f : Fdevent) :
    (f.rearms [.add (fdeWrite.setWidth 32)]).wanted &&& fdeWrite ≠ 0 := by
  have hw : (f.rearms [.add (fdeWrite.setWidth 32)]).wanted =
      mask (f.wanted.setWidth 32 ||| (fdeWrite.setWidth 32 &&& 0xff)) := f.rearm_wanted _
  rw [hw]
  intro h
  have hbit := congrArg (fun w => BitVec.getLsbD w 1) h
  simp [mask, fdeEventMask, fdeWrite] at hbit

theorem wanted_del_write (f : Fdevent) :
    (f.rearms [.del (fdeWrite.setWidth 32)]).wanted &&& fdeWrite = 0 := by
  have hw : (f.rearms [.del (fdeWrite.setWidth 32)]).wanted =
      mask (f.wanted.setWidth 32 &&& ~~~(fdeWrite.setWidth 32 &&& 0xff)) := f.rearm_wanted _
  rw [hw]
  simp [mask, fdeEventMask, fdeWrite, BitVec.and_assoc]

theorem wants_push {fd : Nat} (h : p.Wants ↔ 0 < p.outCount) :
    (p.push fd).Wants ↔ 0 < (p.push fd).outCount := by
  refine iff_of_true ?_ (Nat.succ_pos _)
  unfold Wants push
  by_cases hc : p.outCount + 1 = 1
  · rw [if_pos hc]
    exact wanted_add_write p.fde
  · rw [if_neg hc]
    exact h.mpr (by omega)

theorem wants_pop (hpos : 0 < p.outCount) (h : p.Wants ↔ 0 < p.outCount) :
    p.pop.Wants ↔ 0 < p.pop.outCount := by
  rw [pop_outCount]
  unfold Wants pop
  by_cases hc : p.outCount - 1 = 0
  · rw [if_pos hc]
    exact iff_of_false (fun hne => hne (wanted_del_write p.fde)) (by omega)
  · rw [if_neg hc]
    exact iff_of_true (h.mpr hpos) (by omega)

/-! ## One call -/

/-- The parts that the queue is made of are the same. -/
structure SameQueue (p p' : JdwpProcess) : Prop where
  outFds : p'.outFds = p.outFds
  outCount : p'.outCount = p.outCount
  fde : p'.fde = p.fde

theorem SameQueue.refl (p : JdwpProcess) : SameQueue p p := ⟨rfl, rfl, rfl⟩

theorem SameQueue.queued (h : SameQueue p p') : p'.queued = p.queued := by
  unfold JdwpProcess.queued
  rw [h.outFds, h.outCount]

theorem SameQueue.wants (h : SameQueue p p') : p'.Wants ↔ p.Wants := by
  unfold Wants
  rw [h.fde]

/-- What a call does to a record, and with its descriptors. -/
inductive Change (p : JdwpProcess) : Option JdwpProcess → List Act → Prop
  | keeps {p' : JdwpProcess} (h : SameQueue p p') : Change p (some p') []
  | creates (fd : Nat) (h : p.outCount < maxOutFds) : Change p (some (p.push fd)) [.created fd]
  | sends {p' : JdwpProcess} (h : SameQueue p p') (hpos : 0 < p.outCount) :
    Change p (some p'.pop) [.sent (p.outFds 0)]
  | frees : Change p none p.free

theorem readEvent_sameQueue {recvs : List Recv} {exit : Exit}
    (h : p.readEvent recvs = some (exit, p')) : SameQueue p p' := by
  unfold readEvent at h
  split at h
  · split at h
    · cases h
    · split at h <;> cases h <;> exact ⟨rfl, rfl, rfl⟩
    · cases h
      exact ⟨rfl, rfl, rfl⟩
  · obtain ⟨e, -, he⟩ := Option.map_eq_some_iff.mp h
    cases he
    exact .refl p

/-- The call sends the first descriptor: it gets to the part for `FDE_WRITE`, something is queued, and
`sendmsg` succeeds. -/
def Delivers (p : JdwpProcess) (events : Word) (recvs : List Recv) (sends : List Sendmsg) : Prop :=
  (events &&& fdeRead ≠ 0 → (p.readEvent recvs).map Prod.fst = some .goOn) ∧
    events &&& fdeWrite ≠ 0 ∧ 0 < p.outCount ∧ sendFd sends = some true

instance (events : Word) (recvs : List Recv) (sends : List Sendmsg) :
    Decidable (p.Delivers events recvs sends) := inferInstanceAs (Decidable (_ ∧ _))

theorem SameQueue.free (h : SameQueue p p') : p'.free = p.free := by
  unfold JdwpProcess.free
  rw [h.queued]

theorem sentFds_free : sentFds p.free = [] := (fds_closed p.queued).2.1

/-- The part for `FDE_WRITE`, on a record whose queue is that of `p`. -/
theorem writeEvent_change {sends : List Sendmsg} {r : Option JdwpProcess} {acts : List Act}
    (hp : SameQueue p p') (h : p'.writeEvent sends = some (r, acts)) :
    Change p r acts ∧ (sentFds acts ≠ [] ↔ 0 < p.outCount ∧ sendFd sends = some true) := by
  unfold writeEvent at h
  rw [hp.outCount] at h
  split at h
  · rename_i hpos
    split at h
    · cases h
    · rename_i hsend
      cases h
      rw [hp.free]
      exact ⟨.frees, by simp [sentFds_free, hsend]⟩
    · rename_i hsend
      cases h
      rw [hp.outFds]
      exact ⟨.sends hp hpos, iff_of_true (by simp [sentFds]) ⟨hpos, hsend⟩⟩
  · rename_i hpos
    cases h
    exact ⟨.keeps hp, iff_of_false (by simp [sentFds]) fun hs => hpos hs.1⟩

/-- A call of the callback, and when it sends a descriptor. -/
theorem event_change {events : Word} {recvs : List Recv} {sends : List Sendmsg}
    {r : Option JdwpProcess} {acts : List Act}
    (h : p.jdwpProcessEvent events recvs sends = some (r, acts)) :
    Change p r acts ∧ (sentFds acts ≠ [] ↔ p.Delivers events recvs sends) := by
  unfold jdwpProcessEvent at h
  rcases hr : (if events &&& fdeRead ≠ 0 then p.readEvent recvs else some (.goOn, p)) with
    _ | ⟨exit, p₁⟩
  · rw [hr] at h
    cases h
  have hread : SameQueue p p₁ ∧
      ((events &&& fdeRead ≠ 0 → (p.readEvent recvs).map Prod.fst = some .goOn) ↔
        exit = .goOn) := by
    split at hr
    · rename_i hev
      rw [hr]
      exact ⟨readEvent_sameQueue hr, fun hgo => Option.some.inj (hgo hev), fun he _ => congrArg some he⟩
    · rename_i hev
      cases hr
      exact ⟨.refl p, iff_of_true (fun hne => absurd hne hev) rfl⟩
  obtain ⟨hsame, hgo⟩ := hread
  unfold Delivers
  rw [hr] at h
  rw [hgo]
  cases exit with
  | close =>
    cases h
    rw [hsame.free]
    exact ⟨.frees, iff_of_false (by simp [sentFds_free]) fun hd => by cases hd.1⟩
  | back =>
    cases h
    exact ⟨.keeps hsame, iff_of_false (by simp [sentFds]) fun hd => by cases hd.1⟩
  | goOn =>
    simp only [] at h
    split at h
    · rename_i hev
      obtain ⟨hc, hs⟩ := writeEvent_change hsame h
      exact ⟨hc, hs.trans ⟨fun hd => ⟨rfl, hev, hd⟩, fun hd => hd.2.2⟩⟩
    · rename_i hev
      cases h
      exact ⟨.keeps hsame, iff_of_false (by simp [sentFds]) fun hd => hev hd.2.1⟩

end JdwpProcess

/-! ## One step -/

open JdwpProcess

/-- The step sends a descriptor. -/
def Delivers (s : Registry) : Step → Prop
  | .event i events recvs sends =>
    match s.list[i]? with
    | none => False
    | some x => x.1.Delivers events recvs sends
  | _ => False

instance (s : Registry) : DecidablePred (Delivers s)
  | .accept _ => .isFalse id
  | .create .. => .isFalse id
  | .event i events recvs sends =>
    match h : s.list[i]? with
    | none => .isFalse (by simp [Delivers, h])
    | some x => decidable_of_iff (x.1.Delivers events recvs sends) (by simp [Delivers, h])

/-- What a step does: at most one record changes; `delivers` is whether a descriptor is sent. -/
inductive Effect (s : Registry) (delivers : Prop) : Registry → Prop
  | accepts (socket : Nat) (hs : ¬ delivers) :
    Effect s delivers { s with list := s.list ++ [(.alloc socket, [])] }
  | idle (hs : ¬ delivers) : Effect s delivers s
  | changes {l₁ l₂ : List (JdwpProcess × List Act)} {p p' : JdwpProcess} {log acts : List Act}
    (hl : s.list = l₁ ++ (p, log) :: l₂) (hc : Change p (some p') acts)
    (hs : sentFds acts ≠ [] ↔ delivers) :
    Effect s delivers { s with list := l₁ ++ (p', log ++ acts) :: l₂ }
  | frees {l₁ l₂ : List (JdwpProcess × List Act)} {p : JdwpProcess} {log acts : List Act}
    (hl : s.list = l₁ ++ (p, log) :: l₂) (hc : Change p none acts)
    (hs : sentFds acts ≠ [] ↔ delivers) :
    Effect s delivers ⟨l₁ ++ l₂, s.gone ++ [log ++ acts]⟩

/-- `create_jdwp_connection_fd` changes the first record with that pid, if any. -/
theorem create_cases (pid : Int) (pair : Option (Nat × Nat)) (l : List (JdwpProcess × List Act)) :
    (createJdwpConnectionFd pid pair l).2 = l ∨
    ∃ l₁ p log l₂ fd, l = l₁ ++ (p, log) :: l₂ ∧ p.outCount < maxOutFds ∧
      (createJdwpConnectionFd pid pair l).2 = l₁ ++ (p.push fd, log ++ [.created fd]) :: l₂ := by
  induction l with
  | nil => exact .inl rfl
  | cons x rest ih =>
    obtain ⟨p, log⟩ := x
    unfold createJdwpConnectionFd
    split
    · split
      · exact .inl rfl
      · rename_i hlt
        split
        · exact .inl rfl
        · exact .inr ⟨[], p, log, rest, _, rfl, Nat.lt_of_not_le hlt, rfl⟩
    · rcases ih with he | ⟨l₁, q, log', l₂, fd, rfl, hlt, he⟩
      · exact .inl (congrArg ((p, log) :: ·) he)
      · exact .inr ⟨(p, log) :: l₁, q, log', l₂, fd, rfl, hlt, congrArg ((p, log) :: ·) he⟩

theorem step_effect {s s' : Registry} {l : Step} (h : step s l = some s') :
    Effect s (Delivers s l) s' := by
  cases l with
  | accept socket =>
    cases h
    exact .accepts socket id
  | create pid pair =>
    cases h
    rcases create_cases pid pair s.list with he | ⟨l₁, p, log, l₂, fd, hl, hlt, he⟩
    · rw [he]
      exact .idle id
    · rw [he]
      exact .changes hl (.creates fd hlt) (iff_of_false (by simp [sentFds]) id)
  | event i events recvs sends =>
    simp only [step] at h
    rcases hx : s.list[i]? with _ | ⟨p, log⟩
    · rw [hx] at h
      cases h
    rw [hx] at h
    simp only [] at h
    obtain ⟨hi, hget⟩ := List.getElem?_eq_some_iff.mp hx
    have hlist : s.list = s.list.take i ++ (p, log) :: s.list.drop (i + 1) := by
      rw [← hget, List.getElem_cons_drop, List.take_append_drop]
    have hdel : Delivers s (.event i events recvs sends) ↔ p.Delivers events recvs sends := by
      simp only [Delivers, hx]
    split at h
    · cases h
    · rename_i p' acts hev
      cases h
      obtain ⟨hc, hs⟩ := event_change hev
      rw [List.set_eq_take_append_cons_drop, if_pos hi]
      exact .changes hlist hc (hs.trans hdel.symm)
    · rename_i acts hev
      cases h
      obtain ⟨hc, hs⟩ := event_change hev
      rw [List.eraseIdx_eq_take_drop_succ]
      exact .frees hlist hc (hs.trans hdel.symm)

/-! ## What every call keeps -/

/-- A record with what was done for it. -/
structure Owned (p : JdwpProcess) (log : List Act) : Prop where
  bounded : p.outCount ≤ maxOutFds
  order : createdFds log = sentFds log ++ p.queued
  none_closed : closedFds log = []
  wants : p.Wants ↔ 0 < p.outCount

/-- What was done for a record that is freed. -/
structure Released (log : List Act) : Prop where
  order : createdFds log = sentFds log ++ closedFds log

structure Inv (s : Registry) : Prop where
  live : ∀ x ∈ s.list, Owned x.1 x.2
  gone : ∀ log ∈ s.gone, Released log

theorem owned_alloc (socket : Nat) : Owned (.alloc socket) [] where
  bounded := Nat.zero_le _
  order := rfl
  none_closed := rfl
  wants := by
    refine iff_of_false (fun h => h ?_) (Nat.lt_irrefl 0)
    have hw : (JdwpProcess.alloc socket).fde.wanted = mask ((Select.Call.add (fdeRead.setWidth 32)).word
        ((Select.fdeActive ||| Select.fdeDontClose) &&& fdeEventMask)) := Fdevent.rearm_wanted _ _
    rw [hw]
    decide

theorem Owned.change {p p' : JdwpProcess} {log acts : List Act} (h : Owned p log)
    (hc : Change p (some p') acts) : Owned p' (log ++ acts) := by
  cases hc with
  | keeps hsame =>
    rw [List.append_nil]
    exact ⟨hsame.outCount ▸ h.bounded, by rw [hsame.queued]; exact h.order, h.none_closed,
      by rw [hsame.wants, hsame.outCount]; exact h.wants⟩
  | creates fd hlt =>
    refine ⟨hlt, ?_, ?_, wants_push h.wants⟩
    · rw [createdFds_append, sentFds_append, queued_push, h.order]
      simp [createdFds, sentFds]
    · rw [closedFds_append, h.none_closed]
      rfl
  | @sends p₁ hsame hpos =>
    have hpos₁ : 0 < p₁.outCount := hsame.outCount ▸ hpos
    refine ⟨?_, ?_, ?_, wants_pop hpos₁ ?_⟩
    · rw [pop_outCount, hsame.outCount]
      exact Nat.le_trans (Nat.sub_le _ _) h.bounded
    · rw [createdFds_append, sentFds_append, h.order, ← hsame.queued, queued_pop hpos₁, hsame.outFds]
      simp [createdFds, sentFds]
    · rw [closedFds_append, h.none_closed]
      rfl
    · rw [hsame.wants, hsame.outCount]
      exact h.wants

theorem Owned.released {p : JdwpProcess} {log acts : List Act} (h : Owned p log)
    (hc : Change p none acts) : Released (log ++ acts) := by
  cases hc
  obtain ⟨h₁, h₂, h₃⟩ := fds_closed p.queued
  refine ⟨?_⟩
  rw [createdFds_append, sentFds_append, closedFds_append, h.order, h.none_closed]
  unfold JdwpProcess.free
  rw [h₁, h₂, h₃]
  simp

theorem Inv.step {s s' : Registry} {l : Step} (h : Inv s) (hs : Jdwp.step s l = some s') :
    Inv s' := by
  rcases step_effect hs with ⟨socket, -⟩ | - | @⟨l₁, l₂, p, p', log, acts, hl, hc, -⟩ |
    @⟨l₁, l₂, p, log, acts, hl, hc, -⟩
  · refine ⟨fun x hx => ?_, h.gone⟩
    rcases List.mem_append.mp hx with hx | hx
    · exact h.live x hx
    · obtain rfl := List.mem_singleton.mp hx
      exact owned_alloc socket
  · exact h
  · refine ⟨fun x hx => ?_, h.gone⟩
    have hlive := h.live
    rw [hl] at hlive
    rcases List.mem_append.mp hx with hx | hx
    · exact hlive x (List.mem_append_left _ hx)
    · rcases List.mem_cons.mp hx with rfl | hx
      · exact (hlive (p, log) (by simp)).change hc
      · exact hlive x (by simp [hx])
  · have hlive := h.live
    rw [hl] at hlive
    refine ⟨fun x hx => ?_, fun log' hlog => ?_⟩
    · rcases List.mem_append.mp hx with hx | hx
      · exact hlive x (List.mem_append_left _ hx)
      · exact hlive x (by simp [hx])
    · rcases List.mem_append.mp hlog with hlog | hlog
      · exact h.gone log' hlog
      · obtain rfl := List.mem_singleton.mp hlog
        exact (hlive (p, log) (by simp)).released hc

/-! ## Runs -/

/-- All the logs. -/
def Registry.logs (s : Registry) : List (List Act) := s.list.map Prod.snd ++ s.gone

/-- No descriptor has been sent. -/
def Unsent (s : Registry) : Prop := ∀ log ∈ s.logs, sentFds log = []

theorem unsent_step {s s' : Registry} {l : Step} (hs : step s l = some s') :
    Unsent s' ↔ Unsent s ∧ ¬ Delivers s l := by
  unfold Unsent Registry.logs
  rcases step_effect hs with ⟨socket, hn⟩ | hn | ⟨hl, -, hd⟩ | ⟨hl, -, hd⟩
  · simp only [hn, List.map_append, List.map_cons, List.map_nil, List.mem_append, List.mem_cons,
      or_imp, forall_and, forall_eq]
    simp [sentFds]
  · simp [hn]
  all_goals
    rw [← hd, hl]
    simp only [List.map_append, List.map_cons, List.mem_append, List.mem_cons, List.not_mem_nil,
      or_imp, forall_and, forall_eq, sentFds_append, List.append_eq_nil_iff, not_not]
    tauto

/-- Nothing is sent in a run just when no step of it sends. -/
theorem unsent_run {s s' : Registry} {ls : List Step} (hs : run step s ls = some s') :
    Unsent s' ↔ Unsent s ∧ RunOk step (fun s l => ¬ Delivers s l) s ls := by
  induction ls generalizing s with
  | nil =>
    cases hs
    exact (and_iff_left trivial).symm
  | cons l ls ih =>
    obtain ⟨s₁, h₁, h₂⟩ := Option.bind_eq_some_iff.mp hs
    rw [ih h₂, unsent_step h₁, and_assoc]
    simp only [RunOk, h₁]

/-- What is promised of a record: the queue is bounded, the ends are sent in the order in which they
were made, `FDE_WRITE` is wanted while some wait, and each is queued or closed. -/
structure Kept (p : JdwpProcess) (log : List Act) : Prop where
  bounded : p.outCount ≤ maxOutFds
  inOrder : sentFds log <+: createdFds log
  wants : p.Wants ↔ p.queued ≠ []
  noLeak : (createdFds log).Perm (p.queued ++ closedFds log)

/-- What is promised of a record that is freed. -/
structure KeptGone (log : List Act) : Prop where
  inOrder : sentFds log <+: createdFds log
  noLeak : (createdFds log).Perm (closedFds log)

structure Holds (s : Registry) : Prop where
  live : ∀ x ∈ s.list, Kept x.1 x.2
  gone : ∀ log ∈ s.gone, KeptGone log

theorem Owned.kept_iff {p : JdwpProcess} {log : List Act} (h : Owned p log) :
    Kept p log ↔ sentFds log = [] := by
  constructor
  · intro hk
    have hl := hk.noLeak.length_eq
    rw [h.order, h.none_closed, List.append_nil, List.length_append] at hl
    exact List.eq_nil_of_length_eq_zero (by omega)
  · intro hs
    refine ⟨h.bounded, by rw [h.order]; exact List.prefix_append _ _, ?_, ?_⟩
    · rw [h.wants, queued_ne_nil]
    · rw [h.order, hs, h.none_closed, List.append_nil]
      rfl

theorem Released.kept_iff {log : List Act} (h : Released log) :
    KeptGone log ↔ sentFds log = [] := by
  constructor
  · intro hk
    have hl := hk.noLeak.length_eq
    rw [h.order, List.length_append] at hl
    exact List.eq_nil_of_length_eq_zero (by omega)
  · intro hs
    refine ⟨by rw [hs]; exact List.nil_prefix, ?_⟩
    rw [h.order, hs]
    rfl

theorem Inv.holds_iff {s : Registry} (h : Inv s) : Holds s ↔ Unsent s := by
  constructor
  · intro hh log hlog
    rcases List.mem_append.mp hlog with hlog | hlog
    · obtain ⟨x, hx, rfl⟩ := List.mem_map.mp hlog
      exact (h.live x hx).kept_iff.mp (hh.live x hx)
    · exact (h.gone log hlog).kept_iff.mp (hh.gone log hlog)
  · intro hu
    refine ⟨fun x hx => (h.live x hx).kept_iff.mpr (hu _ ?_), fun log hlog =>
      (h.gone log hlog).kept_iff.mpr (hu _ ?_)⟩
    · exact List.mem_append_left _ (List.mem_map_of_mem hx)
    · exact List.mem_append_right _ hlog

theorem inv_init : Inv .init := by
  constructor
  · intro x hx
    cases hx
  · intro log hlog
    cases hlog

theorem inv_run {s : Registry} {ls : List Step} (hrun : run step .init ls = some s) : Inv s :=
  run_keeps (fun _ _ _ hi hs => hi.step hs) inv_init hrun

/-- In every run the queue of a record is bounded, `FDE_WRITE` is wanted while it is not empty, and what
was made for a process is what was sent, in that order, and then what waits. -/
theorem queue_kept {s : Registry} {ls : List Step} (hrun : run step .init ls = some s)
    {p : JdwpProcess} {log : List Act} (hp : (p, log) ∈ s.list) :
    p.outCount ≤ maxOutFds ∧ (p.Wants ↔ p.queued ≠ []) ∧
      createdFds log = sentFds log ++ p.queued := by
  have h := (inv_run hrun).live _ hp
  exact ⟨h.bounded, h.wants.trans queued_ne_nil.symm, h.order⟩

/-- **Descriptors are kept as long as none is sent.** In every run, what is promised of the records holds
just when no step of the run sends a descriptor. -/
theorem passing_kept_iff (ls : List Step) (s : Registry) (hrun : run step .init ls = some s) :
    Holds s ↔ RunOk step (fun s l => ¬ Delivers s l) .init ls := by
  rw [(inv_run hrun).holds_iff, unsent_run hrun]
  refine and_iff_right fun log hlog => ?_
  cases hlog

/-- Two ends are made for a process, and then `sendmsg` fails. -/
def sendFails : List Step :=
  [.accept 5, .event 0 fdeRead [.got [48, 48], .got [54, 52]] [], .create 100 (some (10, 11)),
    .create 100 (some (12, 13)), .event 0 fdeWrite [] [.eintr, .failed]]

/-- Neither end is sent and both are closed. -/
theorem holds_sendFails : ∃ s, run step .init sendFails = some s ∧
    s.logs = [[.created 11, .created 13, .closed 11, .closed 13]] ∧ Holds s := by
  have hrun := (Option.some_get (x := run step .init sendFails) (by decide)).symm
  exact ⟨_, hrun, by decide, (passing_kept_iff sendFails _ hrun).mpr (by decide)⟩

/-- An end is made for a process and sent. -/
def sendWorks : List Step :=
  [.accept 5, .event 0 fdeRead [.got [48, 48, 54, 52]] [], .create 100 (some (10, 11)),
    .event 0 fdeWrite [] [.sent]]

/-- The end that was sent stays open: it is not queued any more, and never closed. -/
theorem sent_stays_open : ∃ s, run step .init sendWorks = some s ∧ ¬ Holds s := by
  refine ⟨_, (Option.some_get (x := run step .init sendWorks) (by decide)).symm, fun h => ?_⟩
  have hl := (h.live _ (List.getElem_mem (n := 0) (by decide))).noLeak.length_eq
  exact absurd hl (by decide)

end Twm.Adb.Jdwp
