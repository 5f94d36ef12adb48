import DeviceTwm.Gralloc.DispQueue
import DeviceTwm.Gralloc.Framebuffer

/-!
# Frames on screen

The display queue between any number of threads in `fb_post` and the display thread, over the linked
queue itself. Of `fb_post` there is the critical section that queues a buffer; of `disp_loop`,
all that it does to the queue and to the screen. A frame counts as shown when `FBIOPUT_VSCREENINFO` is
called for it, whatever the call returns: the round is the same.

`disp_loop` tests the queue once before it waits, and not again when the wait is over. A wait that
ends without a signal takes the dummy of the empty queue for a frame.

* `InOrder`: the frames on screen, the one that the display thread has taken, and those in the queue
  are the queued ones, in order.
* `inOrder_iff`: this holds all through a run exactly if no wait ends while the queue is empty.
* `Follows.step`: the threads of `Framebuffer` are an instance.
-/

namespace Twm.Gralloc.Display

open Lib Framebuffer

structure Frames where
  disp : Queue QBuf
  thread : Disp
  /-- `cur_buf` of `disp_loop`. -/
  curBuf : Int
  /-- The display thread, in `pthread_cond_wait`, has been signalled. -/
  signalled : Bool
  /-- The buffers that were queued. -/
  queued : List QBuf
  /-- What `FBIOPUT_VSCREENINFO` was called for; `none` is the dummy. -/
  shown : List (Option QBuf)

namespace Frames

def init : Frames where
  disp := .init
  thread := .top
  curBuf := -1
  signalled := false
  queued := []
  shown := []

variable (s : Frames)

/-- A thread in `fb_post` queues a buffer and signals `qpost`. -/
def post (qb : QBuf) (a : Nat) : Option Frames :=
  (s.disp.push qb a).map fun disp =>
    { s with
      disp := disp
      signalled := s.signalled || s.thread == .wait
      queued := s.queued ++ [qb] }

/-- `getHeadValue` and `pop`. -/
def dequeue : Option Frames :=
  s.disp.getHeadValue.bind fun nxtBuf =>
    s.disp.pop.map fun disp =>
      { s with disp := disp, thread := .pan nxtBuf, signalled := false }

/-- The next step of the display thread. -/
def display : Option Frames :=
  match s.thread with
  | .top => if s.disp.isEmpty then some { s with thread := .wait, signalled := false } else s.dequeue
  | .wait => if s.signalled then s.dequeue else none
  | .pan nxtBuf =>
    some
      { s with
        shown := s.shown ++ [nxtBuf]
        thread :=
          match nxtBuf with
          | none => .wild
          | some q => .mark q }
  | .mark q => some { s with curBuf := q.idx, thread := .top }
  | .wild => none

/-- What the display thread has taken from the queue and not yet put on screen. -/
def inHand : List (Option QBuf) :=
  match s.thread with
  | .pan nxtBuf => [nxtBuf]
  | _ => []

end Frames

inductive Act
  /-- `a` is the address that the new node of the queue gets. -/
  | post (qb : QBuf) (a : Nat)
  | display
  /-- `pthread_cond_wait` returns, with or without a signal. -/
  | wake
  deriving DecidableEq

def step (s : Frames) : Act → Option Frames
  | .post qb a => if (s.disp.heap a).isNone then s.post qb a else none
  | .display => s.display
  | .wake => if s.thread = .wait then s.dequeue else none

/-- No wait ends while the queue is empty. -/
def Awaited (s : Frames) : Act → Prop
  | .wake => s.thread = .wait → s.disp.isEmpty = false
  | .post _ _ | .display => True

/-- The frames on screen, the one in hand and those in the queue are the queued ones, in order. -/
def InOrder (s : Frames) : Prop :=
  ∃ rest, s.disp.Holds rest ∧ s.shown ++ s.inHand ++ rest.map some = s.queued.map some

/-- What the display thread put on screen was queued, and in this order. -/
theorem InOrder.shown_prefix {s : Frames} (h : InOrder s) : s.shown <+: s.queued.map some := by
  obtain ⟨rest, -, h⟩ := h
  exact ⟨s.inHand ++ rest.map some, by rw [← List.append_assoc, h]⟩

/-- Besides, a waiting display thread is signalled as soon as there is a frame. -/
structure Inv (s : Frames) : Prop where
  order : InOrder s
  woken : s.signalled = true → s.disp.isEmpty = false

variable {s s' : Frames}

namespace Inv

theorem init : Inv .init := ⟨⟨[], Queue.init_holds, rfl⟩, fun h => nomatch h⟩

theorem post (h : Inv s) (qb : QBuf) {a : Nat} (ha : s.disp.heap a = none) :
    ∃ s', s.post qb a = some s' ∧ Inv s' := by
  obtain ⟨⟨rest, hq, ho⟩, -⟩ := h
  obtain ⟨disp, hpush, hholds⟩ := Queue.push_holds hq qb ha
  refine ⟨_, by rw [Frames.post, hpush, Option.map_some], ⟨_, hholds, ?_⟩, fun _ => ?_⟩
  · rw [List.map_append, List.map_append, ← ho, List.append_assoc (s.shown ++ s.inHand)]
    rfl
  · rw [← Bool.not_eq_true, Queue.isEmpty_iff hholds]
    simp

/-- A frame is taken from the queue. -/
theorem dequeue (h : Inv s) (hne : s.disp.isEmpty = false) (hhand : s.inHand = []) :
    ∃ s', s.dequeue = some s' ∧ Inv s' := by
  obtain ⟨⟨rest, hq, ho⟩, -⟩ := h
  obtain ⟨disp, hpop, hholds⟩ := Queue.pop_holds hq
  have hget := Queue.getHeadValue_holds hq
  cases rest with
  | nil => rw [(Queue.isEmpty_iff hq).mpr rfl] at hne; cases hne
  | cons x rest =>
    refine ⟨_, by rw [Frames.dequeue, hget, Option.bind_some, hpop, Option.map_some],
      ⟨rest, hholds, ?_⟩, Bool.noConfusion⟩
    rw [hhand] at ho
    rw [← ho]
    simp [Frames.inHand]

theorem display (h : Inv s) (hstep : s.display = some s') : Inv s' := by
  unfold Frames.display at hstep
  split at hstep
  case h_1 ht =>
    have hhand : s.inHand = [] := by rw [Frames.inHand, ht]
    split at hstep
    · cases hstep
      obtain ⟨⟨rest, hq, ho⟩, -⟩ := h
      rw [hhand] at ho
      exact ⟨⟨rest, hq, ho⟩, fun hs => nomatch hs⟩
    · rename_i hne
      obtain ⟨s₁, h₁, hinv⟩ := h.dequeue (by simpa using hne) hhand
      cases h₁.symm.trans hstep
      exact hinv
  case h_2 ht =>
    have hhand : s.inHand = [] := by rw [Frames.inHand, ht]
    split at hstep
    · rename_i hs
      obtain ⟨s₁, h₁, hinv⟩ := h.dequeue (h.woken hs) hhand
      cases h₁.symm.trans hstep
      exact hinv
    · cases hstep
  case h_3 nxtBuf ht =>
    cases hstep
    obtain ⟨⟨rest, hq, ho⟩, hw⟩ := h
    refine ⟨⟨rest, hq, ?_⟩, hw⟩
    rw [Frames.inHand, ht] at ho
    rw [← ho]
    cases nxtBuf <;> simp [Frames.inHand]
  case h_4 q ht =>
    cases hstep
    obtain ⟨⟨rest, hq, ho⟩, hw⟩ := h
    rw [Frames.inHand, ht] at ho
    exact ⟨⟨rest, hq, ho⟩, hw⟩
  case h_5 => cases hstep

theorem step (h : Inv s) {l : Act} (hl : Awaited s l) (hstep : Display.step s l = some s') :
    Inv s' := by
  cases l with
  | post qb a =>
    simp only [Display.step] at hstep
    split at hstep
    · rename_i ha
      obtain ⟨s₁, h₁, hinv⟩ := h.post qb (Option.isNone_iff_eq_none.mp ha)
      cases h₁.symm.trans hstep
      exact hinv
    · cases hstep
  | display => exact h.display hstep
  | wake =>
    simp only [Display.step] at hstep
    split at hstep
    · rename_i ht
      obtain ⟨s₁, h₁, hinv⟩ := h.dequeue (hl ht) (by rw [Frames.inHand, ht])
      cases h₁.symm.trans hstep
      exact hinv
    · cases hstep

/-- A wait that ends while the queue is empty takes the dummy. -/
theorem step_wake (h : Inv s) (ht : s.thread = .wait) (hempty : s.disp.isEmpty = true) :
    ∃ s', Display.step s .wake = some s' ∧ ¬ InOrder s' := by
  obtain ⟨⟨rest, hq, ho⟩, -⟩ := h
  obtain rfl := (Queue.isEmpty_iff hq).mp hempty
  obtain ⟨disp, hpop, hholds⟩ := Queue.pop_holds hq
  have hdeq : s.dequeue = some { s with disp := disp, thread := .pan none, signalled := false } := by
    rw [Frames.dequeue, Queue.getHeadValue_holds hq, Option.bind_some, hpop]
    rfl
  refine ⟨_, (if_pos ht).trans hdeq, ?_⟩
  rintro ⟨rest, hrest, h⟩
  obtain rfl := hrest.unique hholds
  rw [Frames.inHand, ht] at ho
  have hlen := congrArg List.length (h.trans ho.symm)
  simp [Frames.inHand] at hlen

/-- The queue never stops a thread: a buffer can be queued at any time, and the display thread goes on
except while it waits for a signal. -/
theorem exists_step (h : Inv s) :
    (∀ qb, ∃ a s', Display.step s (.post qb a) = some s') ∧
      ((s.thread = .wait → s.signalled = true) → s.thread ≠ .wild →
        ∃ s', Display.step s .display = some s') := by
  obtain ⟨rest, hq, ho⟩ := h.order
  constructor
  · intro qb
    obtain ⟨a, ha⟩ := Queue.exists_fresh hq
    obtain ⟨s', hs', -⟩ := h.post qb ha
    exact ⟨a, s', (if_pos (by rw [ha]; rfl)).trans hs'⟩
  · intro hwait hwild
    obtain ⟨disp, hpop, -⟩ := Queue.pop_holds hq
    have hdeq : ∃ s', s.dequeue = some s' := by
      rw [Frames.dequeue, Queue.getHeadValue_holds hq, Option.bind_some, hpop]
      exact ⟨_, rfl⟩
    simp only [Display.step, Frames.display]
    split
    case h_1 => split; exacts [⟨_, rfl⟩, hdeq]
    case h_2 ht => rw [if_pos (hwait ht)]; exact hdeq
    case h_3 => exact ⟨_, rfl⟩
    case h_4 => exact ⟨_, rfl⟩
    case h_5 ht => exact absurd ht hwild

theorem run (h : Inv s) {ls : List Act} (hok : RunOk Display.step Awaited s ls)
    (hrun : Lib.run Display.step s ls = some s') : Inv s' :=
  run_invariant (fun _ _ _ hs hl => hs.step hl) h hok hrun

/-- Frames that are in order all through a run come from a run in which no wait ends while the queue
is empty. -/
theorem awaited (h : Inv s) {ls : List Act}
    (hall : ∀ ks t, ks <+: ls → Lib.run Display.step s ks = some t → InOrder t) :
    RunOk Display.step Awaited s ls := by
  induction ls generalizing s with
  | nil => trivial
  | cons l ls ih =>
    have hfirst : ∀ t, Display.step s l = some t → InOrder t := fun t ht =>
      hall [l] t (by simp) (Option.bind_eq_some_iff.mpr ⟨t, ht, rfl⟩)
    have hok : Awaited s l := by
      cases l with
      | post | display => trivial
      | wake =>
        intro ht
        by_contra hne
        obtain ⟨t, hstep, hbad⟩ := h.step_wake ht (by simpa using hne)
        exact hbad (hfirst t hstep)
    refine ⟨hok, ?_⟩
    cases hl : Display.step s l with
    | none => trivial
    | some t =>
      refine ih (h.step hok hl) fun ks u hks hu => hall (l :: ks) u ?_ ?_
      · exact List.cons_prefix_cons.mpr ⟨rfl, hks⟩
      · exact Option.bind_eq_some_iff.mpr ⟨t, hl, hu⟩

end Inv

/-- The frames are in order all through a run exactly if no wait ends while the queue is empty. -/
theorem inOrder_iff (ls : List Act) :
    (∀ ks s, ks <+: ls → run step .init ks = some s → InOrder s) ↔ RunOk step Awaited .init ls := by
  constructor
  · exact Inv.init.awaited
  · rintro hok ks s ⟨ms, rfl⟩ hrun
    exact (Inv.init.run hok.of_append hrun).order

/-- The second wait of the display thread ends without a signal, and it pans to the dummy. -/
theorem shown_not_queued :
    ∃ ls s, run step .init ls = some s ∧ s.shown = [some ⟨7, 0⟩, none] ∧ s.queued = [⟨7, 0⟩] ∧
      ¬ s.shown <+: s.queued.map some := by
  have h : (run step .init [.post ⟨7, 0⟩ 0, .display, .display, .display, .display, .wake,
      .display]).any fun s => s.shown = [some ⟨7, 0⟩, none] ∧ s.queued = [⟨7, 0⟩] := by
    decide
  obtain ⟨s, hs, hp⟩ := (Option.any_eq_true ..).mp h
  obtain ⟨hshown, hqueued⟩ := of_decide_eq_true hp
  refine ⟨_, s, hs, hshown, hqueued, ?_⟩
  rw [hshown, hqueued]
  decide

/-! ## The threads of `Framebuffer` -/

/-- The buffers on screen. -/
def pans (log : List Event) : List (Option Nat) :=
  log.filterMap fun
    | .pan b => some b
    | _ => none

/-- The linked queue is the list of `Framebuffer`. -/
structure Follows (s : Fb) (f : Frames) : Prop where
  queue : f.disp.Holds s.queue
  thread : f.thread = s.disp
  curBuf : f.curBuf = s.curBuf
  signalled : f.signalled = s.dispSignalled
  shown : f.shown.map (Option.map QBuf.buf) = pans s.log

namespace Follows

variable {t t' : Fb} {f f' : Frames}

theorem init (i : Int) : Follows (.init i) .init :=
  ⟨Queue.init_holds, rfl, rfl, rfl, rfl⟩

/-- A step of the thread in `fb_post` outside `qlock`. -/
theorem congr (h : Follows t f) (hq : t'.queue = t.queue) (hd : t'.disp = t.disp)
    (hc : t'.curBuf = t.curBuf) (hs : t'.dispSignalled = t.dispSignalled)
    (hl : pans t'.log = pans t.log) : Follows t' f :=
  ⟨hq ▸ h.queue, hd ▸ h.thread, hc ▸ h.curBuf, hs ▸ h.signalled, hl ▸ h.shown⟩

theorem unlockCurrent (h : Follows t f) (p : Post) : Follows (t.unlockCurrent p) f := by
  unfold Fb.unlockCurrent
  split
  · exact h.congr rfl rfl rfl rfl rfl
  · exact h.congr rfl rfl rfl rfl (by simp [pans])

theorem push (h : Follows t f) (b : Nat) {a : Nat} (ha : f.disp.heap a = none) :
    ∃ f', step f (.post ⟨b, t.nxtIdx⟩ a) = some f' ∧ Follows (t.pushBuffer b) f' := by
  obtain ⟨disp, hpush, hholds⟩ := Queue.push_holds h.queue ⟨b, t.nxtIdx⟩ ha
  have hpost : f.post ⟨b, t.nxtIdx⟩ a = some
      { f with
        disp := disp
        signalled := f.signalled || f.thread == .wait
        queued := f.queued ++ [⟨b, t.nxtIdx⟩] } := by
    rw [Frames.post, hpush, Option.map_some]
  refine ⟨_, (if_pos (by rw [ha]; rfl)).trans hpost, ⟨hholds, h.thread, h.curBuf, ?_, h.shown⟩⟩
  show (f.signalled || f.thread == .wait) = (t.dispSignalled || t.disp == .wait)
  rw [h.signalled, h.thread]

theorem dequeue (h : Follows t f) : ∃ f', f.dequeue = some f' ∧ Follows t.dequeue f' := by
  obtain ⟨disp, hpop, hholds⟩ := Queue.pop_holds h.queue
  have hdeq : f.dequeue = some
      { f with disp := disp, thread := .pan t.queue.head?, signalled := false } := by
    rw [Frames.dequeue, Queue.getHeadValue_holds h.queue, Option.bind_some, hpop]
    rfl
  exact ⟨_, hdeq, ⟨hholds, rfl, h.curBuf, rfl, h.shown⟩⟩

/-- A pan, whether it fails or not. -/
theorem panDisplay (h : Follows t f) {q : Option QBuf} (hd : t.disp = .pan q) (ok : Bool) :
    ∃ f', f.display = some f' ∧ Follows (t.panDisplay q ok) f' := by
  unfold Frames.display
  rw [h.thread, hd]
  refine ⟨_, rfl, ⟨h.queue, by cases q <;> rfl, h.curBuf, h.signalled, ?_⟩⟩
  show (f.shown ++ [q]).map (Option.map QBuf.buf) = pans (t.log ++ [.pan (q.map QBuf.buf)])
  rw [List.map_append, h.shown, pans, pans, List.filterMap_append]
  rfl

theorem display (h : Follows t f) (hstep : t.display = some t') :
    ∃ f', f.display = some f' ∧ Follows t' f' := by
  unfold Fb.display at hstep
  unfold Frames.display
  rw [h.thread]
  cases hd : t.disp with
  | top =>
    simp only [hd] at hstep ⊢
    have hempty := Queue.isEmpty_iff h.queue
    by_cases hq : t.queue = []
    · rw [if_pos hq] at hstep
      cases hstep
      exact ⟨_, if_pos (hempty.mpr hq), ⟨h.queue, rfl, h.curBuf, rfl, h.shown⟩⟩
    · rw [if_neg hq] at hstep
      cases hstep
      obtain ⟨f', hf', hfol⟩ := h.dequeue
      exact ⟨f', (if_neg fun he => hq (hempty.mp he)).trans hf', hfol⟩
  | wait =>
    simp only [hd] at hstep ⊢
    split at hstep
    · rename_i hs
      cases hstep
      obtain ⟨f', hf', hfol⟩ := h.dequeue
      exact ⟨f', (if_pos (h.signalled.trans hs)).trans hf', hfol⟩
    · cases hstep
  | pan q =>
    simp only [hd] at hstep
    cases hstep
    obtain ⟨f', hf', hfol⟩ := h.panDisplay hd true
    rw [Frames.display, h.thread, hd] at hf'
    exact ⟨f', hf', hfol⟩
  | mark q =>
    simp only [hd] at hstep ⊢
    cases hstep
    exact ⟨_, rfl, ⟨h.queue, rfl, rfl, h.signalled, h.shown⟩⟩
  | wild =>
    simp only [hd] at hstep
    cases hstep

/-- A step of the thread in `fb_post` queues its buffer, or does nothing to the queue. -/
theorem poster (h : Follows t f) {busy : Bool} (hstep : t.poster busy = some t') :
    (∃ qb, ∀ a, f.disp.heap a = none → ∃ f', step f (.post qb a) = some f' ∧ Follows t' f') ∨
      Follows t' f := by
  unfold Fb.poster at hstep
  split at hstep
  case h_1 => cases hstep
  case h_5 b _ =>
    cases hstep
    exact .inl ⟨_, fun a ha => h.push b ha⟩
  all_goals right
  case h_2 => cases hstep; exact h.congr rfl rfl rfl rfl rfl
  case h_3 =>
    cases hstep
    exact h.congr rfl rfl rfl rfl (by simp [pans])
  case h_4 => cases hstep; exact h.congr rfl rfl rfl rfl rfl
  case h_6 =>
    cases hstep
    unfold Fb.testAvail
    split_ifs <;> exact h.congr rfl rfl rfl rfl rfl
  case h_7 =>
    split at hstep
    · cases hstep
      exact h.congr rfl rfl rfl rfl rfl
    · cases hstep
  case h_8 =>
    cases hstep
    exact h.unlockCurrent _
  case h_9 => cases hstep; exact h.congr rfl rfl rfl rfl rfl
  case h_10 =>
    cases hstep
    exact h.unlockCurrent _
  case h_11 =>
    cases hstep
    exact h.congr rfl rfl rfl rfl (by simp [pans])

/-- Every step of `Framebuffer` is a step over the linked queue, or does nothing to it. -/
theorem step (h : Follows t f) {l : Label} (hstep : Framebuffer.step t l = some t')
    (hl : l = .wakeDisplay → t.queue ≠ []) (hf : Inv f) :
    ∃ f', Follows t' f' ∧ Inv f' := by
  cases l with
  | post b =>
    simp only [Framebuffer.step] at hstep
    split at hstep
    · cases hstep
      exact ⟨f, h.congr rfl rfl rfl rfl rfl, hf⟩
    · cases hstep
  | poster busy =>
    rcases h.poster hstep with ⟨qb, hpush⟩ | hstay
    · obtain ⟨a, ha⟩ := Queue.exists_fresh h.queue
      obtain ⟨f', hf', hfol⟩ := hpush a ha
      exact ⟨f', hfol, hf.step (l := .post qb a) trivial hf'⟩
    · exact ⟨f, hstay, hf⟩
  | display =>
    obtain ⟨f', hf', hfol⟩ := h.display hstep
    exact ⟨f', hfol, hf.step (l := .display) trivial hf'⟩
  | displayFails =>
    simp only [Framebuffer.step] at hstep
    split at hstep
    · next q hd =>
      cases hstep
      obtain ⟨f', hf', hfol⟩ := h.panDisplay hd false
      exact ⟨f', hfol, hf.step (l := .display) trivial hf'⟩
    · cases hstep
  | wakePoster =>
    simp only [Framebuffer.step] at hstep
    split at hstep
    · cases hstep
      exact ⟨f, h.congr rfl rfl rfl rfl rfl, hf⟩
    · cases hstep
  | wakeDisplay =>
    simp only [Framebuffer.step] at hstep
    split at hstep
    · rename_i ht
      cases hstep
      obtain ⟨f', hf', hfol⟩ := h.dequeue
      have hempty : f.disp.isEmpty = false := by
        rw [← Bool.not_eq_true, Queue.isEmpty_iff h.queue]
        exact hl rfl
      have hwake : Display.step f .wake = some f' := (if_pos (h.thread.trans ht)).trans hf'
      exact ⟨f', hfol, hf.step (l := .wake) (fun _ => hempty) hwake⟩
    · cases hstep
  | setSwapInterval i =>
    simp only [Framebuffer.step] at hstep
    split at hstep
    · cases hstep
      exact ⟨f, h.congr rfl rfl rfl rfl rfl, hf⟩
    · cases hstep

end Follows

/-- In a run of `Framebuffer` in which no wait of the display thread ends while the queue is empty, the
buffers on screen are among the queued ones, in order. -/
theorem framebuffer_inOrder {i : Int} {ls : List Label} {t : Fb}
    (hok : RunOk Framebuffer.step (fun t l => l = .wakeDisplay → t.queue ≠ []) (.init i) ls)
    (hrun : Lib.run Framebuffer.step (.init i) ls = some t) :
    ∃ f, Follows t f ∧ InOrder f := by
  obtain ⟨f, hf, hinv⟩ := run_invariant (I := fun t => ∃ f, Follows t f ∧ Inv f)
    (fun _ _ _ ⟨_, hf, hinv⟩ hl hs => hf.step hs hl hinv) ⟨_, Follows.init i, Inv.init⟩ hok hrun
  exact ⟨f, hf, hinv.order⟩

end Twm.Gralloc.Display
