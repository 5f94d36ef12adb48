import DeviceTwm.Gralloc.Framebuffer

/-!
# No tearing

`fb_post` unlocks the buffer it posted before when `is_avail` of its slot is set. The display thread
sets the flag of a slot at the end of the round that put the next buffer on screen, except in its
first round, when it sets the flag of the very buffer that it has put there. The second call of
`fb_post` can go on with that flag. The display thread sets a flag also when it could not put the
buffer on screen.

* `Allowed`: the second call does not go on with the flag of the first round, none does after a
  `FBIOPUT_VSCREENINFO` that failed, and no thread wakes without a signal.
* `no_tearing`: then no buffer is unlocked before the next one is on screen.
-/

namespace Twm.Gralloc.Framebuffer

open Lib

namespace Fb

/-- The thread in `fb_post` is past its wait with this step. -/
def passing (s : Fb) : Bool :=
  match s.post with
  | .test _ => s.currentBuffer.isSome && s.avail s.currentIdx.toNat
  | .wait _ => s.postSignalled
  | _ => false

/-- The calls of `fb_post` that have queued their buffer and set `currentBuffer`. -/
def finished (s : Fb) : Nat :=
  match s.post with
  | .test _ | .wait _ | .unlock _ | .finish _ => s.posted - 1
  | _ => s.posted

end Fb

/-- The thread in `fb_post` goes on after a pan that did not fail, in the second call with the flag of
the second round of the display thread. `swapInterval` stays nonzero, and a wait ends with a signal. -/
def Allowed (s : Fb) : Label → Prop
  | .poster _ => s.passing = true → (s.posted = 2 → s.curBuf = 1) ∧ s.panOk = true
  | .wakePoster | .wakeDisplay => False
  | .setSwapInterval i => i ≠ 0
  | .post _ | .display | .displayFails => True

instance (s : Fb) : (l : Label) → Decidable (Allowed s l)
  | .poster _ => inferInstanceAs (Decidable (_ = true → (_ = _ → _ = _) ∧ _ = _))
  | .wakePoster | .wakeDisplay => inferInstanceAs (Decidable False)
  | .setSwapInterval i => inferInstanceAs (Decidable (i ≠ 0))
  | .post _ | .display | .displayFails => inferInstanceAs (Decidable True)

/-- A buffer is unlocked only when the one posted after it is on screen. -/
def Untorn (s : Fb) : Prop := ∀ b, s.post = .unlock b → s.shown = s.posted

/-- The slot of the `n`-th buffer, counted from 0. -/
def slot (n : Nat) : Nat := n % 2

/-- The slot of the last of `n` buffers, as the code keeps it. -/
def lastSlot (n : Nat) : Int := if n = 0 then -1 else (slot (n - 1) : Int)

theorem lastSlot_toNat {n : Nat} (h : 0 < n) : (lastSlot n).toNat = slot (n - 1) := by
  unfold lastSlot
  rw [if_neg (by omega)]
  rfl

theorem lastSlot_eq_one {n : Nat} (h : lastSlot n = 1) : 2 ≤ n := by
  unfold lastSlot slot at h
  split at h
  · omega
  · omega

/-- The queue holds the buffers from the `n`-th on. -/
def Queued (s : Fb) (n : Nat) : Prop :=
  n + s.queue.length = s.posted ∧ ∀ i, (h : i < s.queue.length) → s.queue[i].idx = slot (n + i)

/-- Where the display thread is in its round. -/
def Round (s : Fb) : Disp → Prop
  | .top => s.panned = s.marked ∧ Queued s s.marked
  | .wait => s.panned = s.marked ∧ Queued s s.marked ∧ (s.dispSignalled = true → s.queue ≠ [])
  | .pan (some q) => s.panned = s.marked ∧ q.idx = slot s.marked ∧ Queued s (s.marked + 1)
  | .mark q => s.panned = s.marked + 1 ∧ q.idx = slot s.marked ∧ Queued s (s.marked + 1)
  | .pan none | .wild => False

/-- The display thread is through with every buffer, and the flag of the last one is not set. -/
def Settled (s : Fb) : Prop :=
  2 ≤ s.posted → s.marked = s.posted ∧ s.avail (slot (s.posted - 1)) = false

/-- Before the current buffer is unlocked: the flag of its slot comes from the round that shows the
next buffer, from the third call on. -/
def Waiting (s : Fb) (signalled : Bool) : Prop :=
  1 ≤ s.posted ∧ (2 ≤ s.posted → s.avail (slot (s.posted - 1)) = false) ∧
    (3 ≤ s.posted → s.posted ≤ s.marked + 1 ∧
      (s.avail (slot s.posted) = true ∨ signalled = true → s.marked = s.posted))

/-- Where the thread in `fb_post` is. -/
def Turn (s : Fb) : Post → Prop
  | .idle | .start _ | .lock _ | .clear _ => Settled s
  | .push _ => Settled s ∧ s.avail (slot s.posted) = false
  | .test _ => Waiting s false
  | .wait _ => 2 ≤ s.posted ∧ Waiting s s.postSignalled
  | .unlock _ => (2 ≤ s.posted ∧ Settled s) ∧ s.panOk = true
  | .finish _ => 1 ≤ s.posted ∧ Settled s
  | .reuse _ | .relock _ => False

structure Inv (s : Fb) : Prop where
  swap : s.swapInterval ≠ 0
  round : Round s s.disp
  cur : s.curBuf = lastSlot s.marked
  idx : s.currentIdx = lastSlot s.finished
  buf : s.currentBuffer = none ↔ s.finished = 0
  shown : s.panOk = true → s.shown = s.panned
  turn : Turn s s.post

variable {s s' : Fb}

namespace Inv

theorem init {i : Int} (hi : i ≠ 0) : Inv (.init i) where
  swap := hi
  round := ⟨rfl, rfl, fun i h => nomatch h⟩
  cur := rfl
  idx := rfl
  buf := iff_of_true rfl rfl
  shown := fun _ => rfl
  turn := fun h => absurd (show 2 ≤ 0 from h) (by decide)

theorem marked_le (h : Inv s) : s.marked ≤ s.panned ∧ s.panned ≤ s.posted := by
  have hr := h.round
  cases hd : s.disp with
  | top =>
    rw [hd] at hr
    obtain ⟨h₁, h₂, -⟩ := hr
    omega
  | wait =>
    rw [hd] at hr
    obtain ⟨h₁, ⟨h₂, -⟩, -⟩ := hr
    omega
  | pan q =>
    cases q with
    | none => rw [hd] at hr; exact hr.elim
    | some q =>
      rw [hd] at hr
      obtain ⟨h₁, -, h₂, -⟩ := hr
      omega
  | mark q =>
    rw [hd] at hr
    obtain ⟨h₁, -, h₂, -⟩ := hr
    omega
  | wild => rw [hd] at hr; exact hr.elim

theorem nxtIdx (h : Inv s) : s.nxtIdx = slot s.finished := by
  unfold Fb.nxtIdx NUM_BUFFERS
  rw [h.idx]
  unfold lastSlot slot
  split
  · rename_i h0
    rw [h0]
    rfl
  · omega

/-- What is known when the thread in `fb_post` is at `p`, with `n` calls behind it. -/
theorem at_post (h : Inv s) {p : Post} {n : Nat} (hp : s.post = p) (hf : s.finished = n) :
    s.currentIdx = lastSlot n ∧ (s.currentBuffer = none ↔ n = 0) ∧ Turn s p := by
  subst hp hf
  exact ⟨h.idx, h.buf, h.turn⟩

/-! ## Steps of the thread in `fb_post` -/

theorem post (h : Inv s) {b : Nat} (hp : s.post = .idle) : Inv { s with post := .start b } := by
  have hf : Fb.finished { s with post := .start b } = s.finished := by simp only [Fb.finished, hp]
  have ht := h.turn
  rw [hp] at ht
  exact ⟨h.swap, h.round, h.cur, by rw [hf]; exact h.idx, by rw [hf]; exact h.buf, h.shown, ht⟩

theorem start (h : Inv s) {b : Nat} {busy : Bool} (hp : s.post = .start b) :
    Inv { s with post := if s.doReuse busy then .reuse b else .lock b } := by
  have hno : s.doReuse busy = false := by
    unfold Fb.doReuse
    rw [beq_eq_false_iff_ne.mpr h.swap, Bool.false_and]
  have hf : s.finished = s.posted := by simp only [Fb.finished, hp]
  obtain ⟨hi, hb, ht⟩ := h.at_post hp hf
  rw [hno]
  exact ⟨h.swap, h.round, h.cur, hi, hb, h.shown, ht⟩

theorem lock (h : Inv s) {b : Nat} (hp : s.post = .lock b) :
    Inv { s with log := s.log ++ [.lock b], post := .clear b } := by
  have hf : s.finished = s.posted := by simp only [Fb.finished, hp]
  obtain ⟨hi, hb, ht⟩ := h.at_post hp hf
  exact ⟨h.swap, h.round, h.cur, hi, hb, h.shown, ht⟩

theorem clear (h : Inv s) {b : Nat} (hp : s.post = .clear b) :
    Inv { s with avail := Function.update s.avail s.nxtIdx false, post := .push b } := by
  have hf : s.finished = s.posted := by simp only [Fb.finished, hp]
  obtain ⟨hi, hb, ht⟩ := h.at_post hp hf
  have hn := h.nxtIdx
  rw [hf] at hn
  rw [hn]
  refine ⟨h.swap, h.round, h.cur, hi, hb, h.shown, fun h2 => ?_, Function.update_self ..⟩
  obtain ⟨hm, ha⟩ := ht h2
  have hne : slot (s.posted - 1) ≠ slot s.posted := by
    have : 2 ≤ s.posted := h2
    unfold slot
    omega
  exact ⟨hm, (Function.update_of_ne hne ..).trans ha⟩

theorem push (h : Inv s) {b : Nat} (hp : s.post = .push b) : Inv (s.pushBuffer b) := by
  have hf : s.finished = s.posted := by simp only [Fb.finished, hp]
  obtain ⟨hi, hb, ht⟩ := h.at_post hp hf
  have hn := h.nxtIdx
  rw [hf] at hn
  have hq {n : Nat} (hq : Queued s n) : Queued (s.pushBuffer b) n := by
    obtain ⟨hlen, hidx⟩ := hq
    refine ⟨by simp [Fb.pushBuffer]; omega, fun i hi => ?_⟩
    simp only [Fb.pushBuffer, List.length_append, List.length_singleton] at hi ⊢
    rw [List.getElem_append]
    split
    · exact hidx i _
    · rename_i hge
      have : n + i = s.posted := by omega
      simp [this, hn]
  refine ⟨h.swap, ?_, h.cur, hi, hb, h.shown, ?_⟩
  · have hr := h.round
    show Round (s.pushBuffer b) s.disp
    cases hd : s.disp with
    | top => rw [hd] at hr; exact ⟨hr.1, hq hr.2⟩
    | wait =>
      rw [hd] at hr
      exact ⟨hr.1, hq hr.2.1, fun _ => by simp [Fb.pushBuffer]⟩
    | pan q =>
      cases q with
      | none => rw [hd] at hr; exact hr.elim
      | some q => rw [hd] at hr; exact ⟨hr.1, hr.2.1, hq hr.2.2⟩
    | mark q => rw [hd] at hr; exact ⟨hr.1, hr.2.1, hq hr.2.2⟩
    | wild => rw [hd] at hr; exact hr.elim
  · obtain ⟨hset, ha⟩ := ht
    refine ⟨by simp [Fb.pushBuffer], fun _ => ha, fun h3 => ?_⟩
    have h2 : 2 ≤ s.posted := by
      have : 3 ≤ s.posted + 1 := h3
      omega
    obtain ⟨hm, ha'⟩ := hset h2
    have hs : slot (s.posted + 1) = slot (s.posted - 1) := by
      unfold slot
      omega
    refine ⟨by simp only [Fb.pushBuffer]; omega, fun hor => ?_⟩
    rcases hor with hav | hsig
    · have : s.avail (slot (s.posted + 1)) = true := hav
      rw [hs, ha'] at this
      cases this
    · cases hsig

/-- In the second call by `Allowed`, and later by the flag, the wait ends with the round that shows
the next buffer. -/
theorem settled_of_passing (h : Inv s) {signalled : Bool} (hw : Waiting s signalled)
    (hl : s.posted = 2 → s.curBuf = 1)
    (hpass : s.avail (slot s.posted) = true ∨ signalled = true) : Settled s := by
  intro h2
  obtain ⟨-, hlast, hrest⟩ := hw
  refine ⟨?_, hlast h2⟩
  by_cases h3 : 3 ≤ s.posted
  · exact (hrest h3).2 hpass
  · have heq : s.posted = 2 := by omega
    have hcur := h.cur
    rw [hl heq] at hcur
    have := lastSlot_eq_one hcur.symm
    have := h.marked_le
    omega

theorem test (h : Inv s) {b : Nat} (hp : s.post = .test b)
    (hl : s.passing = true → (s.posted = 2 → s.curBuf = 1) ∧ s.panOk = true) :
    Inv (s.testAvail b) := by
  have hf : s.finished = s.posted - 1 := by simp only [Fb.finished, hp]
  obtain ⟨hi, hb, (hw : Waiting s false)⟩ := h.at_post hp hf
  unfold Fb.testAvail
  split
  · rename_i hnone
    refine ⟨h.swap, h.round, h.cur, hi, hb, h.shown, hw.1, fun h2 => ?_⟩
    have h2' : 2 ≤ s.posted := h2
    have := hb.mp hnone
    omega
  · rename_i hsome
    have h2 : 2 ≤ s.posted := by
      have := hw.1
      have := mt hb.mpr hsome
      omega
    have hslot : s.currentIdx.toNat = slot s.posted := by
      rw [hi, lastSlot_toNat (by omega)]
      unfold slot
      omega
    split
    · rename_i hpass
      have hav := hpass.resolve_left h.swap
      have hpassing : s.passing = true := by
        simp only [Fb.passing, hp, hav, Bool.and_true]
        exact Option.isSome_iff_ne_none.mpr hsome
      rw [hslot] at hav
      have hset := h.settled_of_passing hw (hl hpassing).1 (.inl hav)
      exact ⟨h.swap, h.round, h.cur, hi, hb, h.shown, ⟨h2, hset⟩, (hl hpassing).2⟩
    · exact ⟨h.swap, h.round, h.cur, hi, hb, h.shown, h2, hw⟩

theorem waited (h : Inv s) {b : Nat} (hp : s.post = .wait b) (hsig : s.postSignalled = true)
    (hl : s.passing = true → (s.posted = 2 → s.curBuf = 1) ∧ s.panOk = true) :
    Inv (s.waited b) := by
  have hf : s.finished = s.posted - 1 := by simp only [Fb.finished, hp]
  obtain ⟨hi, hb, h2, hw⟩ := h.at_post hp hf
  have hpassing : s.passing = true := by simp only [Fb.passing, hp, hsig]
  obtain ⟨hcur, hpan⟩ := hl hpassing
  obtain ⟨hm, hlast⟩ := h.settled_of_passing hw hcur (.inr hsig) h2
  refine ⟨h.swap, h.round, h.cur, hi, hb, h.shown, ⟨h2, fun _ => ⟨hm, ?_⟩⟩, hpan⟩
  have hne : slot (s.posted - 1) ≠ s.currentIdx.toNat := by
    rw [hi, lastSlot_toNat (by omega)]
    unfold slot
    omega
  exact (Function.update_of_ne hne ..).trans hlast

theorem unlock (h : Inv s) {b : Nat} (hp : s.post = .unlock b) :
    Inv (s.unlockCurrent (.finish b)) := by
  have hf : s.finished = s.posted - 1 := by simp only [Fb.finished, hp]
  obtain ⟨hi, hb, ⟨h2, hset⟩, -⟩ := h.at_post hp hf
  unfold Fb.unlockCurrent
  split
  · exact ⟨h.swap, h.round, h.cur, hi, hb, h.shown, by exact Nat.le_of_succ_le h2, hset⟩
  · exact ⟨h.swap, h.round, h.cur, hi, hb, h.shown, by exact Nat.le_of_succ_le h2, hset⟩

theorem finish (h : Inv s) {b : Nat} (hp : s.post = .finish b) :
    Inv { s with currentBuffer := some b, currentIdx := s.nxtIdx, post := .idle } := by
  have hf : s.finished = s.posted - 1 := by simp only [Fb.finished, hp]
  obtain ⟨-, -, h1, hset⟩ := h.at_post hp hf
  refine ⟨h.swap, h.round, h.cur, ?_, ?_, h.shown, hset⟩
  · show (s.nxtIdx : Int) = lastSlot s.posted
    rw [h.nxtIdx, hf, lastSlot, if_neg (by omega)]
  · show some b = none ↔ s.posted = 0
    simp only [reduceCtorEq, false_iff]
    omega

/-! ## Steps of the display thread -/

theorem dequeue (h : Inv s) (hd : s.panned = s.marked ∧ Queued s s.marked) (hq : s.queue ≠ []) :
    Inv s.dequeue := by
  obtain ⟨hpan, hlen, hidx⟩ := hd
  obtain ⟨q, rest, hqr⟩ := List.exists_cons_of_ne_nil hq
  have hfirst := hidx 0 (by rw [hqr]; simp)
  simp only [hqr, List.getElem_cons_zero, Nat.add_zero] at hfirst
  refine ⟨h.swap, ?_, h.cur, h.idx, h.buf, h.shown, h.turn⟩
  simp only [Fb.dequeue, hqr, List.head?_cons, List.tail_cons]
  refine ⟨hpan, hfirst, ?_, fun i hi => ?_⟩
  · rw [hqr, List.length_cons] at hlen
    show s.marked + 1 + rest.length = s.posted
    omega
  · have := hidx (i + 1) (by rw [hqr]; simpa using hi)
    simp only [hqr, List.getElem_cons_succ] at this
    rw [this, show s.marked + (i + 1) = s.marked + 1 + i by omega]

/-- No thread in `fb_post` is about to unlock then: the posted buffers are not all through a round. -/
theorem panDisplay (h : Inv s) {q : QBuf} (hd : s.disp = .pan (some q)) (ok : Bool) :
    Inv (s.panDisplay (some q) ok) := by
  have hr := h.round
  rw [hd] at hr
  obtain ⟨hpan, hq, hqueue⟩ := hr
  refine ⟨h.swap, ⟨congrArg (· + 1) hpan, hq, hqueue⟩, h.cur, h.idx, h.buf, fun hok => if_pos hok, ?_⟩
  have ht := h.turn
  show Turn (s.panDisplay (some q) ok) s.post
  cases hp : s.post with
  | unlock b =>
    rw [hp] at ht
    have := (ht.1.2 ht.1.1).1
    have := hqueue.1
    omega
  | _ =>
    rw [hp] at ht
    exact ht

/-- The flag that a round sets is that of the buffer before, or in the first round its own. -/
theorem markAvail_avail (h : Inv s) {q : QBuf} (hq : q.idx = slot s.marked) :
    (s.markAvail q).avail = Function.update s.avail (slot (s.marked - 1)) true := by
  have hi : (if s.curBuf = -1 then q.idx else s.curBuf.toNat) = slot (s.marked - 1) := by
    by_cases h0 : s.marked = 0
    · rw [if_pos (by rw [h.cur, h0]; rfl), hq, h0]
    · have hne : s.curBuf ≠ -1 := by
        rw [h.cur, lastSlot, if_neg h0]
        omega
      rw [if_neg hne, h.cur, lastSlot_toNat (by omega)]
  rw [← hi]
  rfl

/-- A poster that waits goes on waiting. -/
theorem markAvail_waiting (h : Inv s) {q : QBuf} (hq : q.idx = slot s.marked)
    (hlt : s.marked < s.posted) {signalled signalled' : Bool} (hw : Waiting s signalled) :
    Waiting (s.markAvail q) signalled' := by
  obtain ⟨h1, hlast, hrest⟩ := hw
  have hm3 : 3 ≤ s.posted → s.marked + 1 = s.posted := fun h3 => by
    have := (hrest h3).1
    omega
  refine ⟨h1, fun h2 => ?_, fun h3 => ?_⟩
  · have h2' : 2 ≤ s.posted := h2
    have hne : slot (s.posted - 1) ≠ slot (s.marked - 1) := by
      by_cases h3 : 3 ≤ s.posted
      · have := hm3 h3
        unfold slot
        omega
      · unfold slot
        omega
    rw [h.markAvail_avail hq]
    exact (Function.update_of_ne hne ..).trans (hlast h2)
  · have := hm3 h3
    exact ⟨by show s.posted ≤ s.marked + 1 + 1; omega, fun _ => this⟩

theorem markAvail (h : Inv s) {q : QBuf} (hd : s.disp = .mark q) : Inv (s.markAvail q) := by
  have hr := h.round
  rw [hd] at hr
  obtain ⟨hpan, hq, hqueue⟩ := hr
  have hlt : s.marked < s.posted := by
    have := hqueue.1
    omega
  have hsettled (hset : Settled s) : s.posted = 1 ∧ s.marked = 0 := by
    by_cases h2 : 2 ≤ s.posted
    · have := (hset h2).1
      omega
    · omega
  have hnot2 (hset : Settled s) : Settled (s.markAvail q) := fun h2 => by
    have h2' : 2 ≤ s.posted := h2
    have := (hsettled hset).1
    omega
  have hwait {signalled signalled' : Bool} (hw : Waiting s signalled) :
      Waiting (s.markAvail q) signalled' := h.markAvail_waiting hq hlt hw
  refine ⟨h.swap, ⟨hpan, hqueue⟩, ?_, h.idx, h.buf, h.shown, ?_⟩
  · show (q.idx : Int) = lastSlot (s.marked + 1)
    rw [hq, lastSlot, if_neg (by omega)]
    rfl
  · have ht := h.turn
    show Turn (s.markAvail q) s.post
    cases hp : s.post with
    | idle => rw [hp] at ht; exact hnot2 ht
    | start b => rw [hp] at ht; exact hnot2 ht
    | lock b => rw [hp] at ht; exact hnot2 ht
    | clear b => rw [hp] at ht; exact hnot2 ht
    | push b =>
      rw [hp] at ht
      obtain ⟨hset, ha⟩ := ht
      obtain ⟨h₁, h₀⟩ := hsettled hset
      refine ⟨hnot2 hset, ?_⟩
      have hne : slot s.posted ≠ slot (s.marked - 1) := by
        rw [h₁, h₀]
        decide
      rw [h.markAvail_avail hq]
      exact (Function.update_of_ne hne ..).trans ha
    | test b => rw [hp] at ht; exact hwait ht
    | wait b => rw [hp] at ht; exact ⟨ht.1, hwait ht.2⟩
    | unlock b =>
      rw [hp] at ht
      have := (hsettled ht.1.2).1
      exact absurd ht.1.1 (by omega)
    | finish b => rw [hp] at ht; exact ⟨ht.1, hnot2 ht.2⟩
    | reuse b => rw [hp] at ht; exact ht.elim
    | relock b => rw [hp] at ht; exact ht.elim

theorem untorn (h : Inv s) : Untorn s := by
  intro b hb
  have ht := h.turn
  rw [hb] at ht
  obtain ⟨⟨h₁, h₂⟩, hpan⟩ := ht
  have := (h₂ h₁).1
  have := h.marked_le
  have := h.shown hpan
  omega

theorem poster (h : Inv s) {busy : Bool} (hl : Allowed s (.poster busy))
    (hs : s.poster busy = some s') : Inv s' := by
  unfold Fb.poster at hs
  cases hp : s.post with
  | idle => simp [hp] at hs
  | start b =>
    simp only [hp, Option.some.injEq] at hs
    exact hs ▸ h.start hp
  | lock b =>
    simp only [hp, Option.some.injEq] at hs
    exact hs ▸ h.lock hp
  | clear b =>
    simp only [hp, Option.some.injEq] at hs
    exact hs ▸ h.clear hp
  | push b =>
    simp only [hp, Option.some.injEq] at hs
    exact hs ▸ h.push hp
  | test b =>
    simp only [hp, Option.some.injEq] at hs
    exact hs ▸ h.test hp hl
  | wait b =>
    simp only [hp, Option.ite_none_right_eq_some, Option.some.injEq] at hs
    obtain ⟨hsig, rfl⟩ := hs
    exact h.waited hp hsig hl
  | unlock b =>
    simp only [hp, Option.some.injEq] at hs
    exact hs ▸ h.unlock hp
  | finish b =>
    simp only [hp, Option.some.injEq] at hs
    exact hs ▸ h.finish hp
  | reuse b =>
    have ht := h.turn
    rw [hp] at ht
    exact ht.elim
  | relock b =>
    have ht := h.turn
    rw [hp] at ht
    exact ht.elim

theorem display (h : Inv s) (hs : s.display = some s') : Inv s' := by
  have hr := h.round
  unfold Fb.display at hs
  cases hd : s.disp with
  | top =>
    rw [hd] at hr
    simp only [hd, Option.some.injEq] at hs
    subst hs
    split
    · exact ⟨h.swap, ⟨hr.1, hr.2, fun hsig => nomatch hsig⟩, h.cur, h.idx, h.buf, h.shown, h.turn⟩
    · rename_i hq
      exact h.dequeue hr hq
  | wait =>
    rw [hd] at hr
    simp only [hd, Option.ite_none_right_eq_some, Option.some.injEq] at hs
    obtain ⟨hsig, rfl⟩ := hs
    exact h.dequeue ⟨hr.1, hr.2.1⟩ (hr.2.2 hsig)
  | pan q =>
    simp only [hd, Option.some.injEq] at hs
    cases q with
    | none =>
      rw [hd] at hr
      exact hr.elim
    | some q => exact hs ▸ h.panDisplay hd true
  | mark q =>
    simp only [hd, Option.some.injEq] at hs
    exact hs ▸ h.markAvail hd
  | wild =>
    rw [hd] at hr
    exact hr.elim

theorem step (h : Inv s) {l : Label} (hl : Allowed s l) (hs : step s l = some s') : Inv s' := by
  cases l with
  | post b =>
    simp only [Framebuffer.step, Option.ite_none_right_eq_some, Option.some.injEq] at hs
    obtain ⟨hp, rfl⟩ := hs
    exact h.post hp
  | poster busy => exact h.poster hl hs
  | display => exact h.display hs
  | displayFails =>
    have hr := h.round
    simp only [Framebuffer.step] at hs
    split at hs
    · next q hd =>
      rw [hd] at hr
      cases q with
      | none => exact hr.elim
      | some q => exact Option.some.inj hs ▸ h.panDisplay hd false
    · cases hs
  | wakePoster => exact hl.elim
  | wakeDisplay => exact hl.elim
  | setSwapInterval i =>
    simp only [Framebuffer.step, Option.ite_none_right_eq_some, Option.some.injEq] at hs
    obtain ⟨-, rfl⟩ := hs
    exact ⟨hl, h.round, h.cur, h.idx, h.buf, h.shown, h.turn⟩

end Inv

/-- **No tearing.** With `swapInterval` nonzero, in every run in which the second call of `fb_post`
does not take the flag of the first round of the display thread, no call takes a flag after a pan that
failed, and no wait ends without a signal, a buffer is unlocked only when the one posted after it is on
screen. -/
theorem no_tearing (i : Int) (hi : i ≠ 0) (ls : List Label) (s : Fb)
    (hok : RunOk step Allowed (.init i) ls) (hs : run step (.init i) ls = some s) : Untorn s :=
  (run_invariant (I := Inv) (fun _ _ _ h hl hstep => h.step hl hstep) (.init hi) hok hs).untorn

/-- The first buffer is posted and shown, and then the second one is posted, up to the test of the
flag. -/
def twoPosts : List Label :=
  .post 10 :: List.replicate 6 (.poster false) ++ List.replicate 3 .display ++
    .post 11 :: List.replicate 4 (.poster false)

theorem no_tearing_twoPosts : ∃ s, run step (.init 1) (twoPosts ++ List.replicate 3 .display ++
    [.poster false]) = some s ∧ s.post = .unlock 11 ∧ Untorn s := by
  obtain ⟨s, hs⟩ : ∃ s, run step (.init 1) (twoPosts ++ List.replicate 3 .display ++
      [.poster false]) = some s := Option.isSome_iff_exists.mp (by decide +kernel)
  have hp : (run step (.init 1) (twoPosts ++ List.replicate 3 .display ++
      [.poster false])).map Fb.post = some (.unlock 11) := by decide +kernel
  rw [hs] at hp
  exact ⟨s, hs, Option.some.inj hp, no_tearing 1 (by decide) _ s (by decide +kernel) hs⟩

/-- Without the second round of the display thread, the first buffer is unlocked on screen. -/
theorem torn_at_start : ∃ s s', run step (.init 1) (twoPosts ++ [.poster false]) = some s ∧
    ¬ Untorn s ∧ step s (.poster false) = some s' ∧
    s'.log = [.lock 10, .pan (some 10), .lock 11, .unlock 10] := by
  obtain ⟨s, hs⟩ : ∃ s, run step (.init 1) (twoPosts ++ [.poster false]) = some s :=
    Option.isSome_iff_exists.mp (by decide +kernel)
  have hp : (run step (.init 1) (twoPosts ++ [.poster false])).map
      (fun s => (s.post, s.shown, s.posted, (step s (.poster false)).map Fb.log)) =
      some (.unlock 11, 1, 2, some [.lock 10, .pan (some 10), .lock 11, .unlock 10]) := by
    decide +kernel
  rw [hs] at hp
  simp only [Option.map_some, Option.some.injEq, Prod.mk.injEq] at hp
  obtain ⟨h₁, h₂, h₃, h₄⟩ := hp
  obtain ⟨s', hs', hlog⟩ := Option.map_eq_some_iff.mp h₄
  refine ⟨s, s', hs, fun hu => ?_, hs', hlog⟩
  have := hu 11 h₁
  omega

-- The pan of the second round fails, and the first buffer is unlocked on screen, too.
example : (run step (.init 1) (twoPosts ++ [.display, .displayFails, .display, .poster false])).map
    (fun s => (s.post, s.shown, s.posted)) = some (.unlock 11, 1, 2) := by decide +kernel

end Twm.Gralloc.Framebuffer
