import DeviceTwm.Gralloc.Framebuffer
import DeviceTwm.Gralloc.LockCalls

/-!
# The lock of the compositor

`fb_post` locks the buffer that it posts (`PRIV_USAGE_LOCKED_FOR_POST`) and unlocks the one before: the
new one first, or, when the current buffer is reused, the current one first. The steps of `fb_post` and
`disp_loop` are those of `Gralloc/Framebuffer.lean`; the locks that they take are calls of `gralloc_lock`
and `gralloc_unlock` on the handles of the buffers. Clients lock the other buffers meanwhile.

* `step_cases`: what a step of `fb_post` does to the locks of the compositor.
* `Inv.step`: the count of a buffer is that of the locks of its clients and of the compositor.
* `one_lock`: after each call the posted buffer is current and its count is one, and the compositor has
  no lock on another.
-/

namespace Twm.Gralloc.Compositor

open Lib
open Mapper (Usage isWrite readCount Says)
open Framebuffer (Fb Post Event)

/-- It has none of the bits that `gralloc_lock` tests. -/
def PRIV_USAGE_LOCKED_FOR_POST : Usage := ⟨false, false, false⟩

/-- The framebuffer and its buffers. -/
structure Screen where
  fb : Fb
  handles : Nat → PrivateHandle
  /-- The buffer of the last call of `fb_post`. -/
  last : Option Nat
  /-- How many locks clients have taken and not released. -/
  clients : Nat → Nat

/-- After `mapFrameBufferLocked`. -/
def start (swapInterval : Int) (handles : Nat → PrivateHandle) : Screen :=
  ⟨.init swapInterval, handles, none, fun _ => 0⟩

inductive Label
  /-- A step of `fb_post` or of the display thread. -/
  | fb (l : Framebuffer.Label) (os : Os) (tid : Nat)
  /-- A client's calls. -/
  | lock (b : Nat) (u : Usage) (os : Os) (tid : Nat)
  | unlock (b : Nat) (tid : Nat)

/-- The call that `fb_post` makes. -/
def call (os : Os) (tid : Nat) (handles : Nat → PrivateHandle) : Event → Nat → PrivateHandle
  | .lock b =>
    Function.update handles b (grallocLock os true tid PRIV_USAGE_LOCKED_FOR_POST (handles b)).handle
  | .unlock b => Function.update handles b (grallocUnlock true tid (handles b)).handle
  | .pan _ => handles

def step (s : Screen) : Label → Option Screen
  | .fb l os tid =>
    (Framebuffer.step s.fb l).map fun fb =>
      { s with
        fb := fb
        handles := (fb.log.drop s.fb.log.length).foldl (call os tid) s.handles
        last :=
          match l with
          | .post b => some b
          | _ => s.last }
  | .lock b u os tid =>
    let r := grallocLock os true tid u (s.handles b)
    some { s with
      handles := Function.update s.handles b r.handle
      clients := if r.err = 0 then Function.update s.clients b (s.clients b + 1) else s.clients }
  | .unlock b tid =>
    let r := grallocUnlock true tid (s.handles b)
    some { s with
      handles := Function.update s.handles b r.handle
      clients := if r.err = 0 then Function.update s.clients b (s.clients b - 1) else s.clients }

/-- The buffer of the call. -/
def buffer : Post → Option Nat
  | .idle => none
  | .start b | .lock b | .clear b | .push b | .test b | .wait b | .unlock b | .finish b | .reuse b
  | .relock b => some b

/-- How many locks the compositor has on buffer `b`. -/
def ours (s : Fb) (b : Nat) : Nat :=
  let current := if s.currentBuffer = some b then 1 else 0
  match s.post with
  | .idle | .start _ | .lock _ | .reuse _ => current
  | .clear n | .push n | .test n | .wait n | .unlock n => current + if n = b then 1 else 0
  | .finish n => if n = b then 1 else 0
  | .relock _ => 0

/-- The buffer is locked by the compositor, or it is being posted. -/
def Taken (s : Fb) (b : Nat) : Prop := 0 < ours s b ∨ buffer s.post = some b

instance (s : Fb) (b : Nat) : Decidable (Taken s b) := inferInstanceAs (Decidable (_ ∨ _))

/-- No client has a lock on the buffer. -/
def Free (s : Screen) (b : Nat) : Prop :=
  s.clients b = 0 ∧ isWrite (s.handles b).lockState = false

instance (s : Screen) (b : Nat) : Decidable (Free s b) := inferInstanceAs (Decidable (_ ∧ _))

/-- No client has a lock on a buffer that is posted, and none locks or unlocks it while the compositor
has it. -/
def Allowed (s : Screen) : Label → Prop
  | .fb (.post b) _ _ => Free s b
  | .fb _ _ _ => True
  | .lock b _ _ _ | .unlock b _ => ¬ Taken s.fb b

instance (s : Screen) : DecidablePred (Allowed s)
  | .fb l _ _ =>
    match l with
    | .post b => (inferInstance : Decidable (Free s b))
    | .poster _ | .display | .displayFails | .wakePoster | .wakeDisplay | .setSwapInterval _ =>
      .isTrue trivial
  | .lock b _ _ _ | .unlock b _ => (inferInstance : Decidable (¬ Taken s.fb b))

/-! ## The steps of the framebuffer -/

/-- What a step leaves of the calls: no other buffer is posted, and the buffer that is posted, or else
the current one, stays. -/
structure Kept (s s' : Fb) : Prop where
  buffer_eq : buffer s'.post = buffer s.post ∨ buffer s'.post = none
  last : (buffer s'.post).or s'.currentBuffer = (buffer s.post).or s.currentBuffer

/-- The calls of `gralloc_lock` and `gralloc_unlock` of a step, and what the compositor has then. -/
inductive Calls (s s' : Fb) : Prop
  | none (es : List Event) (hlog : s'.log = s.log ++ es) (hpan : ∀ e ∈ es, ∃ b, e = .pan b)
      (hours : ours s' = ours s)
  | lock (b : Nat) (hb : buffer s.post = some b) (hone : ours s b ≤ 1)
      (hlog : s'.log = s.log ++ [.lock b])
      (hours : ours s' = Function.update (ours s) b (ours s b + 1))
  | unlock (b : Nat) (hb : 0 < ours s b) (hlog : s'.log = s.log ++ [.unlock b])
      (hours : ours s' = Function.update (ours s) b (ours s b - 1))

section

variable {s s' : Fb}

/-- A step without a lock or an unlock, in the middle of a call. -/
theorem quiet (es : List Event) (hlog : s'.log = s.log ++ es) (hpan : ∀ e ∈ es, ∃ b, e = .pan b)
    (hbuffer : buffer s'.post = buffer s.post) (hcurrent : s'.currentBuffer = s.currentBuffer)
    (hours : ∀ b, ours s' b = ours s b) : Kept s s' ∧ Calls s s' :=
  ⟨⟨.inl hbuffer, by rw [hbuffer, hcurrent]⟩, .none es hlog hpan (funext hours)⟩

theorem dequeue_cases (s : Fb) : Kept s s.dequeue ∧ Calls s s.dequeue :=
  quiet [] (by simp [Fb.dequeue]) (by simp) rfl rfl fun _ => rfl

theorem panDisplay_cases (s : Fb) (q : Option Framebuffer.QBuf) (ok : Bool) :
    Kept s (s.panDisplay q ok) ∧ Calls s (s.panDisplay q ok) :=
  quiet [.pan (q.map Framebuffer.QBuf.buf)] rfl (by simp) rfl rfl fun _ => rfl

/-- A step of the display thread. -/
theorem display_cases (hs : s.display = some s') : Kept s s' ∧ Calls s s' := by
  unfold Fb.display at hs
  cases hd : s.disp with
  | top =>
    simp only [hd, Option.some.injEq] at hs
    subst hs
    split
    · exact quiet [] (by simp) (by simp) rfl rfl fun _ => rfl
    · exact dequeue_cases s
  | wait =>
    simp only [hd] at hs
    split at hs
    · simp only [Option.some.injEq] at hs
      subst hs
      exact dequeue_cases s
    · cases hs
  | pan q =>
    simp only [hd, Option.some.injEq] at hs
    subst hs
    exact panDisplay_cases s q true
  | mark q =>
    simp only [hd, Option.some.injEq] at hs
    subst hs
    exact quiet [] (by simp [Fb.markAvail]) (by simp) rfl rfl fun _ => rfl
  | wild => simp [hd] at hs

/-- The unlock of the current buffer; after it the call is at `p`. -/
theorem unlockCurrent_cases {p : Post} (hbuffer : buffer p = buffer s.post)
    (hcount : ∀ b, ours s b = ours (s.unlockCurrent p) b + if s.currentBuffer = some b then 1 else 0) :
    Kept s (s.unlockCurrent p) ∧ Calls s (s.unlockCurrent p) := by
  cases hc : s.currentBuffer with
  | none =>
    have hself : s.unlockCurrent p = { s with post := p } := by simp only [Fb.unlockCurrent, hc]
    rw [hself] at hcount ⊢
    refine quiet [] (by simp) (by simp) hbuffer rfl fun b => ?_
    rw [hcount b, hc]
    simp
  | some c =>
    have hself : s.unlockCurrent p = { s with log := s.log ++ [.unlock c], post := p } := by
      simp only [Fb.unlockCurrent, hc]
    rw [hself] at hcount ⊢
    refine ⟨⟨.inl hbuffer, by rw [hbuffer]⟩, .unlock c ?_ rfl ?_⟩
    · rw [hcount c, hc, if_pos rfl]
      exact Nat.succ_pos _
    · funext b
      by_cases hb : b = c
      · subst hb
        rw [Function.update_self, hcount b, hc, if_pos rfl]
        rfl
      · rw [Function.update_of_ne hb, hcount b, hc, if_neg (by simpa using Ne.symm hb)]
        rfl

/-- The lock of the new buffer `b`. -/
theorem lock_cases {b : Nat} (hb : buffer s.post = some b) (hone : ours s b ≤ 1)
    (hlog : s'.log = s.log ++ [.lock b])
    (hkept : Kept s s') (hcount : ∀ x, ours s' x = ours s x + if b = x then 1 else 0) :
    Kept s s' ∧ Calls s s' := by
  refine ⟨hkept, .lock b hb hone hlog ?_⟩
  funext x
  by_cases hx : x = b
  · subst hx
    rw [Function.update_self, hcount x, if_pos rfl]
  · rw [Function.update_of_ne hx, hcount x, if_neg (Ne.symm hx), Nat.add_zero]

theorem waited_cases {b : Nat} (hp : s.post = .wait b) : Kept s (s.waited b) ∧ Calls s (s.waited b) := by
  refine quiet [] (by simp [Fb.waited]) (by simp) (by rw [hp]; rfl) rfl fun x => ?_
  simp only [ours, hp]
  rfl

/-- A step of the thread in `fb_post`. -/
theorem poster_cases {busy : Bool} (hs : s.poster busy = some s') : Kept s s' ∧ Calls s s' := by
  unfold Fb.poster at hs
  cases hp : s.post with
  | idle => simp [hp] at hs
  | start b =>
    simp only [hp, Option.some.injEq] at hs
    subst hs
    by_cases hreuse : s.doReuse busy = true
    · refine quiet [] (by simp) (by simp) (by simp [hp, hreuse, buffer]) rfl fun x => ?_
      simp [ours, hp, hreuse]
    · refine quiet [] (by simp) (by simp) (by simp [hp, hreuse, buffer]) rfl fun x => ?_
      simp [ours, hp, hreuse]
  | lock b =>
    simp only [hp, Option.some.injEq] at hs
    subst hs
    refine lock_cases (b := b) (by rw [hp]; rfl) ?_ rfl ⟨.inl (by rw [hp]; rfl), by rw [hp]; rfl⟩
      fun x => ?_
    · simp only [ours, hp]
      split <;> omega
    · simp only [ours, hp]
  | clear b =>
    simp only [hp, Option.some.injEq] at hs
    subst hs
    exact quiet [] (by simp) (by simp) (by rw [hp]; rfl) rfl fun x => by simp [ours, hp]
  | push b =>
    simp only [hp, Option.some.injEq] at hs
    subst hs
    refine quiet [] (by simp [Fb.pushBuffer]) (by simp) (by rw [hp]; rfl) rfl fun x => ?_
    simp only [ours, hp]
    rfl
  | test b =>
    simp only [hp, Option.some.injEq] at hs
    subst hs
    unfold Fb.testAvail
    split
    · rename_i hnone
      refine quiet [] (by simp) (by simp) (by rw [hp]; rfl) rfl fun x => ?_
      simp [ours, hp, hnone]
    · split
      · refine quiet [] (by simp) (by simp) (by rw [hp]; rfl) rfl fun x => ?_
        simp [ours, hp]
      · refine quiet [] (by simp) (by simp) (by rw [hp]; rfl) rfl fun x => ?_
        simp [ours, hp]
  | wait b =>
    simp only [hp] at hs
    split at hs
    · simp only [Option.some.injEq] at hs
      subst hs
      exact waited_cases hp
    · cases hs
  | unlock b =>
    simp only [hp, Option.some.injEq] at hs
    subst hs
    refine unlockCurrent_cases (by rw [hp]; rfl) fun x => ?_
    cases hc : s.currentBuffer with
    | none => simp [ours, hp, hc, Fb.unlockCurrent]
    | some c =>
      simp only [ours, hp, hc, Fb.unlockCurrent]
      omega
  | finish b =>
    simp only [hp, Option.some.injEq] at hs
    subst hs
    refine ⟨⟨.inr rfl, by rw [hp]; rfl⟩, .none [] (by simp) (by simp) ?_⟩
    funext x
    simp [ours, hp]
  | reuse b =>
    simp only [hp, Option.some.injEq] at hs
    subst hs
    refine unlockCurrent_cases (by rw [hp]; rfl) fun x => ?_
    cases hc : s.currentBuffer with
    | none => simp [ours, hp, hc, Fb.unlockCurrent]
    | some c => simp [ours, hp, hc, Fb.unlockCurrent]
  | relock b =>
    simp only [hp, Option.some.injEq] at hs
    subst hs
    refine lock_cases (b := b) (by rw [hp]; rfl) (by simp [ours, hp]) rfl ⟨.inr rfl, by rw [hp]; rfl⟩
      fun x => ?_
    simp [ours, hp]

/-- A step is a new call of `fb_post`, or goes on with one. -/
theorem step_cases {l : Framebuffer.Label} (hs : Framebuffer.step s l = some s') :
    (∃ b, l = .post b ∧ s.post = .idle ∧ s' = { s with post := .start b }) ∨
    ((∀ b, l ≠ .post b) ∧ Kept s s' ∧ Calls s s') := by
  cases l with
  | post b =>
    simp only [Framebuffer.step] at hs
    split at hs
    · rename_i hidle
      exact .inl ⟨b, rfl, hidle, (Option.some.inj hs).symm⟩
    · cases hs
  | poster busy => exact .inr ⟨by simp, poster_cases hs⟩
  | display => exact .inr ⟨by simp, display_cases hs⟩
  | displayFails =>
    refine .inr ⟨by simp, ?_⟩
    simp only [Framebuffer.step] at hs
    split at hs
    · next q _ =>
      simp only [Option.some.injEq] at hs
      subst hs
      exact panDisplay_cases s q false
    · cases hs
  | wakePoster =>
    refine .inr ⟨by simp, ?_⟩
    simp only [Framebuffer.step] at hs
    split at hs
    · rename_i b hp
      simp only [Option.some.injEq] at hs
      subst hs
      exact waited_cases hp
    · cases hs
  | wakeDisplay =>
    refine .inr ⟨by simp, ?_⟩
    simp only [Framebuffer.step] at hs
    split at hs
    · simp only [Option.some.injEq] at hs
      subst hs
      exact dequeue_cases s
    · cases hs
  | setSwapInterval i =>
    refine .inr ⟨by simp, ?_⟩
    simp only [Framebuffer.step] at hs
    split at hs
    · simp only [Option.some.injEq] at hs
      subst hs
      exact quiet [] (by simp) (by simp) rfl rfl fun _ => rfl
    · cases hs

/-- A step of a call takes no other buffer. -/
theorem Calls.taken (hkept : Kept s s') (h : Calls s s') {b : Nat} (hb : Taken s' b) : Taken s b := by
  rcases hb with hb | hb
  · cases h with
    | none es hlog hpan hours => exact .inl (by rw [← hours]; exact hb)
    | lock c hc hone hlog hours =>
      by_cases hbc : b = c
      · rw [hbc]
        exact .inr hc
      · rw [hours, Function.update_of_ne hbc] at hb
        exact .inl hb
    | unlock c hc hlog hours =>
      by_cases hbc : b = c
      · rw [hbc]
        exact .inl hc
      · rw [hours, Function.update_of_ne hbc] at hb
        exact .inl hb
  · rcases hkept.buffer_eq with heq | heq
    · exact .inr (heq ▸ hb)
    · rw [heq] at hb
      cases hb

/-- The current buffer, and the one that is posted. -/
theorem ours_le (s : Fb) (b : Nat) : ours s b ≤ 2 := by
  simp only [ours]
  repeat' split
  all_goals omega

theorem ours_eq_zero {b : Nat} (hb : ¬ Taken s b) : ours s b = 0 := by
  by_contra hsome
  exact hb (.inl (Nat.pos_of_ne_zero hsome))

end

/-! ## The calls on a handle -/

section

variable {os : Os} {tid : Nat} {u : Usage} {hnd : PrivateHandle}

/-- `LOCK_STATE_WRITE` is above the count, and one more is one more, up to the last count. -/
theorem readCount_lockValue (u : Usage) (w : UInt32) :
    readCount (Mapper.Buffer.lockValue u w) = (readCount w + 1) % 2 ^ 30 := by
  have hwrite : readCount (w ||| Mapper.LOCK_STATE_WRITE) = readCount w := by
    have hor : (w ||| Mapper.LOCK_STATE_WRITE).toNat = w.toNat ||| 2 ^ 31 := UInt32.toNat_or ..
    rw [Mapper.readCount_eq, hor, Nat.or_mod_two_pow, ← Mapper.readCount_eq]
    exact Nat.or_zero _
  have hsucc (v : UInt32) : readCount (v + 1) = (readCount v + 1) % 2 ^ 30 := by
    rw [Mapper.readCount_eq, Mapper.readCount_eq, UInt32.toNat_add]
    simp only [UInt32.reduceToNat]
    omega
  unfold Mapper.Buffer.lockValue
  rw [hsucc]
  split
  · rw [hwrite]
  · rfl

/-- A lock of a buffer of the framebuffer is refused, and changes nothing, or it counts. -/
theorem grallocLock_framebuffer (os : Os) (tid : Nat) (u : Usage)
    (hfb : hnd.flags.framebuffer = true) :
    ((grallocLock os true tid u hnd).err ≠ 0 ∧ (grallocLock os true tid u hnd).handle = hnd) ∨
    ((grallocLock os true tid u hnd).err = 0 ∧
      (grallocLock os true tid u hnd).handle.flags.framebuffer = true ∧
      readCount (grallocLock os true tid u hnd).handle.lockState =
        (readCount hnd.lockState + 1) % 2 ^ 30) := by
  by_cases hlock : Lockable u hnd
  · right
    rw [grallocLock_lockable rfl hlock]
    split
    · unfold underMapLock
      split
      · exact ⟨rfl, hfb, readCount_lockValue ..⟩
      · have hmap : grallocMap os (hnd.take tid u) = (0, hnd.take tid u, []) := if_pos hfb
        simp only [hmap, if_true]
        refine ⟨trivial, hfb, ?_⟩
        rw [(Says.of _).setMapped.count]
        exact readCount_lockValue ..
    · exact ⟨rfl, hfb, readCount_lockValue ..⟩
  · left
    have hno : ¬ (true = true ∧ Lockable u hnd) := mt And.right hlock
    obtain ⟨e, he, heq⟩ := grallocLock_refused os tid hno
    rw [heq]
    exact ⟨he, rfl⟩

/-- The lock of the compositor, when nobody has the buffer for writing. -/
theorem grallocLock_post (os : Os) (tid : Nat) (hfree : isWrite hnd.lockState = false)
    (hn : readCount hnd.lockState + 1 < 2 ^ 30) :
    isWrite (grallocLock os true tid PRIV_USAGE_LOCKED_FOR_POST hnd).handle.lockState = false ∧
      readCount (grallocLock os true tid PRIV_USAGE_LOCKED_FOR_POST hnd).handle.lockState =
        readCount hnd.lockState + 1 := by
  have hlock : Lockable PRIV_USAGE_LOCKED_FOR_POST hnd := ⟨hfree, .inr rfl⟩
  have hword := says_lockValue hlock hn
  rw [grallocLock_lockable rfl hlock]
  exact ⟨hword.write, hword.count⟩

/-- An unlock takes one off the count; when there is none, it fails. -/
theorem grallocUnlock_framebuffer (tid : Nat) (hnd : PrivateHandle) :
    (grallocUnlock true tid hnd).handle.flags.framebuffer = hnd.flags.framebuffer ∧
    (((grallocUnlock true tid hnd).err ≠ 0 ∧ readCount hnd.lockState = 0 ∧
        (grallocUnlock true tid hnd).handle.lockState = hnd.lockState) ∨
      ((grallocUnlock true tid hnd).err = 0 ∧ readCount hnd.lockState ≠ 0 ∧
        readCount (grallocUnlock true tid hnd).handle.lockState + 1 = readCount hnd.lockState ∧
        (isWrite hnd.lockState = false →
          isWrite (grallocUnlock true tid hnd).handle.lockState = false))) := by
  unfold grallocUnlock
  simp only [Bool.true_eq_false, if_false]
  generalize hmine : (isWrite hnd.lockState && hnd.writeOwner == tid) = mine
  generalize hnew : (if mine = true then hnd.lockState &&& ~~~Mapper.LOCK_STATE_WRITE
    else hnd.lockState) = new
  have hword : ∃ write, Says new write (Mapper.isMapped hnd.lockState) (readCount hnd.lockState) ∧
      (isWrite hnd.lockState = false → write = false) := by
    rw [← hnew]
    split
    · exact ⟨false, (Says.of hnd.lockState).clearWrite, fun _ => rfl⟩
    · exact ⟨isWrite hnd.lockState, Says.of hnd.lockState, id⟩
  obtain ⟨write, hword, hwrite⟩ := hword
  rw [hword.count]
  split
  · rename_i hzero
    exact ⟨rfl, .inl ⟨by simp only [ne_eq]; decide, hzero, rfl⟩⟩
  · rename_i hsome
    obtain ⟨n, hn⟩ := Nat.exists_eq_succ_of_ne_zero hsome
    rw [hn] at hword
    refine ⟨rfl, .inr ⟨rfl, hsome, ?_, fun hw => hword.pred.write.trans (hwrite hw)⟩⟩
    rw [hword.pred.count, hn]

end

/-! ## What a step keeps -/

/-- The count of a buffer is that of the locks of its clients and of the compositor; no client has a
lock on a buffer that is taken. -/
structure Inv (s : Screen) : Prop where
  framebuffer : ∀ b, (s.handles b).flags.framebuffer = true
  count : ∀ b, readCount (s.handles b).lockState = (s.clients b + ours s.fb b) % 2 ^ 30
  free : ∀ b, Taken s.fb b → Free s b
  last : s.last = (buffer s.fb.post).or s.fb.currentBuffer

/-- Nobody has a lock on the buffer. -/
structure Unlocked (hnd : PrivateHandle) : Prop where
  write : isWrite hnd.lockState = false
  count : readCount hnd.lockState = 0

theorem start_inv (swapInterval : Int) {handles : Nat → PrivateHandle}
    (hfb : ∀ b, (handles b).flags.framebuffer = true) (hfree : ∀ b, Unlocked (handles b)) :
    Inv (start swapInterval handles) where
  framebuffer := hfb
  count := fun b => (hfree b).count
  free := fun b _ => ⟨rfl, (hfree b).write⟩
  last := rfl

namespace Inv

variable {s s' : Screen} {os : Os} {tid b : Nat}

/-- Only the compositor has locks on a buffer that is taken. -/
theorem count_taken (h : Inv s) (hb : Taken s.fb b) :
    readCount (s.handles b).lockState = ours s.fb b := by
  have hle := ours_le s.fb b
  rw [h.count, (h.free b hb).1]
  omega

/-- One call of the compositor: it has `n` locks on buffer `b` then. -/
theorem compositor (h : Inv s) {fb : Fb} {hnd : PrivateHandle} {n : Nat} (hkept : Kept s.fb fb)
    (hcalls : Calls s.fb fb) (hb : Taken s.fb b) (hours : ours fb = Function.update (ours s.fb) b n)
    (hfb : hnd.flags.framebuffer = true) (hwrite : isWrite hnd.lockState = false)
    (hcount : readCount hnd.lockState = n) :
    Inv { s with fb := fb, handles := Function.update s.handles b hnd } := by
  have hn : n ≤ 2 := by
    have hle := ours_le fb b
    rwa [hours, Function.update_self] at hle
  refine ⟨fun x => ?_, fun x => ?_, fun x hx => ?_, h.last.trans hkept.last.symm⟩
  · by_cases hxb : x = b
    · subst hxb
      simpa using hfb
    · simpa [hxb] using h.framebuffer x
  · by_cases hxb : x = b
    · subst hxb
      have hzero := (h.free x hb).1
      simp only [Function.update_self, hours, hcount, hzero]
      omega
    · simpa [hxb, hours] using h.count x
  · obtain ⟨hzero, hw⟩ := h.free x (hcalls.taken hkept hx)
    refine ⟨hzero, ?_⟩
    by_cases hxb : x = b
    · subst hxb
      simpa using hwrite
    · simpa [hxb] using hw

/-- The rest of a call. -/
theorem goes (h : Inv s) {fb : Fb} (os : Os) (tid : Nat) (hkept : Kept s.fb fb)
    (hcalls : Calls s.fb fb) :
    Inv { s with fb := fb, handles := (fb.log.drop s.fb.log.length).foldl (call os tid) s.handles } := by
  cases hcalls with
  | none es hlog hpan hours =>
    have hsame : es.foldl (call os tid) s.handles = s.handles := by
      clear hlog
      induction es with
      | nil => rfl
      | cons e es ih =>
        obtain ⟨c, rfl⟩ := hpan e List.mem_cons_self
        exact ih fun e he => hpan e (List.mem_cons_of_mem _ he)
    rw [hlog, List.drop_left, hsame]
    refine ⟨h.framebuffer, fun b => ?_, fun b hb => ?_, h.last.trans hkept.last.symm⟩
    · rw [hours]
      exact h.count b
    · exact h.free b (Calls.taken hkept (.none es hlog hpan hours) hb)
  | lock b hb hone hlog hours =>
    rw [hlog, List.drop_left]
    have hcount := h.count_taken (.inr hb)
    obtain ⟨hwrite, hsucc⟩ := grallocLock_post os tid (h.free b (.inr hb)).2 (by omega)
    have hfb : (grallocLock os true tid PRIV_USAGE_LOCKED_FOR_POST (s.handles b)).handle.flags.framebuffer =
        true := by
      rcases grallocLock_framebuffer os tid PRIV_USAGE_LOCKED_FOR_POST (h.framebuffer b) with
        ⟨-, heq⟩ | ⟨-, heq, -⟩
      · rw [heq]
        exact h.framebuffer b
      · exact heq
    exact h.compositor hkept (.lock b hb hone hlog hours) (.inr hb) hours hfb hwrite
      (by rw [hsucc, hcount])
  | unlock b hb hlog hours =>
    rw [hlog, List.drop_left]
    have hcount := h.count_taken (.inl hb)
    obtain ⟨hflags, hcases⟩ := grallocUnlock_framebuffer tid (s.handles b)
    obtain ⟨-, -, hpred, hwrite⟩ := hcases.resolve_left fun hno => by omega
    exact h.compositor hkept (.unlock b hb hlog hours) (.inl hb) hours (hflags.trans (h.framebuffer b))
      (hwrite (h.free b (.inl hb)).2) (by omega)

/-- A client's call on a buffer that is not taken. -/
theorem client (h : Inv s) (hb : ¬ Taken s.fb b) {hnd : PrivateHandle} {clients : Nat → Nat}
    (hothers : ∀ x, x ≠ b → clients x = s.clients x) (hfb : hnd.flags.framebuffer = true)
    (hcount : readCount hnd.lockState = clients b % 2 ^ 30) :
    Inv { s with handles := Function.update s.handles b hnd, clients := clients } := by
  have hnone := ours_eq_zero hb
  refine ⟨fun x => ?_, fun x => ?_, fun x hx => ?_, h.last⟩
  · by_cases hxb : x = b
    · subst hxb
      simpa using hfb
    · simpa [hxb] using h.framebuffer x
  · by_cases hxb : x = b
    · subst hxb
      simp only [Function.update_self, hnone, hcount, Nat.add_zero]
    · simp only [Function.update_of_ne hxb, hothers x hxb]
      exact h.count x
  · have hxb : x ≠ b := by
      rintro rfl
      exact hb hx
    obtain ⟨hzero, hw⟩ := h.free x hx
    exact ⟨(hothers x hxb).trans hzero, by simpa [hxb] using hw⟩

theorem clientLock (h : Inv s) (hb : ¬ Taken s.fb b) {u : Usage}
    (hs : Compositor.step s (.lock b u os tid) = some s') : Inv s' := by
  simp only [Compositor.step, Option.some.injEq] at hs
  subst hs
  have hcount := h.count b
  rw [ours_eq_zero hb] at hcount
  rcases grallocLock_framebuffer os tid u (h.framebuffer b) with ⟨herr, heq⟩ | ⟨herr, hfb, hsucc⟩
  · rw [if_neg herr, heq]
    exact h.client hb (fun _ _ => rfl) (h.framebuffer b) hcount
  · rw [if_pos herr]
    refine h.client hb (fun x hx => Function.update_of_ne hx ..) hfb ?_
    rw [hsucc, hcount, Function.update_self]
    omega

theorem clientUnlock (h : Inv s) (hb : ¬ Taken s.fb b)
    (hs : Compositor.step s (.unlock b tid) = some s') : Inv s' := by
  simp only [Compositor.step, Option.some.injEq] at hs
  subst hs
  have hcount := h.count b
  rw [ours_eq_zero hb] at hcount
  obtain ⟨hflags, hcases⟩ := grallocUnlock_framebuffer tid (s.handles b)
  have hfb := hflags.trans (h.framebuffer b)
  rcases hcases with ⟨herr, hzero, heq⟩ | ⟨herr, hsome, hpred, -⟩
  · rw [if_neg herr]
    exact h.client hb (fun _ _ => rfl) hfb (by rw [heq]; exact hcount)
  · rw [if_pos herr]
    refine h.client hb (fun x hx => Function.update_of_ne hx ..) hfb ?_
    rw [Function.update_self]
    omega

theorem step {l : Label} (h : Inv s) (hok : Allowed s l) (hs : step s l = some s') : Inv s' := by
  cases l with
  | fb l os tid =>
    obtain ⟨fb, hfb, rfl⟩ := Option.map_eq_some_iff.mp hs
    rcases step_cases hfb with ⟨b, rfl, hidle, rfl⟩ | ⟨hl, hkept, hcalls⟩
    · -- A new call: its buffer is taken now.
      have hours (x : Nat) : ours { s.fb with post := .start b } x = ours s.fb x := by
        simp only [ours, hidle]
      simp only [List.drop_length, List.foldl_nil]
      refine ⟨h.framebuffer, fun x => ?_, fun x hx => ?_, rfl⟩
      · rw [hours]
        exact h.count x
      · rcases hx with hx | hx
        · rw [hours] at hx
          exact h.free x (.inl hx)
        · cases hx
          exact hok
    · have hgoes := h.goes os tid hkept hcalls
      cases l with
      | post b => exact absurd rfl (hl b)
      | _ => exact hgoes
  | lock b u os tid => exact h.clientLock hok hs
  | unlock b tid => exact h.clientUnlock hok hs

end Inv

/-- After a call of `fb_post` for buffer `b`. -/
structure OneLock (s : Screen) (b : Nat) : Prop where
  current : s.fb.currentBuffer = some b
  one : readCount (s.handles b).lockState = 1
  /-- Only clients can have locks on another buffer. -/
  others : ∀ x, x ≠ b → s.clients x = 0 → readCount (s.handles x).lockState = 0

/-- Exactly one lock of the compositor, after each call in every run. -/
theorem one_lock (swapInterval : Int) (handles : Nat → PrivateHandle)
    (hfb : ∀ b, (handles b).flags.framebuffer = true) (hfree : ∀ b, Unlocked (handles b))
    (ls : List Label) (s : Screen) (hrun : run step (start swapInterval handles) ls = some s)
    (hok : RunOk step Allowed (start swapInterval handles) ls) :
    ∀ b, s.fb.post = .idle → s.last = some b → OneLock s b := by
  have h : Inv s :=
    run_invariant (fun _ _ _ hi hop hst => hi.step hop hst) (start_inv swapInterval hfb hfree) hok hrun
  intro b hidle hlast
  have hcurrent : s.fb.currentBuffer = some b := by
    have heq := h.last
    rw [hlast, hidle] at heq
    exact heq.symm
  have hours (x : Nat) : ours s.fb x = if b = x then 1 else 0 := by
    simp only [ours, hidle, hcurrent, Option.some.injEq]
  refine ⟨hcurrent, ?_, fun x hx hzero => ?_⟩
  · have htaken : Taken s.fb b := .inl (by rw [hours, if_pos rfl]; exact Nat.one_pos)
    rw [h.count_taken htaken, hours, if_pos rfl]
  · rw [h.count, hzero, hours, if_neg (Ne.symm hx)]
    rfl

/-- Buffers that have just been allocated. -/
def buffers (_ : Nat) : PrivateHandle :=
  { fd := 7, flags := { usesPmem := true, framebuffer := true }, size := 0x177000, pid := 1 }

/-- A call of `fb_post` of `n` steps. -/
def fbPost (b n : Nat) : List Label :=
  .fb (.post b) mapsNothing 5 :: List.replicate n (.fb (.poster false) mapsNothing 5)

/-- Buffer 0 is posted, then buffer 1, which a client has drawn to, and then buffer 1 again, when the
current buffer is reused. -/
def threePosts : List Label :=
  fbPost 0 6 ++ [.lock 1 ⟨false, true, false⟩ mapsNothing 9, .unlock 1 9] ++ fbPost 1 7 ++ fbPost 1 3

theorem one_lock_threePosts : ∃ s, run step (start 0 buffers) threePosts = some s ∧ OneLock s 1 := by
  have hany : (run step (start 0 buffers) threePosts).any
      (fun s => s.fb.post = .idle ∧ s.last = some 1) = true := by
    decide +kernel
  obtain ⟨s, hs, h⟩ := (Option.any_eq_true ..).mp hany
  obtain ⟨hidle, hlast⟩ := of_decide_eq_true h
  have hfree : Unlocked (buffers 0) := ⟨by decide, by decide⟩
  exact ⟨s, hs, one_lock 0 buffers (fun _ => rfl) (fun _ => hfree) threePosts s hs (by decide +kernel)
    1 hidle hlast⟩

end Twm.Gralloc.Compositor
