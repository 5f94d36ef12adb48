import DeviceTwm.Gralloc.Mapper

/-!
# Lock accounting

What `lockState` and `writeOwner` say about the outstanding locks, in every state that threads can
get a buffer into.

* `Inv`: the word counts the locks, a write lock is alone, and each thread is where its locks allow
  it to be. While a thread has the write lock nobody else changes the word, so the loop of
  `gralloc_unlock` does not go round for it (`Inv.unlockCas`).
* `lock_accounting`: the accounting after every step of every run.
-/

namespace Twm.Gralloc.Mapper

open Lib

/-- The store of `writeOwner` is not done yet, or the write lock is being given back. -/
def Pc.between : Pc → Bool
  | .lockOwner _ _ _ => true
  | .unlockCas _ _ => true
  | _ => false

/-- What holds of a thread at each place. -/
def Place (s : Buffer) (t : Nat) : Pc → Prop
  | .idle | .lockRead _ => True
  | .lockCas u current => isWrite current = false ∧ (u.write = true → readCount current = 0)
  | .lockOwner _ _ new => ⟨t, isWrite new⟩ ∈ s.held
  | .unlockOwner current =>
    (⟨t, true⟩ ∈ s.held ∧ current = s.lockState) ∨
      (⟨t, false⟩ ∈ s.held ∧ isWrite current = false ∧ readCount current ≠ 0)
  | .unlockCas current new =>
    (⟨t, true⟩ ∈ s.held ∧ current = s.lockState ∧ new = (current &&& ~~~LOCK_STATE_WRITE) - 1) ∨
      (⟨t, false⟩ ∈ s.held ∧ isWrite current = false ∧ readCount current ≠ 0 ∧ new = current - 1)
  | _ => ∃ w, ⟨t, w⟩ ∈ s.held

structure Inv (s : Buffer) : Prop where
  word : Says s.lockState (s.held.any (·.write)) (isMapped s.lockState) s.held.length
  alone : ∀ l ∈ s.held, l.write = true → s.held = [l]
  place : ∀ t, Place s t (s.pc t)
  owner : ∀ t, ⟨t, true⟩ ∈ s.held → (s.pc t).between = false → s.writeOwner = t

/-- A step keeps the invariant, and the buffer mapped. -/
def Keeps (s s' : Buffer) : Prop :=
  Inv s' ∧ (isMapped s.lockState = true → isMapped s'.lockState = true)

variable {s s' : Buffer} {t v : Nat} {p : Pc}

/-- A place is kept when the thread's locks are, and the word too if one of them is for write. -/
theorem Place.frame (h : Place s v p) (hheld : ∀ w, ⟨v, w⟩ ∈ s.held → ⟨v, w⟩ ∈ s'.held)
    (hword : ⟨v, true⟩ ∈ s.held → s'.lockState = s.lockState) : Place s' v p := by
  cases p with
  | idle => trivial
  | lockRead u => trivial
  | lockCas u current => exact h
  | lockOwner u current new => exact hheld _ h
  | unlockOwner current =>
    rcases h with ⟨h₁, h₂⟩ | ⟨h₁, h₂⟩
    · exact .inl ⟨hheld _ h₁, h₂.trans (hword h₁).symm⟩
    · exact .inr ⟨hheld _ h₁, h₂⟩
  | unlockCas current new =>
    rcases h with ⟨h₁, h₂, h₃⟩ | ⟨h₁, h₂⟩
    · exact .inl ⟨hheld _ h₁, h₂.trans (hword h₁).symm, h₃⟩
    · exact .inr ⟨hheld _ h₁, h₂⟩
  | lockFlags u current => exact h.imp hheld
  | lockMutex => exact h.imp hheld
  | lockMap => exact h.imp hheld
  | lockOr => exact h.imp hheld
  | lockDone err => exact h.imp hheld
  | unlockFlush => exact h.imp hheld
  | unlockRead => exact h.imp hheld

namespace Inv

theorem init (mapped framebuffer : Bool) : Inv (.init mapped framebuffer) where
  word := by
    cases mapped with
    | false => exact ⟨show isWrite 0 = false by decide, rfl, show readCount 0 = 0 by decide⟩
    | true =>
      exact ⟨show isWrite LOCK_STATE_MAPPED = false by decide, rfl,
        show readCount LOCK_STATE_MAPPED = 0 by decide⟩
  alone := fun l hl => nomatch hl
  place := fun t => trivial
  owner := fun t ht => nomatch ht

/-- Beside a write lock there is no other one. -/
theorem eq_of_write (h : Inv s) (ht : ⟨t, true⟩ ∈ s.held) {w : Bool} (hv : ⟨v, w⟩ ∈ s.held) :
    v = t := by
  rw [h.alone _ ht rfl] at hv
  exact congrArg Lock.tid (List.mem_singleton.mp hv)

/-- A thread with a read lock sees a word without `LOCK_STATE_WRITE`, with a lock in it. -/
theorem of_read (h : Inv s) (ht : ⟨t, false⟩ ∈ s.held) :
    isWrite s.lockState = false ∧ readCount s.lockState ≠ 0 := by
  rw [h.word.write, h.word.count]
  constructor
  · rw [List.any_eq_false]
    intro l hl hw
    rw [h.alone l hl hw, List.mem_singleton] at ht
    rw [← ht] at hw
    cases hw
  · exact Nat.pos_iff_ne_zero.mp (List.length_pos_of_mem ht)

theorem of_write (h : Inv s) (ht : ⟨t, true⟩ ∈ s.held) :
    isWrite s.lockState = true ∧ readCount s.lockState = 1 := by
  rw [h.word.write, h.word.count, h.alone _ ht rfl]
  exact ⟨rfl, rfl⟩

/-- Thread `t` goes to `p` and changes nothing that the locks depend on. -/
theorem move (h : Inv s) (hl : s'.lockState = s.lockState) (hh : s'.held = s.held)
    (hpc : s'.pc = Function.update s.pc t p) (hp : Place s t p)
    (hown : ∀ v, ⟨v, true⟩ ∈ s.held → (s'.pc v).between = false → s'.writeOwner = v) :
    Keeps s s' := by
  refine ⟨⟨?_, ?_, fun v => ?_, ?_⟩, fun hm => by rwa [hl]⟩
  · rw [hl, hh]
    exact h.word
  · rw [hh]
    exact h.alone
  · rw [hpc]
    by_cases hv : v = t
    · subst hv
      rw [Function.update_self]
      exact hp.frame (fun w => by rw [hh]; exact id) fun _ => hl
    · rw [Function.update_of_ne hv]
      exact (h.place v).frame (fun w => by rw [hh]; exact id) fun _ => hl
  · rw [hh]
    exact hown

/-- The same, where `writeOwner` does not change either. -/
theorem goto (h : Inv s) (hl : s'.lockState = s.lockState) (hh : s'.held = s.held)
    (hw : s'.writeOwner = s.writeOwner) (hpc : s'.pc = Function.update s.pc t p) (hp : Place s t p)
    (hb : ⟨t, true⟩ ∈ s.held → (s.pc t).between = false ∨ p.between = true) : Keeps s s' := by
  refine h.move hl hh hpc hp fun v hv hbv => ?_
  rw [hw]
  rw [hpc] at hbv
  by_cases hvt : v = t
  · subst hvt
    rw [Function.update_self] at hbv
    refine h.owner v hv ((hb hv).resolve_right ?_)
    rw [hbv]
    decide
  · rw [Function.update_of_ne hvt] at hbv
    exact h.owner v hv hbv

/-! ## `gralloc_lock` -/

theorem lockRead (h : Inv s) {u : Usage} (hpc : s.pc t = .lockRead u) :
    Keeps s (s.lockRead t u) := by
  unfold Buffer.lockRead
  dsimp only
  split
  · exact h.goto rfl rfl rfl rfl trivial fun _ => .inl (by rw [hpc]; rfl)
  · split
    · exact h.goto rfl rfl rfl rfl trivial fun _ => .inl (by rw [hpc]; rfl)
    · rename_i hw hr
      refine h.goto rfl rfl rfl rfl ⟨by simpa using hw, fun hu => ?_⟩
        fun _ => .inl (by rw [hpc]; rfl)
      exact by_contra fun hne => hr ⟨hne, hu⟩

/-- The lock is taken: for write only if there is none. -/
theorem lockCas (h : Inv s) {u : Usage} {current : UInt32} (hpc : s.pc t = .lockCas u current)
    (hlen : s.held.length + 1 < 2 ^ 30) : Keeps s (s.lockCas t u current) := by
  obtain ⟨hread, hwrite⟩ : Place s t (.lockCas u current) := hpc ▸ h.place t
  unfold Buffer.lockCas
  split
  swap
  · exact h.goto rfl rfl rfl rfl trivial fun _ => .inl (by rw [hpc]; rfl)
  rename_i hcur
  subst hcur
  have hany : s.held.any (·.write) = false := h.word.write.symm.trans hread
  have hword : Says (Buffer.lockValue u s.lockState) (u.write || s.held.any (·.write))
      (isMapped s.lockState) (s.held.length + 1) := by
    have hw := h.word
    rw [hany] at hw ⊢
    unfold Buffer.lockValue
    cases u.write with
    | false => exact hw.succ hlen
    | true => exact hw.setWrite.succ hlen
  -- Nobody has the lock for write, so what others rely on stays.
  have hnone : ∀ v, ⟨v, true⟩ ∉ s.held := fun v hv => by
    rw [List.any_eq_false] at hany
    exact hany _ hv rfl
  refine ⟨⟨?_, ?_, fun v => ?_, fun v hv hb => ?_⟩, fun hm => hword.mapped.trans hm⟩
  · exact hword.mapped ▸ hword
  · intro l hl hw
    rcases List.mem_cons.mp hl with rfl | hl
    · have hempty : s.held = [] := by
        rw [← List.length_eq_zero_iff, ← h.word.count]
        exact hwrite hw
      simp [Buffer.setPc, hempty]
    · exact absurd (by rwa [show l = ⟨l.tid, true⟩ from by rw [← hw]] at hl) (hnone l.tid)
  · by_cases hv : v = t
    · subst hv
      have hnew : isWrite (Buffer.lockValue u s.lockState) = u.write := by
        rw [hword.write, hany, Bool.or_false]
      simp only [Buffer.setPc, Function.update_self, Place, hnew]
      exact List.mem_cons_self
    · simp only [Buffer.setPc, Function.update_of_ne hv]
      exact (h.place v).frame (fun w hw => List.mem_cons_of_mem _ hw) fun hw => absurd hw (hnone v)
  · simp only [Buffer.setPc] at hv hb
    rcases List.mem_cons.mp hv with heq | hv
    · obtain rfl : v = t := congrArg Lock.tid heq
      rw [Function.update_self] at hb
      cases hb
    · exact absurd hv (hnone v)

theorem lockOwner (h : Inv s) {u : Usage} {current new : UInt32}
    (hpc : s.pc t = .lockOwner u current new) : Keeps s (s.lockOwner t u current new) := by
  have hplace : ⟨t, isWrite new⟩ ∈ s.held := by
    have := h.place t
    rwa [hpc] at this
  refine h.move rfl rfl rfl ⟨_, hplace⟩ fun v hv hb => ?_
  have hvt : t = v := h.eq_of_write hv hplace
  subst hvt
  have hnew : isWrite new = true := by
    rw [h.alone _ hv rfl, List.mem_singleton] at hplace
    exact congrArg Lock.write hplace
  simp [Buffer.lockOwner, Buffer.setPc, hnew]

theorem lockFlags (h : Inv s) {u : Usage} {current : UInt32}
    (hpc : s.pc t = .lockFlags u current) : Keeps s (s.lockFlags t u current) := by
  have hplace : ∃ w, ⟨t, w⟩ ∈ s.held := by
    have := h.place t
    rwa [hpc] at this
  unfold Buffer.lockFlags
  dsimp only
  split
  · exact h.goto rfl rfl rfl rfl hplace fun _ => .inl (by rw [hpc]; rfl)
  · exact h.goto rfl rfl rfl rfl trivial fun _ => .inl (by rw [hpc]; rfl)

theorem lockMap (h : Inv s) (err : Int) (hpc : s.pc t = .lockMap) : Keeps s (s.lockMap t err) := by
  have hplace : ∃ w, ⟨t, w⟩ ∈ s.held := by
    have := h.place t
    rwa [hpc] at this
  unfold Buffer.lockMap
  split
  · exact h.goto rfl rfl rfl rfl hplace fun _ => .inl (by rw [hpc]; rfl)
  · split
    · exact h.goto rfl rfl rfl rfl hplace fun _ => .inl (by rw [hpc]; rfl)
    · exact h.goto rfl rfl rfl rfl hplace fun _ => .inl (by rw [hpc]; rfl)

/-- `LOCK_STATE_MAPPED` is set by a thread that has a lock, so a write lock of another one is not
there. -/
theorem lockOr (h : Inv s) (hpc : s.pc t = .lockOr) :
    Keeps s ({ s with lockState := s.lockState ||| LOCK_STATE_MAPPED }.setPc t (.lockDone 0)) := by
  obtain ⟨w, hw⟩ : ∃ w, ⟨t, w⟩ ∈ s.held := by
    have := h.place t
    rwa [hpc] at this
  have hword := h.word.setMapped
  refine ⟨⟨?_, h.alone, fun v => ?_, fun v hv hb => ?_⟩, fun _ => hword.mapped⟩
  · exact hword.mapped ▸ hword
  · by_cases hv : v = t
    · subst hv
      simp only [Buffer.setPc, Function.update_self]
      exact ⟨w, hw⟩
    · simp only [Buffer.setPc, Function.update_of_ne hv]
      exact (h.place v).frame (fun _ => id) fun hwr => absurd (h.eq_of_write hwr hw).symm hv
  · obtain rfl : t = v := h.eq_of_write hv hw
    exact h.owner t hv (by rw [hpc]; rfl)

/-! ## `gralloc_unlock` -/

theorem unlockRead (h : Inv s) (hpc : s.pc t = .unlockRead) :
    Keeps s (s.setPc t (.unlockOwner s.lockState)) := by
  obtain ⟨w, hw⟩ : ∃ w, ⟨t, w⟩ ∈ s.held := by
    have := h.place t
    rwa [hpc] at this
  have hb : (s.pc t).between = false := by rw [hpc]; rfl
  cases w with
  | true => exact h.goto rfl rfl rfl rfl (.inl ⟨hw, rfl⟩) fun _ => .inl hb
  | false => exact h.goto rfl rfl rfl rfl (.inr ⟨hw, h.of_read hw⟩) fun _ => .inl hb

theorem unlockOwner (h : Inv s) {current : UInt32} (hpc : s.pc t = .unlockOwner current) :
    Keeps s (s.unlockOwner t current) := by
  have hplace : Place s t (.unlockOwner current) := hpc ▸ h.place t
  have hb : (s.pc t).between = false := by rw [hpc]; rfl
  rcases hplace with ⟨hw, hcur⟩ | ⟨hr, hno, hcount⟩
  · -- The thread has the write lock, and `writeOwner` is its id.
    subst hcur
    obtain ⟨hwr, hone⟩ := h.of_write hw
    have hmine : (isWrite s.lockState && s.writeOwner == t) = true := by
      rw [hwr, h.owner t hw hb]
      simp
    have hnew : readCount (s.lockState &&& ~~~LOCK_STATE_WRITE) ≠ 0 := by
      rw [h.word.clearWrite.count, ← h.word.count, hone]
      decide
    simp only [Buffer.unlockOwner, hmine, if_true, if_neg hnew]
    refine h.move rfl rfl rfl (.inl ⟨hw, rfl, rfl⟩) fun v hv hbv => ?_
    obtain rfl : t = v := h.eq_of_write hv hw
    simp only [Buffer.setPc, Function.update_self] at hbv
    cases hbv
  · have hmine : (isWrite current && s.writeOwner == t) = false := by rw [hno, Bool.false_and]
    simp only [Buffer.unlockOwner, hmine, Bool.false_eq_true, if_false, if_neg hcount]
    refine h.goto rfl rfl rfl rfl (.inr ⟨hr, hno, hcount, rfl⟩) fun _ => .inl hb

/-- A lock is given back, and the word has one lock less and no `LOCK_STATE_WRITE`. -/
theorem release (h : Inv s) {w : Bool} {new : UInt32} (hw : ⟨t, w⟩ ∈ s.held)
    (hnew : Says new false (isMapped s.lockState) (s.held.length - 1)) :
    Keeps s ({ s with lockState := new, held := s.held.eraseP (·.tid = t) }.returns t 0) := by
  have hnone : ∀ l ∈ s.held.eraseP (·.tid = t), l.write = false := by
    intro l hl
    rw [Bool.eq_false_iff]
    intro hlw
    have hone := h.alone l (List.mem_of_mem_eraseP hl) hlw
    rw [hone, List.mem_singleton] at hw
    rw [hone, ← hw] at hl
    simp at hl
  refine ⟨⟨?_, fun l hl hlw => ?_, fun v => ?_, fun v hv => ?_⟩, fun hm => hnew.mapped.trans hm⟩
  · have hany : (s.held.eraseP (·.tid = t)).any (·.write) = false := by
      rw [List.any_eq_false]
      intro l hl
      rw [hnone l hl]
      decide
    have hlen : (s.held.eraseP (·.tid = t)).length = s.held.length - 1 :=
      List.length_eraseP_of_mem hw (by simp)
    simp only [Buffer.returns, hany, hlen]
    exact hnew.mapped ▸ hnew
  · rw [hnone l hl] at hlw
    cases hlw
  · by_cases hv : v = t
    · subst hv
      simp only [Buffer.returns, Function.update_self]
      trivial
    · simp only [Buffer.returns, Function.update_of_ne hv]
      refine (h.place v).frame (fun w' hw' => ?_) fun hwr => absurd (h.eq_of_write hwr hw).symm hv
      exact (List.mem_eraseP_of_neg (by simpa using hv)).mpr hw'
  · have := hnone _ hv
    cases this

/-- For a write lock the word is still the one that was read. -/
theorem unlockCas (h : Inv s) {current new : UInt32} (hpc : s.pc t = .unlockCas current new) :
    Keeps s (s.unlockCas t current new) := by
  have hplace : Place s t (.unlockCas current new) := hpc ▸ h.place t
  unfold Buffer.unlockCas
  rcases hplace with ⟨hw, rfl, rfl⟩ | ⟨hr, hno, hcount, rfl⟩
  · rw [if_pos rfl]
    refine h.release hw (Says.pred ?_)
    have hlen : s.held.length - 1 + 1 = s.held.length := by
      have := List.length_pos_of_mem hw
      omega
    rw [hlen]
    exact h.word.clearWrite
  · split
    · rename_i hcur
      subst hcur
      refine h.release hr (Says.pred ?_)
      have hlen : s.held.length - 1 + 1 = s.held.length := by
        have := List.length_pos_of_mem hr
        omega
      rw [hlen]
      exact hno ▸ h.word.write ▸ h.word
    · refine h.goto rfl rfl rfl rfl ⟨_, hr⟩ fun hw => ?_
      rw [h.alone _ hw rfl, List.mem_singleton] at hr
      cases hr

theorem step (h : Inv s) {l : Label} (hl : Allowed s l) (hs : step s l = some s') :
    Keeps s s' := by
  cases l with
  | lock t u =>
    simp only [Mapper.step, Option.ite_none_right_eq_some, Option.some.injEq] at hs
    obtain ⟨hpc, rfl⟩ := hs
    exact h.goto rfl rfl rfl rfl trivial fun _ => .inl (by rw [hpc]; rfl)
  | unlock t =>
    simp only [Mapper.step, Option.ite_none_right_eq_some, Option.some.injEq] at hs
    obtain ⟨hpc, rfl⟩ := hs
    obtain ⟨l, hl, rfl⟩ := hl
    exact h.goto rfl rfl rfl rfl ⟨l.write, hl⟩ fun _ => .inl (by rw [hpc]; rfl)
  | go t err =>
    have hplace := h.place t
    obtain ⟨-, hlen⟩ := hl
    simp only [Mapper.step, Buffer.go] at hs
    cases hpc : s.pc t with
    | idle => simp [hpc] at hs
    | lockRead u =>
      simp only [hpc, Option.some.injEq] at hs
      exact hs ▸ h.lockRead hpc
    | lockCas u current =>
      simp only [hpc, Option.some.injEq] at hs
      exact hs ▸ h.lockCas hpc (hlen (by rw [hpc]; rfl))
    | lockOwner u current new =>
      simp only [hpc, Option.some.injEq] at hs
      exact hs ▸ h.lockOwner hpc
    | lockFlags u current =>
      simp only [hpc, Option.some.injEq] at hs
      exact hs ▸ h.lockFlags hpc
    | lockMutex =>
      simp only [hpc, Option.ite_none_right_eq_some, Option.some.injEq] at hs
      obtain ⟨-, rfl⟩ := hs
      rw [hpc] at hplace
      exact h.goto rfl rfl rfl rfl hplace fun _ => .inl (by rw [hpc]; rfl)
    | lockMap =>
      simp only [hpc, Option.some.injEq] at hs
      exact hs ▸ h.lockMap err hpc
    | lockOr =>
      simp only [hpc, Option.some.injEq] at hs
      exact hs ▸ h.lockOr hpc
    | lockDone e =>
      simp only [hpc, Option.some.injEq] at hs
      subst hs
      exact h.goto rfl rfl rfl rfl trivial fun _ => .inl (by rw [hpc]; rfl)
    | unlockFlush =>
      simp only [hpc, Option.some.injEq] at hs
      subst hs
      rw [hpc] at hplace
      exact h.goto rfl rfl rfl rfl hplace fun _ => .inl (by rw [hpc]; rfl)
    | unlockRead =>
      simp only [hpc, Option.some.injEq] at hs
      exact hs ▸ h.unlockRead hpc
    | unlockOwner current =>
      simp only [hpc, Option.some.injEq] at hs
      exact hs ▸ h.unlockOwner hpc
    | unlockCas current new =>
      simp only [hpc, Option.some.injEq] at hs
      exact hs ▸ h.unlockCas hpc

end Inv

/-! ## The accounting -/

/-- The word counts the outstanding locks, and `LOCK_STATE_WRITE` is set iff there is exactly one and
it is for write. -/
def Counts (s : Buffer) : Prop :=
  readCount s.lockState = s.held.length ∧
    (isWrite s.lockState = true ↔ ∃ t, s.held = [⟨t, true⟩])

theorem Inv.counts (h : Inv s) : Counts s := by
  refine ⟨h.word.count, ?_⟩
  rw [h.word.write, List.any_eq_true]
  constructor
  · rintro ⟨l, hl, hw⟩
    exact ⟨l.tid, by rw [h.alone l hl hw, ← hw]⟩
  · rintro ⟨t, ht⟩
    exact ⟨⟨t, true⟩, by rw [ht]; exact List.mem_singleton_self _, rfl⟩

/-- **Lock accounting.** After every step of every run the word counts the outstanding locks, a write
lock is alone, `writeOwner` is its thread unless that thread is between taking the lock and the
store of `writeOwner`, or giving it back, and the buffer stays mapped. -/
theorem lock_accounting (mapped framebuffer : Bool) (ls₁ ls₂ : List Label) (s s' : Buffer)
    (hok₁ : RunOk step Allowed (.init mapped framebuffer) ls₁)
    (h₁ : run step (.init mapped framebuffer) ls₁ = some s) (hok₂ : RunOk step Allowed s ls₂)
    (h₂ : run step s ls₂ = some s') :
    Counts s' ∧
      (∀ t, s'.held = [⟨t, true⟩] → (s'.pc t).between = false → s'.writeOwner = t) ∧
      (isMapped s.lockState = true → isMapped s'.lockState = true) := by
  have hinv : Inv s := run_invariant (I := Inv) (fun _ _ _ h hl hs => (h.step hl hs).1)
    (.init mapped framebuffer) hok₁ h₁
  have hkeeps : Keeps s s' := by
    refine run_invariant (I := Keeps s) (fun x l x' hx hl hs => ?_) ⟨hinv, id⟩ hok₂ h₂
    obtain ⟨hx', hm⟩ := hx.1.step hl hs
    exact ⟨hx', fun h => hm (hx.2 h)⟩
  refine ⟨hkeeps.1.counts, fun t ht => hkeeps.1.owner t ?_, hkeeps.2⟩
  rw [ht]
  exact List.mem_singleton_self _

/-- Two threads: the first one locks for write, and the second one tries to lock before `writeOwner`
is stored. -/
def tryBetween : List Label :=
  [.lock 1 ⟨false, false, true⟩, .go 1 0, .go 1 0, .lock 2 ⟨true, false, false⟩, .go 2 0]

theorem lock_accounting_tryBetween : ∃ s, run step (.init true false) tryBetween = some s ∧
    Counts s ∧ (∀ t, s.held = [⟨t, true⟩] → (s.pc t).between = false → s.writeOwner = t) ∧
    (isMapped (Buffer.init true false).lockState = true → isMapped s.lockState = true) := by
  obtain ⟨s, hs⟩ : ∃ s, run step (.init true false) tryBetween = some s :=
    Option.isSome_iff_exists.mp (by decide +kernel)
  exact ⟨s, hs, lock_accounting true false [] tryBetween _ s trivial rfl (by decide +kernel) hs⟩

/-- After the call of the second thread, which failed, the word counts a lock for write that is not
that of `writeOwner`; and of the calls of `gralloc_lock` that are over none has a lock. -/
theorem owner_not_stored : ∃ s, run step (.init true false) tryBetween = some s ∧
    RunOk step Allowed (.init true false) tryBetween ∧ s.pc 2 = .idle ∧ s.ret 2 = some (-EBUSY) ∧
    isWrite s.lockState = true ∧ s.held = [⟨1, true⟩] ∧ s.writeOwner ≠ 1 ∧
    readCount s.lockState ≠ (s.held.filter fun l => s.pc l.tid = .idle).length := by
  obtain ⟨s, hs⟩ : ∃ s, run step (.init true false) tryBetween = some s :=
    Option.isSome_iff_exists.mp (by decide +kernel)
  refine ⟨s, hs, by decide +kernel, ?_⟩
  have hd : (run step (.init true false) tryBetween).map (fun s => decide (s.pc 2 = .idle ∧
      s.ret 2 = some (-EBUSY) ∧ isWrite s.lockState = true ∧ s.held = [⟨1, true⟩] ∧
      s.writeOwner ≠ 1 ∧
      readCount s.lockState ≠ (s.held.filter fun l => s.pc l.tid = .idle).length)) = some true := by
    decide +kernel
  rw [hs] at hd
  simpa using hd

end Twm.Gralloc.Mapper
