import Mathlib.Data.Nat.Bitwise
import DeviceTwm.Lib.Run

/-!
# Locking a buffer

`gralloc_lock` and `gralloc_unlock` of `mapper.cpp` on one buffer, as threads run them: every step
of a thread is one access to the handle. A lock is outstanding from the `android_atomic_cmpxchg`
that takes it to the one that gives it back (`Buffer.held`).

* `Says`: what the three fields of the packed word `lockState` are, and what each operation makes of
  them.
* `step`: a thread starts a call, or goes on with the one it is in.
-/

namespace Twm.Gralloc.Mapper

/-! ## The word -/

def LOCK_STATE_WRITE : UInt32 := 0x80000000
def LOCK_STATE_MAPPED : UInt32 := 0x40000000
def LOCK_STATE_READ_MASK : UInt32 := 0x3FFFFFFF

/-- `w & LOCK_STATE_WRITE`. -/
def isWrite (w : UInt32) : Bool := w &&& LOCK_STATE_WRITE != 0

/-- `w & LOCK_STATE_MAPPED`. -/
def isMapped (w : UInt32) : Bool := w &&& LOCK_STATE_MAPPED != 0

/-- `w & LOCK_STATE_READ_MASK`. -/
def readCount (w : UInt32) : Nat := (w &&& LOCK_STATE_READ_MASK).toNat

theorem readCount_eq (w : UInt32) : readCount w = w.toNat % 2 ^ 30 := by
  have h := Nat.and_two_pow_sub_one_eq_mod w.toNat 30
  simpa [readCount, LOCK_STATE_READ_MASK] using h

/-- A test of one bit. -/
theorem and_two_pow_ne_zero {w m : UInt32} {k : Nat} (hm : m.toNat = 2 ^ k) :
    (w &&& m != 0) = w.toNat.testBit k := by
  have hand : (w &&& m).toNat = 2 ^ k * (w.toNat.testBit k).toNat := by
    rw [UInt32.toNat_and, hm, Nat.and_two_pow, Nat.mul_comm]
  cases hbit : w.toNat.testBit k with
  | false =>
    have : w &&& m = 0 := by
      apply UInt32.toNat_inj.mp
      rw [hand, hbit]
      rfl
    simp [this]
  | true =>
    have : w &&& m ≠ 0 := by
      intro h
      have hpos := Nat.two_pow_pos k
      rw [h, hbit] at hand
      simp only [UInt32.toNat_zero, Bool.toNat_true, Nat.mul_one] at hand
      omega
    simpa using this

theorem isWrite_eq (w : UInt32) : isWrite w = w.toNat.testBit 31 := and_two_pow_ne_zero rfl

theorem isMapped_eq (w : UInt32) : isMapped w = w.toNat.testBit 30 := and_two_pow_ne_zero rfl

/-- What a word says. -/
structure Says (w : UInt32) (write mapped : Bool) (count : Nat) : Prop where
  write : isWrite w = write
  mapped : isMapped w = mapped
  count : readCount w = count

namespace Says

variable {w : UInt32} {wr mp : Bool} {n : Nat}

theorem of (w : UInt32) : Says w (isWrite w) (isMapped w) (readCount w) := ⟨rfl, rfl, rfl⟩

/-- A word is what it says. -/
theorem iff_toNat : Says w wr mp n ↔ n < 2 ^ 30 ∧
    w.toNat = (if wr then 2 ^ 31 else 0) + (if mp then 2 ^ 30 else 0) + n := by
  have hlt := w.toNat_lt
  have hbits : isWrite w = wr ∧ isMapped w = mp ↔
      (w.toNat / 2 ^ 31 = if wr then 1 else 0) ∧ (w.toNat / 2 ^ 30 % 2 = if mp then 1 else 0) := by
    rw [isWrite_eq, isMapped_eq, Nat.testBit_eq_decide_div_mod_eq,
      Nat.testBit_eq_decide_div_mod_eq]
    cases wr <;> cases mp <;> simp <;> omega
  constructor
  · rintro ⟨hw, hm, hc⟩
    obtain ⟨h₁, h₂⟩ := hbits.mp ⟨hw, hm⟩
    rw [readCount_eq] at hc
    cases wr <;> cases mp <;> simp at h₁ h₂ ⊢ <;> omega
  · rintro ⟨hn, hw⟩
    have h := hbits.mpr (by cases wr <;> cases mp <;> simp at hw ⊢ <;> omega)
    refine ⟨h.1, h.2, ?_⟩
    rw [readCount_eq]
    cases wr <;> cases mp <;> simp at hw <;> omega

theorem setWrite (h : Says w false mp n) : Says (w ||| LOCK_STATE_WRITE) true mp n := by
  obtain ⟨hn, hw⟩ := iff_toNat.mp h
  have hlt : w.toNat < 2 ^ 31 := by
    cases mp <;> simp at hw <;> omega
  refine iff_toNat.mpr ⟨hn, ?_⟩
  rw [UInt32.toNat_or, show LOCK_STATE_WRITE.toNat = 2 ^ 31 from rfl,
    Nat.or_two_pow_eq_add_of_lt hlt, hw]
  cases mp <;> simp <;> omega

theorem clearWrite (h : Says w wr mp n) : Says (w &&& ~~~LOCK_STATE_WRITE) false mp n := by
  obtain ⟨hn, hw⟩ := iff_toNat.mp h
  refine iff_toNat.mpr ⟨hn, ?_⟩
  rw [UInt32.toNat_and, show (~~~LOCK_STATE_WRITE).toNat = 2 ^ 31 - 1 from rfl,
    Nat.and_two_pow_sub_one_eq_mod, hw]
  cases wr <;> cases mp <;> simp <;> omega

theorem setMapped (h : Says w wr mp n) : Says (w ||| LOCK_STATE_MAPPED) wr true n := by
  have hor : (w ||| LOCK_STATE_MAPPED).toNat = w.toNat ||| 2 ^ 30 := UInt32.toNat_or ..
  refine ⟨?_, ?_, ?_⟩
  · rw [isWrite_eq, hor, Nat.testBit_or, ← isWrite_eq, h.write, Nat.testBit_two_pow_of_ne (by decide),
      Bool.or_false]
  · rw [isMapped_eq, hor, Nat.testBit_or, Nat.testBit_two_pow_self, Bool.or_true]
  · rw [readCount_eq, hor, Nat.or_mod_two_pow, Nat.mod_self, Nat.or_zero, ← readCount_eq, h.count]

theorem succ (h : Says w wr mp n) (hn : n + 1 < 2 ^ 30) : Says (w + 1) wr mp (n + 1) := by
  obtain ⟨-, hw⟩ := iff_toNat.mp h
  refine iff_toNat.mpr ⟨hn, ?_⟩
  rw [UInt32.toNat_add, hw]
  cases wr <;> cases mp <;> simp <;> omega

theorem pred (h : Says w wr mp (n + 1)) : Says (w - 1) wr mp n := by
  obtain ⟨hn, hw⟩ := iff_toNat.mp h
  refine iff_toNat.mpr ⟨by omega, ?_⟩
  rw [UInt32.toNat_sub, hw]
  cases wr <;> cases mp <;> simp <;> omega

end Says

/-! ## The calls -/

/-- What the tests on `usage` ask for. -/
structure Usage where
  /-- `GRALLOC_USAGE_SW_READ_MASK`. -/
  swRead : Bool
  /-- `GRALLOC_USAGE_SW_WRITE_MASK`. -/
  swWrite : Bool
  /-- `GRALLOC_USAGE_HW_RENDER`. -/
  hwRender : Bool
  deriving DecidableEq

/-- Locking for write. -/
def Usage.write (u : Usage) : Bool := u.swWrite || u.hwRender

/-- Where a thread is. -/
inductive Pc
  | idle
  /-- In `gralloc_lock`, about to read `lockState`. -/
  | lockRead (u : Usage)
  | lockCas (u : Usage) (current : UInt32)
  /-- The lock is taken; `writeOwner` is next. -/
  | lockOwner (u : Usage) (current new : UInt32)
  | lockFlags (u : Usage) (current : UInt32)
  /-- Waiting for `sMapLock`. -/
  | lockMutex
  /-- Under `sMapLock`. -/
  | lockMap
  | lockOr
  | lockDone (err : Int)
  /-- In `gralloc_unlock`, before the caches are flushed. -/
  | unlockFlush
  | unlockRead
  | unlockOwner (current : UInt32)
  | unlockCas (current new : UInt32)
  deriving DecidableEq

/-- About to take the lock. -/
def Pc.taking : Pc → Bool
  | .lockCas _ _ => true
  | _ => false

/-- A lock that a thread took. -/
structure Lock where
  tid : Nat
  write : Bool
  deriving DecidableEq

/-- A buffer and the threads that lock it. -/
structure Buffer where
  lockState : UInt32
  writeOwner : Nat
  /-- `PRIV_FLAGS_FRAMEBUFFER`. -/
  framebuffer : Bool
  /-- `PRIV_FLAGS_NEEDS_FLUSH`. -/
  needsFlush : Bool
  /-- The thread that has `sMapLock`. -/
  sMapLock : Option Nat
  pc : Nat → Pc
  /-- What the last call of a thread returned. -/
  ret : Nat → Option Int
  /-- The outstanding locks. -/
  held : List Lock

def EBUSY : Int := 16
def EINVAL : Int := 22

namespace Buffer

/-- A buffer that nobody has locked. -/
def init (mapped framebuffer : Bool) : Buffer where
  lockState := if mapped then LOCK_STATE_MAPPED else 0
  writeOwner := 0
  framebuffer := framebuffer
  needsFlush := false
  sMapLock := none
  pc := fun _ => .idle
  ret := fun _ => none
  held := []

variable (s : Buffer) (t : Nat)

/-- Thread `t` goes to `p`. -/
def setPc (p : Pc) : Buffer := { s with pc := Function.update s.pc t p }

/-- The call of `t` returns. -/
def returns (r : Int) : Buffer :=
  { s with pc := Function.update s.pc t .idle, ret := Function.update s.ret t (some r) }

/-- The value that `gralloc_lock` swaps in. -/
def lockValue (u : Usage) (current : UInt32) : UInt32 :=
  (if u.write then current ||| LOCK_STATE_WRITE else current) + 1

/-- The first part of the loop of `gralloc_lock`. -/
def lockRead (u : Usage) : Buffer :=
  let current := s.lockState
  if isWrite current then s.returns t (-EBUSY)
  else if readCount current ≠ 0 ∧ u.write then s.returns t (-EBUSY)
  else s.setPc t (.lockCas u current)

/-- `android_atomic_cmpxchg` of `gralloc_lock`. -/
def lockCas (u : Usage) (current : UInt32) : Buffer :=
  if s.lockState = current then
    { s with lockState := lockValue u current, held := ⟨t, u.write⟩ :: s.held }.setPc t
      (.lockOwner u current (lockValue u current))
  else s.setPc t (.lockRead u)

def lockOwner (u : Usage) (current new : UInt32) : Buffer :=
  { s with writeOwner := if isWrite new then t else s.writeOwner }.setPc t (.lockFlags u current)

/-- The flag for the flush, and whether the buffer has to be mapped. -/
def lockFlags (u : Usage) (current : UInt32) : Buffer :=
  let s := { s with needsFlush := s.needsFlush || (u.swWrite && !s.framebuffer) }
  if (u.swRead || u.swWrite) ∧ !isMapped current then s.setPc t .lockMutex else s.returns t 0

/-- `gralloc_map`, which returns `err`, if the buffer is still not mapped. -/
def lockMap (err : Int) : Buffer :=
  if isMapped s.lockState then s.setPc t (.lockDone 0)
  else if err = 0 then s.setPc t .lockOr
  else s.setPc t (.lockDone err)

/-- The test of `writeOwner` in the loop of `gralloc_unlock`. -/
def unlockOwner (current : UInt32) : Buffer :=
  let mine := isWrite current && s.writeOwner == t
  let s := { s with writeOwner := if mine then 0 else s.writeOwner }
  let new := if mine then current &&& ~~~LOCK_STATE_WRITE else current
  if readCount new = 0 then s.returns t (-EINVAL) else s.setPc t (.unlockCas current (new - 1))

/-- `android_atomic_cmpxchg` of `gralloc_unlock`. -/
def unlockCas (current new : UInt32) : Buffer :=
  if s.lockState = current then
    { s with lockState := new, held := s.held.eraseP (·.tid = t) }.returns t 0
  else s.setPc t .unlockRead

/-- The next access of a thread in a call; `err` is what `gralloc_map` returns. -/
def go (err : Int) : Option Buffer :=
  match s.pc t with
  | .idle => none
  | .lockRead u => some (s.lockRead t u)
  | .lockCas u current => some (s.lockCas t u current)
  | .lockOwner u current new => some (s.lockOwner t u current new)
  | .lockFlags u current => some (s.lockFlags t u current)
  | .lockMutex =>
    if s.sMapLock = none then some ({ s with sMapLock := some t }.setPc t .lockMap) else none
  | .lockMap => some (s.lockMap t err)
  | .lockOr =>
    some ({ s with lockState := s.lockState ||| LOCK_STATE_MAPPED }.setPc t (.lockDone 0))
  | .lockDone err => some ({ s with sMapLock := none }.returns t err)
  | .unlockFlush => some ({ s with needsFlush := false }.setPc t .unlockRead)
  | .unlockRead => some (s.setPc t (.unlockOwner s.lockState))
  | .unlockOwner current => some (s.unlockOwner t current)
  | .unlockCas current new => some (s.unlockCas t current new)

end Buffer

/-- What happens next. -/
inductive Label
  | lock (t : Nat) (u : Usage)
  | unlock (t : Nat)
  | go (t : Nat) (err : Int)

def step (s : Buffer) : Label → Option Buffer
  | .lock t u => if s.pc t = .idle then some (s.setPc t (.lockRead u)) else none
  | .unlock t => if s.pc t = .idle then some (s.setPc t .unlockFlush) else none
  | .go t err => s.go t err

/-- A thread unlocks only a lock it took, there are fewer than `2 ^ 30` outstanding locks, and
`gralloc_map` succeeds. -/
def Allowed (s : Buffer) : Label → Prop
  | .lock _ _ => True
  | .unlock t => ∃ l ∈ s.held, l.tid = t
  | .go t err => err = 0 ∧ ((s.pc t).taking = true → s.held.length + 1 < 2 ^ 30)

instance (s : Buffer) : (l : Label) → Decidable (Allowed s l)
  | .lock _ _ => inferInstanceAs (Decidable True)
  | .unlock t => inferInstanceAs (Decidable (∃ l ∈ s.held, l.tid = t))
  | .go _ err => inferInstanceAs (Decidable (err = 0 ∧ (_ = true → _ < _)))

end Twm.Gralloc.Mapper
