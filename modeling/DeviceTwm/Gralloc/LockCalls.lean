import DeviceTwm.Gralloc.Gpu

/-!
# Calls on one handle, one at a time (`libgralloc/mapper.cpp`)

`gralloc_lock`, `gralloc_unlock`, `gralloc_register_buffer` and `gralloc_unregister_buffer` on a
handle, each run to its end before the next. `valid` is what `private_handle_t::validate` finds, `tid`
is `gettid()`, and the answers of the kernel are an `Os`.

* `grallocLock_alone`, `grallocUnlock_alone`: a thread that runs alone takes the steps of
  `Gralloc/Mapper.lean` to the same end.
* `lockUnchanged_iff`: a lock that fails leaves the handle as it was, unless it fails to map the
  buffer: the count, the write bit, the owner and the flag for the flush were set before.
-/

namespace Twm.Gralloc

open Mapper

/-- `gralloc_map`; the buffer's new address is in the handle. -/
def grallocMap (os : Os) (hnd : PrivateHandle) : Int × PrivateHandle × List Call :=
  if hnd.flags.framebuffer then (0, hnd, [])
  else
    -- `PMEM_HACK`
    let offset := UInt32.ofInt hnd.offset
    match os.mmap with
    | none => (-os.errno.val, { hnd with base := 0 }, [])
    | some base => (0, { hnd with base := base + offset }, [.mmap base (hnd.size + offset)])

/-- What a call returns, the handle it leaves, and the calls it made. -/
structure Returned where
  err : Int
  handle : PrivateHandle
  calls : List Call := []
  /-- `*vaddr`, if it was set. -/
  vaddr : Option UInt32 := none

section

variable (B : Build) (os : Os) (valid : Bool) (tid : Nat) (u : Usage) (hnd : PrivateHandle)

/-- What `gralloc_lock` does to the handle once it has swapped the lock in. -/
def PrivateHandle.take : PrivateHandle :=
  let new := Buffer.lockValue u hnd.lockState
  { hnd with
    lockState := new
    -- locking for write, store the tid
    writeOwner := if isWrite new then tid else hnd.writeOwner
    flags := { hnd.flags with
      needsFlush := hnd.flags.needsFlush || (u.swWrite && !hnd.flags.framebuffer) } }

/-- The part of `gralloc_lock` under `sMapLock`. -/
def underMapLock : Returned :=
  if isMapped hnd.lockState then { err := 0, handle := hnd, vaddr := some hnd.base }
  else
    let (err, hnd, calls) := grallocMap os hnd
    let hnd := if err = 0 then { hnd with lockState := hnd.lockState ||| LOCK_STATE_MAPPED } else hnd
    { err := err, handle := hnd, calls := calls, vaddr := some hnd.base }

def grallocLock : Returned :=
  if valid = false then { err := -EINVAL, handle := hnd }
  else
    let current := hnd.lockState
    if isWrite current then { err := -EBUSY, handle := hnd }
    else if readCount current ≠ 0 ∧ u.write then { err := -EBUSY, handle := hnd }
    else
      let hnd := hnd.take tid u
      if u.swRead || u.swWrite then
        if isMapped current then { err := 0, handle := hnd, vaddr := some hnd.base }
        -- we need to map for real
        else underMapLock os hnd
      else { err := 0, handle := hnd }

def grallocUnlock : Returned :=
  if valid = false then { err := -EINVAL, handle := hnd }
  else
    let current := hnd.lockState
    let mine := isWrite current && hnd.writeOwner == tid
    let new := if mine then current &&& ~~~LOCK_STATE_WRITE else current
    -- the flush and the owner are gone also when the buffer is not locked
    let hnd := { hnd with
      flags := { hnd.flags with needsFlush := false }
      writeOwner := if mine then 0 else hnd.writeOwner }
    if readCount new = 0 then { err := -EINVAL, handle := hnd }
    else { err := 0, handle := { hnd with lockState := new - 1 } }

def grallocRegisterBuffer : Returned :=
  if valid = false then { err := -EINVAL, handle := hnd }
  -- if this handle was created in this process, then we keep it as is
  else if hnd.pid ≠ B.pid then
    { err := 0, handle := { hnd with base := 0, lockState := 0, writeOwner := 0 } }
  else { err := 0, handle := hnd }

def grallocUnregisterBuffer : Returned :=
  if valid = false then { err := -EINVAL, handle := hnd }
  -- never unmap buffers that were created in this process
  else if hnd.pid ≠ B.pid then
    let calls := if isMapped hnd.lockState then (grallocUnmap hnd).2 else []
    { err := 0, handle := { hnd with base := 0, lockState := 0, writeOwner := 0 }, calls := calls }
  else { err := 0, handle := hnd }

end

/-! ## The steps of a thread that runs alone -/

/-- The fields of the handle that the threads share. -/
structure Shows (s : Buffer) (hnd : PrivateHandle) : Prop where
  lockState : s.lockState = hnd.lockState
  writeOwner : s.writeOwner = hnd.writeOwner
  framebuffer : s.framebuffer = hnd.flags.framebuffer
  needsFlush : s.needsFlush = hnd.flags.needsFlush

/-- Thread `t` is back from its call, which returned `r`. -/
structure Back (s : Buffer) (t : Nat) (r : Returned) : Prop where
  shows_handle : Shows s r.handle
  pc : s.pc t = .idle
  ret : s.ret t = some r.err
  sMapLock : s.sMapLock = none

section

variable {s : Buffer} {t : Nat} {os : Os} {u : Usage} {hnd : PrivateHandle}

/-- Thread `t` goes on alone and comes back with `r`; `gralloc_map` returns `err`. -/
def Ends (s : Buffer) (t : Nat) (err : Int) (r : Returned) : Prop :=
  ∃ n s', Lib.run step s (List.replicate n (.go t err)) = some s' ∧ Back s' t r

theorem Back.ends {r : Returned} {err : Int} (h : Back s t r) : Ends s t err r := ⟨0, s, rfl, h⟩

/-- One access, and the rest. -/
theorem Ends.go (s₁ : Buffer) {err : Int} {r : Returned} (hgo : s.go t err = some s₁)
    (h : Ends s₁ t err r) : Ends s t err r := by
  obtain ⟨n, s', hrun, hback⟩ := h
  refine ⟨n + 1, s', ?_, hback⟩
  rw [List.replicate_succ, Lib.run, step, hgo]
  exact hrun

/-- A call, and what the thread does alone then. -/
theorem Ends.call (s₁ : Buffer) {l : Label} {err : Int} {r : Returned} (hcall : step s l = some s₁)
    (h : Ends s₁ t err r) : ∃ n s', Lib.run step s (l :: List.replicate n (.go t err)) = some s' ∧
      Back s' t r := by
  obtain ⟨n, s', hrun, hback⟩ := h
  refine ⟨n, s', ?_, hback⟩
  rw [Lib.run, hcall]
  exact hrun

/-- A thread that is done returns what it came back with. -/
theorem back_returns {r : Returned} (hlock : s.sMapLock = none) (h : Shows s r.handle) :
    Back (s.returns t r.err) t r where
  shows_handle := ⟨h.lockState, h.writeOwner, h.framebuffer, h.needsFlush⟩
  pc := Function.update_self ..
  ret := Function.update_self ..
  sMapLock := hlock

/-- The end of `gralloc_lock`, from the release of `sMapLock` on. -/
theorem ends_lockDone {r : Returned} {err : Int} (hpc : s.pc t = .lockDone r.err)
    (h : Shows s r.handle) : Ends s t err r := by
  have hgo : s.go t err = some ({ s with sMapLock := none }.returns t r.err) := by
    simp [Buffer.go, hpc]
  refine .go _ hgo (Back.ends ?_)
  exact back_returns rfl ⟨h.lockState, h.writeOwner, h.framebuffer, h.needsFlush⟩

/-- `gralloc_map` changes the address only. -/
theorem grallocMap_keeps (os : Os) (hnd : PrivateHandle) :
    (grallocMap os hnd).2.1.lockState = hnd.lockState ∧
    (grallocMap os hnd).2.1.writeOwner = hnd.writeOwner ∧
    (grallocMap os hnd).2.1.flags = hnd.flags := by
  unfold grallocMap
  split
  · exact ⟨rfl, rfl, rfl⟩
  · cases os.mmap <;> exact ⟨rfl, rfl, rfl⟩

theorem grallocMap_take (os : Os) (u : Usage) (hnd : PrivateHandle) (tid : Nat) :
    (grallocMap os (hnd.take tid u)).1 = (grallocMap os hnd).1 := by
  unfold grallocMap PrivateHandle.take
  dsimp only
  split
  · rfl
  · cases os.mmap <;> rfl

/-- Under `sMapLock`, the buffer is mapped if it still is not. -/
theorem ends_lockMutex (hpc : s.pc t = .lockMutex) (hlock : s.sMapLock = none) (h : Shows s hnd) :
    Ends s t (grallocMap os hnd).1 (underMapLock os hnd) := by
  obtain ⟨hstate, howner, hfb, hflush⟩ := h
  obtain ⟨hstate', howner', hflags'⟩ := grallocMap_keeps os hnd
  have hmutex : s.go t (grallocMap os hnd).1 =
      some ({ s with sMapLock := some t }.setPc t .lockMap) := by
    simp [Buffer.go, hpc, hlock]
  refine .go _ hmutex ?_
  unfold underMapLock
  by_cases hm : isMapped hnd.lockState = true
  · rw [if_pos hm]
    refine .go ({ s with sMapLock := some t }.setPc t (.lockDone 0)) ?_ ?_
    · simp [Buffer.go, Buffer.setPc, Buffer.lockMap, hstate, hm]
    · exact ends_lockDone (Function.update_self ..) ⟨hstate, howner, hfb, hflush⟩
  · rw [if_neg hm]
    by_cases herr : (grallocMap os hnd).1 = 0
    · simp only [if_pos herr]
      refine .go ({ s with sMapLock := some t }.setPc t .lockOr) ?_ (.go ({ s with
        sMapLock := some t, lockState := s.lockState ||| LOCK_STATE_MAPPED }.setPc t (.lockDone 0))
        ?_ ?_)
      · simp [Buffer.go, Buffer.setPc, Buffer.lockMap, hstate, hm, herr]
      · simp [Buffer.go, Buffer.setPc]
      · refine ends_lockDone (by simp [Buffer.setPc, herr]) ?_
        exact ⟨by rw [hstate']; exact congrArg (· ||| LOCK_STATE_MAPPED) hstate,
          howner.trans howner'.symm, by rw [hflags']; exact hfb, by rw [hflags']; exact hflush⟩
    · simp only [if_neg herr]
      refine .go ({ s with sMapLock := some t }.setPc t (.lockDone (grallocMap os hnd).1))
        ?_ ?_
      · simp [Buffer.go, Buffer.setPc, Buffer.lockMap, hstate, hm, herr]
      · refine ends_lockDone (Function.update_self ..) ?_
        exact ⟨hstate.trans hstate'.symm, howner.trans howner'.symm, by rw [hflags']; exact hfb,
          by rw [hflags']; exact hflush⟩

/-- From the flag for the flush on; the lock is taken. -/
theorem ends_lockFlags {current : UInt32} (hpc : s.pc t = .lockFlags u current)
    (hlock : s.sMapLock = none) (hstate : s.lockState = hnd.lockState)
    (howner : s.writeOwner = hnd.writeOwner) (hfb : s.framebuffer = hnd.flags.framebuffer)
    (hflush : (s.needsFlush || (u.swWrite && !s.framebuffer)) = hnd.flags.needsFlush) :
    Ends s t (grallocMap os hnd).1 (if u.swRead || u.swWrite then
        if isMapped current then { err := 0, handle := hnd, vaddr := some hnd.base }
        else underMapLock os hnd
      else { err := 0, handle := hnd }) := by
  have hgo : s.go t (grallocMap os hnd).1 = some (s.lockFlags t u current) := by
    simp [Buffer.go, hpc]
  have hback (v : Option UInt32) : Back (Buffer.returns { s with
      needsFlush := s.needsFlush || (u.swWrite && !s.framebuffer) } t 0) t ⟨0, hnd, [], v⟩ :=
    back_returns (r := ⟨0, hnd, [], v⟩) hlock ⟨hstate, howner, hfb, hflush⟩
  refine .go _ hgo ?_
  unfold Buffer.lockFlags
  by_cases hsw : (u.swRead || u.swWrite) = true
  · by_cases hm : isMapped current = true
    · rw [if_pos hsw, if_pos hm, if_neg (by simp [hm])]
      exact (hback _).ends
    · rw [if_pos hsw, if_neg hm, if_pos (by simp [hsw, hm])]
      exact ends_lockMutex (Function.update_self ..) hlock ⟨hstate, howner, hfb, hflush⟩
  · rw [if_neg hsw, if_neg (by simp [hsw])]
    exact (hback _).ends

theorem grallocLock_alone (hpc : s.pc t = .idle) (hlock : s.sMapLock = none) (h : Shows s hnd) :
    ∃ n s', Lib.run step s (.lock t u :: List.replicate n (.go t (grallocMap os hnd).1)) = some s' ∧
      Back s' t (grallocLock os true t u hnd) := by
  refine Ends.call (s.setPc t (.lockRead u)) (if_pos hpc) ?_
  obtain ⟨hstate, howner, hfb, hflush⟩ := h
  have hread : (s.setPc t (.lockRead u)).go t (grallocMap os hnd).1 =
      some ((s.setPc t (.lockRead u)).lockRead t u) := by
    simp [Buffer.go, Buffer.setPc]
  have hbusy : Shows (s.setPc t (.lockRead u)) hnd := ⟨hstate, howner, hfb, hflush⟩
  have hcurrent : (s.setPc t (.lockRead u)).lockState = hnd.lockState := hstate
  refine .go _ hread ?_
  unfold grallocLock Buffer.lockRead
  simp only [hcurrent, Bool.true_eq_false, if_false]
  split
  · exact (back_returns (s := s.setPc t (.lockRead u)) (r := ⟨-EBUSY, hnd, [], _⟩) hlock hbusy).ends
  · split
    · exact (back_returns (s := s.setPc t (.lockRead u)) (r := ⟨-EBUSY, hnd, [], _⟩) hlock hbusy).ends
    · -- The swap succeeds, as nobody else is there.
      refine .go (((s.setPc t (.lockRead u)).setPc t (.lockCas u hnd.lockState)).lockCas t u
        hnd.lockState) (by simp [Buffer.go, Buffer.setPc]) ?_
      unfold Buffer.lockCas
      rw [if_pos (show ((s.setPc t _).setPc t _).lockState = hnd.lockState from hstate)]
      refine .go ({ s with
        lockState := Buffer.lockValue u hnd.lockState, held := ⟨t, u.write⟩ :: s.held
        writeOwner := if isWrite (Buffer.lockValue u hnd.lockState) then t else s.writeOwner
        }.setPc t (.lockFlags u hnd.lockState)) ?_ ?_
      · simp [Buffer.go, Buffer.setPc, Buffer.lockOwner]
      · rw [← grallocMap_take os u hnd t]
        refine ends_lockFlags (Function.update_self ..) hlock rfl ?_ hfb ?_
        · simp [Buffer.setPc, PrivateHandle.take, howner]
        · simp [Buffer.setPc, PrivateHandle.take, hflush, hfb]

theorem grallocUnlock_alone (err : Int) (hpc : s.pc t = .idle) (hlock : s.sMapLock = none)
    (h : Shows s hnd) : ∃ n s', Lib.run step s (.unlock t :: List.replicate n (.go t err)) = some s' ∧
      Back s' t (grallocUnlock true t hnd) := by
  refine Ends.call (s.setPc t .unlockFlush) (if_pos hpc) ?_
  obtain ⟨hstate, howner, hfb, hflush⟩ := h
  refine .go ({ s with needsFlush := false }.setPc t .unlockRead) ?_ (.go (
    { s with needsFlush := false }.setPc t (.unlockOwner hnd.lockState)) ?_ ?_)
  · simp [Buffer.go, Buffer.setPc]
  · simp [Buffer.go, Buffer.setPc, hstate]
  refine .go (({ s with needsFlush := false }.setPc t (.unlockOwner hnd.lockState)).unlockOwner t
    hnd.lockState) (by simp [Buffer.go, Buffer.setPc]) ?_
  unfold grallocUnlock Buffer.unlockOwner
  simp only [Bool.true_eq_false, if_false, Buffer.setPc, howner]
  generalize hmine : (isWrite hnd.lockState && hnd.writeOwner == t) = mine
  generalize hnew : (if mine = true then hnd.lockState &&& ~~~LOCK_STATE_WRITE else hnd.lockState) = new
  split
  · have hback := back_returns (t := t) (s := { s with
      needsFlush := false, writeOwner := if mine = true then 0 else hnd.writeOwner
      pc := Function.update s.pc t (.unlockOwner hnd.lockState) }) (r := ⟨-EINVAL, { hnd with
      flags := { hnd.flags with needsFlush := false }
      writeOwner := if mine = true then 0 else hnd.writeOwner }, [], none⟩) hlock
      ⟨hstate, rfl, hfb, rfl⟩
    exact hback.ends
  · have hback := back_returns (t := t) (s := { s with
      needsFlush := false, writeOwner := if mine = true then 0 else hnd.writeOwner
      lockState := new - 1, held := s.held.eraseP (·.tid = t)
      pc := Function.update s.pc t (.unlockCas hnd.lockState (new - 1)) }) (r := ⟨0, { hnd with
      flags := { hnd.flags with needsFlush := false }
      writeOwner := if mine = true then 0 else hnd.writeOwner, lockState := new - 1 }, [], none⟩)
      hlock ⟨rfl, rfl, hfb, rfl⟩
    exact .go _ (by simp [Buffer.go, Buffer.unlockCas, hstate]) hback.ends

end

/-! ## A lock that fails -/

section

variable (os : Os) (valid : Bool) (tid : Nat) (u : Usage) (hnd : PrivateHandle)

/-- A lock that fails leaves the lock word, the owner and the flags as they were. -/
def LockUnchanged : Prop :=
  let r := grallocLock os valid tid u hnd
  r.err ≠ 0 → r.handle.lockState = hnd.lockState ∧ r.handle.writeOwner = hnd.writeOwner ∧
    r.handle.flags = hnd.flags

/-- The lock can be taken, as far as the other locks go. -/
def Lockable : Prop :=
  isWrite hnd.lockState = false ∧ (readCount hnd.lockState = 0 ∨ u.write = false)

/-- The lock is taken for the CPU, the buffer is mapped on demand, and `mmap` fails. The count is not
the last one, from which it would spill over into `LOCK_STATE_MAPPED`. -/
def MapFails : Prop :=
  valid = true ∧ Lockable u hnd ∧ (u.swRead || u.swWrite) = true ∧
    isMapped hnd.lockState = false ∧ readCount hnd.lockState + 1 < 2 ^ 30 ∧
    hnd.flags.framebuffer = false ∧ os.mmap = none

instance : Decidable (Lockable u hnd) := inferInstanceAs (Decidable (_ ∧ _))

instance : Decidable (MapFails os valid u hnd) := inferInstanceAs (Decidable (_ ∧ _))

variable {os valid tid u hnd}

/-- A lock that is taken adds one to the count, and keeps the other bits but for its own. -/
theorem says_lockValue (h : Lockable u hnd) (hn : readCount hnd.lockState + 1 < 2 ^ 30) :
    Says (Buffer.lockValue u hnd.lockState) u.write (isMapped hnd.lockState)
      (readCount hnd.lockState + 1) := by
  have hsays : Says hnd.lockState false (isMapped hnd.lockState) (readCount hnd.lockState) :=
    ⟨h.1, rfl, rfl⟩
  unfold Buffer.lockValue
  cases hu : u.write with
  | false => exact hsays.succ hn
  | true => exact hsays.setWrite.succ hn

/-- From the last count, the next lock sets `LOCK_STATE_MAPPED`. -/
theorem lockValue_spills (h : Lockable u hnd) (hm : isMapped hnd.lockState = false)
    (hn : readCount hnd.lockState + 1 = 2 ^ 30) :
    isMapped (Buffer.lockValue u hnd.lockState) = true := by
  have hu : u.write = false := h.2.resolve_left (by omega)
  have hsays : Says hnd.lockState false false (readCount hnd.lockState) := ⟨h.1, hm, rfl⟩
  have hword := (Says.iff_toNat.mp hsays).2
  have hnext : Says (hnd.lockState + 1) false true 0 := by
    refine Says.iff_toNat.mpr ⟨by decide, ?_⟩
    rw [UInt32.toNat_add, hword]
    simp only [Bool.false_eq_true, if_false, if_true, UInt32.reduceToNat]
    omega
  rw [Buffer.lockValue, hu]
  exact hnext.mapped

theorem readCount_lt (w : UInt32) : readCount w < 2 ^ 30 := by
  rw [readCount_eq]
  exact Nat.mod_lt _ (by decide)

/-- A lock that is not refused at once fails in `gralloc_map` only. -/
theorem grallocLock_lockable (hv : valid = true) (h : Lockable u hnd) :
    grallocLock os valid tid u hnd =
      if (u.swRead || u.swWrite) = true ∧ isMapped hnd.lockState = false then
        underMapLock os (hnd.take tid u)
      else
        { err := 0, handle := hnd.take tid u
          vaddr := if u.swRead || u.swWrite then some hnd.base else none } := by
  have hw : ¬ isWrite hnd.lockState = true := by simp [h.1]
  have hr : ¬ (readCount hnd.lockState ≠ 0 ∧ u.write = true) := by
    rintro ⟨hc, hu⟩
    rcases h.2 with h0 | h0
    · exact hc h0
    · rw [hu] at h0
      cases h0
  unfold grallocLock
  simp only [hv, if_neg hw, if_neg hr, Bool.true_eq_false, if_false]
  by_cases hsw : (u.swRead || u.swWrite) = true
  · by_cases hm : isMapped hnd.lockState = true
    · simp [hsw, hm, PrivateHandle.take]
    · simp [hsw, hm]
  · simp [hsw]

/-- A lock that is refused changes nothing. -/
theorem grallocLock_refused (os : Os) (tid : Nat) (h : ¬ (valid = true ∧ Lockable u hnd)) :
    ∃ e, e ≠ 0 ∧ grallocLock os valid tid u hnd = { err := e, handle := hnd } := by
  unfold grallocLock
  by_cases hv : valid = false
  · exact ⟨-EINVAL, by decide, if_pos hv⟩
  · rw [Bool.not_eq_false] at hv
    simp only [hv, Bool.true_eq_false, if_false]
    by_cases hw : isWrite hnd.lockState = true
    · exact ⟨-EBUSY, by decide, if_pos hw⟩
    · by_cases hr : readCount hnd.lockState ≠ 0 ∧ u.write = true
      · exact ⟨-EBUSY, by decide, by rw [if_neg hw, if_pos hr]⟩
      · refine absurd ⟨hv, by simpa using hw, ?_⟩ h
        by_cases hc : readCount hnd.lockState = 0
        · exact .inl hc
        · exact .inr (by simpa [hc] using hr)

/-- A lock that fails leaves the handle as it was, just when it does not fail in `gralloc_map`. -/
theorem lockUnchanged_iff (os : Os) (valid : Bool) (tid : Nat) (u : Usage) (hnd : PrivateHandle) :
    LockUnchanged os valid tid u hnd ↔ ¬ MapFails os valid u hnd := by
  constructor
  · rintro h ⟨hv, hlock, hsw, hm, hn, hfb, hmmap⟩
    have hsays := says_lockValue hlock hn
    have herr := os.errno.pos
    have hword : ¬ isMapped (hnd.take tid u).lockState = true := by
      rw [show (hnd.take tid u).lockState = Buffer.lockValue u hnd.lockState from rfl, hsays.mapped, hm]
      decide
    have hr : grallocLock os valid tid u hnd =
        ⟨-os.errno.val, { hnd.take tid u with base := 0 }, [], some 0⟩ := by
      rw [grallocLock_lockable hv hlock, if_pos ⟨hsw, hm⟩]
      unfold underMapLock
      rw [if_neg hword]
      simp [grallocMap, PrivateHandle.take, hfb, hmmap, show os.errno.val ≠ 0 by omega]
    obtain ⟨hstate, -⟩ := h (by rw [hr]; simp only; omega)
    rw [hr] at hstate
    have hcount := hsays.count
    rw [show Buffer.lockValue u hnd.lockState = hnd.lockState from hstate] at hcount
    omega
  · intro h herr
    by_cases hlock : valid = true ∧ Lockable u hnd
    · obtain ⟨hv, hlock⟩ := hlock
      refine absurd ?_ herr
      rw [grallocLock_lockable hv hlock]
      split
      · rename_i hsw
        unfold underMapLock
        by_cases hword : isMapped (hnd.take tid u).lockState = true
        · rw [if_pos hword]
        · rw [if_neg hword]
          have hn : readCount hnd.lockState + 1 < 2 ^ 30 := by
            by_contra hlast
            have hlt := readCount_lt hnd.lockState
            exact hword (lockValue_spills hlock hsw.2 (by omega))
          show (grallocMap os (hnd.take tid u)).1 = 0
          rw [grallocMap_take]
          cases hfb : hnd.flags.framebuffer with
          | true => simp [grallocMap, hfb]
          | false =>
            obtain ⟨base, hbase⟩ := Option.ne_none_iff_exists'.mp fun hmmap =>
              h ⟨hv, hlock, hsw.1, hsw.2, hn, hfb, hmmap⟩
            simp [grallocMap, hfb, hbase]
      · rfl
    · obtain ⟨e, -, heq⟩ := grallocLock_refused os tid hlock
      rw [heq]
      exact ⟨rfl, rfl, rfl⟩

/-- A kernel that maps nothing. -/
def mapsNothing : Os where
  masterOpen := -1
  totalSize := 0
  masterMmap := none
  openDev := -1
  connectPmem := -1
  mapPmem := -1
  mmap := none
  ashmem := -1
  setProt := -1
  errno := .noMemory
  masterMmap_ne := none_ne_null
  mmap_ne := none_ne_null

/-- A buffer that another process sent, and that has just been registered. -/
def received : PrivateHandle :=
  { fd := 7, flags := { usesAshmem := true }, size := 4096, pid := 2 }

/-- A write lock of a buffer that could not be mapped stays with the buffer. -/
theorem failed_lock_stays : ¬ LockUnchanged mapsNothing true 5 ⟨false, true, false⟩ received := by
  intro h
  exact absurd (h (by decide)).1 (by decide)

end

end Twm.Gralloc
