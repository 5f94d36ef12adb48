import DeviceTwm.Gralloc.PmemRollback

/-!
# `init_pmem_area`

* `sticky_iff`: a failure of `init_pmem_area` is final, and nothing is left of it, when `open` or
  `mmap` failed with an error other than `EPERM`. `-EPERM` is the marker of an allocator that has not
  been initialised yet (`MASTER_FD_INIT`), so that such an attempt is made again. And when only
  `getPmemTotalSize` failed, the device is mapped all the same, and its descriptor is lost as
  `master_fd` takes the error.
* `heapMatches_iff`: the heap is as large as the device says only if that is `masterSize`.
-/

namespace Twm.Gralloc.PmemDeps

open SimpleBestFitAllocator

variable {fatal : Bool} {s s' : Pmem} {d : Device} {err : Int}

def EPERM : Int := 1

/-! ## A failure is final -/

/-- No call on the allocator makes `init_pmem_area` try again: it returns `err` and calls nothing. -/
def Sticky (fatal : Bool) (s : Pmem) (err : Int) : Prop :=
  ∀ ops s', Lib.run (step fatal) s ops = some s' → ∀ d,
    (initPmemArea (pmemAllocMgr fatal) d s').1 = err ∧
    (initPmemArea (pmemAllocMgr fatal) d s').2.2 = []

/-- No descriptor and no mapping is left. -/
def NothingLeft (calls : List DepsCall) : Prop := openFds calls = [] ∧ mapped calls = []

/-- The failure is recorded where the descriptor would be. -/
def Failed (err : Int) (s : Pmem) : Prop := s.masterFd = err ∧ err < 0 ∧ err ≠ MASTER_FD_INIT

namespace Failed

theorem initPmemArea (h : Failed err s) (d : Device) :
    initPmemArea (pmemAllocMgr fatal) d s = (err, s, []) := by
  obtain ⟨hfd, hneg, hinit⟩ := h
  unfold PmemDeps.initPmemArea
  dsimp only
  rw [hfd, if_neg hinit, if_pos hneg]

theorem step {op : Op} (h : Failed err s) (hs : step fatal s op = some s') : Failed err s' := by
  have hafter : (after fatal s op).masterFd = s.masterFd := by
    cases op with
    | init d => simp only [after, h.initPmemArea]
    | alloc d usage size out =>
      simp only [after, allocPmemBuffer, h.initPmemArea]
      rw [if_neg (Int.ne_of_lt h.2.1)]
    | free unmapErr size offset fd =>
      simp only [after, freePmemBuffer]
      split
      · split <;> rfl
      · rfl
  unfold PmemDeps.step at hs
  dsimp only at hs
  split at hs
  · cases hs
  · cases hs
    exact ⟨hafter.trans h.1, h.2⟩

theorem sticky (h : Failed err s) : Sticky fatal s err := by
  intro ops s' hrun d
  have h' : Failed err s' := Lib.run_keeps (fun _ _ _ hi hst => hi.step hst) h hrun
  rw [h'.initPmemArea]
  exact ⟨rfl, rfl⟩

end Failed

/-- The first call of an allocator that is not initialised, and what it leaves behind. -/
theorem initPmemArea_first (fatal : Bool) (d : Device) (hs : s.masterFd = MASTER_FD_INIT) :
    let r := initPmemArea (pmemAllocMgr fatal) d s
    .openDev false d.masterOpen ∈ r.2.2 ∧
      (r.1 < 0 → r.2.1.masterFd = r.1 ∧
        ((d.masterOpen < 0 ∨ d.masterMmap = none) ∧ r.1 = -d.errno.val ∧ NothingLeft r.2.2 ∨
          (0 ≤ d.masterOpen ∧ d.masterMmap ≠ none) ∧ ¬ NothingLeft r.2.2)) := by
  have hpos := d.errno.pos
  have hne : -d.errno.val ≠ 0 := by omega
  simp only [initPmemArea, if_pos hs, initPmemAreaLocked]
  by_cases hfd : 0 ≤ d.masterOpen
  · rw [if_pos hfd]
    rcases hm : d.masterMmap with _ | base
    · simp only [ne_eq, hne, not_false_eq_true, ↓reduceIte]
      refine ⟨by simp, fun _ => ⟨trivial, .inl ⟨.inr trivial, trivial, ?_, ?_⟩⟩⟩
      · simp [openFds, hfd]
      · simp [mapped]
    · dsimp only
      split
      · refine ⟨by simp, fun _ => ⟨rfl, .inr ⟨⟨hfd, Option.some_ne_none _⟩, fun hn => ?_⟩⟩⟩
        simpa [mapped] using hn.2
      · rename_i hz
        refine ⟨by simp, fun hneg => ?_⟩
        exact absurd hneg (by simpa using Int.le_of_eq (not_not.mp hz).symm)
  · rw [if_neg hfd]
    simp only [ne_eq, hne, not_false_eq_true, ↓reduceIte]
    refine ⟨by simp, fun _ => ⟨trivial, .inl ⟨.inl (Int.not_le.mp hfd), trivial, ?_, ?_⟩⟩⟩
    · simp [openFds, hfd]
    · simp [mapped]

/-- **A failed initialisation is final.** After a call of `init_pmem_area` that returned an error, in
any state of the allocator: it is never tried again and has left nothing behind, if and only if it
was no first attempt, or its `open` or `mmap` failed, and not with `EPERM`. -/
theorem sticky_iff (fatal : Bool) (s : Pmem) (d : Device)
    (hneg : (initPmemArea (pmemAllocMgr fatal) d s).1 < 0) :
    (Sticky fatal (initPmemArea (pmemAllocMgr fatal) d s).2.1
        (initPmemArea (pmemAllocMgr fatal) d s).1 ∧
      NothingLeft (initPmemArea (pmemAllocMgr fatal) d s).2.2) ↔
    (s.masterFd = MASTER_FD_INIT →
      (d.masterOpen < 0 ∨ d.masterMmap = none) ∧ d.errno.val ≠ EPERM) := by
  by_cases hs : s.masterFd = MASTER_FD_INIT
  · obtain ⟨-, hfirst⟩ := initPmemArea_first fatal d hs
    obtain ⟨hfd, hcases⟩ := hfirst hneg
    generalize initPmemArea (pmemAllocMgr fatal) d s = r at *
    rcases hcases with ⟨hfail, herr, hleft⟩ | ⟨⟨hopen, hmap⟩, hleft⟩
    · constructor
      · rintro ⟨hsticky, -⟩ -
        refine ⟨hfail, fun heperm => ?_⟩
        -- The state is that of an allocator before its first call.
        have hinit : r.2.1.masterFd = MASTER_FD_INIT := by
          rw [hfd, herr, heperm]
          rfl
        have hopens := (initPmemArea_first fatal d hinit).1
        rw [(hsticky [] r.2.1 rfl d).2] at hopens
        cases hopens
      · intro h
        have hfailed : Failed r.1 r.2.1 := by
          refine ⟨hfd, hneg, fun he => (h hs).2 ?_⟩
          rw [herr] at he
          unfold MASTER_FD_INIT at he
          unfold EPERM
          omega
        exact ⟨hfailed.sticky, hleft⟩
    · refine iff_of_false (fun h => hleft h.2) fun h => ?_
      rcases (h hs).1 with hneg' | hnone
      · omega
      · exact hmap hnone
  · refine iff_of_true ?_ fun h => absurd h hs
    have hcall : initPmemArea (pmemAllocMgr fatal) d s = (s.masterFd, s, []) := by
      unfold initPmemArea at hneg ⊢
      dsimp only at hneg ⊢
      rw [if_neg hs] at hneg ⊢
      split at hneg
      · rename_i hlt
        rw [if_pos hlt]
      · exact absurd hneg (Int.lt_irrefl 0)
    rw [hcall] at hneg ⊢
    exact ⟨Failed.sticky ⟨rfl, hneg, hs⟩, rfl, rfl⟩

/-- `open` fails with `EACCES`. -/
theorem sticky_eacces : Sticky true
    (initPmemArea (pmemAllocMgr true)
      { answers with masterOpen := -1, errno := ⟨13, by decide⟩ } start).2.1 (-13) :=
  ((sticky_iff true start { answers with masterOpen := -1, errno := ⟨13, by decide⟩ }
    (by decide)).mpr (by decide)).1

/-- After `EPERM` the next call opens and maps the device; after a failed `getPmemTotalSize` its
descriptor and its mapping are left. -/
theorem failed_init_not_final :
    (∃ d : Device, (initPmemArea (pmemAllocMgr false) d start).1 = -1 ∧
      ¬ Sticky false (initPmemArea (pmemAllocMgr false) d start).2.1 (-1)) ∧
    ∃ d : Device, (initPmemArea (pmemAllocMgr false) d start).1 = -13 ∧
      openFds (initPmemArea (pmemAllocMgr false) d start).2.2 = [3] ∧
      mapped (initPmemArea (pmemAllocMgr false) d start).2.2 = [0x40000000] := by
  constructor
  · refine ⟨{ answers with masterOpen := -1, errno := ⟨1, by decide⟩ }, by decide, fun hsticky => ?_⟩
    have hsame := (hsticky [] _ rfl answers).2
    exact absurd (congrArg List.length hsame) (by decide)
  · exact ⟨{ answers with totalSize := -13 }, by decide, by decide, by decide⟩

/-! ## The heap and the device -/

/-- The sizes that are passed to `setSize` and to `mmap`. -/
def sizes (calls : List DepsCall) : List UInt32 :=
  calls.filterMap fun c =>
    match c with
    | .setSize size => some size
    | .mmap _ size _ => some size
    | _ => none

/-- The device that the call is for reports `total` bytes. -/
def Op.Reports (total : UInt32) : Op → Prop
  | .init d | .alloc d _ _ _ => d.totalSize = 0 ∧ d.total = total
  | .free _ _ _ _ => True

/-- The first call of `init_pmem_area` passes on what the device reports. -/
def PassedOn (total : UInt32) : Prop := ∀ (fatal : Bool) (s : Pmem) (d : Device),
  s.masterFd = MASTER_FD_INIT → 0 ≤ d.masterOpen → d.totalSize = 0 → d.total = total →
    sizes (initPmemArea (pmemAllocMgr fatal) d s).2.2 = [total, total]

/-- The ranges that `alloc_pmem_buffer` hands out lie inside the region of the device. -/
def Inside (total : UInt32) : Prop := ∀ (fatal : Bool) (ops : List Op) (s : Pmem),
  Lib.run (step fatal) start ops = some s → (∀ op ∈ ops, op.Sized ∧ op.Reports total) →
    ∀ d usage size out, (Op.alloc d usage size out).Sized → (Op.alloc d usage size out).Reports total →
      (allocPmemBuffer (pmemAllocMgr fatal) d s usage size out).1 = 0 →
      (allocPmemBuffer (pmemAllocMgr fatal) d s usage size out).2.1.offset.toNat + size.toNat ≤
        total.toNat

theorem sizes_first (hs : s.masterFd = MASTER_FD_INIT) (hfd : 0 ≤ d.masterOpen) :
    sizes (initPmemArea (pmemAllocMgr fatal) d s).2.2 =
      [PmemUserspaceAllocator.masterSize, PmemUserspaceAllocator.masterSize] := by
  have hcalls : (initPmemArea (pmemAllocMgr fatal) d s).2.2 =
      (initPmemAreaLocked (pmemAllocMgr fatal) d s).2.2 := by
    simp only [initPmemArea, if_pos hs]
    split <;> rfl
  rw [hcalls]
  simp only [initPmemAreaLocked, if_pos hfd]
  rcases hm : d.masterMmap with _ | base <;> simp [sizes, setupSize]

theorem passedOn_iff (total : UInt32) :
    PassedOn total ↔ total = PmemUserspaceAllocator.masterSize := by
  constructor
  · intro h
    have hopen : 0 ≤ answers.masterOpen := by decide
    have hsizes := h false start { answers with total := total } rfl hopen rfl rfl
    exact (List.cons.inj ((sizes_first rfl hopen).symm.trans hsizes)).1.symm
  · rintro rfl fatal s d hs hfd - -
    exact sizes_first hs hfd

/-- A range that is handed out lies in the heap. -/
theorem offset_le {size : UInt32} {usage : SwUsage} {out : Area} (h : Heap s)
    (hsome : s.allocator ≠ none) (hs : Rounds size)
    (hr : (allocRange (pmemAllocMgr fatal) d s usage size out).1 = 0) :
    (allocRange (pmemAllocMgr fatal) d s usage size out).2.1.offset.toNat + size.toNat ≤
      PmemUserspaceAllocator.masterSize.toNat := by
  obtain ⟨a, ha⟩ := Option.ne_none_iff_exists'.mp hsome
  unfold allocRange at hr ⊢
  rw [pmemAllocMgr_allocate ha] at hr ⊢
  dsimp only at hr ⊢
  have hpos := d.errno.pos
  split at hr
  · exact absurd hr (show -ENOMEM ≠ 0 by decide)
  · rename_i hoff
    rw [if_neg hoff]
    split at hr
    · dsimp only at hr
      omega
    · rename_i herr
      rw [if_neg herr]
      show (allocate .arm a size.toNat).1.toNat + size.toNat ≤ _
      rcases h a ha with rfl | ⟨ht, hh⟩
      · exact absurd (show -EINVAL < 0 by decide) hoff
      · by_cases h0 : size.toNat = 0
        · rw [h0, allocate, if_neg (by rw [hh]; decide), alloc, if_pos rfl]
          exact Nat.zero_le _
        · rw [← hh]
          refine (ht.reserved (by omega) ?_ (Int.not_lt.mp hoff)).2
          unfold Rounds at hs
          omega

theorem inside_of_le {total : UInt32} (h : PmemUserspaceAllocator.masterSize ≤ total) :
    Inside total := by
  intro fatal ops s hrun hops d usage size out hs _ hr
  have hheap : Heap (initPmemArea (pmemAllocMgr fatal) d s).2.1 :=
    (start_heap.run (fun op hop => (hops op hop).1) hrun).initPmemArea
  have hsome : (initPmemArea (pmemAllocMgr fatal) d s).2.1.allocator ≠ none :=
    allocator_initPmemArea (allocator_of_run (Option.some_ne_none _) hrun)
  refine Nat.le_trans ?_ (UInt32.le_iff_toNat_le.mp h)
  by_cases hinit : (initPmemArea (pmemAllocMgr fatal) d s).1 = 0
  · rw [allocPmemBuffer_eq _ _ _ hinit] at hr ⊢
    exact offset_le hheap hsome hs hr
  · unfold allocPmemBuffer at hr
    dsimp only at hr
    rw [if_neg hinit] at hr
    exact absurd hr hinit

/-- **The heap matches the device** that reports `total` bytes if and only if that is the size that
the code sets up: that size is passed on, and the ranges of all requests that round up are inside. -/
theorem heapMatches_iff (total : UInt32) :
    PassedOn total ∧ Inside total ↔ total = PmemUserspaceAllocator.masterSize := by
  constructor
  · exact fun h => (passedOn_iff total).mp h.1
  · rintro rfl
    exact ⟨(passedOn_iff _).mpr rfl, inside_of_le (UInt32.le_refl _)⟩

/-- Of a device of 16 MiB the heap is a half; of one of 4 MiB a buffer gets twice as much as there
is. -/
theorem heap_not_device :
    sizes (initPmemArea (pmemAllocMgr false) { answers with total := 0x1000000 } start).2.2 =
        [0x800000, 0x800000] ∧
      ¬ PassedOn 0x1000000 ∧ ¬ Inside 0x400000 := by
  refine ⟨by decide, ?_, fun hinside => ?_⟩
  · rw [passedOn_iff]
    decide
  · have hle := hinside false [] start rfl (by simp) { answers with total := 0x400000 } {} 0x800000 {}
      (show Rounds 0x800000 by decide) ⟨rfl, rfl⟩ (by decide +kernel)
    exact absurd hle (by decide +kernel)

end Twm.Gralloc.PmemDeps
