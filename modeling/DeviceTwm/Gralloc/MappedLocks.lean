import DeviceTwm.Gralloc.LiveMappings

/-!
# Locks of mapped buffers over whole runs

What the calls of `Gralloc/LiveMappings.lean` keep (`Inv`): no two mappings overlap, the pmem heap is
mapped while it can be used, and every handle is where its mapping is. A call on one buffer unmaps
nothing but the mapping of that buffer.

* `Inv.step`: every call keeps it.
* `mapped_means_mapped`: so do runs, and every lock for the CPU that succeeds returns where the buffer
  is mapped.
* `fallback_locks_null`: a buffer that fell back to ashmem is marked as mapped, and locks to the null
  address.
-/

namespace Twm.Gralloc.LiveMappings

open Mapper Lib

section

variable {B : Build} {fatal : Bool} {maps : List (Range Source)} {k : Nat} {src : Source}
  {hnd : PrivateHandle} {calls : List Call}

/-! ## What the calls on a buffer unmap -/

/-- A range that no call touches stays. -/
theorem mem_afterCalls {y : Range Source} (hy : y ∈ maps)
    (h : ∀ b n, .munmap b n ∈ calls → y.Clear b.toNat n.toNat) : y ∈ afterCalls src maps calls := by
  induction calls generalizing maps with
  | nil => exact hy
  | cons c calls ih =>
    refine ih ?_ fun b n hc => h b n (List.mem_cons_of_mem _ hc)
    cases c with
    | mmap b n => exact List.mem_cons_of_mem _ hy
    | munmap b n => exact List.mem_filter.mpr ⟨hy, decide_eq_true (h b n List.mem_cons_self)⟩

/-- The call unmaps a part of the mapping that was made for the buffer. -/
def Unmaps (maps : List (Range Source)) (k : Nat) : Call → Prop
  | .mmap _ _ => False
  | .munmap b n => ∃ x ∈ maps, x.owner = .buffer k ∧ x.start ≤ b.toNat ∧
    b.toNat + n.toNat ≤ x.start + x.size

theorem Unmaps.kept (hr : Ranges (2 ^ 32) maps) (h : ∀ c ∈ calls, Unmaps maps k c) {y : Range Source}
    (hy : y ∈ maps) (howner : y.owner ≠ .buffer k) : y ∈ afterCalls src maps calls := by
  refine mem_afterCalls hy fun b n hc => ?_
  obtain ⟨x, hx, hxo, hb, hn⟩ := h _ hc
  have hne : y ≠ x := by
    rintro rfl
    exact howner hxo
  exact (hr.clear_of_ne hx hy hne).part hb hn

theorem ranges_afterCalls (hr : Ranges (2 ^ 32) maps) (h : ∀ c ∈ calls, ∃ b n, c = .munmap b n) :
    Ranges (2 ^ 32) (afterCalls src maps calls) := by
  induction calls generalizing maps with
  | nil => exact hr
  | cons c calls ih =>
    obtain ⟨b, n, rfl⟩ := h c List.mem_cons_self
    exact ih (hr.vacate _ _) fun c hc => h c (List.mem_cons_of_mem _ hc)

theorem Unmaps.munmap {c : Call} (h : Unmaps maps k c) : ∃ b n, c = .munmap b n := by
  cases c with
  | mmap b n => exact h.elim
  | munmap b n => exact ⟨b, n, rfl⟩

/-- `gralloc_unmap` unmaps the mapping of the buffer from its start on. -/
theorem unmaps_grallocUnmap (hr : Ranges (2 ^ 32) maps) (h : MappedAt B maps k hnd hnd.base)
    (hsource : source B k hnd = .buffer k) : ∀ c ∈ (grallocUnmap hnd).2, Unmaps maps k c := by
  obtain ⟨x, hx, howner, hoff, haddr, hin⟩ := h
  have hbound := hr.bounds x hx
  have hoffset := toNat_ofInt hnd.offset
  rw [Int.emod_eq_of_lt hoff (by omega)] at hoffset
  intro c hc
  unfold grallocUnmap at hc
  dsimp only at hc
  split at hc
  · exact absurd hc List.not_mem_nil
  · rw [List.mem_singleton] at hc
    subst hc
    refine ⟨x, hx, howner.trans hsource, ?_, ?_⟩
    · rw [UInt32.toNat_sub]
      omega
    · rw [UInt32.toNat_sub, UInt32.toNat_add]
      omega

theorem terminateBuffer_subset : ∀ c ∈ (terminateBuffer B hnd).2, c ∈ (grallocUnmap hnd).2 := by
  intro c hc
  unfold terminateBuffer at hc
  split at hc
  · split at hc
    · split at hc
      · exact hc
      · exact absurd hc List.not_mem_nil
    · exact hc
  · exact absurd hc List.not_mem_nil

/-- To free a buffer that was allocated here unmaps its own mapping only. -/
theorem unmaps_freeImpl {A : SubAllocator (Option SimpleBestFitAllocator)}
    {m : Module (Option SimpleBestFitAllocator)} {e : Int} (hr : Ranges (2 ^ 32) maps)
    (h : HandleOk B maps k hnd) (hpid : hnd.pid = B.pid) :
    ∀ c ∈ (freeImpl A B m e hnd).2, Unmaps maps k c := by
  have hmapped := h.mapped (.inl hpid)
  have hno : ¬ hnd.flags.framebuffer = true := by simp [h.plain]
  by_cases hp : hnd.flags.usesPmem = true
  · rw [freeImpl_pmem A B m e h.plain hp hpid]
    exact fun c hc => absurd hc List.not_mem_nil
  · have hsource : source B k hnd = .buffer k := if_neg fun hs => hp hs.1
    have hterm : ∀ c ∈ (terminateBuffer B hnd).2, Unmaps maps k c := fun c hc =>
      unmaps_grallocUnmap hr hmapped hsource c (terminateBuffer_subset c hc)
    obtain ⟨x, hx, howner, hoff, haddr, hin⟩ := hmapped
    have hwhole : Unmaps maps k (.munmap hnd.base hnd.size) :=
      ⟨x, hx, howner.trans hsource, by omega, by omega⟩
    intro c hc
    unfold freeImpl at hc
    simp only [if_neg hno, if_neg hp] at hc
    by_cases ha : hnd.flags.usesPmemAdsp = true
    · simp only [if_pos ha, PmemKernelAllocator.freePmemBuffer, List.mem_append,
        List.mem_singleton] at hc
      rcases hc with rfl | hc
      · obtain ⟨z, hz, hzo, hstart, hspan⟩ := h.adsp hpid (by simpa using hp) ha
        exact ⟨z, hz, hzo, by omega, by omega⟩
      · exact hterm c hc
    · simp only [if_neg ha] at hc
      by_cases has : hnd.flags.usesAshmem = true
      · simp only [if_pos has, List.mem_append] at hc
        rcases hc with hc | hc
        · split at hc
          · rw [List.mem_singleton] at hc
            rw [hc]
            exact hwhole
          · exact absurd hc List.not_mem_nil
        · exact hterm c hc
      · simp only [if_neg has] at hc
        exact hterm c hc

theorem freeImpl_module (fatal : Bool) (B : Build) (hnd : PrivateHandle)
    {m : Module (Option SimpleBestFitAllocator)} (e : Int)
    (h : PmemDeps.Heap m.pmem) (hmaster : MasterMapped m.pmem maps) :
    PmemDeps.Heap (freeImpl (pmemAllocMgr fatal) B m e hnd).1.pmem ∧
      MasterMapped (freeImpl (pmemAllocMgr fatal) B m e hnd).1.pmem maps := by
  unfold freeImpl
  dsimp only
  split
  · exact ⟨h, hmaster⟩
  · split
    · unfold PmemUserspaceAllocator.freePmemBuffer
      dsimp only
      split
      · exact ⟨h.deallocate fatal _, hmaster⟩
      · exact ⟨h, hmaster⟩
    · split
      · exact ⟨h, hmaster⟩
      · split <;> exact ⟨h, hmaster⟩

/-! ## What a call keeps -/

/-- No two mappings overlap, the heap is in order, and every handle is where its mapping is. -/
structure Inv (B : Build) (p : Process) : Prop where
  ranges : Ranges (2 ^ 32) p.maps
  heap : PmemDeps.Heap p.module.pmem
  master : MasterMapped p.module.pmem p.maps
  handle : ∀ k hnd, p.handle k = some hnd → HandleOk B p.maps k hnd

theorem start_inv : Inv B start where
  ranges := .nil
  heap := PmemDeps.start_heap
  master := fun h => absurd h (by decide)
  handle := fun k hnd h => absurd h (by simp [start])

variable {p : Process}

/-- The mappings of the other buffers, and of the heap. -/
theorem source_ne {k' : Nat} {hnd' : PrivateHandle} (hk : k' ≠ k) : source B k' hnd' ≠ .buffer k := by
  unfold source
  split
  · exact Source.noConfusion
  · intro h
    injection h with h
    exact hk h

/-- A call on one buffer that keeps the mappings of everything else. -/
theorem Inv.returned {r : Returned} (h : Inv B p)
    (hranges : Ranges (2 ^ 32) (afterCalls (.buffer k) p.maps r.calls))
    (hkept : ∀ y ∈ p.maps, y.owner ≠ .buffer k → y ∈ afterCalls (.buffer k) p.maps r.calls)
    (hhandle : HandleOk B (afterCalls (.buffer k) p.maps r.calls) k r.handle) :
    Inv B (p.returned k r) where
  ranges := hranges
  heap := h.heap
  master := fun hfd => hkept _ (h.master hfd) Source.noConfusion
  handle := by
    intro k' hnd' hk'
    by_cases hk : k' = k
    · subst hk
      simp only [Process.returned, Function.update_self, Option.some.injEq] at hk'
      rw [← hk']
      exact hhandle
    · simp only [Process.returned, Function.update_of_ne hk] at hk'
      exact (h.handle k' hnd' hk').mono fun x hx hxo => hkept x hx (by rw [hxo]; exact source_ne hk)

/-- A call that makes no call to the kernel. -/
theorem Inv.returned_nil {r : Returned} (h : Inv B p) (hcalls : r.calls = [])
    (hhandle : HandleOk B p.maps k r.handle) : Inv B (p.returned k r) := by
  refine h.returned ?_ ?_ ?_
  · rw [hcalls]
    exact h.ranges
  · rw [hcalls]
    exact fun y hy _ => hy
  · rw [hcalls]
    exact hhandle

/-! ## A lock -/

variable {os : Os} {tid : Nat} {u : Usage}

/-- Only the mark counts. -/
theorem HandleOk.relock (h : HandleOk B maps k hnd) {w : UInt32} {owner : Nat} {flush : Bool}
    (hown : hnd.pid = B.pid → isMapped w = true ∨ w = LOCK_STATE_WRITE)
    (hmark : hnd.pid ≠ B.pid → isMapped w = true → isMapped hnd.lockState = true) :
    HandleOk B maps k { hnd with
      lockState := w, writeOwner := owner, flags := { hnd.flags with needsFlush := flush } } where
  plain := h.plain
  own := hown
  mapped := by
    intro hm
    by_cases hpid : hnd.pid = B.pid
    · exact h.mapped (.inl hpid)
    · exact h.mapped (.inr (hmark hpid (hm.resolve_left hpid)))
  received := h.received
  adsp := h.adsp

/-- A lock keeps the mark, but for the last one that the count has room for. -/
theorem lockValue_own (h : Lockable u hnd) (hm : isMapped hnd.lockState = true) :
    isMapped (Buffer.lockValue u hnd.lockState) = true ∨
      Buffer.lockValue u hnd.lockState = LOCK_STATE_WRITE := by
  by_cases hn : readCount hnd.lockState + 1 < 2 ^ 30
  · left
    rw [(says_lockValue h hn).mapped, hm]
  · right
    have hlt := readCount_lt hnd.lockState
    have hu : u.write = false := h.2.resolve_left (by omega)
    have hsays : Says hnd.lockState false true (readCount hnd.lockState) := ⟨h.1, hm, rfl⟩
    have hword := (Says.iff_toNat.mp hsays).2
    apply UInt32.toNat_inj.mp
    rw [Buffer.lockValue, hu, show LOCK_STATE_WRITE.toNat = 2 ^ 31 from rfl]
    simp only [Bool.false_eq_true, if_false, if_true] at hword ⊢
    rw [UInt32.toNat_add, hword]
    simp only [UInt32.reduceToNat]
    omega

/-- What a lock leaves. -/
structure LockOk (B : Build) (maps : List (Range Source)) (k : Nat) (u : Usage) (r : Returned) :
    Prop where
  few : OneMapping r.calls
  handle : HandleOk B (afterCalls (.buffer k) maps r.calls) k r.handle
  addr : r.err = 0 → (u.swRead || u.swWrite) = true →
    r.vaddr = some r.handle.base ∧ (r.handle.pid = B.pid ∨ isMapped r.handle.lockState = true)

/-- A received buffer that is not mapped yet. -/
theorem lockOk_underMapLock (h : HandleOk B maps k hnd) (hpid : hnd.pid ≠ B.pid)
    (hm : isMapped hnd.lockState = false) (hgranted : ∀ c ∈ (underMapLock os hnd).calls, Granted maps c) :
    LockOk B maps k u (underMapLock os hnd) := by
  have hno : ¬ isMapped hnd.lockState = true := by simp [hm]
  have hfb : ¬ hnd.flags.framebuffer = true := by simp [h.plain]
  have hpos := os.errno.pos
  unfold underMapLock grallocMap at hgranted ⊢
  simp only [if_neg hno, if_neg hfb] at hgranted ⊢
  cases hmap : os.mmap with
  | none =>
    have herr : ¬ -os.errno.val = 0 := by omega
    simp only [if_neg herr]
    refine ⟨.inl rfl, ?_, fun h0 => absurd h0 herr⟩
    exact ⟨h.plain, fun hown => absurd hown hpid, fun hmm => absurd (hmm.resolve_left hpid) hno, h.received,
      fun hown => absurd hown hpid⟩
  | some base =>
    simp only [hmap, if_true] at hgranted ⊢
    obtain ⟨-, -, hlimit, -⟩ := hgranted _ List.mem_cons_self
    obtain ⟨hoff, hpages, hsize⟩ := h.received hpid
    have hoffset := toNat_ofInt hnd.offset
    rw [Int.emod_eq_of_lt hoff (by omega)] at hoffset
    have hn : (hnd.size + UInt32.ofInt hnd.offset).toNat = hnd.size.toNat + hnd.offset.toNat := by
      rw [UInt32.toNat_add]
      omega
    rw [hn] at hlimit
    have hmark := (Says.setMapped (Says.of hnd.lockState)).mapped
    have hnew : MappedAt B (afterCalls (.buffer k) maps
        [.mmap base (hnd.size + UInt32.ofInt hnd.offset)]) k hnd (base + UInt32.ofInt hnd.offset) := by
      refine ⟨_, List.mem_cons_self, ?_, hoff, ?_, ?_⟩
      · rw [source, if_neg fun hs => hpid hs.2]
      · simp only [UInt32.toNat_add]
        omega
      · simp only [hn]
        omega
    refine ⟨.inr ⟨base, _, rfl⟩, ?_, fun _ _ => ⟨rfl, .inr hmark⟩⟩
    exact ⟨h.plain, fun hown => absurd hown hpid, fun _ => hnew, h.received,
      fun hown => absurd hown hpid⟩

/-- A lock leaves a handle where it is mapped. -/
theorem lockOk (h : HandleOk B maps k hnd)
    (hgranted : ∀ c ∈ (grallocLock os true tid u hnd).calls, Granted maps c)
    (hsafe : hnd.pid ≠ B.pid → readCount hnd.lockState + 1 < 2 ^ 30) :
    LockOk B maps k u (grallocLock os true tid u hnd) := by
  by_cases hlock : Lockable u hnd
  · have htake : HandleOk B maps k (hnd.take tid u) := by
      refine h.relock ?_ ?_
      · intro hpid
        rcases h.own hpid with hm | hw
        · exact lockValue_own hlock hm
        · exact absurd hlock.1 (by rw [hw]; decide)
      · intro hpid hm
        rwa [(says_lockValue hlock (hsafe hpid)).mapped] at hm
    rw [grallocLock_lockable rfl hlock] at hgranted ⊢
    by_cases hmap : (u.swRead || u.swWrite) = true ∧ isMapped hnd.lockState = false
    · rw [if_pos hmap] at hgranted ⊢
      have hpid : hnd.pid ≠ B.pid := by
        intro hpid
        rcases h.own hpid with hm | hw
        · rw [hmap.2] at hm
          cases hm
        · exact absurd hlock.1 (by rw [hw]; decide)
      refine lockOk_underMapLock htake hpid ?_ hgranted
      rw [← hmap.2]
      exact (says_lockValue hlock (hsafe hpid)).mapped
    · rw [if_neg hmap]
      refine ⟨.inl rfl, htake, fun _ hsw => ⟨by rw [if_pos hsw]; rfl, ?_⟩⟩
      by_cases hpid : hnd.pid = B.pid
      · exact .inl hpid
      · right
        have hm : isMapped hnd.lockState = true := by
          by_contra hno
          exact hmap ⟨hsw, by simpa using hno⟩
        rw [← hm]
        exact (says_lockValue hlock (hsafe hpid)).mapped
  · obtain ⟨e, he, heq⟩ := grallocLock_refused os tid (fun hv => hlock hv.2)
    rw [heq]
    exact ⟨.inl rfl, h, fun h0 => absurd h0 he⟩

/-! ## The other calls -/

/-- An unlock keeps the mark: it gives nothing back when the count is 0. -/
theorem unlock_handleOk (tid : Nat) (h : HandleOk B maps k hnd) :
    (grallocUnlock true tid hnd).calls = [] ∧
      HandleOk B maps k (grallocUnlock true tid hnd).handle := by
  unfold grallocUnlock
  simp only [Bool.true_eq_false, if_false]
  generalize hmine : (isWrite hnd.lockState && hnd.writeOwner == tid) = mine
  generalize hnew : (if mine = true then hnd.lockState &&& ~~~LOCK_STATE_WRITE else hnd.lockState) = new
  have hkeeps : isMapped new = isMapped hnd.lockState ∧ readCount new = readCount hnd.lockState := by
    rw [← hnew]
    split
    · have hclear := Says.clearWrite (Says.of hnd.lockState)
      exact ⟨hclear.mapped, hclear.count⟩
    · exact ⟨rfl, rfl⟩
  split
  · refine ⟨rfl, h.relock h.own fun _ hm => hm⟩
  · rename_i hcount
    obtain ⟨n, hn⟩ := Nat.exists_eq_succ_of_ne_zero hcount
    have hpred : isMapped (new - 1) = isMapped hnd.lockState := by
      rw [← hkeeps.1]
      exact (Says.pred (n := n) ⟨rfl, rfl, hn⟩).mapped
    refine ⟨rfl, h.relock ?_ fun _ hm => by rwa [hpred] at hm⟩
    intro hpid
    rcases h.own hpid with hm | hw
    · exact .inl (by rw [hpred, hm])
    · rw [hkeeps.2, hw] at hcount
      exact absurd (by decide) hcount

/-- A handle that is not marked, and has no mapping. -/
theorem handleOk_reset {hnd : PrivateHandle} (hpid : hnd.pid ≠ B.pid)
    (hfb : hnd.flags.framebuffer = false) (hfits : 0 ≤ hnd.offset ∧ 0 < hnd.size.toNat ∧
      hnd.offset + hnd.size.toNat < 2 ^ 32) :
    HandleOk B maps k { hnd with base := 0, lockState := 0, writeOwner := 0 } where
  plain := hfb
  own := fun hown => absurd hown hpid
  mapped := fun hm => absurd (hm.resolve_left hpid) (show ¬ isMapped 0 = true by decide)
  received := fun _ => hfits
  adsp := fun hown => absurd hown hpid

theorem register_handleOk (h : HandleOk B maps k hnd) :
    (grallocRegisterBuffer B true hnd).calls = [] ∧
      HandleOk B maps k (grallocRegisterBuffer B true hnd).handle := by
  unfold grallocRegisterBuffer
  simp only [Bool.true_eq_false, if_false]
  by_cases hpid : hnd.pid = B.pid
  · rw [if_neg (not_not.mpr hpid)]
    exact ⟨rfl, h⟩
  · rw [if_pos hpid]
    exact ⟨rfl, handleOk_reset hpid h.plain (h.received hpid)⟩

/-- What `gralloc_unregister_buffer` unmaps is the mapping of the buffer. -/
theorem unregister_handleOk (h : HandleOk B maps k hnd) (hr : Ranges (2 ^ 32) maps) :
    (∀ c ∈ (grallocUnregisterBuffer B true hnd).calls, Unmaps maps k c) ∧
      HandleOk B (afterCalls (.buffer k) maps (grallocUnregisterBuffer B true hnd).calls) k
        (grallocUnregisterBuffer B true hnd).handle := by
  unfold grallocUnregisterBuffer
  simp only [Bool.true_eq_false, if_false]
  by_cases hpid : hnd.pid = B.pid
  · rw [if_neg (not_not.mpr hpid)]
    exact ⟨fun c hc => absurd hc List.not_mem_nil, h⟩
  · rw [if_pos hpid]
    refine ⟨?_, handleOk_reset hpid h.plain (h.received hpid)⟩
    intro c hc
    by_cases hm : isMapped hnd.lockState = true
    · rw [if_pos hm] at hc
      exact unmaps_grallocUnmap hr (h.mapped (.inr hm)) (if_neg fun hs => hpid hs.2) c hc
    · rw [if_neg hm] at hc
      exact absurd hc List.not_mem_nil

/-! ## Steps and runs -/

variable {op : Op} {p' : Process}

/-- What an allocation leaves, if the process goes on. -/
theorem Inv.alloc {size : UInt32} {u : AllocUsage} {os : GpuOs} (h : Inv B p)
    (hallowed : Allowed B fatal p (.alloc k size u os)) (hsafe : Safe B fatal p (.alloc k size u os))
    (hs : step B fatal p (.alloc k size u os) = some p') :
    Inv B p' ∧ ∀ hnd ∈ p'.handle k, isMapped hnd.lockState = true := by
  obtain ⟨hsize, hgranted⟩ := hallowed
  simp only [step] at hs
  split at hs
  · cases hs
  · rename_i hfree
    split at hs
    · cases hs
    · rename_i hlive
      have hr := allocOk (k := k) h.heap h.master h.ranges hsize hgranted hsafe (by simpa using hlive)
      cases hs
      refine ⟨⟨hr.few.ranges h.ranges hgranted, hr.heap, hr.master, ?_⟩, ?_⟩
      · intro k' hnd' hk'
        by_cases hk : k' = k
        · subst hk
          simp only [Function.update_self] at hk'
          exact (hr.handle hnd' hk').2
        · simp only [Function.update_of_ne hk] at hk'
          exact (h.handle k' hnd' hk').mono fun x hx _ => hr.few.mem hx
      · intro hnd' hk'
        simp only [Function.update_self] at hk'
        exact (hr.handle hnd' hk').1

theorem Inv.free {e : Int} (h : Inv B p) (hs : step B fatal p (.free k e) = some p') : Inv B p' := by
  simp only [step] at hs
  split at hs
  · cases hs
  · rename_i hnd hk
    split at hs
    · cases hs
    · rename_i hpid
      rw [not_not] at hpid
      split at hs
      · cases hs
      · cases hs
        have hunmaps := unmaps_freeImpl (A := pmemAllocMgr fatal) (m := p.module) (e := e) h.ranges
          (h.handle k hnd hk) hpid
        obtain ⟨hheap, hmaster⟩ := freeImpl_module fatal B hnd e h.heap h.master
        refine ⟨ranges_afterCalls h.ranges fun c hc => (hunmaps c hc).munmap, hheap, ?_, ?_⟩
        · exact fun hfd => Unmaps.kept h.ranges hunmaps (hmaster hfd) Source.noConfusion
        · intro k' hnd' hk'
          by_cases hne : k' = k
          · subst hne
            simp only [Function.update_self, reduceCtorEq] at hk'
          · simp only [Function.update_of_ne hne] at hk'
            exact (h.handle k' hnd' hk').mono fun x hx hxo =>
              Unmaps.kept h.ranges hunmaps hx (by rw [hxo]; exact source_ne hne)

/-- A lock, and where it finds the buffer. -/
theorem Inv.lock (h : Inv B p) (hallowed : Allowed B fatal p (.lock k tid u os))
    (hsafe : Safe B fatal p (.lock k tid u os)) (hk : p.handle k = some hnd) :
    Inv B (p.returned k (grallocLock os true tid u hnd)) ∧
      LockOk B p.maps k u (grallocLock os true tid u hnd) := by
  have hgranted := hallowed hnd hk
  have hlock := lockOk (h.handle k hnd hk) hgranted (hsafe hnd hk)
  exact ⟨h.returned (hlock.few.ranges h.ranges hgranted) (fun y hy _ => hlock.few.mem hy) hlock.handle,
    hlock⟩

/-- Every call keeps the mappings of the buffers. -/
theorem Inv.step (h : Inv B p) (hallowed : Allowed B fatal p op) (hsafe : Safe B fatal p op)
    (hs : step B fatal p op = some p') : Inv B p' := by
  cases op with
  | alloc k size u os => exact (h.alloc hallowed hsafe hs).1
  | free k e => exact h.free hs
  | receive k hnd =>
    obtain ⟨hfb, hfits⟩ := hallowed
    simp only [LiveMappings.step] at hs
    split at hs
    · cases hs
    · rename_i hno
      cases hs
      have hpid : hnd.pid ≠ B.pid := fun hpid => hno (.inr hpid)
      refine h.returned_nil ?_ ?_
      · simp [grallocRegisterBuffer, hpid]
      · simp only [grallocRegisterBuffer, Bool.true_eq_false, if_false, ne_eq, hpid, not_false_eq_true,
          if_true]
        exact handleOk_reset hpid hfb hfits
  | lock k tid u os =>
    obtain ⟨hnd, hk, rfl⟩ := Option.map_eq_some_iff.mp hs
    exact (h.lock hallowed hsafe hk).1
  | unlock k tid =>
    obtain ⟨hnd, hk, rfl⟩ := Option.map_eq_some_iff.mp hs
    have hunlock := unlock_handleOk tid (h.handle k hnd hk)
    exact h.returned_nil hunlock.1 hunlock.2
  | register k =>
    obtain ⟨hnd, hk, rfl⟩ := Option.map_eq_some_iff.mp hs
    have hregister := register_handleOk (h.handle k hnd hk)
    exact h.returned_nil hregister.1 hregister.2
  | unregister k =>
    obtain ⟨hnd, hk, rfl⟩ := Option.map_eq_some_iff.mp hs
    obtain ⟨hunmaps, hhandle⟩ := unregister_handleOk (h.handle k hnd hk) h.ranges
    exact h.returned (ranges_afterCalls h.ranges fun c hc => (hunmaps c hc).munmap)
      (fun y hy howner => Unmaps.kept h.ranges hunmaps hy howner) hhandle

theorem Inv.meansMapped (h : Inv B p) (hallowed : Allowed B fatal p op) (hsafe : Safe B fatal p op) :
    MeansMapped B fatal p op := by
  intro p' hs
  cases op with
  | alloc k size u os =>
    obtain ⟨hinv, hmark⟩ := h.alloc hallowed hsafe hs
    intro hnd hk
    have hm := hmark hnd hk
    exact iff_of_true hm ((hinv.handle k hnd hk).mapped (.inr hm))
  | lock k tid u os =>
    obtain ⟨hnd, hk, rfl⟩ := Option.map_eq_some_iff.mp hs
    obtain ⟨hinv, hlock⟩ := h.lock hallowed hsafe hk
    intro hnd' hk' r herr hsw
    rw [hk] at hk'
    cases hk'
    obtain ⟨hvaddr, hmapped⟩ := hlock.addr herr hsw
    have hat := hlock.handle.mapped hmapped
    exact ⟨_, hvaddr, hat.ne_zero hinv.ranges, hat⟩
  | _ => trivial

end

/-- As long as no allocation falls back to ashmem and no count of a received buffer spills over,
`LOCK_STATE_MAPPED` means that a new buffer is mapped, and every lock for the CPU that succeeds returns
where the whole buffer is mapped, after any calls. -/
theorem mapped_means_mapped (B : Build) (fatal : Bool) (ops : List Op)
    (hok : RunOk (step B fatal) (fun p op => Allowed B fatal p op ∧ Safe B fatal p op) start ops) :
    RunOk (step B fatal) (MeansMapped B fatal) start ops :=
  RunOk.imp_of_invariant (I := Inv B) (fun _ _ _ h hop hs => h.step hop.1 hop.2 hs)
    (fun _ _ h hop => h.meansMapped hop.1 hop.2) start_inv hok

/-! ## Two runs -/

/-- A process with ashmem. -/
def here : Build := ⟨true, 1⟩

/-- A kernel that grants a heap at one place and a buffer at another. -/
def answers : GpuOs where
  toOs := { PmemDeps.answers.toOs with mmap := some 0x50000000, ashmem := 5, mmap_ne := buffer_ne_null }
  fbProbe := none
  fbMmap := none
  dup := 6

/-- A buffer of the pmem heap, one of ashmem, and one that comes in. -/
def session : List Op :=
  [.alloc 0 5000 { pmem := true } answers, .alloc 1 4096 {} answers,
    .lock 0 7 ⟨true, false, false⟩ answers.toOs, .receive 2 received,
    .lock 2 7 ⟨false, true, false⟩
      { answers.toOs with mmap := some 0x60000000, mmap_ne := by decide },
    .unlock 2 7, .unregister 2, .unlock 0 7, .register 0, .unregister 0,
    .lock 0 8 ⟨true, true, false⟩ answers.toOs, .free 1 0]

theorem mapped_session : (run (step here true) start session).isSome = true ∧
    RunOk (step here true) (MeansMapped here true) start session :=
  ⟨by decide +kernel, mapped_means_mapped here true session (by decide +kernel)⟩

/-- The pmem device cannot be opened. -/
def noPmem : GpuOs := { answers with masterOpen := -1 }

/-- A buffer that may be pmem, and a lock of it for reading. -/
def fallen : List Op :=
  [.alloc 0 4096 { pmem := true } noPmem, .lock 0 7 ⟨true, false, false⟩ noPmem.toOs]

/-- A buffer that falls back to ashmem is marked as mapped; its lock succeeds and returns the null
address. -/
theorem fallback_locks_null : RunOk (step here true) (Allowed here true) start fallen ∧
    ¬ RunOk (step here true) (MeansMapped here true) start fallen := by
  refine ⟨by decide +kernel, ?_⟩
  rintro ⟨-, hlock, -⟩
  obtain ⟨addr, hvaddr, hne, -⟩ := hlock _ rfl _ rfl rfl rfl
  injection hvaddr with hvaddr
  exact hne hvaddr.symm

end Twm.Gralloc.LiveMappings
