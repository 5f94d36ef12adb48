import DeviceTwm.Lib.Bytes
import DeviceTwm.Gralloc.AllocatorInv

/-!
# Runs of the allocator

* `Inv`: the chunk list tiles the heap. `setSize` establishes it, and each `allocate` of a size
  that rounds up without a wrap and each `deallocate` keeps it (`chunkList_tiles_heap`).
* `alloc_spec` and `deallocate_spec` say what one call does to the extents of the list.
-/

namespace Twm.Gralloc
namespace SimpleBestFitAllocator

variable {P : Platform} {s : SimpleBestFitAllocator}

/-- The chunk list is well formed and holds the extents `l`. -/
def Lists (s : SimpleBestFitAllocator) (l : List Extent) : Prop :=
  ∃ as, Holds s as ∧ as.map s.extent = l

/-- The units of `size` bytes, rounded up. -/
def units (size : Nat) : Nat := (size + kMemoryAlign - 1) / kMemoryAlign

/-- The representation invariant: the chunk list tiles the heap. -/
structure Inv (s : SimpleBestFitAllocator) : Prop where
  nonempty : s.mHeapSize / kMemoryAlign ≠ 0
  small : s.mHeapSize / kMemoryAlign < 2 ^ 28
  lists : ∃ l, Lists s l ∧ Tiling l (s.mHeapSize / kMemoryAlign)

theorem Lists.extents {l : List Extent} (h : Lists s l) : s.extents = l := by
  obtain ⟨as, ha, hm⟩ := h
  unfold SimpleBestFitAllocator.extents
  rw [chunkList_eq ha, hm]

theorem Inv.tiling (h : Inv s) : Tiling s.extents (s.mHeapSize / kMemoryAlign) := by
  obtain ⟨l, hl, ht⟩ := h.lists
  rw [hl.extents]; exact ht

/-- A successful `alloc`: a free extent `c` of the list is carved at a page boundary. -/
structure Carved (P : Platform) (l : List Extent) (size : Nat) (r : Int × SimpleBestFitAllocator)
    (l₁ l₂ : List Extent) (c : Extent) (e : Nat) : Prop where
  split : l = l₁ ++ c :: l₂
  free : c.free = true
  fits : e + units size ≤ c.size
  aligned : (c.start + e) % P.pageUnits = 0
  offset : r.1 = P.signed (P.word ((c.start + e) * kMemoryAlign))
  lists : Lists r.2 (l₁ ++ (c.carve e (units size) ++ l₂))

/-- The search of `alloc` finds a chunk of the list that fits. -/
theorem findFit_need {as : List Nat} {size need f : Nat} (ha : Holds s as)
    (hu : P.word (size + kMemoryAlign - 1) / kMemoryAlign = need)
    (hf : findFit P s need (s.top + 1) s.mFirst none = some f) :
    (∃ l₁ l₂, as = l₁ ++ f :: l₂) ∧ Fits P need (s.extent f) := by
  subst hu
  obtain ⟨hmem, hfit⟩ := findFit_mem (word_add_extra P _) ha hf
  exact ⟨List.append_of_mem hmem, hfit⟩

/-- What `alloc` does with the chunk that it found. -/
theorem alloc_found {l₁ l₂ : List Nat} {size need f : Nat} (ha : Holds s (l₁ ++ f :: l₂))
    (hfit : Fits P need (s.extent f)) (hb : (s.mem f).start + (s.mem f).size < 2 ^ 28)
    (h0 : size ≠ 0) (hu : P.word (size + kMemoryAlign - 1) / kMemoryAlign = need)
    (hf : findFit P s need (s.top + 1) s.mFirst none = some f) :
    (alloc P s size).1 =
      P.signed (P.word (((s.mem f).start + extra P (s.mem f).start) * kMemoryAlign)) ∧
    Lists (alloc P s size).2 (l₁.map s.extent ++
      ((s.extent f).carve (extra P (s.mem f).start) need ++ l₂.map s.extent)) ∧
    (alloc P s size).2.mHeapSize = s.mHeapSize := by
  obtain ⟨as', s', hs', ha', hx', hst', hh'⟩ :=
    carve_spec (P := P) need ha (fits_extent.mp hfit).2 hb
  have halloc : alloc P s size = (P.signed (P.word ((s'.mem f).start * kMemoryAlign)), s') := by
    unfold alloc
    rw [if_neg h0]
    simp only [hu, hf, hs']
  rw [halloc]
  exact ⟨by rw [hst'], ⟨as', ha', hx'⟩, hh'⟩

/-- What `alloc` does for a size that rounds up without a wrap. -/
theorem alloc_spec {l : List Extent} {n size : Nat} (hl : Lists s l) (ht : Tiling l n)
    (hn : n < 2 ^ 28) (h1 : 1 ≤ size) (h2 : size + 31 < 2 ^ 32) :
    alloc P s size = (-ENOMEM, s) ∨
      ((alloc P s size).2.mHeapSize = s.mHeapSize ∧
        ∃ l₁ l₂ c e, Carved P l size (alloc P s size) l₁ l₂ c e) := by
  obtain ⟨as, ha, rfl⟩ := hl
  have hu : P.word (size + kMemoryAlign - 1) / kMemoryAlign = units size := by
    rw [Platform.word_of_lt (by unfold kMemoryAlign; omega)]; rfl
  rcases hf : findFit P s (units size) (s.top + 1) s.mFirst none with _ | f
  · left
    unfold alloc
    rw [if_neg (by omega)]
    simp only [hu, hf]
  · right
    obtain ⟨⟨l₁, l₂, rfl⟩, hfit⟩ := findFit_need ha hu hf
    have hb := (ht.tiles.mem_bounds (c := s.extent f) (by simp)).2.2
    obtain ⟨hr, hl', hh⟩ := alloc_found ha hfit (Nat.lt_of_le_of_lt hb hn) (by omega) hu hf
    refine ⟨hh, l₁.map s.extent, l₂.map s.extent, s.extent f, extra P (s.mem f).start, ?_⟩
    refine ⟨by simp, hfit.1, ?_, add_extra_mod P _, hr, hl'⟩
    rw [Nat.add_comm]
    exact hfit.2

/-- The write of `dealloc` to the chunk that it found. -/
def setFree (s : SimpleBestFitAllocator) (cur : Nat) : SimpleBestFitAllocator :=
  s.modify cur fun c => { c with free := true }

theorem setFree_extent (cur : Nat) :
    (s.setFree cur).extent = Function.update s.extent cur { s.extent cur with free := true } := by
  funext b
  by_cases hb : b = cur
  · subst hb; simp [setFree, extent]
  · rw [setFree, extent_modify_ne _ hb, Function.update_of_ne hb]

/-- `deallocate` finds no chunk that starts there, or it frees the first one that does and merges:
`none` where the log ends the process. -/
theorem deallocate_eq {as : List Nat} (fatal : Bool) (offset : Nat) (ha : Holds s as)
    (h0 : s.mHeapSize ≠ 0) :
    ((∀ a ∈ as, (s.mem a).start ≠ offset / kMemoryAlign) ∧
      deallocate fatal s offset = some (-ENOENT, s)) ∨
    ∃ l₁ cur l₂ r, as = l₁ ++ cur :: l₂ ∧ (s.mem cur).start = offset / kMemoryAlign ∧
      mergeFrom (s.top + 1) cur cur (s.setFree cur) = r ∧
      deallocate fatal s offset = if fatal ∧ (s.mem cur).free then none
        else if fatal ∧ ¬ (r.2.mem r.1).free then none else some (0, r.2) := by
  unfold deallocate dealloc
  rw [if_neg h0]
  simp only [findStart_eq ha]
  rcases hf : as.find? (fun a => (s.mem a).start = offset / kMemoryAlign) with _ | cur
  · left
    rw [List.find?_eq_none] at hf
    exact ⟨fun a ham => by simpa using hf a ham, rfl⟩
  · right
    obtain ⟨l₁, l₂, rfl⟩ := List.append_of_mem (List.mem_of_find?_eq_some hf)
    obtain ⟨r, hr⟩ : ∃ r, mergeFrom (s.top + 1) cur cur (s.setFree cur) = r := ⟨_, rfl⟩
    refine ⟨l₁, cur, l₂, r, rfl, by simpa using List.find?_some hf, hr, ?_⟩
    unfold setFree at hr
    simp only [modify_top, hr]
    by_cases h₁ : fatal = true ∧ (s.mem cur).free = true
    · rw [if_pos h₁, if_pos h₁]
    · by_cases h₂ : fatal = true ∧ ¬ (r.2.mem r.1).free = true
      · rw [if_neg h₁, if_neg h₁, if_pos h₂, if_pos h₂]
      · rw [if_neg h₁, if_neg h₁, if_neg h₂, if_neg h₂]

/-- What `deallocate` does: no chunk starts there; or the log ends the process, as the chunk is
free already; or the chunk is released. -/
theorem deallocate_spec (fatal : Bool) (offset : Nat) {l : List Extent} {n : Nat} (hl : Lists s l)
    (ht : Tiling l n) (hn : n < 2 ^ 28) (h0 : s.mHeapSize ≠ 0) :
    ((∀ c ∈ l, c.start ≠ offset / kMemoryAlign) ∧
      deallocate fatal s offset = some (-ENOENT, s)) ∨
    ∃ l₁ c l₂, l = l₁ ++ c :: l₂ ∧ c.start = offset / kMemoryAlign ∧
      ((fatal = true ∧ c.free = true ∧ deallocate fatal s offset = none) ∨
       (¬ (fatal = true ∧ c.free = true) ∧ ∃ s', deallocate fatal s offset = some (0, s') ∧
          Lists s' (release l₁ { c with free := true } l₂) ∧ s'.mHeapSize = s.mHeapSize)) := by
  obtain ⟨as, ha, rfl⟩ := hl
  rcases deallocate_eq fatal offset ha h0 with ⟨hno, he⟩ | ⟨l₁, cur, l₂, r, rfl, hcs, hr, he⟩
  · left
    refine ⟨fun c hc => ?_, he⟩
    obtain ⟨a, ham, rfl⟩ := List.mem_map.mp hc
    exact hno a ham
  right
  refine ⟨l₁.map s.extent, s.extent cur, l₂.map s.extent, by simp, hcs, ?_⟩
  rw [he]
  by_cases hd : fatal = true ∧ (s.mem cur).free = true
  · left
    rw [if_pos hd]
    exact ⟨hd.1, hd.2, rfl⟩
  right
  refine ⟨hd, ?_⟩
  rw [if_neg hd]
  have h₁ : Holds (s.setFree cur) (l₁ ++ cur :: l₂) := ha.modify rfl rfl
  obtain ⟨hc₁, hc₂⟩ := ha.notMem
  have hx₁ := setFree_extent (s := s) cur
  have e₁ := map_extent_update hx₁ hc₁
  have e₂ := map_extent_update hx₁ hc₂
  have hfc : (s.setFree cur).extent cur = { s.extent cur with free := true } := by
    rw [hx₁, Function.update_self]
  have htiles := ht.tiles
  rw [List.map_append, List.map_cons, tiles_append] at htiles
  obtain ⟨mid, ht₁, hts, htz, ht₂⟩ := htiles
  have hap : (l₂.map (s.setFree cur).extent).IsChain Apart := by
    have := ht.apart
    rw [List.map_append, List.isChain_append] at this
    rw [e₂]
    exact (List.isChain_cons.mp this.2.1).2
  have ht' : Tiles 0 ((l₁ ++ cur :: l₂).map (s.setFree cur).extent) n := by
    rw [List.map_append, List.map_cons, e₁, e₂, hfc, tiles_append]
    exact ⟨mid, ht₁, hts, htz, ht₂⟩
  have htop : s.top + 1 = (s.top - 1) + 2 := by
    have := ha.below cur (by simp)
    omega
  obtain ⟨freed, as', s', hs', ha', hx', hfr, hh'⟩ :=
    mergeFrom_spec (s.top - 1) h₁ (congrArg Extent.free hfc) ht' hn hap
  rw [htop, hs'] at hr
  subst hr
  simp only [hfr, not_true_eq_false, and_false, ↓reduceIte]
  refine ⟨s', rfl, ⟨as', ha', ?_⟩, hh'⟩
  rw [hx', e₁, e₂, hfc]

/-! ## `setSize` -/

theorem page_le_word (P : Platform) : P.pageShift ≤ P.wordBits := by
  have := P.pageShift_lt
  have := P.le_wordBits
  omega

/-- `setSize` rounds the size up to whole pages, in words. -/
theorem setSize_heapSize (P : Platform) (size : Nat) : (setSize P init size).2.mHeapSize =
    P.word (size + P.getpagesize - 1) / P.getpagesize * P.getpagesize := by
  have := Lib.and_highMask (x := P.word (size + P.getpagesize - 1)) (Nat.mod_lt _ (Nat.two_pow_pos _))
    (page_le_word P)
  rw [← Platform.getpagesize] at this
  rw [← this]
  rfl

/-- A size of whole pages is the heap size. -/
theorem setSize_pages (P : Platform) {size : Nat} (hp : P.getpagesize ∣ size)
    (hw : size < 2 ^ P.wordBits) : (setSize P init size).2.mHeapSize = size := by
  have hpos : 0 < P.getpagesize := Nat.two_pow_pos _
  have hdw : P.getpagesize ∣ 2 ^ P.wordBits := Nat.pow_dvd_pow _ (page_le_word P)
  obtain ⟨q, rfl⟩ := hp
  have hle : P.getpagesize * q + P.getpagesize ≤ 2 ^ P.wordBits := by
    obtain ⟨r, hr⟩ := hdw
    rw [hr] at hw ⊢
    have := Nat.lt_of_mul_lt_mul_left hw
    calc P.getpagesize * q + P.getpagesize = P.getpagesize * (q + 1) := (Nat.mul_succ _ _).symm
      _ ≤ P.getpagesize * r := Nat.mul_le_mul_left _ this
  rw [setSize_heapSize, Platform.word, Nat.mod_eq_of_lt (by omega),
    show P.getpagesize * q + P.getpagesize - 1 = (P.getpagesize - 1) + P.getpagesize * q by omega,
    Nat.add_mul_div_left _ _ hpos, Nat.div_eq_of_lt (by omega), Nat.zero_add, Nat.mul_comm]

/-- After `setSize` the list is one free chunk. -/
theorem setSize_chunk (P : Platform) (size : Nat) : Lists (setSize P init size).2
    [⟨0, bits28 ((setSize P init size).2.mHeapSize / kMemoryAlign), true⟩] := by
  refine ⟨[0], ⟨⟨?_, by simp⟩, ?_⟩, rfl⟩
  · simp [setSize, init, newChunk, insertHead, links, setNext, setPrev, SimpleBestFitAllocator.modify]
  · intro a ha
    simp [setSize, init, newChunk, insertHead, setNext, setPrev, SimpleBestFitAllocator.modify] at ha ⊢
    omega

theorem setSize_lists (P : Platform) (size : Nat)
    (hs : (setSize P init size).2.mHeapSize / kMemoryAlign < 2 ^ 28) :
    Lists (setSize P init size).2
      [⟨0, (setSize P init size).2.mHeapSize / kMemoryAlign, true⟩] := by
  have := setSize_chunk P size
  rwa [bits28, Nat.mod_eq_of_lt hs] at this

/-! ## Runs -/

/-- A call of a client. -/
inductive Op where
  | allocate (size : Nat)
  | deallocate (offset : Nat)
  deriving DecidableEq, Repr

/-- One call; `none`: the log ended the process. -/
def step (P : Platform) (fatal : Bool) (s : SimpleBestFitAllocator) :
    Op → Option SimpleBestFitAllocator
  | .allocate size => some (allocate P s size).2
  | .deallocate offset => (deallocate fatal s offset).map (·.2)

/-- The calls `ops`, one after the other. -/
def run (P : Platform) (fatal : Bool) (s : SimpleBestFitAllocator) (ops : List Op) :
    Option SimpleBestFitAllocator := ops.foldlM (step P fatal) s

/-- A request rounds up to units without a wrap; an offset is arbitrary. -/
def Op.Rounds : Op → Prop
  | .allocate size => 1 ≤ size ∧ size + 31 < 2 ^ 32
  | .deallocate _ => True

theorem Inv.heapSize_ne (h : Inv s) : s.mHeapSize ≠ 0 := by
  intro h0
  apply h.nonempty
  rw [h0]
  rfl

theorem Inv.of_lists {s' : SimpleBestFitAllocator} {l : List Extent} (h : Inv s)
    (hh : s'.mHeapSize = s.mHeapSize) (hl : Lists s' l)
    (ht : Tiling l (s.mHeapSize / kMemoryAlign)) : Inv s' :=
  ⟨hh ▸ h.nonempty, hh ▸ h.small, l, hl, hh ▸ ht⟩

theorem units_pos {size : Nat} (h : 1 ≤ size) : 0 < units size :=
  Nat.div_pos (by unfold kMemoryAlign; omega) (by decide)

theorem Carved.tiling {l l₁ l₂ : List Extent} {c : Extent} {n size e : Nat}
    {r : Int × SimpleBestFitAllocator} (h : Carved P l size r l₁ l₂ c e) (ht : Tiling l n)
    (h1 : 1 ≤ size) : Tiling (l₁ ++ (c.carve e (units size) ++ l₂)) n :=
  Tiling.carve (h.split ▸ ht) h.free (units_pos h1) h.fits

/-- Each call keeps the invariant and the heap size. -/
theorem Inv.step {fatal : Bool} {op : Op} {s' : SimpleBestFitAllocator} (h : Inv s)
    (hop : op.Rounds) (hs : step P fatal s op = some s') :
    Inv s' ∧ s'.mHeapSize = s.mHeapSize := by
  obtain ⟨l, hl, ht⟩ := h.lists
  cases op with
  | allocate size =>
    cases hs
    simp only [allocate, if_neg h.heapSize_ne]
    rcases alloc_spec (P := P) hl ht h.small hop.1 hop.2 with he | ⟨hh, l₁, l₂, c, e, hc⟩
    · rw [he]
      exact ⟨h, rfl⟩
    · exact ⟨h.of_lists hh hc.lists (hc.tiling ht hop.1), hh⟩
  | deallocate offset =>
    obtain ⟨⟨r, s''⟩, hd, rfl⟩ := Option.map_eq_some_iff.mp hs
    rcases deallocate_spec fatal offset hl ht h.small h.heapSize_ne with
      ⟨-, he⟩ | ⟨l₁, c, l₂, rfl, -, ⟨-, -, he⟩ | ⟨-, s₂, he, hl₂, hh⟩⟩
    · rw [he] at hd
      cases hd
      exact ⟨h, rfl⟩
    · rw [he] at hd
      cases hd
    · rw [he] at hd
      cases hd
      exact ⟨h.of_lists hh hl₂ ht.release, hh⟩

theorem Inv.run {fatal : Bool} {ops : List Op} {s' : SimpleBestFitAllocator} (h : Inv s)
    (hops : ∀ op ∈ ops, op.Rounds) (hs : run P fatal s ops = some s') :
    Inv s' ∧ s'.mHeapSize = s.mHeapSize := by
  induction ops generalizing s with
  | nil =>
    cases hs
    exact ⟨h, rfl⟩
  | cons op ops ih =>
    obtain ⟨s₁, h₁, h₂⟩ := Option.bind_eq_some_iff.mp hs
    obtain ⟨hi, hh⟩ := h.step (hops op (by simp)) h₁
    obtain ⟨hi', hh'⟩ := ih hi (fun op ho => hops op (by simp [ho])) h₂
    exact ⟨hi', hh'.trans hh⟩

/-- In a release build no call ends the process. -/
theorem run_isSome (ops : List Op) : (run P false s ops).isSome = true := by
  induction ops generalizing s with
  | nil => rfl
  | cons op ops ih =>
    have : ∃ s', SimpleBestFitAllocator.step P false s op = some s' := by
      cases op with
      | allocate size => exact ⟨_, rfl⟩
      | deallocate offset =>
        simp only [SimpleBestFitAllocator.step, deallocate, dealloc]
        split
        · exact ⟨_, rfl⟩
        · split <;> rename_i hd
          · split at hd <;> simp at hd
          · exact ⟨_, rfl⟩
          · exact ⟨_, rfl⟩
    obtain ⟨s', hs'⟩ := this
    show (SimpleBestFitAllocator.step P false s op >>= fun s => run P false s ops).isSome = true
    rw [hs']
    exact ih

theorem inv_setSize (P : Platform) {heapSize : Nat} (hpos : heapSize ≠ 0)
    (hpage : P.getpagesize ∣ heapSize) (hword : heapSize < 2 ^ P.wordBits)
    (hunits : heapSize / kMemoryAlign < 2 ^ 28) : Inv (setSize P init heapSize).2 := by
  have hh := setSize_pages P hpage hword
  have hk : kMemoryAlign ∣ heapSize :=
    Nat.dvd_trans ⟨_, (P.getpagesize_eq).trans (Nat.mul_comm _ _)⟩ hpage
  have hn : heapSize / kMemoryAlign ≠ 0 := by
    obtain ⟨q, rfl⟩ := hk
    rw [Nat.mul_div_cancel_left _ (by decide)]
    rintro rfl
    simp at hpos
  refine ⟨by rw [hh]; exact hn, by rw [hh]; exact hunits, _,
    setSize_lists P heapSize (by rw [hh]; exact hunits), ?_, by simp⟩
  simp only [tiles_cons, tiles_nil, Nat.zero_add, true_and, and_true, hh]
  exact Nat.pos_of_ne_zero hn

/-- **The chunk list tiles the heap.** For a heap of whole pages and every sequence of `allocate`
and `deallocate` calls, the chunks read head to tail tile the heap, no two neighbours are both
free, and the list is one chunk once all are free. -/
theorem chunkList_tiles_heap (P : Platform) (fatal : Bool) (heapSize : Nat) (ops : List Op)
    (hpos : heapSize ≠ 0) (hpage : P.getpagesize ∣ heapSize) (hword : heapSize < 2 ^ P.wordBits)
    (hunits : heapSize / kMemoryAlign < 2 ^ 28)
    (hops : ∀ size, Op.allocate size ∈ ops → 1 ≤ size ∧ size ≤ 2 ^ 31) :
    (fatal = false → (run P fatal (setSize P init heapSize).2 ops).isSome = true) ∧
    ∀ s, run P fatal (setSize P init heapSize).2 ops = some s →
      Tiling s.extents (heapSize / kMemoryAlign) ∧
      ((∀ c ∈ s.extents, c.free = true) → s.extents = [⟨0, heapSize / kMemoryAlign, true⟩]) := by
  have hi := inv_setSize P hpos hpage hword hunits
  refine ⟨by rintro rfl; exact run_isSome ops, fun s hs => ?_⟩
  obtain ⟨hi', hh⟩ := hi.run (fun op ho => by
    cases op with
    | allocate size => have := hops size ho; exact ⟨this.1, by omega⟩
    | deallocate offset => trivial) hs
  rw [setSize_pages P hpage hword] at hh
  have ht := hi'.tiling
  rw [hh] at ht
  exact ⟨ht, ht.all_free (hh ▸ hi'.nonempty)⟩

theorem chunkList_tiles_heap_mega : Tiling
    ((run .arm false (setSize .arm init 1048576).2
      [.allocate 100, .allocate 100, .deallocate 0]).get (by decide)).extents 32768 :=
  ((chunkList_tiles_heap .arm false 1048576 [.allocate 100, .allocate 100, .deallocate 0]
    (by decide) (by decide) (by decide) (by decide) (by simp)).2 _ (by simp)).1

end SimpleBestFitAllocator

end Twm.Gralloc
