import DeviceTwm.Gralloc.AllocatorRuns

/-!
# Best fit with page alignment

`alloc` takes the earliest of the smallest free chunks that hold the request from a page boundary
on (`alloc_bestFit`), whatever was allocated and released before. A request for nearly `2 ^ 32`
bytes wraps to no unit and leaves an empty chunk in the list, so what every call keeps is weaker
than `Inv`: the chunks are contiguous, some of them perhaps empty (`Contiguous`).
-/

namespace Twm.Gralloc

open Lib

/-! ## Contiguous extents -/

/-- The extents `l`, one after the other from `lo` to `hi`. -/
def Spans : Nat → List Extent → Nat → Prop
  | lo, [], hi => lo = hi
  | lo, c :: l, hi => c.start = lo ∧ Spans (lo + c.size) l hi

@[simp] theorem spans_nil {lo hi : Nat} : Spans lo [] hi ↔ lo = hi := Iff.rfl

@[simp] theorem spans_cons {lo hi : Nat} {c : Extent} {l : List Extent} :
    Spans lo (c :: l) hi ↔ c.start = lo ∧ Spans (lo + c.size) l hi := Iff.rfl

theorem spans_append {lo hi : Nat} {l₁ l₂ : List Extent} :
    Spans lo (l₁ ++ l₂) hi ↔ ∃ mid, Spans lo l₁ mid ∧ Spans mid l₂ hi := by
  induction l₁ generalizing lo with
  | nil => simp
  | cons c l ih => simp [ih, and_assoc]

theorem Spans.le {lo hi : Nat} {l : List Extent} (h : Spans lo l hi) : lo ≤ hi := by
  induction l generalizing lo with
  | nil => exact Nat.le_of_eq h
  | cons c l ih => have := ih h.2; omega

theorem Spans.mem_bounds {lo hi : Nat} {l : List Extent} {c : Extent} (h : Spans lo l hi)
    (hc : c ∈ l) : c.start + c.size ≤ hi := by
  obtain ⟨l₁, l₂, rfl⟩ := List.append_of_mem hc
  obtain ⟨mid, -, hs, h₂⟩ := spans_append.mp h
  have := h₂.le
  omega

/-- What stands between two extents may change, if it covers the same units. -/
theorem Spans.replace {lo hi : Nat} {l₁ l₂ m m' : List Extent} (h : Spans lo (l₁ ++ (m ++ l₂)) hi)
    (hm : ∀ a b, Spans a m b → Spans a m' b) : Spans lo (l₁ ++ (m' ++ l₂)) hi := by
  obtain ⟨a, h₁, h'⟩ := spans_append.mp h
  obtain ⟨b, h₂, h₃⟩ := spans_append.mp h'
  exact spans_append.mpr ⟨a, h₁, spans_append.mpr ⟨b, hm a b h₂, h₃⟩⟩

theorem spans_carve {lo hi e size : Nat} {c : Extent} (he : e + size ≤ c.size)
    (h : Spans lo [c] hi) : Spans lo (c.carve e size) hi := by
  obtain ⟨hs, hz⟩ := h
  rw [spans_nil] at hz
  unfold Extent.carve
  split <;> split <;> simp [hs] <;> omega

theorem spans_join {lo hi : Nat} {c d : Extent} (h : Spans lo [c, d] hi) :
    Spans lo [c.join d] hi := by
  obtain ⟨hs, -, hz⟩ := h
  rw [spans_nil] at hz
  exact ⟨hs, by simp only [spans_nil, Extent.join]; omega⟩

/-! ## What every call keeps -/

namespace SimpleBestFitAllocator

variable {P : Platform} {s : SimpleBestFitAllocator} {as l₁ l₂ : List Nat} {n : Nat}

/-- The chunks `as` are the list, and they are contiguous. -/
structure Chunks (s : SimpleBestFitAllocator) (as : List Nat) (n : Nat) : Prop where
  list : Holds s as
  spans : Spans 0 (as.map s.extent) n
  small : n < 2 ^ 28

/-- The chunks of the list are contiguous. -/
def Contiguous (s : SimpleBestFitAllocator) : Prop := ∃ as n, Chunks s as n

theorem Chunks.below (h : Chunks s as n) : ∀ a ∈ as, (s.mem a).start + (s.mem a).size < 2 ^ 28 :=
  fun _ hm => Nat.lt_of_le_of_lt (h.spans.mem_bounds (List.mem_map_of_mem hm)) h.small

theorem Contiguous.of_lists {l : List Extent} (hl : Lists s l) (hs : Spans 0 l n)
    (hn : n < 2 ^ 28) : Contiguous s := by
  obtain ⟨as, ha, rfl⟩ := hl
  exact ⟨as, n, ha, hs, hn⟩

/-- A chunk joins its predecessor or stays. -/
theorem Chunks.mergePrev {cur : Nat} (freed : Nat) (h : Chunks s (l₁ ++ cur :: l₂) n) :
    ∃ l, Chunks (mergePrev s cur freed).2 (l ++ l₂) n := by
  rcases List.eq_nil_or_concat l₁ with rfl | ⟨m, p, rfl⟩
  · refine ⟨[cur], ?_⟩
    unfold SimpleBestFitAllocator.mergePrev
    rw [h.list.prev_eq]
    exact h
  have h' : Chunks s (m ++ p :: cur :: l₂) n := by simpa using h
  by_cases hc : (s.mem p).free = true ∨ (s.mem cur).size = 0
  · have hpc : Spans 0 (m.map s.extent ++ ([s.extent p, s.extent cur] ++ l₂.map s.extent)) n := by
      simpa using h'.spans
    have hz : (s.mem p).size + (s.mem cur).size < 2 ^ 28 := by
      have hj := (hpc.replace fun _ _ => spans_join).mem_bounds
        (c := (s.extent p).join (s.extent cur)) (by simp)
      have hn := h.small
      simp only [extent, Extent.join] at hj
      omega
    obtain ⟨s', hs', ha', hx', -⟩ := mergePrev_join freed h'.list hc hz
    have hnot := ha'.notMem
    have hkeep : ∀ l : List Nat, p ∉ l → l.map s'.extent = l.map s.extent := fun l hl =>
      List.map_congr_left fun x hx => by
        rw [hx', Function.update_of_ne (by rintro rfl; exact hl hx)]
    refine ⟨m ++ [p], ?_, ?_, h.small⟩
    · rw [hs']
      simpa using ha'
    · rw [hs']
      simp only [List.map_append, List.map_cons, List.map_nil, List.append_assoc]
      rw [hkeep m hnot.1, hkeep l₂ hnot.2, hx', Function.update_self]
      exact hpc.replace fun _ _ => spans_join
  · refine ⟨m ++ [p, cur], ?_⟩
    have hprev : (s.mem cur).prev = some p := by
      rw [h.list.prev_eq]
      simp
    unfold SimpleBestFitAllocator.mergePrev
    simp only [hprev]
    rw [if_neg hc]
    simpa using h'

/-- The merge loop keeps the chunks contiguous, wherever it stops. -/
theorem Chunks.mergeFrom {cur : Nat} (fuel freed : Nat) (h : Chunks s (l₁ ++ cur :: l₂) n) :
    Contiguous (mergeFrom fuel cur freed s).2 := by
  induction fuel generalizing s l₁ cur l₂ freed with
  | zero => exact ⟨_, n, h⟩
  | succ fuel ih =>
    have hnext := h.list.next_eq
    obtain ⟨l, h'⟩ := h.mergePrev freed
    unfold SimpleBestFitAllocator.mergeFrom
    simp only [hnext]
    rcases l₂ with _ | ⟨d, l₂⟩
    · exact ⟨_, n, h'⟩
    · simp only [List.head?_cons]
      split
      · exact ih _ h'
      · exact ⟨_, n, h'⟩

theorem Contiguous.alloc (h : Contiguous s) (size : Nat) : Contiguous (alloc P s size).2 := by
  obtain ⟨as, n, hc⟩ := h
  by_cases h0 : size = 0
  · unfold SimpleBestFitAllocator.alloc
    rw [if_pos h0]
    exact ⟨as, n, hc⟩
  rcases hf : findFit P s (P.word (size + kMemoryAlign - 1) / kMemoryAlign) (s.top + 1) s.mFirst none
    with _ | f
  · unfold SimpleBestFitAllocator.alloc
    rw [if_neg h0]
    simp only [hf]
    exact ⟨as, n, hc⟩
  · obtain ⟨⟨l₁, l₂, rfl⟩, hfit⟩ := findFit_need hc.list rfl hf
    obtain ⟨-, hl, -⟩ := alloc_found hc.list hfit (hc.below f (by simp)) h0 rfl hf
    have hs : Spans 0 (l₁.map s.extent ++ ([s.extent f] ++ l₂.map s.extent)) n := by
      simpa using hc.spans
    refine .of_lists hl (hs.replace fun a b => spans_carve ?_) hc.small
    rw [Nat.add_comm]
    exact hfit.2

theorem Contiguous.deallocate {fatal : Bool} {offset : Nat} {r : Int × SimpleBestFitAllocator}
    (h : Contiguous s) (hr : deallocate fatal s offset = some r) : Contiguous r.2 := by
  obtain ⟨as, n, hc⟩ := h
  by_cases h0 : s.mHeapSize = 0
  · unfold SimpleBestFitAllocator.deallocate at hr
    rw [if_pos h0] at hr
    cases hr
    exact ⟨as, n, hc⟩
  rcases deallocate_eq fatal offset hc.list h0 with ⟨-, he⟩ | ⟨l₁, cur, l₂, r', rfl, -, hm, he⟩
  · rw [he] at hr
    cases hr
    exact ⟨as, n, hc⟩
  -- The chunk is free from now on; it covers the same units.
  have h₁ : Chunks (s.setFree cur) (l₁ ++ cur :: l₂) n := by
    refine ⟨hc.list.modify rfl rfl, ?_, hc.small⟩
    have hs : Spans 0 (l₁.map s.extent ++ ([s.extent cur] ++ l₂.map s.extent)) n := by
      simpa using hc.spans
    obtain ⟨hn₁, hn₂⟩ := hc.list.notMem
    have hx := setFree_extent (s := s) cur
    rw [List.map_append, List.map_cons, map_extent_update hx hn₁, map_extent_update hx hn₂, hx,
      Function.update_self]
    exact hs.replace fun a b (hm : Spans a [s.extent cur] b) =>
      show Spans a [{ s.extent cur with free := true }] b from hm
  have hk := h₁.mergeFrom (s.top + 1) cur
  rw [hm] at hk
  rw [he] at hr
  split at hr
  · cases hr
  · split at hr
    · cases hr
    · cases hr
      exact hk

theorem Contiguous.run {fatal : Bool} {ops : List Op} {s' : SimpleBestFitAllocator}
    (h : Contiguous s) (hs : run P fatal s ops = some s') : Contiguous s' := by
  induction ops generalizing s with
  | nil =>
    cases hs
    exact h
  | cons op ops ih =>
    obtain ⟨s₁, h₁, h₂⟩ := Option.bind_eq_some_iff.mp hs
    refine ih ?_ h₂
    cases op with
    | allocate size =>
      cases h₁
      unfold allocate
      split
      · exact h
      · exact h.alloc size
    | deallocate offset =>
      obtain ⟨r, hr, rfl⟩ := Option.map_eq_some_iff.mp h₁
      exact h.deallocate hr

theorem contiguous_setSize (P : Platform) (heapSize : Nat) :
    Contiguous (setSize P init heapSize).2 :=
  .of_lists (setSize_chunk P heapSize) ⟨rfl, rfl⟩ (by
    rw [Nat.zero_add]
    exact Nat.mod_lt _ (Nat.two_pow_pos _))

/-! ## The chunk that is taken -/

end SimpleBestFitAllocator

/-- The units from `start` to the next page boundary. -/
def Platform.toBoundary (P : Platform) (start : Nat) : Nat :=
  (P.pageUnits - start % P.pageUnits) % P.pageUnits

/-- `alloc` computes the units to the next page boundary. -/
theorem extra_eq_toBoundary (P : Platform) (start : Nat) :
    SimpleBestFitAllocator.extra P start = P.toBoundary start := by
  have hpos : 0 < P.pageUnits := Nat.two_pow_pos _
  have hlt := extra_lt P start
  have hmod := add_extra_mod P start
  rw [Nat.add_mod, Nat.mod_eq_of_lt hlt] at hmod
  have hs : start % P.pageUnits < P.pageUnits := Nat.mod_lt _ hpos
  unfold Platform.toBoundary
  generalize SimpleBestFitAllocator.extra P start = e at *
  generalize start % P.pageUnits = r at *
  rcases Nat.eq_zero_or_pos r with rfl | hr
  · rw [Nat.zero_add, Nat.mod_eq_of_lt hlt] at hmod
    rw [Nat.sub_zero, Nat.mod_self, hmod]
  · rw [Nat.mod_eq_of_lt (by omega)]
    by_cases hw : r + e < P.pageUnits
    · rw [Nat.mod_eq_of_lt hw] at hmod
      omega
    · rw [Nat.mod_eq_sub_mod (by omega), Nat.mod_eq_of_lt (by omega)] at hmod
      omega

/-- The free chunk `c` holds `need` units from its first page boundary on. -/
def Extent.Serves (P : Platform) (need : Nat) (c : Extent) : Prop :=
  c.free = true ∧ need + P.toBoundary c.start ≤ c.size

instance (P : Platform) (need : Nat) : DecidablePred (Extent.Serves P need) :=
  fun _ => inferInstanceAs (Decidable (_ ∧ _))

namespace SimpleBestFitAllocator

variable {P : Platform} {s : SimpleBestFitAllocator} {as l₁ l₂ : List Nat} {n : Nat}

theorem fits_iff_serves {need : Nat} {c : Extent} : Fits P need c ↔ c.Serves P need := by
  unfold Fits Extent.Serves
  rw [extra_eq_toBoundary]

/-- What a call leaves that took the chunk `c` from between `l₁` and `l₂`: slack up to the page
boundary, the allocation of `need` units there, the rest, and all other chunks as they were. -/
structure Placed (P : Platform) (need : Nat) (r : Int × SimpleBestFitAllocator)
    (l₁ : List Extent) (c : Extent) (l₂ : List Extent) : Prop where
  aligned : P.getpagesize ∣ (c.start + P.toBoundary c.start) * kMemoryAlign
  /-- The start of the allocation in bytes, as the `ssize_t` that is returned. -/
  offset : r.1 = P.signed (P.word ((c.start + P.toBoundary c.start) * kMemoryAlign))
  offset_of_lt : (c.start + P.toBoundary c.start) * kMemoryAlign < 2 ^ 31 →
    r.1 = ((c.start + P.toBoundary c.start) * kMemoryAlign : Nat)
  chunks : Lists r.2 (l₁ ++ (c.carve (P.toBoundary c.start) need ++ l₂))

/-- An offset in whole units is never mistaken for an error. -/
theorem offset_ne_enomem (P : Platform) (x : Nat) :
    P.signed (P.word (x * kMemoryAlign)) ≠ -ENOMEM := by
  obtain ⟨k, hk⟩ : kMemoryAlign ∣ 2 ^ P.wordBits :=
    Nat.pow_dvd_pow 2 (show 5 ≤ P.wordBits from Nat.le_trans (by decide) P.le_wordBits)
  have hw : P.word (x * kMemoryAlign) = kMemoryAlign * (x % k) := by
    rw [Platform.word, hk, Nat.mul_comm x, Nat.mul_mod_mul_left]
  have hk' : (2 : Int) ^ P.wordBits = (kMemoryAlign * k : Nat) := by exact_mod_cast hk
  unfold Platform.signed
  rw [hw, hk']
  by_cases hx : kMemoryAlign * (x % k) < 2 ^ (P.wordBits - 1)
  · rw [if_pos hx]
    simp only [kMemoryAlign, ENOMEM]
    omega
  · rw [if_neg hx]
    simp only [kMemoryAlign, ENOMEM]
    omega

theorem offset_dvd (P : Platform) (start : Nat) :
    P.getpagesize ∣ (start + P.toBoundary start) * kMemoryAlign := by
  rw [P.getpagesize_eq, ← extra_eq_toBoundary]
  exact Nat.mul_dvd_mul_right (Nat.dvd_of_mod_eq_zero (add_extra_mod P start)) _

/-- One call on contiguous chunks: nothing serves the request and nothing changes, or the earliest
of the smallest chunks that do is taken. -/
theorem Contiguous.alloc_cases (h : Contiguous s) {size need : Nat} (h0 : size ≠ 0)
    (hu : P.word (size + kMemoryAlign - 1) / kMemoryAlign = need) :
    ((∀ c ∈ s.extents, ¬ c.Serves P need) ∧ SimpleBestFitAllocator.alloc P s size = (-ENOMEM, s)) ∨
    ∃ l₁ c l₂, s.extents = l₁ ++ c :: l₂ ∧ Earliest Extent.size (Extent.Serves P need) l₁ c l₂ ∧
      Placed P need (SimpleBestFitAllocator.alloc P s size) l₁ c l₂ := by
  obtain ⟨as, n, hc⟩ := h
  have hx : s.extents = as.map s.extent := by
    unfold extents
    rw [chunkList_eq hc.list]
  have hw : ∀ start, P.word (need + extra P start) = need + extra P start := by
    intro start
    rw [← hu]
    exact word_add_extra P _ start
  have heq := findFit_eq hw hc.list
  rcases hf : findFit P s need (s.top + 1) s.mFirst none with _ | f
  · left
    rw [hf, eq_comm, List.argmin_eq_none] at heq
    constructor
    · intro c hm hserves
      rw [hx] at hm
      obtain ⟨a, ha, rfl⟩ := List.mem_map.mp hm
      have := List.filter_eq_nil_iff.mp heq a ha
      simp only [decide_eq_true_eq] at this
      exact this (fits_iff_serves.mpr hserves)
    · unfold SimpleBestFitAllocator.alloc
      rw [if_neg h0]
      simp only [hu, hf]
  · right
    rw [hf] at heq
    obtain ⟨l₁, l₂, rfl, he⟩ := earliest_of_argmin heq.symm
    obtain ⟨-, hfit⟩ := findFit_need hc.list hu hf
    obtain ⟨hr, hl, -⟩ := alloc_found hc.list hfit (hc.below f (by simp)) h0 hu hf
    rw [extra_eq_toBoundary] at hr hl
    have hp : (fun a => Fits P need (s.extent a)) = Extent.Serves P need ∘ s.extent := by
      funext a
      exact propext fits_iff_serves
    rw [hp] at he
    refine ⟨l₁.map s.extent, s.extent f, l₂.map s.extent, by simp [hx], he.map, ?_⟩
    refine ⟨offset_dvd P _, hr, fun hlt => ?_, hl⟩
    exact hr.trans ((congrArg P.signed (Platform.word_of_lt (Nat.lt_trans hlt (by decide)))).trans
      (Platform.signed_of_lt hlt))

/-- **Best fit with page alignment.** In every state that calls of any sizes and offsets reach, for
a request of 1 to `2 ^ 31` bytes: where no free chunk serves it the call returns `-ENOMEM` and
changes nothing, and else it takes the earliest of the smallest ones that do. -/
theorem alloc_bestFit (P : Platform) (fatal : Bool) (heapSize : Nat) (ops : List Op)
    (s : SimpleBestFitAllocator) (hrun : run P fatal (setSize P init heapSize).2 ops = some s)
    (size : Nat) (h1 : 1 ≤ size) (h2 : size ≤ 2 ^ 31) :
    ((alloc P s size).1 = -ENOMEM ↔ ∀ c ∈ s.extents, ¬ c.Serves P (units size)) ∧
    ((∀ c ∈ s.extents, ¬ c.Serves P (units size)) → (alloc P s size).2 = s) ∧
    ((∃ c ∈ s.extents, c.Serves P (units size)) → ∃ l₁ c l₂, s.extents = l₁ ++ c :: l₂ ∧
      Earliest Extent.size (Extent.Serves P (units size)) l₁ c l₂) ∧
    ∀ l₁ c l₂, s.extents = l₁ ++ c :: l₂ →
      Earliest Extent.size (Extent.Serves P (units size)) l₁ c l₂ →
      Placed P (units size) (alloc P s size) l₁ c l₂ := by
  have hu : P.word (size + kMemoryAlign - 1) / kMemoryAlign = units size := by
    rw [Platform.word_of_lt (by unfold kMemoryAlign; omega)]; rfl
  have hcont : Contiguous s := (contiguous_setSize P heapSize).run hrun
  rcases hcont.alloc_cases (by omega) hu with ⟨hno, he⟩ | ⟨l₁, c, l₂, hx, hE, hp⟩
  · rw [he]
    refine ⟨⟨fun _ => hno, fun _ => rfl⟩, fun _ => rfl, ?_, ?_⟩
    · rintro ⟨c, hc, hserves⟩
      exact absurd hserves (hno c hc)
    · intro l₁ c l₂ hx hE
      exact absurd hE.holds (hno c (by simp [hx]))
  · have hc : c ∈ s.extents := by simp [hx]
    refine ⟨⟨fun he => ?_, fun hno => ?_⟩, fun hno => ?_, fun _ => ⟨l₁, c, l₂, hx, hE⟩, ?_⟩
    · rw [hp.offset] at he
      exact absurd he (offset_ne_enomem P _)
    · exact absurd hE.holds (hno c hc)
    · exact absurd hE.holds (hno c hc)
    · intro m₁ d m₂ hx' hE'
      obtain ⟨rfl, rfl, rfl⟩ := hE.unique hE' (hx.symm.trans hx')
      exact hp

/-- Four allocations and two releases leave three free chunks; the second one is the best fit. -/
theorem alloc_bestFit_mega : ∃ s, run .arm false (setSize .arm init 1048576).2
      [.allocate 8192, .allocate 100, .allocate 4096, .allocate 100, .deallocate 0,
        .deallocate 12288] = some s ∧
    Placed .arm 125 (alloc .arm s 4000) [⟨0, 256, true⟩, ⟨256, 4, false⟩] ⟨260, 252, true⟩
      [⟨512, 4, false⟩, ⟨516, 32252, true⟩] := by
  refine ⟨(run .arm false (setSize .arm init 1048576).2
    [.allocate 8192, .allocate 100, .allocate 4096, .allocate 100, .deallocate 0,
      .deallocate 12288]).get (by decide), by simp, ?_⟩
  exact (alloc_bestFit .arm false 1048576 [.allocate 8192, .allocate 100, .allocate 4096,
    .allocate 100, .deallocate 0, .deallocate 12288] _ (by simp) 4000 (by decide)
    (by decide)).2.2.2 _ _ _ (by decide +kernel) ⟨by decide, by decide, by decide⟩

end SimpleBestFitAllocator
end Twm.Gralloc
