import DeviceTwm.Gralloc.AllocatorClient
import DeviceTwm.Gralloc.BestFit

/-!
# `deallocate` undoes `allocate`

* `release_carve`: a free extent between neighbours that are not free is carved, and the piece is
  released: what is left is the extent. The slack and the rest are its neighbours then, and they are
  free.
* `deallocate_allocate`: so the chunk list after `allocate` and `deallocate` is the one before them,
  in every state that calls reach whose requests reserve what they ask for (`Op.Reserves`).
* `empty_chunk_shadows`: a request that wraps to no unit leaves an empty chunk before the next
  one, at the same start, and `deallocate` finds the empty one first.
-/

namespace Twm.Gralloc

/-! ## Carving and releasing -/

/-- The free chunk before an allocation that takes `c` from its unit `e` on. -/
def Extent.slack (c : Extent) (e : Nat) : List Extent := if e = 0 then [] else [⟨c.start, e, true⟩]

/-- The free chunk after it. -/
def Extent.rest (c : Extent) (e size : Nat) : List Extent :=
  if e + size = c.size then [] else [⟨c.start + e + size, c.size - (e + size), true⟩]

theorem Extent.carve_eq (c : Extent) (e size : Nat) :
    c.carve e size = c.slack e ++ ⟨c.start + e, size, false⟩ :: c.rest e size := rfl

theorem absorb_of_not_free {c : Extent} {l : List Extent} (h : ∀ d ∈ l.head?, d.free = false) :
    absorb c l = c :: l := by
  rcases l with _ | ⟨d, l⟩
  · rfl
  · simp [absorb, h d rfl]

theorem release_of_not_free {c : Extent} {l₁ l₂ : List Extent}
    (h : ∀ p ∈ l₁.getLast?, p.free = false) : release l₁ c l₂ = l₁ ++ absorb c l₂ := by
  unfold release
  rcases hl : l₁.getLast? with _ | p
  · rw [List.getLast?_eq_none_iff.mp hl]
    rfl
  · simp [h p hl]

theorem release_of_free {p c : Extent} {l₁ l₂ : List Extent} (h : p.free = true) :
    release (l₁ ++ [p]) c l₂ = l₁ ++ absorb (p.join c) l₂ := by
  simp [release, h]

/-- The free extent before `l₂` takes the rest of `c`. -/
theorem absorb_rest {c : Extent} {l₂ : List Extent} (h : ∀ d ∈ l₂.head?, d.free = false)
    (start k e size : Nat) :
    absorb ⟨start, k, true⟩ (c.rest e size ++ l₂) =
      ⟨start, k + (c.size - (e + size)), true⟩ :: l₂ := by
  unfold Extent.rest
  split
  · rename_i heq
    rw [List.nil_append, absorb_of_not_free h, ← heq, Nat.sub_self, Nat.add_zero]
  · rfl

/-- An extent that is carved and released again is as it was. -/
theorem release_carve {l₁ l₂ : List Extent} {c : Extent} {n e size : Nat}
    (h : Tiling (l₁ ++ c :: l₂) n) (hf : c.free = true) (hfits : e + size ≤ c.size) :
    release (l₁ ++ c.slack e) ⟨c.start + e, size, true⟩ (c.rest e size ++ l₂) = l₁ ++ c :: l₂ := by
  obtain ⟨-, hc, hl⟩ := List.isChain_append.mp h.apart
  -- The neighbours of a free extent are not free.
  have h₁ : ∀ p ∈ l₁.getLast?, p.free = false := by
    intro p hp
    have hpc : Apart p c := hl p hp c rfl
    simpa [Apart, hf] using hpc
  have h₂ : ∀ d ∈ l₂.head?, d.free = false := by
    intro d hd
    have hcd : Apart c d := (List.isChain_cons.mp hc).1 d hd
    simpa [Apart, hf] using hcd
  have hwhole : (⟨c.start, c.size, true⟩ : Extent) = c := by rw [← hf]
  unfold Extent.slack
  by_cases he : e = 0
  · subst he
    rw [if_pos rfl, List.append_nil, release_of_not_free h₁, absorb_rest h₂,
      show size + (c.size - (0 + size)) = c.size by omega, Nat.add_zero, hwhole]
  · rw [if_neg he, release_of_free rfl, Extent.join, absorb_rest h₂,
      show e + size + (c.size - (e + size)) = c.size by omega, hwhole]

/-- The place of an extent in a tiling is known by its start. -/
theorem split_unique {l₁ l₂ m₁ m₂ : List Extent} {c d : Extent} {lo hi : Nat}
    (h : Tiles lo (l₁ ++ c :: l₂) hi) (he : l₁ ++ c :: l₂ = m₁ ++ d :: m₂)
    (hs : c.start = d.start) : l₁ = m₁ ∧ c = d ∧ l₂ = m₂ := by
  have hd : d ∈ l₁ ++ c :: l₂ := by simp [he]
  obtain rfl := tiles_start_inj h (by simp) hd hs
  have hnd := tiles_nodup h
  rw [List.nodup_append, List.nodup_cons] at hnd
  refine (List.append_cons_inj_of_notMem ?_ ?_).mp he
  · exact fun hm => hnd.2.2 c hm c (by simp) rfl
  · exact hnd.2.1.1

/-- An offset that is not negative as a `ssize_t` is the `size_t` it was. -/
theorem Platform.toNat_signed {P : Platform} {x : Nat} (hx : x < 2 ^ P.wordBits)
    (h : 0 ≤ P.signed x) : (P.signed x).toNat = x := by
  unfold Platform.signed at h ⊢
  split at h
  · rename_i hlt
    rw [if_pos hlt, Int.toNat_natCast]
  · have : (x : Int) < 2 ^ P.wordBits := by exact_mod_cast hx
    omega

namespace SimpleBestFitAllocator

variable {P : Platform} {fatal : Bool} {s : SimpleBestFitAllocator} {n : Nat}

/-! ## What the calls keep -/

/-- A call that asks for no bytes, or for some that round up to units without a wrap to none. -/
def Op.Reserves (P : Platform) : Op → Prop
  | .allocate size => size = 0 ∨ P.word (size + kMemoryAlign - 1) / kMemoryAlign ≠ 0
  | .deallocate _ => True

instance (P : Platform) : DecidablePred (Op.Reserves P)
  | .allocate _ => inferInstanceAs (Decidable (_ ∨ _))
  | .deallocate _ => inferInstanceAs (Decidable True)

/-- The chunk list tiles the units that the 28 bits of a chunk can hold of the heap. If that is
none, it is one empty chunk. -/
structure Tiled (P : Platform) (s : SimpleBestFitAllocator) : Prop where
  contiguous : Contiguous s
  word : s.mHeapSize < 2 ^ P.wordBits
  tiling : s.extents = [⟨0, 0, true⟩] ∨ Tiling s.extents (bits28 (s.mHeapSize / kMemoryAlign))

theorem bits28_lt (x : Nat) : bits28 x < 2 ^ 28 := Nat.mod_lt _ (Nat.two_pow_pos _)

theorem bits28_mul_le (heap : Nat) : bits28 (heap / kMemoryAlign) * kMemoryAlign ≤ heap :=
  Nat.le_trans (Nat.mul_le_mul_right _ (Nat.mod_le _ _)) (Nat.div_mul_le_self _ _)

theorem Contiguous.lists (h : Contiguous s) : Lists s s.extents := by
  obtain ⟨as, n, hc⟩ := h
  exact ⟨as, hc.list, by rw [extents, chunkList_eq hc.list]⟩

theorem carve_mHeapSize (f size : Nat) : (carve P s f size).mHeapSize = s.mHeapSize := by
  unfold carve
  dsimp only
  split
  · split <;> split <;> simp [splitBefore, splitAfter, newChunk]
  · rfl

theorem alloc_mHeapSize (size : Nat) : (alloc P s size).2.mHeapSize = s.mHeapSize := by
  unfold alloc
  split
  · rfl
  · dsimp only
    split
    · rfl
    · exact carve_mHeapSize ..

/-- A request of at least one unit: nothing serves it, or it takes some of a free chunk that lies
in the heap. -/
theorem Tiled.alloc_cases (h : Tiled P s) {size need : Nat} (h0 : size ≠ 0)
    (hu : P.word (size + kMemoryAlign - 1) / kMemoryAlign = need) (hn : need ≠ 0) :
    alloc P s size = (-ENOMEM, s) ∨
      ∃ l₁ c l₂ e, s.extents = l₁ ++ c :: l₂ ∧ c.free = true ∧ e + need ≤ c.size ∧
        Tiling (l₁ ++ c :: l₂) (bits28 (s.mHeapSize / kMemoryAlign)) ∧
        (c.start + e + need) * kMemoryAlign ≤ s.mHeapSize ∧
        (alloc P s size).1 = P.signed ((c.start + e) * kMemoryAlign) ∧
        Lists (alloc P s size).2 (l₁ ++ (c.carve e need ++ l₂)) := by
  rcases h.contiguous.alloc_cases h0 hu with ⟨-, he⟩ | ⟨l₁, c, l₂, hx, hE, hp⟩
  · exact .inl he
  right
  obtain ⟨hfree, hfits⟩ := hE.holds
  rw [Nat.add_comm] at hfits
  rcases h.tiling with hnone | ht
  · -- no chunk of the empty heap holds a unit
    have hc : c ∈ s.extents := by simp [hx]
    rw [hnone, List.mem_singleton] at hc
    rw [hc] at hfits
    exact absurd (Nat.le_zero.mp (Nat.le_trans (Nat.le_add_left _ _) hfits)) hn
  · rw [hx] at ht
    have hb := (ht.tiles.mem_bounds (c := c) (by simp)).2.2
    have hle : (c.start + P.toBoundary c.start + need) * kMemoryAlign ≤ s.mHeapSize :=
      Nat.le_trans (Nat.mul_le_mul_right _ (by omega)) (bits28_mul_le _)
    have hlt : (c.start + P.toBoundary c.start) * kMemoryAlign < 2 ^ P.wordBits := by
      refine Nat.lt_of_le_of_lt (Nat.le_trans (Nat.mul_le_mul_right _ ?_) hle) h.word
      exact Nat.le_add_right _ _
    have hoff := hp.offset
    rw [Platform.word, Nat.mod_eq_of_lt hlt] at hoff
    exact ⟨l₁, c, l₂, _, hx, hfree, hfits, ht, hle, hoff, hp.chunks⟩

/-- The empty chunk that is the whole list is released to itself. -/
theorem deallocate_empty {offset : Nat} {r : Int × SimpleBestFitAllocator}
    (hl : Lists s [⟨0, 0, true⟩]) (h0 : s.mHeapSize ≠ 0)
    (hr : deallocate fatal s offset = some r) :
    r.2.extents = [⟨0, 0, true⟩] ∧ r.2.mHeapSize = s.mHeapSize := by
  obtain ⟨as, ha, hx⟩ := hl
  rcases deallocate_eq fatal offset ha h0 with ⟨-, he⟩ | ⟨l₁, cur, l₂, r', rfl, -, hm, he⟩
  · rw [he] at hr
    cases hr
    exact ⟨Lists.extents ⟨as, ha, hx⟩, rfl⟩
  have hone : (l₁ ++ cur :: l₂).length = 1 := by
    simpa using congrArg List.length hx
  rw [List.length_append, List.length_cons] at hone
  obtain rfl : l₁ = [] := List.length_eq_zero_iff.mp (by omega)
  obtain rfl : l₂ = [] := List.length_eq_zero_iff.mp (by omega)
  have hcur : s.extent cur = ⟨0, 0, true⟩ := by simpa using hx
  have h₁ : Holds (s.setFree cur) ([] ++ cur :: []) := ha.modify rfl rfl
  have hx₁ : (s.setFree cur).extent = s.extent := by
    rw [setFree_extent, hcur, ← hcur, Function.update_eq_self]
  have hstay : mergeFrom (s.top + 1) cur cur (s.setFree cur) = (cur, s.setFree cur) := by
    rw [mergeFrom, h₁.next_eq, mergePrev, h₁.prev_eq]
    rfl
  rw [hstay] at hm
  subst hm
  rw [he] at hr
  split at hr
  · cases hr
  · split at hr
    · cases hr
    · cases hr
      refine ⟨?_, rfl⟩
      rw [extents, chunkList_eq h₁, hx₁]
      exact hx

theorem Tiled.allocate (h : Tiled P s) {size : Nat} (hop : (Op.allocate size).Reserves P) :
    Tiled P (allocate P s size).2 := by
  unfold SimpleBestFitAllocator.allocate
  by_cases h0 : s.mHeapSize = 0
  · rwa [if_pos h0]
  rw [if_neg h0]
  by_cases hs : size = 0
  · subst hs
    exact h
  · have hn := hop.resolve_left hs
    have hh := alloc_mHeapSize (P := P) (s := s) size
    rcases h.alloc_cases hs rfl hn with he | ⟨l₁, c, l₂, e, -, hfree, hfits, ht, -, -, hl⟩
    · rwa [he]
    · refine ⟨h.contiguous.alloc size, by rw [hh]; exact h.word, .inr ?_⟩
      rw [hl.extents, hh]
      exact ht.carve hfree (Nat.pos_of_ne_zero hn) hfits

theorem Tiled.deallocate {offset : Nat} {r : Int × SimpleBestFitAllocator} (h : Tiled P s)
    (hr : deallocate fatal s offset = some r) : Tiled P r.2 ∧ r.2.mHeapSize = s.mHeapSize := by
  have hcont := h.contiguous.deallocate hr
  by_cases h0 : s.mHeapSize = 0
  · rw [SimpleBestFitAllocator.deallocate, if_pos h0] at hr
    cases hr
    exact ⟨h, rfl⟩
  have hl := h.contiguous.lists
  rcases h.tiling with hnone | ht
  · rw [hnone] at hl
    obtain ⟨hx, hh⟩ := deallocate_empty hl h0 hr
    exact ⟨⟨hcont, by rw [hh]; exact h.word, .inl hx⟩, hh⟩
  rcases deallocate_spec fatal offset hl ht (bits28_lt _) h0 with
    ⟨-, he⟩ | ⟨l₁, c, l₂, hx, -, ⟨-, -, he⟩ | ⟨-, s', he, hl', hh⟩⟩
  · rw [he] at hr
    cases hr
    exact ⟨h, rfl⟩
  · rw [he] at hr
    cases hr
  · rw [he] at hr
    cases hr
    refine ⟨⟨hcont, by rw [hh]; exact h.word, .inr ?_⟩, hh⟩
    rw [hx] at ht
    rw [hl'.extents, hh]
    exact ht.release

theorem Tiled.run {ops : List Op} {s' : SimpleBestFitAllocator} (h : Tiled P s)
    (hops : ∀ op ∈ ops, op.Reserves P) (hs : run P fatal s ops = some s') : Tiled P s' := by
  induction ops generalizing s with
  | nil =>
    cases hs
    exact h
  | cons op ops ih =>
    obtain ⟨s₁, h₁, h₂⟩ := Option.bind_eq_some_iff.mp hs
    refine ih ?_ (fun op ho => hops op (by simp [ho])) h₂
    have hop := hops op (by simp)
    cases op with
    | allocate size =>
      cases h₁
      exact h.allocate hop
    | deallocate offset =>
      obtain ⟨r, hr, rfl⟩ := Option.map_eq_some_iff.mp h₁
      exact (h.deallocate hr).1

theorem tiled_setSize (P : Platform) (heapSize : Nat) : Tiled P (setSize P init heapSize).2 := by
  have hlt : (setSize P init heapSize).2.mHeapSize < 2 ^ P.wordBits := by
    rw [setSize_heapSize]
    exact Nat.lt_of_le_of_lt (Nat.div_mul_le_self _ _) (Nat.mod_lt _ (Nat.two_pow_pos _))
  refine ⟨contiguous_setSize P heapSize, hlt, ?_⟩
  rw [(setSize_chunk P heapSize).extents]
  by_cases h0 : bits28 ((setSize P init heapSize).2.mHeapSize / kMemoryAlign) = 0
  · exact .inl (by rw [h0])
  · exact .inr ⟨⟨rfl, Nat.pos_of_ne_zero h0, Nat.zero_add _⟩, by simp⟩

/-! ## The pair of calls -/

/-- A request that rounds up without a wrap: it fails and changes nothing, or the piece of a free
chunk that it takes is inside the heap, and its place is the offset, as a `ssize_t`. -/
theorem Tiled.allocate_cases (h : Tiled P s) {size : Nat} (h1 : 1 ≤ size) (h2 : size + 31 < 2 ^ 32) :
    ((SimpleBestFitAllocator.allocate P s size).1 < 0 ∧
      (SimpleBestFitAllocator.allocate P s size).2 = s) ∨
      s.mHeapSize ≠ 0 ∧ ∃ l₁ c l₂ e, s.extents = l₁ ++ c :: l₂ ∧ c.free = true ∧
        e + units size ≤ c.size ∧
        Tiling (l₁ ++ c :: l₂) (bits28 (s.mHeapSize / kMemoryAlign)) ∧
        (c.start + e + units size) * kMemoryAlign ≤ s.mHeapSize ∧
        (SimpleBestFitAllocator.allocate P s size).1 = P.signed ((c.start + e) * kMemoryAlign) ∧
        Lists (SimpleBestFitAllocator.allocate P s size).2
          (l₁ ++ c.slack e ++ ⟨c.start + e, units size, false⟩ :: (c.rest e (units size) ++ l₂)) := by
  have hu : P.word (size + kMemoryAlign - 1) / kMemoryAlign = units size := by
    rw [Platform.word_of_lt (by unfold kMemoryAlign; omega)]; rfl
  by_cases h0 : s.mHeapSize = 0
  · rw [SimpleBestFitAllocator.allocate, if_pos h0]
    exact .inl ⟨show -EINVAL < 0 by decide, rfl⟩
  simp only [SimpleBestFitAllocator.allocate, if_neg h0]
  rcases h.alloc_cases (by omega) hu (Nat.pos_iff_ne_zero.mp (units_pos h1)) with
    he | ⟨l₁, c, l₂, e, hx, hfree, hfits, ht, hle, hr, hl⟩
  · rw [he]
    exact .inl ⟨show -ENOMEM < 0 by decide, rfl⟩
  rw [c.carve_eq, List.append_assoc, List.cons_append, ← List.append_assoc] at hl
  exact .inr ⟨h0, l₁, c, l₂, e, hx, hfree, hfits, ht, hle, hr, hl⟩

/-- An offset that is not negative is the place of the piece. -/
theorem Tiled.offset_eq (h : Tiled P s) {start size : Nat} {r : Int} (h1 : 1 ≤ size)
    (hle : (start + units size) * kMemoryAlign ≤ s.mHeapSize)
    (hr : r = P.signed (start * kMemoryAlign)) (hoff : 0 ≤ r) : r.toNat = start * kMemoryAlign := by
  have hw := h.word
  have hu := units_pos h1
  rw [hr] at hoff ⊢
  refine Platform.toNat_signed ?_ hoff
  simp only [kMemoryAlign] at *
  omega

/-- In a heap of up to `2 ^ 31` bytes a failed `allocate` changes nothing. -/
theorem Tiled.allocate_failed (h : Tiled P s) {size : Nat} (h1 : 1 ≤ size) (h2 : size + 31 < 2 ^ 32)
    (hheap : s.mHeapSize ≤ 2 ^ 31) (hneg : (SimpleBestFitAllocator.allocate P s size).1 < 0) :
    (SimpleBestFitAllocator.allocate P s size).2 = s := by
  rcases h.allocate_cases h1 h2 with ⟨-, he⟩ | ⟨-, l₁, c, l₂, e, -, -, -, -, hle, hr, -⟩
  · exact he
  · have hu := units_pos h1
    rw [hr, Platform.signed_of_lt (by simp only [kMemoryAlign] at *; omega)] at hneg
    omega

theorem allocate_mHeapSize (size : Nat) :
    (SimpleBestFitAllocator.allocate P s size).2.mHeapSize = s.mHeapSize := by
  unfold SimpleBestFitAllocator.allocate
  split
  · rfl
  · exact alloc_mHeapSize size

/-- The `deallocate` of the offset that `allocate` returned restores the list. -/
theorem Tiled.undo (h : Tiled P s) (fatal : Bool) {size : Nat} (h1 : 1 ≤ size)
    (h2 : size + 31 < 2 ^ 32) (hoff : 0 ≤ (SimpleBestFitAllocator.allocate P s size).1) :
    ∃ s', SimpleBestFitAllocator.deallocate fatal (SimpleBestFitAllocator.allocate P s size).2
        (SimpleBestFitAllocator.allocate P s size).1.toNat = some (0, s') ∧
      s'.extents = s.extents := by
  rcases h.allocate_cases h1 h2 with
    ⟨hneg, -⟩ | ⟨h0, l₁, c, l₂, e, hx, hfree, hfits, ht, hle, hr, hl⟩
  · omega
  have ht' := ht.carve hfree (units_pos h1) hfits
  rw [c.carve_eq, List.append_assoc, List.cons_append, ← List.append_assoc] at ht'
  rw [h.offset_eq h1 hle hr hoff]
  rcases deallocate_spec fatal ((c.start + e) * kMemoryAlign) hl ht' (bits28_lt _)
    (by rwa [allocate_mHeapSize]) with ⟨hno, -⟩ | ⟨m₁, d, m₂, hm, hds, hd⟩
  · exact absurd (Nat.mul_div_cancel _ (by decide)).symm
      (hno ⟨c.start + e, units size, false⟩ (by simp))
  · rw [Nat.mul_div_cancel _ (by decide)] at hds
    obtain ⟨rfl, rfl, rfl⟩ := split_unique ht'.tiles hm hds.symm
    rcases hd with ⟨-, hfd, -⟩ | ⟨-, s', hs', hl', -⟩
    · cases hfd
    · refine ⟨s', hs', ?_⟩
      rw [hl'.extents, hx]
      exact release_carve ht hfree hfits

/-- `size` bytes at `offset` lie in an allocated chunk of their own. -/
def Reserved (s : SimpleBestFitAllocator) (offset size : Nat) : Prop :=
  ∃ c ∈ busy s.extents, c.start * kMemoryAlign = offset ∧ size ≤ c.size * kMemoryAlign

instance (s : SimpleBestFitAllocator) (offset size : Nat) : Decidable (Reserved s offset size) :=
  inferInstanceAs (Decidable (∃ c ∈ busy s.extents, _))

/-- What `allocate` returns is reserved, and inside the heap. -/
theorem Tiled.reserved (h : Tiled P s) {size : Nat} (h1 : 1 ≤ size) (h2 : size + 31 < 2 ^ 32)
    (hoff : 0 ≤ (SimpleBestFitAllocator.allocate P s size).1) :
    Reserved (SimpleBestFitAllocator.allocate P s size).2
        (SimpleBestFitAllocator.allocate P s size).1.toNat size ∧
      (SimpleBestFitAllocator.allocate P s size).1.toNat + size ≤ s.mHeapSize := by
  have hu : size ≤ units size * kMemoryAlign := by
    simp only [units, kMemoryAlign]
    omega
  rcases h.allocate_cases h1 h2 with
    ⟨hneg, -⟩ | ⟨-, l₁, c, l₂, e, -, -, -, -, hle, hr, hl⟩
  · omega
  rw [h.offset_eq h1 hle hr hoff]
  constructor
  · refine ⟨⟨c.start + e, units size, false⟩, ?_, rfl, hu⟩
    rw [hl.extents]
    simp [busy]
  · rw [Nat.add_mul] at hle
    omega

/-- **`deallocate` undoes `allocate`.** In every state that calls reach whose requests ask for no
bytes or reserve at least one unit: when `allocate` returns an offset for 1 to `2 ^ 31` bytes, the
`deallocate` of that offset succeeds, and the chunk list is the one before. -/
theorem deallocate_allocate (P : Platform) (fatal : Bool) (heapSize : Nat) (ops : List Op)
    (s : SimpleBestFitAllocator) (hrun : run P fatal (setSize P init heapSize).2 ops = some s)
    (hops : ∀ op ∈ ops, op.Reserves P) (size : Nat) (h1 : 1 ≤ size) (h2 : size ≤ 2 ^ 31)
    (hoff : 0 ≤ (allocate P s size).1) :
    ∃ s', deallocate fatal (allocate P s size).2 (allocate P s size).1.toNat = some (0, s') ∧
      s'.extents = s.extents :=
  ((tiled_setSize P heapSize).run hops hrun).undo fatal h1 (by omega) hoff

/-- The middle chunk of three is taken, and given back: the free chunks around it join again. -/
theorem deallocate_allocate_mega : ∃ s s', run .arm false (setSize .arm init 1048576).2
      [.allocate 8192, .allocate 100, .deallocate 0] = some s ∧
    s.extents = [⟨0, 256, true⟩, ⟨256, 4, false⟩, ⟨260, 32508, true⟩] ∧
    (allocate .arm s 9000).1 = 12288 ∧
    deallocate false (allocate .arm s 9000).2 12288 = some (0, s') ∧ s'.extents = s.extents := by
  have hany : (run .arm false (setSize .arm init 1048576).2
      [.allocate 8192, .allocate 100, .deallocate 0]).any (fun s =>
      s.extents = [⟨0, 256, true⟩, ⟨256, 4, false⟩, ⟨260, 32508, true⟩] ∧
        (allocate .arm s 9000).1 = 12288) = true := by decide +kernel
  obtain ⟨s, hs, h⟩ := (Option.any_eq_true ..).mp hany
  obtain ⟨hx, hoff⟩ := of_decide_eq_true h
  obtain ⟨s', hd, hx'⟩ := deallocate_allocate .arm false 1048576
    [.allocate 8192, .allocate 100, .deallocate 0] s hs (by decide) 9000 (by decide) (by decide)
    (by rw [hoff]; decide)
  rw [hoff] at hd
  exact ⟨s, s', hs, hx, hoff, hd, hx'⟩

/-- A request for `2 ^ 32 - 1` bytes wraps to no unit: it takes an empty chunk at 0, and the next
request a chunk at 0 as well. The `deallocate` of that one frees the empty chunk. -/
theorem empty_chunk_shadows : ∃ s s', run .arm false (setSize .arm init 1048576).2
      [.allocate 4294967295] = some s ∧ (allocate .arm s 100).1 = 0 ∧
    deallocate false (allocate .arm s 100).2 0 = some (0, s') ∧ s'.extents ≠ s.extents := by
  have hany : (run .arm false (setSize .arm init 1048576).2 [.allocate 4294967295]).any (fun s =>
      (allocate .arm s 100).1 = 0 ∧ (deallocate false (allocate .arm s 100).2 0).any fun r =>
        r.1 = 0 ∧ r.2.extents ≠ s.extents) = true := by decide +kernel
  obtain ⟨s, hs, h⟩ := (Option.any_eq_true ..).mp hany
  obtain ⟨hoff, hd⟩ := of_decide_eq_true h
  obtain ⟨⟨err, s'⟩, hr, h'⟩ := (Option.any_eq_true ..).mp hd
  obtain ⟨rfl, hx⟩ := of_decide_eq_true h'
  exact ⟨s, s', hs, hoff, hr, hx⟩

end SimpleBestFitAllocator

end Twm.Gralloc
