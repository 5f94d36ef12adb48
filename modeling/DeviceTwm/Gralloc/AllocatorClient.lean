import DeviceTwm.Gralloc.AllocatorRuns

/-!
# Clients of the allocator

A client holds the allocations it got (`live`: offset and size) and gives back only offsets that
it holds. `Isolation` is what it relies on: its ranges are page aligned, inside the heap, disjoint
and at distinct offsets, each is reserved by an allocated chunk, and `deallocate` releases exactly
the chunk of that range.

`allocate` rounds the size up to units in words. For a size of 1 to `2 ^ 32 - 32` bytes nothing
wraps, and isolation holds along every history of such calls (`isolation_of_rounding`). A larger
size wraps to no unit at all, and size 0 returns offset 0 and reserves nothing: both hand out a
range that is not the client's (`isolation_fails_on_wrap`).
-/

namespace Twm.Gralloc

/-- The allocated chunks of a list. -/
def busy (l : List Extent) : List Extent := l.filter fun c => !c.free

@[simp] theorem busy_append (l₁ l₂ : List Extent) : busy (l₁ ++ l₂) = busy l₁ ++ busy l₂ :=
  List.filter_append ..

theorem busy_carve (c : Extent) (e size : Nat) :
    busy (c.carve e size) = [⟨c.start + e, size, false⟩] := by
  unfold Extent.carve busy
  split <;> split <;> simp

theorem busy_absorb {c : Extent} (h : c.free = true) (l : List Extent) :
    busy (absorb c l) = busy l := by
  rcases l with _ | ⟨d, l⟩
  · simp [absorb, busy, h]
  · simp only [absorb]
    split <;> simp_all [busy, Extent.join]

theorem busy_release {l₁ l₂ : List Extent} {c : Extent} (h : c.free = true) :
    busy (release l₁ c l₂) = busy l₁ ++ busy l₂ := by
  unfold release
  rcases List.eq_nil_or_concat l₁ with rfl | ⟨m, p, rfl⟩
  · simpa [busy] using busy_absorb h l₂
  · simp only [List.concat_eq_append, List.getLast?_append, List.getLast?_singleton,
      Option.some_or, List.dropLast_concat]
    split
    · rename_i hp
      rw [busy_append, busy_absorb (by simpa [Extent.join] using hp)]
      simp [busy, hp]
    · rw [busy_append, busy_absorb h]

/-- Extents with no unit in common. -/
def Extent.Disjoint (c d : Extent) : Prop :=
  c.start + c.size ≤ d.start ∨ d.start + d.size ≤ c.start

theorem Extent.Disjoint.symm {c d : Extent} (h : c.Disjoint d) : d.Disjoint c := Or.symm h

theorem tiles_pairwise {lo hi : Nat} {l : List Extent} (h : Tiles lo l hi) :
    l.Pairwise Extent.Disjoint := by
  induction l generalizing lo with
  | nil => exact List.Pairwise.nil
  | cons c l ih =>
    refine List.pairwise_cons.mpr ⟨fun d hd => ?_, ih h.2.2⟩
    have := h.2.2.mem_bounds hd
    have := h.1
    left
    omega

/-- A chunk of a tiling is known by its start. -/
theorem tiles_start_inj {lo hi : Nat} {l : List Extent} {c d : Extent} (h : Tiles lo l hi)
    (hc : c ∈ l) (hd : d ∈ l) (hs : c.start = d.start) : c = d := by
  induction l generalizing lo with
  | nil => cases hc
  | cons x l ih =>
    obtain ⟨hx, hz, ht⟩ := h
    rcases List.mem_cons.mp hc with rfl | hc' <;> rcases List.mem_cons.mp hd with rfl | hd'
    · rfl
    · have := (ht.mem_bounds hd').1; omega
    · have := (ht.mem_bounds hc').1; omega
    · exact ih ht hc' hd'

theorem tiles_nodup {lo hi : Nat} {l : List Extent} (h : Tiles lo l hi) : l.Nodup := by
  refine (tiles_pairwise h).imp_of_mem fun {c d} hc _ hcd => ?_
  rintro rfl
  have := (h.mem_bounds hc).2.1
  rcases hcd with hcd | hcd <;> omega

namespace SimpleBestFitAllocator

/-! ## Histories -/

/-- A client: the allocator, and the allocations (offset and size) it holds. -/
structure Client where
  heap : SimpleBestFitAllocator
  live : List (Nat × Nat)

/-- The client before its first call. -/
def Client.start (P : Platform) (heapSize : Nat) : Client := ⟨(setSize P init heapSize).2, []⟩

/-- One call. A returned offset that is not negative is an allocation; only a held offset is given
back. `none`: the client does not hold the offset, or the log ended the process. -/
def Client.step (P : Platform) (fatal : Bool) (c : Client) : Op → Option Client
  | .allocate size =>
    let r := allocate P c.heap size
    some ⟨r.2, if 0 ≤ r.1 then (r.1.toNat, size) :: c.live else c.live⟩
  | .deallocate offset =>
    match c.live.find? fun a => a.1 = offset with
    | none => none
    | some a => (deallocate fatal c.heap offset).map fun r => ⟨r.2, c.live.erase a⟩

/-- A history of calls. -/
def Client.run (P : Platform) (fatal : Bool) (c : Client) (ops : List Op) : Option Client :=
  ops.foldlM (Client.step P fatal) c

/-- The chunk that reserves an allocation. -/
def chunkOf (a : Nat × Nat) : Extent := ⟨a.1 / kMemoryAlign, units a.2, false⟩

/-- What a client relies on. -/
structure Isolation (P : Platform) (fatal : Bool) (c : Client) : Prop where
  aligned : ∀ a ∈ c.live, P.getpagesize ∣ a.1
  inside : ∀ a ∈ c.live, a.1 + a.2 ≤ c.heap.mHeapSize
  disjoint : c.live.Pairwise fun a b => a.1 + a.2 ≤ b.1 ∨ b.1 + b.2 ≤ a.1
  distinct : (c.live.map Prod.fst).Nodup
  /-- Each allocation has an allocated chunk of its own. -/
  reserved : ∀ a ∈ c.live, chunkOf a ∈ busy c.heap.extents
  /-- `deallocate` releases that chunk and no other. -/
  releases : ∀ a ∈ c.live, ∃ s', deallocate fatal c.heap a.1 = some (0, s') ∧
    busy s'.extents = (busy c.heap.extents).erase (chunkOf a)

/-- The invariant of a client: its allocations are allocated chunks, each one once. -/
structure ClientInv (P : Platform) (c : Client) : Prop where
  inv : Inv c.heap
  word : c.heap.mHeapSize < 2 ^ 32
  aligned : ∀ a ∈ c.live, P.getpagesize ∣ a.1
  positive : ∀ a ∈ c.live, 1 ≤ a.2
  chunks : (c.live.map chunkOf).Subperm (busy c.heap.extents)

namespace ClientInv

variable {P : Platform} {fatal : Bool} {c : Client}

theorem chunk_mem (h : ClientInv P c) {a : Nat × Nat} (ha : a ∈ c.live) :
    chunkOf a ∈ busy c.heap.extents := h.chunks.subset (List.mem_map_of_mem ha)

/-- The chunk of an allocation, in bytes: it starts at the offset and covers the size. -/
theorem offset_eq (h : ClientInv P c) {a : Nat × Nat} (ha : a ∈ c.live) :
    a.1 = (chunkOf a).start * kMemoryAlign ∧ a.2 ≤ (chunkOf a).size * kMemoryAlign := by
  have hk : kMemoryAlign ∣ a.1 :=
    Nat.dvd_trans ⟨_, (P.getpagesize_eq).trans (Nat.mul_comm _ _)⟩ (h.aligned a ha)
  refine ⟨(Nat.div_mul_cancel hk).symm, ?_⟩
  simp only [chunkOf, units, kMemoryAlign]
  omega

/-- What `deallocate` does with a held offset. -/
theorem deallocate_live (fatal : Bool) (h : ClientInv P c) {a : Nat × Nat} (ha : a ∈ c.live) :
    ∃ s', deallocate fatal c.heap a.1 = some (0, s') ∧ Inv s' ∧
      s'.mHeapSize = c.heap.mHeapSize ∧
      busy s'.extents = (busy c.heap.extents).erase (chunkOf a) := by
  obtain ⟨l, hl, ht⟩ := h.inv.lists
  have hm := h.chunk_mem ha
  rw [hl.extents] at hm ⊢
  obtain ⟨hml, -⟩ := List.mem_filter.mp hm
  rcases deallocate_spec fatal a.1 hl ht h.inv.small h.inv.heapSize_ne with
    ⟨hno, -⟩ | ⟨l₁, d, l₂, rfl, hds, hd⟩
  · exact absurd rfl (hno _ hml)
  · have hda : d = chunkOf a := tiles_start_inj ht.tiles (by simp) hml hds
    rcases hd with ⟨-, hfree, -⟩ | ⟨-, s', hs', hl', hh⟩
    · rw [hda] at hfree
      cases hfree
    · refine ⟨s', hs', h.inv.of_lists hh hl' ht.release, hh, ?_⟩
      have hb : busy (l₁ ++ d :: l₂) = busy l₁ ++ d :: busy l₂ := by
        rw [busy_append]
        simp [busy, hda, chunkOf]
      have hnd : (busy l₁ ++ d :: busy l₂).Nodup := by
        rw [← hb]
        exact (tiles_nodup ht.tiles).filter _
      rw [hl'.extents, busy_release rfl, hb, ← hda, List.erase_append_right, List.erase_cons_head]
      intro hd₁
      exact (List.nodup_append.mp hnd).2.2 d hd₁ d (by simp) rfl

theorem isolation (h : ClientInv P c) : Isolation P fatal c := by
  have ht := h.inv.tiling
  have hin : ∀ a ∈ c.live, chunkOf a ∈ c.heap.extents := fun a ha =>
    (List.mem_filter.mp (h.chunk_mem ha)).1
  have hpair : (c.live.map chunkOf).Pairwise Extent.Disjoint := by
    obtain ⟨l, hp, hs⟩ := h.chunks
    have hl : l.Pairwise Extent.Disjoint :=
      (tiles_pairwise ht.tiles).sublist (hs.trans List.filter_sublist)
    exact (hp.pairwise_iff fun hcd => Extent.Disjoint.symm hcd).mp hl
  rw [List.pairwise_map] at hpair
  refine ⟨h.aligned, fun a ha => ?_, ?_, ?_, fun a ha => h.chunk_mem ha, fun a ha => ?_⟩
  · obtain ⟨ho, hz⟩ := h.offset_eq ha
    have hb := (ht.tiles.mem_bounds (hin a ha)).2.2
    have : c.heap.mHeapSize / kMemoryAlign * kMemoryAlign ≤ c.heap.mHeapSize :=
      Nat.div_mul_le_self _ _
    simp only [kMemoryAlign] at *
    omega
  · refine hpair.imp_of_mem fun {a b} ha hb hab => ?_
    have h₁ := h.offset_eq ha
    have h₂ := h.offset_eq hb
    unfold Extent.Disjoint at hab
    simp only [kMemoryAlign] at *
    omega
  · rw [List.Nodup, List.pairwise_map]
    refine hpair.imp_of_mem fun {a b} ha hb hab => ?_
    have h₁ := (ht.tiles.mem_bounds (hin a ha)).2.1
    have h₂ := (ht.tiles.mem_bounds (hin b hb)).2.1
    have h₃ := (h.offset_eq ha).1
    have h₄ := (h.offset_eq hb).1
    unfold Extent.Disjoint at hab
    simp only [kMemoryAlign] at *
    omega
  · obtain ⟨s', hs', -, -, hb⟩ := h.deallocate_live fatal ha
    exact ⟨s', hs', hb⟩

/-- A call that does not wrap keeps the invariant. -/
theorem step {c' : Client} {op : Op} (hw : P.wordBits = 32) (h : ClientInv P c) (hop : op.Rounds)
    (hs : Client.step P fatal c op = some c') : ClientInv P c' := by
  cases op with
  | allocate size =>
    obtain ⟨l, hl, ht⟩ := h.inv.lists
    cases hs
    simp only [allocate, if_neg h.inv.heapSize_ne]
    rcases alloc_spec (P := P) hl ht h.inv.small hop.1 hop.2 with he | ⟨hh, l₁, l₂, d, e, hc⟩
    · rw [he, if_neg (show ¬ (0 : Int) ≤ -ENOMEM by decide)]
      exact h
    · have hinv := h.inv.of_lists hh hc.lists (hc.tiling ht hop.1)
      -- The new allocated chunk, and the ones before.
      have hbusy : busy (alloc P c.heap size).2.extents =
          busy l₁ ++ ⟨d.start + e, units size, false⟩ :: busy l₂ := by
        rw [hc.lists.extents, busy_append, busy_append, busy_carve]
        rfl
      have hold : busy c.heap.extents = busy l₁ ++ busy l₂ := by
        rw [hl.extents, hc.split, busy_append]
        simp [busy, hc.free]
      have hchunks := h.chunks
      rw [hold] at hchunks
      have hlt : (d.start + e) * kMemoryAlign < 2 ^ 32 := by
        have hb := (ht.tiles.mem_bounds (c := d) (by rw [hc.split]; simp)).2.2
        have := hc.fits
        have := units_pos hop.1
        have := h.word
        simp only [kMemoryAlign] at *
        omega
      have hoff := hc.offset
      rw [Platform.word_of_lt hlt] at hoff
      split
      · rename_i hr
        have hr' : (alloc P c.heap size).1.toNat = (d.start + e) * kMemoryAlign := by
          unfold Platform.signed at hoff
          rw [hw] at hoff
          split at hoff <;> omega
        have hchunk : chunkOf ((alloc P c.heap size).1.toNat, size) =
            ⟨d.start + e, units size, false⟩ := by
          simp only [chunkOf, hr', Nat.mul_div_cancel _ (show 0 < kMemoryAlign by decide)]
        refine ⟨hinv, by rw [hh]; exact h.word, ?_, ?_, ?_⟩
        · intro a ha
          rcases List.mem_cons.mp ha with rfl | ha
          · rw [P.getpagesize_eq, hr']
            exact Nat.mul_dvd_mul_right (Nat.dvd_of_mod_eq_zero hc.aligned) _
          · exact h.aligned a ha
        · intro a ha
          rcases List.mem_cons.mp ha with rfl | ha
          · exact hop.1
          · exact h.positive a ha
        · rw [List.map_cons, hchunk, hbusy]
          exact ((List.subperm_cons _).mpr hchunks).trans List.perm_middle.symm.subperm
      · refine ⟨hinv, by rw [hh]; exact h.word, h.aligned, h.positive, ?_⟩
        rw [hbusy]
        exact hchunks.trans ((List.sublist_cons_self _ _).subperm.trans
          List.perm_middle.symm.subperm)
  | deallocate offset =>
    simp only [Client.step] at hs
    split at hs
    · cases hs
    · rename_i a ha
      have hmem := List.mem_of_find?_eq_some ha
      have hoff : a.1 = offset := by simpa using List.find?_some ha
      obtain ⟨s', hs', hinv, hh, hb⟩ := h.deallocate_live fatal hmem
      rw [← hoff, hs'] at hs
      cases hs
      refine ⟨hinv, by rw [hh]; exact h.word, fun b hb' => h.aligned b (List.mem_of_mem_erase hb'),
        fun b hb' => h.positive b (List.mem_of_mem_erase hb'), ?_⟩
      rw [hb]
      have hp : (c.live.map chunkOf).Perm (chunkOf a :: (c.live.erase a).map chunkOf) :=
        (List.perm_cons_erase hmem).map chunkOf
      have := (hp.symm.subperm.trans h.chunks).trans
        (List.perm_cons_erase (h.chunk_mem hmem)).subperm
      exact (List.subperm_cons _).mp this

end ClientInv

/-- A heap whose rounded size wrapped to 0 hands out nothing. -/
theorem step_of_empty {P : Platform} {fatal : Bool} {c c' : Client} {op : Op}
    (h0 : c.heap.mHeapSize = 0) (hl : c.live = []) (hs : Client.step P fatal c op = some c') :
    c'.heap.mHeapSize = 0 ∧ c'.live = [] := by
  cases op with
  | allocate size =>
    cases hs
    simp only [allocate, if_pos h0]
    exact ⟨h0, by rw [if_neg (show ¬ (0 : Int) ≤ -EINVAL by decide)]; exact hl⟩
  | deallocate offset => simp [Client.step, hl] at hs

theorem start_inv (P : Platform) (hw : P.wordBits = 32) (heapSize : Nat) :
    (Client.start P heapSize).heap.mHeapSize = 0 ∨ ClientInv P (Client.start P heapSize) := by
  by_cases h0 : (Client.start P heapSize).heap.mHeapSize = 0
  · exact .inl h0
  right
  have hh := setSize_heapSize P heapSize
  have hlt : (setSize P init heapSize).2.mHeapSize < 2 ^ 32 := by
    rw [hh]
    refine Nat.lt_of_le_of_lt (Nat.div_mul_le_self _ _) ?_
    rw [← hw]
    exact Nat.mod_lt _ (Nat.two_pow_pos _)
  have hk : kMemoryAlign ∣ (setSize P init heapSize).2.mHeapSize := by
    rw [hh, P.getpagesize_eq, ← Nat.mul_assoc]
    exact Nat.dvd_mul_left _ _
  have hsm : (setSize P init heapSize).2.mHeapSize / kMemoryAlign < 2 ^ 28 := by
    simp only [kMemoryAlign]
    omega
  have hne : (setSize P init heapSize).2.mHeapSize / kMemoryAlign ≠ 0 := by
    intro hz
    have hm := Nat.div_mul_cancel hk
    rw [hz, Nat.zero_mul] at hm
    exact h0 hm.symm
  have hl := setSize_lists P heapSize hsm
  refine ⟨⟨hne, hsm, _, hl, ⟨rfl, Nat.pos_of_ne_zero hne, Nat.zero_add _⟩, by simp⟩, hlt, ?_, ?_, ?_⟩
  · intro a ha; cases ha
  · intro a ha; cases ha
  · exact List.nil_subperm

/-- **Isolation of live allocations.** Along every history of calls that ask for 1 to
`2 ^ 32 - 32` bytes, on a heap of any size, the allocations of the client are isolated. -/
theorem isolation_of_rounding (P : Platform) (hw : P.wordBits = 32) (fatal : Bool)
    (heapSize : Nat) (ops : List Op) (c : Client)
    (hops : ∀ size, Op.allocate size ∈ ops → 1 ≤ size ∧ size ≤ 2 ^ 32 - 32)
    (hrun : Client.run P fatal (Client.start P heapSize) ops = some c) : Isolation P fatal c := by
  have key : ∀ (ops : List Op) (c₀ : Client), (∀ op ∈ ops, op.Rounds) →
      ((c₀.heap.mHeapSize = 0 ∧ c₀.live = []) ∨ ClientInv P c₀) →
      Client.run P fatal c₀ ops = some c →
      (c.heap.mHeapSize = 0 ∧ c.live = []) ∨ ClientInv P c := by
    intro ops
    induction ops with
    | nil =>
      intro c₀ _ h hr
      cases hr
      exact h
    | cons op ops ih =>
      intro c₀ hops h hr
      obtain ⟨c₁, h₁, h₂⟩ := Option.bind_eq_some_iff.mp hr
      refine ih c₁ (fun op ho => hops op (by simp [ho])) ?_ h₂
      rcases h with ⟨h0, hl⟩ | h
      · exact .inl (step_of_empty h0 hl h₁)
      · exact .inr (h.step hw (hops op (by simp)) h₁)
  have hops' : ∀ op ∈ ops, op.Rounds := by
    intro op ho
    cases op with
    | allocate size => have := hops size ho; exact ⟨this.1, by omega⟩
    | deallocate offset => trivial
  rcases key ops _ hops' ((start_inv P hw heapSize).imp (fun h => ⟨h, rfl⟩) id) hrun with
    ⟨-, hl⟩ | h
  · constructor <;> simp [hl]
  · exact h.isolation

theorem isolation_of_rounding_mega : Isolation .arm false
    ((Client.run .arm false (Client.start .arm 1048576)
      [.allocate 100, .allocate 5000, .deallocate 0, .allocate 4096]).get (by decide)) :=
  isolation_of_rounding .arm rfl false 1048576
    [.allocate 100, .allocate 5000, .deallocate 0, .allocate 4096] _
    (by simp) (by simp)

/-- A size of `2 ^ 32 - 1` rounds to no unit: the call carves an empty chunk at offset 0, and the
next call hands out offset 0 again. -/
theorem isolation_fails_on_wrap : ∃ c : Client,
    Client.run .arm false (Client.start .arm 1048576)
      [.allocate (2 ^ 32 - 1), .allocate 100] = some c ∧ ¬ Isolation .arm false c := by
  refine ⟨(Client.run .arm false (Client.start .arm 1048576)
    [.allocate (2 ^ 32 - 1), .allocate 100]).get (by decide), by simp, fun h => ?_⟩
  exact absurd h.distinct (by decide)

end SimpleBestFitAllocator

end Twm.Gralloc
