import Mathlib.Data.List.Chain
import DeviceTwm.Gralloc.AllocatorLists
import Mathlib.Algebra.GroupWithZero.Nat

/-!
# The chunk list tiles the heap

`Tiles lo l hi`: the extents `l` lie one after the other from `lo` to `hi`, none of them empty.
`Tiling l n` adds that no two neighbours are both free: the invariant of the chunk list.

* `Tiling.carve`: an allocation puts up to three extents in the place of a free one.
* `Tiling.release`: a free extent joins its free neighbours.
* `carve_spec` and `mergeFrom_spec`: the two loops of the code do this to the chunk list.
-/

namespace Twm.Gralloc

open Lib

/-! ## Tilings -/

/-- The extents `l`, none of them empty, one after the other from `lo` to `hi`. -/
def Tiles : Nat → List Extent → Nat → Prop
  | lo, [], hi => lo = hi
  | lo, c :: l, hi => c.start = lo ∧ 0 < c.size ∧ Tiles (lo + c.size) l hi

@[simp] theorem tiles_nil {lo hi : Nat} : Tiles lo [] hi ↔ lo = hi := Iff.rfl

@[simp] theorem tiles_cons {lo hi : Nat} {c : Extent} {l : List Extent} :
    Tiles lo (c :: l) hi ↔ c.start = lo ∧ 0 < c.size ∧ Tiles (lo + c.size) l hi := Iff.rfl

theorem tiles_append {lo hi : Nat} {l₁ l₂ : List Extent} :
    Tiles lo (l₁ ++ l₂) hi ↔ ∃ mid, Tiles lo l₁ mid ∧ Tiles mid l₂ hi := by
  induction l₁ generalizing lo with
  | nil => simp
  | cons c l ih => simp [ih, and_assoc]

theorem Tiles.le {lo hi : Nat} {l : List Extent} (h : Tiles lo l hi) : lo ≤ hi := by
  induction l generalizing lo with
  | nil => exact Nat.le_of_eq h
  | cons c l ih => have := ih h.2.2; omega

theorem Tiles.sum_size {lo hi : Nat} {l : List Extent} (h : Tiles lo l hi) :
    lo + (l.map Extent.size).sum = hi := by
  induction l generalizing lo with
  | nil => simpa using h
  | cons c l ih => have := ih h.2.2; simp only [List.map_cons, List.sum_cons]; omega

/-- Every extent of a tiling lies in its bounds. -/
theorem Tiles.mem_bounds {lo hi : Nat} {l : List Extent} {c : Extent} (h : Tiles lo l hi)
    (hc : c ∈ l) : lo ≤ c.start ∧ 0 < c.size ∧ c.start + c.size ≤ hi := by
  obtain ⟨l₁, l₂, rfl⟩ := List.append_of_mem hc
  obtain ⟨mid, h₁, hs, hz, h₂⟩ := tiles_append.mp h
  have := h₁.le
  have := h₂.le
  omega

/-- Neighbours of which not both are free. -/
def Apart (c d : Extent) : Prop := ¬ (c.free = true ∧ d.free = true)

instance : DecidableRel Apart := fun _ _ => inferInstanceAs (Decidable (¬ _))

/-- The extents `l` tile `n` units, and no two neighbours are both free. -/
structure Tiling (l : List Extent) (n : Nat) : Prop where
  tiles : Tiles 0 l n
  apart : l.IsChain Apart

/-- A tiling of free extents only is one extent. -/
theorem Tiling.all_free {l : List Extent} {n : Nat} (h : Tiling l n) (hn : n ≠ 0)
    (hf : ∀ c ∈ l, c.free = true) : l = [⟨0, n, true⟩] := by
  match l, h, hf with
  | [], h, _ => exact absurd h.tiles.symm hn
  | [c], h, hf =>
    obtain ⟨hs, -, hz⟩ := h.tiles
    have hc := hf c List.mem_cons_self
    cases c
    simp_all
  | c :: d :: l, h, hf =>
    have := (List.isChain_cons_cons.mp h.apart).1
    exact absurd ⟨hf c (by simp), hf d (by simp)⟩ this

/-- What `alloc` puts in the place of the free extent `c`: the slack of `e` units, the allocation,
and the rest. -/
def Extent.carve (c : Extent) (e size : Nat) : List Extent :=
  (if e = 0 then [] else [⟨c.start, e, true⟩]) ++ ⟨c.start + e, size, false⟩ ::
    (if e + size = c.size then [] else [⟨c.start + e + size, c.size - (e + size), true⟩])

theorem Tiling.carve {l₁ l₂ : List Extent} {c : Extent} {n e size : Nat}
    (h : Tiling (l₁ ++ c :: l₂) n) (hf : c.free = true) (hs : 0 < size) (he : e + size ≤ c.size) :
    Tiling (l₁ ++ (c.carve e size ++ l₂)) n := by
  obtain ⟨mid, h₁, hc, hz, h₂⟩ := tiles_append.mp h.tiles
  constructor
  · refine tiles_append.mpr ⟨mid, h₁, tiles_append.mpr ⟨mid + c.size, ?_, h₂⟩⟩
    unfold Extent.carve
    split <;> split <;> simp [hc] <;> omega
  · have ha := h.apart
    rw [List.isChain_append] at ha ⊢
    obtain ⟨ha₁, ha₂, hj⟩ := ha
    rw [List.isChain_cons] at ha₂
    refine ⟨ha₁, ?_, ?_⟩
    · rw [List.isChain_append]
      refine ⟨?_, ha₂.2, ?_⟩
      · unfold Extent.carve
        split <;> split <;> simp [Apart]
      · intro x hx y hy
        have hc' := ha₂.1 y hy
        simp only [Apart, hf, true_and] at hc' ⊢
        exact fun hxy => hc' hxy.2
    · intro x hx y hy
      have hc' := hj x hx c (by simp)
      simp only [Apart, hf, and_true] at hc' ⊢
      exact fun hxy => hc' hxy.1

/-- `c` with the units of its successor `d`. -/
def Extent.join (c d : Extent) : Extent := { c with size := c.size + d.size }

/-- `c`, joined with its successor if that is free, and what follows. -/
def absorb (c : Extent) : List Extent → List Extent
  | [] => [c]
  | d :: l => if d.free then c.join d :: l else c :: d :: l

/-- What `dealloc` leaves of the list `l₁ ++ c :: l₂`, with `c` free from now on. -/
def release (l₁ : List Extent) (c : Extent) (l₂ : List Extent) : List Extent :=
  match l₁.getLast? with
  | none => absorb c l₂
  | some p => if p.free then l₁.dropLast ++ absorb (p.join c) l₂ else l₁ ++ absorb c l₂

theorem tiles_absorb {c : Extent} {l : List Extent} {lo hi : Nat} (h : Tiles lo (c :: l) hi) :
    Tiles lo (absorb c l) hi := by
  rcases l with _ | ⟨d, l⟩
  · exact h
  · obtain ⟨hs, hz, hd, hdz, ht⟩ := h
    simp only [absorb]
    split
    · refine ⟨hs, by simp only [Extent.join]; omega, ?_⟩
      rw [Extent.join, ← Nat.add_assoc]
      exact ht
    · exact ⟨hs, hz, hd, hdz, ht⟩

theorem apart_absorb {c : Extent} {l : List Extent} (h : l.IsChain Apart) :
    (absorb c l).IsChain Apart := by
  rcases l with _ | ⟨d, l⟩
  · simp [absorb]
  · simp only [absorb]
    split
    · rename_i hd
      rw [List.isChain_cons] at h ⊢
      refine ⟨fun y hy hc => h.1 y hy ⟨hd, hc.2⟩, h.2⟩
    · rename_i hd
      rw [List.isChain_cons_cons]
      exact ⟨fun hc => hd hc.2, h⟩

/-- A list of extents that ends in one that is not free, before a freed one. -/
theorem apart_append_absorb {l₁ l₂ : List Extent} {c : Extent} (h₁ : l₁.IsChain Apart)
    (hl : ∀ p ∈ l₁.getLast?, p.free = false) (h₂ : l₂.IsChain Apart) :
    (l₁ ++ absorb c l₂).IsChain Apart := by
  rw [List.isChain_append]
  refine ⟨h₁, apart_absorb h₂, fun x hx y _ hxy => ?_⟩
  rw [hl x hx] at hxy
  cases hxy.1

theorem Tiling.release {l₁ l₂ : List Extent} {c : Extent} {n : Nat}
    (h : Tiling (l₁ ++ c :: l₂) n) :
    Tiling (release l₁ { c with free := true } l₂) n := by
  obtain ⟨mid, h₁, hc, hz, h₂⟩ := tiles_append.mp h.tiles
  have hc' : Tiles mid ({ c with free := true } :: l₂) n := ⟨hc, hz, h₂⟩
  obtain ⟨ha₁, ha₂, -⟩ := List.isChain_append.mp h.apart
  have ha₂' := (List.isChain_cons.mp ha₂).2
  unfold Gralloc.release
  rcases List.eq_nil_or_concat l₁ with rfl | ⟨m, p, rfl⟩
  · rw [tiles_nil] at h₁
    subst h₁
    exact ⟨tiles_absorb hc', apart_absorb ha₂'⟩
  · simp only [List.concat_eq_append, List.getLast?_append, List.getLast?_singleton,
      Option.some_or, List.dropLast_concat] at h₁ ha₁ ⊢
    split
    · rename_i hp
      -- `p` and `c` are one extent; the one before `p` is not free.
      obtain ⟨mid', hm, hps, hpz, hpe⟩ := tiles_append.mp h₁
      rw [tiles_nil] at hpe
      obtain ⟨ham, -, haj⟩ := List.isChain_append.mp ha₁
      refine ⟨tiles_append.mpr ⟨mid', hm, tiles_absorb ⟨hps, ?_, ?_⟩⟩,
        apart_append_absorb ham (fun q hq => ?_) ha₂'⟩
      · simp only [Extent.join]; omega
      · have : mid' + (p.join { c with free := true }).size = mid + c.size := by
          simp only [Extent.join]; omega
        rw [this]
        exact h₂
      · have := haj q hq p (by simp)
        simpa [Apart, hp] using this
    · rename_i hp
      refine ⟨tiles_append.mpr ⟨mid, h₁, tiles_absorb hc'⟩, apart_append_absorb ha₁ (fun q hq => ?_) ha₂'⟩
      simp only [List.getLast?_append, List.getLast?_singleton, Option.some_or,
        Option.mem_def, Option.some.injEq] at hq
      subst hq
      simpa using hp

/-! ## Words and pages -/

namespace Platform

variable (P : Platform)

/-- The units of a page. -/
def pageUnits : Nat := 2 ^ (P.pageShift - 5)

theorem getpagesize_eq : P.getpagesize = P.pageUnits * kMemoryAlign := by
  have : P.pageShift = (P.pageShift - 5) + 5 := by have := P.le_pageShift; omega
  unfold getpagesize pageUnits kMemoryAlign
  conv => lhs; rw [this, Nat.pow_add]

theorem getpagesize_div : P.getpagesize / kMemoryAlign = P.pageUnits := by
  rw [getpagesize_eq]; exact Nat.mul_div_cancel _ (by decide)

theorem pageUnits_le : P.pageUnits ≤ 2 ^ 26 :=
  Nat.pow_le_pow_right (by decide) (by have := P.pageShift_lt; omega)

theorem pageUnits_dvd : P.pageUnits ∣ 2 ^ P.wordBits :=
  Nat.pow_dvd_pow _ (by have := P.pageShift_lt; have := P.le_wordBits; omega)

theorem word_range : 2 ^ 31 ≤ 2 ^ (P.wordBits - 1) ∧ 2 ^ P.wordBits = 2 * 2 ^ (P.wordBits - 1) := by
  refine ⟨Nat.pow_le_pow_right (by decide) (by have := P.le_wordBits; omega), ?_⟩
  rw [← Nat.pow_succ']
  congr 1
  have := P.le_wordBits
  omega

variable {P}

theorem word_of_lt {x : Nat} (h : x < 2 ^ 32) : P.word x = x := by
  have := P.word_range
  exact Nat.mod_eq_of_lt (by omega)

theorem signed_of_lt {x : Nat} (h : x < 2 ^ 31) : P.signed x = x := by
  have := P.word_range
  unfold signed
  rw [if_pos (by omega)]

end Platform

open SimpleBestFitAllocator

theorem extra_lt (P : Platform) (start : Nat) : extra P start < P.pageUnits := by
  unfold extra
  rw [P.getpagesize_div, Platform.pageUnits, Nat.and_two_pow_sub_one_eq_mod]
  exact Nat.mod_lt _ (Nat.two_pow_pos _)

/-- The units of a size and the slack do not wrap. -/
theorem word_add_extra (P : Platform) (size start : Nat) :
    P.word (P.word size / kMemoryAlign + extra P start) =
      P.word size / kMemoryAlign + extra P start := by
  have hw := P.word_range
  have hs : P.word size < 2 ^ P.wordBits := Nat.mod_lt _ (Nat.two_pow_pos _)
  have he := extra_lt P start
  have hp := P.pageUnits_le
  refine Nat.mod_eq_of_lt ?_
  simp only [kMemoryAlign]
  omega

/-- `start + extra` is on a page boundary. -/
theorem add_extra_mod (P : Platform) (start : Nat) :
    (start + extra P start) % P.pageUnits = 0 := by
  have hd := P.pageUnits_dvd
  have hlt : start % 2 ^ P.wordBits < 2 ^ P.wordBits := Nat.mod_lt _ (Nat.two_pow_pos _)
  have he : extra P start % P.pageUnits
      = (2 ^ P.wordBits - start % 2 ^ P.wordBits) % P.pageUnits := by
    unfold extra Platform.word
    rw [P.getpagesize_div]
    conv => lhs; rw [Platform.pageUnits, Nat.and_two_pow_sub_one_eq_mod]
    rw [← Platform.pageUnits, Nat.mod_mod, Nat.mod_mod_of_dvd _ hd]
  rw [Nat.add_mod, he, ← Nat.mod_mod_of_dvd start hd, ← Nat.add_mod,
    Nat.add_sub_cancel' (Nat.le_of_lt hlt)]
  exact Nat.mod_eq_zero_of_dvd hd

/-! ## `alloc` on the chunk list -/

namespace SimpleBestFitAllocator

variable {P : Platform} {s : SimpleBestFitAllocator} {as l₁ l₂ : List Nat} {f a : Nat}

theorem newChunk_extent (start size : Nat) :
    (s.newChunk start size).2.extent = Function.update s.extent s.top ⟨start, bits28 size, true⟩ := by
  funext b
  by_cases h : b = s.top
  · subst h; simp [extent, newChunk]
  · simp [extent, newChunk, h]

theorem Holds.top_notMem (h : Holds s as) : s.top ∉ as :=
  fun hm => absurd (h.below _ hm) (Nat.lt_irrefl _)

theorem Holds.notMem (h : Holds s (l₁ ++ f :: l₂)) : f ∉ l₁ ∧ f ∉ l₂ := by
  have := h.nodup
  simp only [List.nodup_append, List.nodup_cons] at this
  exact ⟨fun hm => this.2.2 f hm f (by simp) rfl, this.2.1.1⟩

/-- A new extent at one address keeps those of a list without it. -/
theorem map_extent_update {s' : SimpleBestFitAllocator} {c : Extent} {l : List Nat}
    (h : s'.extent = Function.update s.extent a c) (ha : a ∉ l) :
    l.map s'.extent = l.map s.extent := by
  refine List.map_congr_left fun x hx => ?_
  rw [h, Function.update_of_ne]
  rintro rfl
  exact ha hx

/-- The slack of `e` units before the allocation `f`. -/
theorem splitBefore_spec {e : Nat} (h : Holds s (l₁ ++ f :: l₂)) (he : e < 2 ^ 28)
    (hs : (s.mem f).start + e < 2 ^ 32) :
    ∃ b s₂, (if e = 0 then s else splitBefore P s f e) = s₂ ∧ Holds s₂ (l₁ ++ b ++ f :: l₂) ∧
      b.map s₂.extent = (if e = 0 then [] else [⟨(s.mem f).start, e, true⟩]) ∧
      s₂.extent f = { s.extent f with start := (s.mem f).start + e } ∧
      (∀ x ∈ l₁ ++ l₂, s₂.extent x = s.extent x) ∧ s₂.mHeapSize = s.mHeapSize := by
  refine ⟨if e = 0 then [] else [s.top], _, rfl, ?_⟩
  by_cases h0 : e = 0
  · subst h0
    rw [if_pos rfl, if_pos rfl, List.append_nil]
    exact ⟨h, rfl, rfl, fun _ _ => rfl, rfl⟩
  simp only [if_neg h0]
  have hft : f ≠ s.top := by
    rintro rfl
    exact h.top_notMem (by simp)
  obtain ⟨hn, hni⟩ := h.newChunk (s.mem f).start e
  have hx : (splitBefore P s f e).extent = Function.update
      (Function.update s.extent s.top ⟨(s.mem f).start, e, true⟩) f
      { s.extent f with start := (s.mem f).start + e } := by
    unfold splitBefore
    rw [insertBefore_extent]
    funext b
    by_cases hb : b = f
    · subst hb
      simp [extent, newChunk, hft, Platform.word_of_lt hs]
    · rw [extent_modify_ne _ hb, newChunk_extent, Function.update_of_ne hb, bits28,
        Nat.mod_eq_of_lt he]
  refine ⟨?_, ?_, ?_, fun x hm => ?_, ?_⟩
  · unfold splitBefore
    rw [List.append_assoc]
    exact Holds.insertBefore (hn.modify rfl rfl) hni (Nat.lt_succ_self _)
  · simp [hx, hft.symm]
  · simp [hx]
  · rw [hx, Function.update_of_ne, Function.update_of_ne]
    · rintro rfl
      exact h.top_notMem (by simp at hm ⊢; tauto)
    · rintro rfl
      simp [h.notMem] at hm
  · simp [splitBefore, newChunk]

/-- The rest of `r` units after the allocation `f`. -/
theorem splitAfter_spec {r : Nat} (h : Holds s (l₁ ++ f :: l₂)) (hr : r < 2 ^ 28)
    (hs : (s.mem f).start + (s.mem f).size < 2 ^ 32) :
    ∃ c s₂, (if 0 < (r : Int) then splitAfter P s f (r : Int).toNat else s) = s₂ ∧
      Holds s₂ (l₁ ++ f :: (c ++ l₂)) ∧
      c.map s₂.extent = (if r = 0 then [] else [⟨(s.mem f).start + (s.mem f).size, r, true⟩]) ∧
      (∀ x ∈ l₁ ++ f :: l₂, s₂.extent x = s.extent x) ∧ s₂.mHeapSize = s.mHeapSize := by
  refine ⟨if r = 0 then [] else [s.top], _, rfl, ?_⟩
  by_cases h0 : r = 0
  · subst h0
    rw [if_pos rfl, if_neg (by decide), List.nil_append]
    exact ⟨h, rfl, fun _ _ => rfl, rfl⟩
  simp only [if_neg h0, if_pos (show 0 < (r : Int) by omega), Int.toNat_natCast]
  obtain ⟨hn, hni⟩ := h.newChunk (P.word ((s.mem f).start + (s.mem f).size)) r
  have hx : (splitAfter P s f r).extent = Function.update s.extent s.top
      ⟨(s.mem f).start + (s.mem f).size, r, true⟩ := by
    unfold splitAfter
    rw [insertAfter_extent, newChunk_extent, bits28, Nat.mod_eq_of_lt hr, Platform.word_of_lt hs]
  refine ⟨?_, ?_, fun x hm => ?_, ?_⟩
  · unfold splitAfter
    exact Holds.insertAfter hn hni (Nat.lt_succ_self _)
  · simp [hx]
  · rw [hx, Function.update_of_ne]
    rintro rfl
    exact h.top_notMem hm
  · simp [splitAfter, newChunk]

/-- The units left after the allocation, as `alloc` computes them. -/
theorem tailFree_eq {freeSize need : Nat} (h : need ≤ freeSize) (hf : freeSize < 2 ^ 28) :
    P.signed (P.word (freeSize + 2 ^ P.wordBits - P.word need)) = ((freeSize - need : Nat) : Int) := by
  have hw := P.word_range
  have hn : P.word need = need := Platform.word_of_lt (by omega)
  have : P.word (freeSize + 2 ^ P.wordBits - P.word need) = freeSize - need := by
    rw [hn, show freeSize + 2 ^ P.wordBits - need = (freeSize - need) + 2 ^ P.wordBits by omega]
    unfold Platform.word
    rw [Nat.add_mod_right]
    exact Nat.mod_eq_of_lt (by omega)
  rw [this]
  exact Platform.signed_of_lt (by omega)

/-- `alloc` puts the slack, the allocation and the rest in the place of the chunk it found. -/
theorem carve_spec (size : Nat) (h : Holds s (l₁ ++ f :: l₂))
    (hfit : size + extra P (s.mem f).start ≤ (s.mem f).size)
    (hb : (s.mem f).start + (s.mem f).size < 2 ^ 28) :
    ∃ as' s', carve P s f size = s' ∧ Holds s' as' ∧
      as'.map s'.extent = l₁.map s.extent ++
        ((s.extent f).carve (extra P (s.mem f).start) size ++ l₂.map s.extent) ∧
      (s'.mem f).start = (s.mem f).start + extra P (s.mem f).start ∧
      s'.mHeapSize = s.mHeapSize := by
  generalize hs₁ : s.modify f (fun c => { c with free := false, size := bits28 size }) = s₁
  have hsize : bits28 size = size := Nat.mod_eq_of_lt (by omega)
  have hm₁ : s₁.mem f = { s.mem f with free := false, size := size } := by
    rw [← hs₁, modify_mem_self, hsize]
  have hx₁ : ∀ x ∈ l₁ ++ l₂, s₁.extent x = s.extent x := by
    intro x hx
    rw [← hs₁, extent_modify_ne]
    rintro rfl
    simp [h.notMem] at hx
  have h₁ : Holds s₁ (l₁ ++ f :: l₂) := hs₁ ▸ h.modify rfl rfl
  have hstart : (s₁.mem f).start = (s.mem f).start := by rw [hm₁]
  have hxf₁ : s₁.extent f = ⟨(s.mem f).start, size, false⟩ := by simp [extent, hm₁]
  have hh₁ : s₁.mHeapSize = s.mHeapSize := by rw [← hs₁]; rfl
  unfold carve
  simp only [hs₁, hstart]
  generalize extra P (s.mem f).start = e at *
  obtain ⟨b, s₂, hs₂, h₂, hb₂, hf₂, hx₂, hh₂⟩ :=
    splitBefore_spec (P := P) (e := e) h₁ (by omega) (by omega)
  have hm₂ : (s₂.mem f).start = (s.mem f).start + e ∧ (s₂.mem f).size = size := by
    rw [hstart, hxf₁] at hf₂
    exact ⟨congrArg Extent.start hf₂, congrArg Extent.size hf₂⟩
  obtain ⟨c, s₃, hs₃, h₃, hc₃, hx₃, hh₃⟩ :=
    splitAfter_spec (P := P) (r := (s.mem f).size - (size + e)) h₂ (by omega) (by omega)
  have hif : (if size < (s.mem f).size then
      if 0 < P.signed (P.word ((s.mem f).size + 2 ^ P.wordBits - P.word (size + e))) then
        splitAfter P (if e = 0 then s₁ else splitBefore P s₁ f e) f
          (P.signed (P.word ((s.mem f).size + 2 ^ P.wordBits - P.word (size + e)))).toNat
      else if e = 0 then s₁ else splitBefore P s₁ f e
    else s₁) = s₃ := by
    rw [tailFree_eq hfit (by omega), hs₂, hs₃]
    split
    · rfl
    · rw [← hs₃, if_neg (by omega), ← hs₂, if_pos (by omega)]
  refine ⟨_, s₃, hif, h₃, ?_, ?_, by rw [hh₃, hh₂, hh₁]⟩
  · have el : ∀ x ∈ l₁ ++ l₂, s₃.extent x = s.extent x := by
      intro x hx
      rw [hx₃ x (by simp at hx ⊢; tauto), hx₂ x hx, hx₁ x hx]
    have e₁ : l₁.map s₃.extent = l₁.map s.extent :=
      List.map_congr_left fun x hx => el x (List.mem_append_left _ hx)
    have e₂ : l₂.map s₃.extent = l₂.map s.extent :=
      List.map_congr_left fun x hx => el x (List.mem_append_right _ hx)
    have eb : b.map s₃.extent = b.map s₂.extent :=
      List.map_congr_left fun x hx => hx₃ x (by simp [hx])
    have ef : s₃.extent f = ⟨(s.mem f).start + e, size, false⟩ := by
      rw [hx₃ f (by simp), hf₂, hstart, hxf₁]
    have ec : c.map s₃.extent = if e + size = (s.mem f).size then []
        else [⟨(s.mem f).start + e + size, (s.mem f).size - (e + size), true⟩] := by
      rw [hc₃, hm₂.1, hm₂.2, Nat.add_comm size e]
      by_cases hz : e + size = (s.mem f).size
      · rw [if_pos hz, if_pos (by omega)]
      · rw [if_neg hz, if_neg (by omega)]
    simp only [List.map_append, List.map_cons, e₁, e₂, eb, ef, ec, hb₂, hstart, Extent.carve,
      List.append_assoc, List.cons_append]
    rfl
  · have := hx₃ f (by simp)
    exact (congrArg Extent.start this).trans hm₂.1

/-! ## `dealloc` on the chunk list -/

variable {cur p q freed fuel : Nat} {m : List Nat}

/-- The chunk after a free one joins it, and so does an empty one. -/
theorem mergePrev_join (freed : Nat) (h : Holds s (m ++ p :: cur :: l₂))
    (hp : (s.mem p).free = true ∨ (s.mem cur).size = 0) (hz : (s.mem p).size + (s.mem cur).size < 2 ^ 28) :
    ∃ s', mergePrev s cur freed = (p, s') ∧ Holds s' (m ++ p :: l₂) ∧
      s'.extent = Function.update s.extent p ((s.extent p).join (s.extent cur)) ∧
      s'.mHeapSize = s.mHeapSize := by
  have h' : Holds s ((m ++ [p]) ++ cur :: l₂) := by simpa using h
  have hprev : (s.mem cur).prev = some p := by rw [h'.prev_eq]; simp
  unfold mergePrev
  simp only [hprev]
  rw [if_pos hp]
  refine ⟨_, rfl, ?_, ?_, by simp⟩
  · have := Holds.remove (h'.modify (a := p)
      (f := fun c => { c with size := bits28 (c.size + (s.mem cur).size) }) rfl rfl)
    simpa using this
  · rw [remove_extent]
    funext b
    by_cases hb : b = p
    · subst hb
      simp only [extent, Extent.join, bits28, Nat.mod_eq_of_lt hz, modify_mem_self,
        Function.update_self]
    · rw [extent_modify_ne _ hb, Function.update_of_ne hb]

/-- A chunk after one that is not free stays as it is. -/
theorem mergePrev_keep (h : Holds s (l₁ ++ cur :: l₂))
    (hp : ∀ p ∈ l₁.getLast?, (s.mem p).free = false) (hz : (s.mem cur).size ≠ 0) :
    mergePrev s cur freed = (freed, s) := by
  unfold mergePrev
  rw [h.prev_eq]
  rcases hl : l₁.getLast? with _ | p
  · rfl
  · simp [hp p hl, hz]

/-- The merge loop after its first round: the free chunk `q` absorbs its successor. -/
theorem mergeNext_spec (h : Holds s (l₁ ++ q :: l₂)) (hq : (s.mem q).free = true)
    (ha : (l₂.map s.extent).IsChain Apart)
    (hz : ∀ d ∈ l₂.head?, (s.mem q).size + (s.mem d).size < 2 ^ 28) :
    ∃ as' s', (match l₂.head? with
        | none => (q, s)
        | some n => if (s.mem n).free then mergeFrom (fuel + 1) n q s else (q, s)) = (q, s') ∧
      Holds s' as' ∧
      as'.map s'.extent = l₁.map s.extent ++ absorb (s.extent q) (l₂.map s.extent) ∧
      (s'.mem q).free = true ∧ s'.mHeapSize = s.mHeapSize := by
  rcases l₂ with _ | ⟨d, l₂⟩
  · exact ⟨_, s, rfl, h, by simp [absorb], hq, rfl⟩
  simp only [List.head?_cons, List.map_cons, absorb]
  by_cases hd : (s.mem d).free = true
  · rw [if_pos hd, if_pos (show (s.extent d).free = true from hd)]
    have hnext : (s.mem d).next = l₂.head? := by
      have h' : Holds s ((l₁ ++ [q]) ++ d :: l₂) := by simpa using h
      exact h'.next_eq
    obtain ⟨s', hs', h', hx', hh'⟩ := mergePrev_join q h (.inl hq) (hz d rfl)
    have hstop : ∀ e ∈ l₂.head?, (s'.mem e).free = false := by
      intro e he
      have hne : e ≠ q := by
        rintro rfl
        exact h.notMem.2 (List.mem_cons_of_mem _ (List.mem_of_head? he))
      have hmem : s'.extent e = s.extent e := by rw [hx', Function.update_of_ne hne]
      have : Apart (s.extent d) (s.extent e) := by
        rcases l₂ with _ | ⟨x, l₂⟩
        · cases he
        · cases he
          exact (List.isChain_cons_cons.mp ha).1
      have hfree : (s.extent e).free = false := by
        by_contra hc
        exact this ⟨hd, by simpa using hc⟩
      rw [← hmem] at hfree
      exact hfree
    refine ⟨l₁ ++ q :: l₂, s', ?_, h', ?_, ?_, hh'⟩
    · rw [mergeFrom, hnext, hs']
      rcases hl : l₂.head? with _ | e
      · rfl
      · simp [hstop e hl]
    · obtain ⟨hq₁, hq₂⟩ := h'.notMem
      have e₁ : l₁.map s'.extent = l₁.map s.extent := map_extent_update hx' hq₁
      have e₂ : l₂.map s'.extent = l₂.map s.extent := map_extent_update hx' hq₂
      rw [List.map_append, List.map_cons, e₁, e₂, hx', Function.update_self]
    · have : (s'.extent q).free = true := by
        rw [hx', Function.update_self]
        exact hq
      exact this
  · rw [if_neg hd, if_neg (show ¬ (s.extent d).free = true from hd)]
    exact ⟨_, s, rfl, h, by simp, hq, rfl⟩

/-- The merge loop of `dealloc` releases the chunk `cur`. -/
theorem mergeFrom_spec (fuel : Nat) {n : Nat} (h : Holds s (l₁ ++ cur :: l₂))
    (hc : (s.mem cur).free = true)
    (ht : Tiles 0 ((l₁ ++ cur :: l₂).map s.extent) n) (hn : n < 2 ^ 28)
    (ha : (l₂.map s.extent).IsChain Apart) :
    ∃ freed as' s', mergeFrom (fuel + 2) cur cur s = (freed, s') ∧ Holds s' as' ∧
      as'.map s'.extent = release (l₁.map s.extent) (s.extent cur) (l₂.map s.extent) ∧
      (s'.mem freed).free = true ∧ s'.mHeapSize = s.mHeapSize := by
  have hsum := ht.sum_size
  have hz : (s.mem cur).size ≠ 0 := by
    have := (ht.mem_bounds (List.mem_map_of_mem (show cur ∈ l₁ ++ cur :: l₂ by simp))).2.1
    exact Nat.ne_of_gt this
  rw [mergeFrom, h.next_eq]
  -- The predecessor is free and takes `cur`, or `cur` stays.
  by_cases hp : ∀ p ∈ l₁.getLast?, (s.mem p).free = false
  · rw [mergePrev_keep h hp hz]
    have hr : release (l₁.map s.extent) (s.extent cur) (l₂.map s.extent) =
        l₁.map s.extent ++ absorb (s.extent cur) (l₂.map s.extent) := by
      rcases List.eq_nil_or_concat l₁ with rfl | ⟨m, p, rfl⟩
      · rfl
      · have : (s.extent p).free = false := hp p (by simp)
        simp [release, this]
    rw [hr]
    refine ⟨cur, mergeNext_spec h hc ha fun d hd => ?_⟩
    rcases l₂ with _ | ⟨x, l₂⟩
    · cases hd
    · cases hd
      simp only [List.map_append, List.map_cons, List.sum_append, List.sum_cons, extent] at hsum
      omega
  · rcases List.eq_nil_or_concat l₁ with rfl | ⟨m, p, rfl⟩
    · simp at hp
    · simp only [List.concat_eq_append, List.getLast?_append, List.getLast?_singleton,
        Option.some_or, Option.mem_def, Option.some.injEq, forall_eq', Bool.not_eq_false] at hp h hsum ⊢
      have h' : Holds s (m ++ p :: cur :: l₂) := by simpa using h
      simp only [List.map_append, List.map_cons, List.map_nil, List.sum_append, List.sum_cons,
        List.sum_nil, extent] at hsum
      obtain ⟨s₁, hs₁, h₁, hx₁, hh₁⟩ := mergePrev_join cur h' (.inl hp) (by omega)
      have hpx : s₁.extent p = (s.extent p).join (s.extent cur) := by rw [hx₁, Function.update_self]
      obtain ⟨hpm, hpl⟩ := h₁.notMem
      have e₁ : m.map s₁.extent = m.map s.extent := map_extent_update hx₁ hpm
      have e₂ : l₂.map s₁.extent = l₂.map s.extent := map_extent_update hx₁ hpl
      have hr : release ((m ++ [p]).map s.extent) (s.extent cur) (l₂.map s.extent) =
          m.map s₁.extent ++ absorb (s₁.extent p) (l₂.map s₁.extent) := by
        have : (s.extent p).free = true := hp
        rw [e₁, e₂, hpx]
        simp [release, this]
      rw [hs₁, hr, ← hh₁]
      refine ⟨p, mergeNext_spec h₁ ?_ (by rw [e₂]; exact ha) fun d hd => ?_⟩
      · exact (congrArg Extent.free hpx).trans hp
      · have hdl : d ∈ l₂ := List.mem_of_head? hd
        have hdx : s₁.extent d = s.extent d := by
          rw [hx₁, Function.update_of_ne (by rintro rfl; exact hpl hdl)]
        have e₃ : (s₁.mem d).size = (s.mem d).size := congrArg Extent.size hdx
        have e₄ : (s₁.mem p).size = (s.mem p).size + (s.mem cur).size := congrArg Extent.size hpx
        rcases l₂ with _ | ⟨x, l₂⟩
        · cases hd
        · cases hd
          simp only [List.map_cons, List.sum_cons, extent] at hsum
          show (s₁.mem p).size + (s₁.mem d).size < 2 ^ 28
          omega

end SimpleBestFitAllocator

end Twm.Gralloc
