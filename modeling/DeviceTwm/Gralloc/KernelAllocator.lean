import DeviceTwm.Lib.Smear
import DeviceTwm.Gralloc.Pmem

/-!
# Powers of two in `PmemKernelAllocator`

`alloc_pmem_buffer` and `free_pmem_buffer` both round the size up by `clp2`.

* `toNat_clp2`: the chain of shifts fills up the bits of `x - 1`; `isLeast_clp2`: up to `2 ^ 31` that
  gives the least power of two. Above, `clp2` wraps to 0.
* `rounding_consistent`: what is mapped covers the size, and the same length is unmapped. A length of 0
  cannot be mapped.
-/

open Lib

namespace Twm.Gralloc

variable {x : UInt32}

/-- One step of the chain. -/
theorem smeared_shift {n : Nat} {x y k : UInt32} (h : Smeared n x.toNat y.toNat) (hn : n < 32)
    (hk : k.toNat = n) : Smeared (2 * n) x.toNat (y ||| (y >>> k)).toNat := by
  rw [UInt32.toNat_or, UInt32.toNat_shiftRight, hk, Nat.mod_eq_of_lt hn]
  exact h.double

/-- `clp2` without the wrap at `2 ^ 32`. -/
theorem toNat_clp2 (x : UInt32) : (clp2 x).toNat = 2 ^ (x - 1).toNat.size % 2 ^ 32 := by
  have h2 := smeared_shift (smeared_one (x - 1).toNat) (by decide) (k := 1) rfl
  have h4 := smeared_shift h2 (by decide) (k := 2) rfl
  have h8 := smeared_shift h4 (by decide) (k := 4) rfl
  have h16 := smeared_shift h8 (by decide) (k := 8) rfl
  have h32 := smeared_shift h16 (by decide) (k := 16) rfl
  rw [← h32.succ_eq (x - 1).toNat_lt]
  exact UInt32.toNat_add ..

/-- Up to `2 ^ 31` there is no wrap. -/
theorem toNat_clp2_of_le (h : 1 ≤ x.toNat) (hle : x.toNat ≤ 2 ^ 31) :
    (clp2 x).toNat = 2 ^ (x.toNat - 1).size := by
  have hpred : (x - 1).toNat = x.toNat - 1 := UInt32.toNat_sub_of_le x 1 h
  have hsize : (x.toNat - 1).size ≤ 31 := Nat.size_le.mpr (by omega)
  have hlt : 2 ^ (x.toNat - 1).size < 2 ^ 32 := Nat.pow_lt_pow_right (by decide) (by omega)
  rw [toNat_clp2, hpred, Nat.mod_eq_of_lt hlt]

theorem isLeast_clp2 (h : 1 ≤ x.toNat) (hle : x.toNat ≤ 2 ^ 31) :
    IsLeast {p | (∃ k, p = 2 ^ k) ∧ x.toNat ≤ p} (clp2 x).toNat := by
  rw [toNat_clp2_of_le h hle]
  obtain ⟨⟨hpow, hgt⟩, hleast⟩ := isLeast_two_pow_size (x.toNat - 1)
  refine ⟨⟨hpow, by omega⟩, ?_⟩
  rintro p ⟨hp, hxp⟩
  exact hleast ⟨hp, by omega⟩

/-- What is rounded up stays in the range of `isLeast_clp2`. -/
theorem clp2_le (h : 1 ≤ x.toNat) (hle : x.toNat ≤ 2 ^ 31) :
    1 ≤ (clp2 x).toNat ∧ (clp2 x).toNat ≤ 2 ^ 31 :=
  ⟨Nat.le_trans h (isLeast_clp2 h hle).1.2, (isLeast_clp2 h hle).2 ⟨⟨31, rfl⟩, hle⟩⟩

theorem clp2_idem (h : 1 ≤ x.toNat) (hle : x.toNat ≤ 2 ^ 31) : clp2 (clp2 x) = clp2 x := by
  obtain ⟨h', hle'⟩ := clp2_le h hle
  apply UInt32.toNat_inj.mp
  -- A power of two is the least one that is not less than it.
  have hself : IsLeast {p | (∃ k, p = 2 ^ k) ∧ (clp2 x).toNat ≤ p} (clp2 x).toNat :=
    ⟨⟨(isLeast_clp2 h hle).1.1, le_rfl⟩, fun p hp => hp.2⟩
  exact (isLeast_clp2 h' hle').unique hself

/-- `clp2` is 0 for 0 and above `2 ^ 31`. -/
theorem clp2_eq_zero (h : x.toNat = 0 ∨ 2 ^ 31 < x.toNat) : clp2 x = 0 := by
  have hge : 2 ^ 31 ≤ (x - 1).toNat := by
    rcases h with h | h
    · obtain rfl : x = 0 := UInt32.toNat_inj.mp h
      decide
    · have h1 : (1 : UInt32) ≤ x := by
        rw [UInt32.le_iff_toNat_le]
        exact Nat.le_trans (by decide) (Nat.le_of_lt h)
      rw [UInt32.toNat_sub_of_le x 1 h1]
      exact Nat.le_sub_one_of_lt h
  have hsize : (x - 1).toNat.size = 32 :=
    Nat.le_antisymm (Nat.size_le.mpr (x - 1).toNat_lt) (Nat.lt_size.mpr hge)
  apply UInt32.toNat_inj.mp
  rw [toNat_clp2, hsize]
  rfl

/-- `clp2` rounds up, but for a wrap to 0. -/
theorem le_clp2 (h : clp2 x ≠ 0) : x.toNat ≤ (clp2 x).toNat := by
  by_cases hrange : 1 ≤ x.toNat ∧ x.toNat ≤ 2 ^ 31
  · exact (isLeast_clp2 hrange.1 hrange.2).1.2
  · exact absurd (clp2_eq_zero (by omega)) h

/-! ## The two calls -/

/-- `mmap` fails for a length of 0. -/
def Os.RefusesEmpty (os : Os) (length : UInt32) : Prop := length = 0 → os.mmap = none

/-- What `alloc_pmem_buffer` maps is unmapped by `free_pmem_buffer`. -/
theorem allocPmemBuffer_calls_eq {os : Os} {size : UInt32} {err : Int} {area : Area} {calls : List Call}
    (h : PmemKernelAllocator.allocPmemBuffer os size = (err, area, calls)) :
    err = 0 ∧ os.mmap = some area.base ∧ calls = [.mmap area.base (clp2 size)] ∨
      err ≠ 0 ∧ calls = [] := by
  have hpos := os.errno.pos
  unfold PmemKernelAllocator.allocPmemBuffer at h
  split at h
  · cases h
    exact .inr ⟨by omega, rfl⟩
  · split at h
    · cases h
      exact .inr ⟨by omega, rfl⟩
    · next base hm =>
      cases h
      exact .inl ⟨rfl, hm, rfl⟩

/-- **`clp2` rounds up to a power of two**, and for every size, page-aligned or not, the length that
`alloc_pmem_buffer` maps covers the size and is the length that `free_pmem_buffer` unmaps. -/
theorem rounding_consistent (os : Os) (size : UInt32) (hrefuse : os.RefusesEmpty (clp2 size)) :
    (∀ x : UInt32, 1 ≤ x.toNat → x.toNat ≤ 2 ^ 31 →
      IsLeast {p | (∃ k, p = 2 ^ k) ∧ x.toNat ≤ p} (clp2 x).toNat ∧ clp2 (clp2 x) = clp2 x) ∧
    ∀ err area calls, PmemKernelAllocator.allocPmemBuffer os size = (err, area, calls) →
      if err = 0 then
        ∃ length : UInt32, calls = [.mmap area.base length] ∧ size.toNat ≤ length.toNat ∧
          PmemKernelAllocator.freePmemBuffer size area.base = [.munmap area.base length]
      else calls = [] := by
  refine ⟨fun x h hle => ⟨isLeast_clp2 h hle, clp2_idem h hle⟩, fun err area calls h => ?_⟩
  rcases allocPmemBuffer_calls_eq h with ⟨rfl, hmap, rfl⟩ | ⟨herr, rfl⟩
  · rw [if_pos rfl]
    refine ⟨clp2 size, rfl, le_clp2 fun hzero => ?_, rfl⟩
    cases (hrefuse hzero).symm.trans hmap
  · rw [if_neg herr]

/-- A device that maps everything at one address. -/
def mappingOs : Os where
  masterOpen := 3
  totalSize := 0
  masterMmap := some 0x40000000
  openDev := 4
  connectPmem := 0
  mapPmem := 0
  mmap := some 0x50000000
  ashmem := 5
  setProt := 0
  errno := .noMemory
  masterMmap_ne := heap_ne_null
  mmap_ne := buffer_ne_null

/-- Three pages are mapped and unmapped as four. -/
theorem rounding_threePages :
    ∃ length : UInt32, PmemKernelAllocator.freePmemBuffer 0x3000 0x50000000 =
      [.munmap 0x50000000 length] ∧ 0x3000 ≤ length.toNat := by
  have hrefuse : mappingOs.RefusesEmpty (clp2 0x3000) := fun h => absurd h (by decide)
  obtain ⟨-, hcalls⟩ := rounding_consistent mappingOs 0x3000 hrefuse
  have h := hcalls 0 ⟨0x50000000, 0, 4⟩ [.mmap 0x50000000 (clp2 0x3000)] rfl
  rw [if_pos rfl] at h
  obtain ⟨length, -, hle, hfree⟩ := h
  exact ⟨length, hfree, hle⟩

end Twm.Gralloc
