import Mathlib.Data.Nat.Find
import Mathlib.Data.Finset.Card
import DeviceTwm.Gralloc.BufferSize
import DeviceTwm.Lib.BitMask
import DeviceTwm.Lib.Run

/-!
# The buffers of the framebuffer (`libgralloc/gpu.cpp`)

Framebuffer buffers are allocated and freed, in any order. The framebuffer is mapped by the first
allocation; it is cut into `numBuffers` slots of `bufferSize` bytes, and bit `i` of `bufferMask` says
that slot `i` is taken. The slot of a buffer is not stored: `free_impl` finds it again from the address.

* `findSlot_eq`: the loop takes the first free slot.
* `Inv.step`: the bits of the mask are the slots of the live buffers.
* `slots_ok`: so it is in every run, an allocation fails when all slots are taken, and a slot that was
  freed can be taken again.
* `adsp_refused`: with `PRIVATE_PMEM_ADSP` an allocation fails otherwise.
-/

namespace Twm.Gralloc.FramebufferSlots

open Lib

variable {α : Type}

/-- The module, the size that the framebuffer was mapped with, and the live buffers in it. -/
structure Screen (α : Type) where
  module : Module α
  fbSize : UInt32
  live : List PrivateHandle

/-- Nothing is mapped. -/
def start (m : Module α) : Screen α := ⟨{ m with framebuffer := none }, 0, []⟩

inductive Op
  | alloc (u : AllocUsage) (os : GpuOs)
  /-- `lockState` and `writeOwner` are what locks have made of them. -/
  | free (hnd : PrivateHandle) (lockState : UInt32) (writeOwner : Nat)

/-- The size that `mapFrameBufferLocked` maps. -/
def fbSizeOf (i : FbInfo) : UInt32 := roundUpToPageSize (i.lineLength * i.yresVirtual)

section

variable (A : SubAllocator α) (B : Build)

/-- One call; `none`: the buffer to free is not live. -/
def step (s : Screen α) : Op → Option (Screen α)
  | .alloc u os =>
    let r := grallocAllocFramebuffer A B os s.module u
    -- the first call that gets so far fixes the size
    let fbSize := if s.module.framebuffer = none then (os.fbProbe.map fbSizeOf).getD 0 else s.fbSize
    some { module := r.module, fbSize := fbSize, live := r.handle.toList ++ s.live }
  | .free hnd lockState writeOwner =>
    if hnd ∈ s.live then
      let now := { hnd with lockState := lockState, writeOwner := writeOwner }
      some { s with module := (freeImpl A B s.module 0 now).1, live := s.live.erase hnd }
    else none

end

/-- The device has 2 to 31 buffers that fit its memory, and is mapped below the end of the address
space. -/
structure FbOk (i : FbInfo) (mapped : Option UInt32) : Prop where
  line : 0 < i.lineLength.toNat
  two : 2 ≤ (i.yresVirtual / i.yres).toNat
  most : (i.yresVirtual / i.yres).toNat ≤ 31
  size : i.lineLength.toNat * i.yresVirtual.toNat + 4095 < 2 ^ 32
  room : ∀ base ∈ mapped, base.toNat + (fbSizeOf i).toNat ≤ 2 ^ 32

instance (i : FbInfo) (mapped : Option UInt32) : Decidable (FbOk i mapped) :=
  -- not by trying every word
  haveI : Decidable (∀ base ∈ mapped, base.toNat + (fbSizeOf i).toNat ≤ 2 ^ 32) :=
    Option.decidableForallMem mapped
  decidable_of_iff (0 < i.lineLength.toNat ∧ 2 ≤ (i.yresVirtual / i.yres).toNat ∧
      (i.yresVirtual / i.yres).toNat ≤ 31 ∧
      i.lineLength.toNat * i.yresVirtual.toNat + 4095 < 2 ^ 32 ∧
      ∀ base ∈ mapped, base.toNat + (fbSizeOf i).toNat ≤ 2 ^ 32)
    ⟨fun ⟨h₁, h₂, h₃, h₄, h₅⟩ => ⟨h₁, h₂, h₃, h₄, h₅⟩, fun h => ⟨h.1, h.2, h.3, h.4, h.5⟩⟩

/-- What the first allocation finds. -/
def Allowed (s : Screen α) : Op → Prop
  | .alloc _ os => s.module.framebuffer = none → ∀ i ∈ os.fbProbe, FbOk i os.fbMmap
  | .free _ _ _ => True

instance (s : Screen α) : DecidablePred (Allowed s)
  | .alloc _ os => inferInstanceAs (Decidable (_ → ∀ i ∈ os.fbProbe, FbOk i os.fbMmap))
  | .free _ _ _ => inferInstanceAs (Decidable True)

/-- The buffer is in slot `i` of the framebuffer at `base`. -/
def InSlot (m : Module α) (base : UInt32) (i : Nat) (hnd : PrivateHandle) : Prop :=
  hnd.base.toNat = base.toNat + i * m.bufferSize.toNat

instance (m : Module α) (base : UInt32) (i : Nat) (hnd : PrivateHandle) :
    Decidable (InSlot m base i hnd) := inferInstanceAs (Decidable (_ = _))

/-- Slot `i` is taken by a live buffer. -/
def Taken (s : Screen α) (base : UInt32) (i : Nat) : Prop :=
  ∃ hnd ∈ s.live, InSlot s.module base i hnd

instance (s : Screen α) (base : UInt32) (i : Nat) : Decidable (Taken s base i) :=
  inferInstanceAs (Decidable (∃ hnd ∈ s.live, _))

/-! ## The loop -/

/-- The loop takes the first free slot from slot `i` on. -/
theorem findSlot_eq (mask bufferSize vaddr : UInt32) {n j : Nat} {i : UInt32}
    (hi : i.toNat + n < 32) (hij : i.toNat ≤ j) (hj : j < i.toNat + n)
    (hfree : mask.toNat.testBit j = false)
    (hleast : ∀ k, i.toNat ≤ k → k < j → mask.toNat.testBit k = true) :
    findSlot mask bufferSize n i vaddr =
      (mask ||| (1 <<< UInt32.ofNat j), vaddr + UInt32.ofNat (j - i.toNat) * bufferSize) := by
  induction n generalizing i vaddr with
  | zero => omega
  | succ n ih =>
    have hbit := and_bit_eq_zero (w := mask) (i := i) (by omega)
    rw [findSlot]
    by_cases heq : i.toNat = j
    · have hofNat : UInt32.ofNat j = i := by rw [← heq, UInt32.ofNat_toNat]
      rw [if_pos (hbit.mpr (by rw [heq]; exact hfree)), hofNat, heq, Nat.sub_self]
      simp
    · have hset : ¬ mask &&& (1 <<< i) = 0 := by
        rw [hbit, hleast i.toNat (Nat.le_refl _) (by omega)]
        decide
      have hsucc : (i + 1).toNat = i.toNat + 1 := by
        rw [UInt32.toNat_add]
        simp only [UInt32.reduceToNat]
        omega
      rw [if_neg hset, ih _ (by omega) (by omega) (by omega) fun k hk => hleast k (by omega), hsucc]
      have hstep : UInt32.ofNat (j - i.toNat) = 1 + UInt32.ofNat (j - (i.toNat + 1)) := by
        rw [show j - i.toNat = 1 + (j - (i.toNat + 1)) by omega, UInt32.ofNat_add]
        rfl
      rw [hstep, UInt32.add_mul, UInt32.one_mul, UInt32.add_assoc]

/-! ## One call -/

/-- The framebuffer at `base` has 2 to 31 slots, all below the end of the address space, and the mask
has no other bits. -/
structure Cut (m : Module α) (base : UInt32) : Prop where
  two : 2 ≤ m.numBuffers.toNat
  most : m.numBuffers.toNat ≤ 31
  pos : 0 < m.bufferSize.toNat
  low : ∀ j, m.bufferMask.toNat.testBit j = true → j < m.numBuffers.toNat
  room : base.toNat + m.numBuffers.toNat * m.bufferSize.toNat ≤ 2 ^ 32

section

variable {A : SubAllocator α} {B : Build} {os : GpuOs} {m : Module α} {base : UInt32} {j : Nat}

/-- The handle of the slot at `vaddr`. -/
def fakeHandle (B : Build) (os : GpuOs) (m : Module α) (base vaddr : UInt32) : PrivateHandle :=
  { fd := os.dup, flags := { usesPmem := true, framebuffer := true }, size := m.bufferSize
    offset := (vaddr - base).toNat, base := vaddr, pid := B.pid }

/-- Slot `j` ends before the framebuffer does. -/
theorem slot_le (base : UInt32) (hj : j < m.numBuffers.toNat) :
    base.toNat + j * m.bufferSize.toNat + m.bufferSize.toNat ≤
      base.toNat + m.numBuffers.toNat * m.bufferSize.toNat := by
  have hmul := Nat.mul_le_mul_right m.bufferSize.toNat (Nat.succ_le_of_lt hj)
  rw [Nat.succ_mul] at hmul
  omega

/-- The number of a slot fits a word. -/
theorem Cut.toNat_ofNat (h : Cut m base) (hj : j < m.numBuffers.toNat) : (UInt32.ofNat j).toNat = j := by
  have hmost := h.most
  rw [UInt32.toNat_ofNat']
  exact Nat.mod_eq_of_lt (by omega)

/-- Where the loop leaves `vaddr` for slot `j`. -/
theorem Cut.vaddr (h : Cut m base) (hj : j < m.numBuffers.toNat) :
    (base + UInt32.ofNat j * m.bufferSize).toNat = base.toNat + j * m.bufferSize.toNat := by
  have hle := slot_le base hj
  have hroom := h.room
  have hpos := h.pos
  rw [UInt32.toNat_add, UInt32.toNat_mul, h.toNat_ofNat hj, Nat.mod_eq_of_lt (a := j * _) (by omega)]
  omega

/-- Two slots of one address are one slot. -/
theorem Cut.slot_inj (h : Cut m base) {i : Nat}
    (heq : base.toNat + i * m.bufferSize.toNat = base.toNat + j * m.bufferSize.toNat) : i = j :=
  Nat.eq_of_mul_eq_mul_right h.pos (by omega)

/-- An allocation fails when every slot is taken, or takes the first that is free. -/
theorem allocSlot_cases (A : SubAllocator α) (B : Build) (os : GpuOs) (h : Cut m base)
    (u : AllocUsage) (calls : List Call) :
    ((∀ i, i < m.numBuffers.toNat → m.bufferMask.toNat.testBit i = true) ∧
      allocSlot A B os m u base calls =
        { err := -ENOMEM, handle := none, module := m, calls := calls }) ∨
    ∃ i hnd, i < m.numBuffers.toNat ∧ m.bufferMask.toNat.testBit i = false ∧
      hnd.flags.framebuffer = true ∧ InSlot m base i hnd ∧
      allocSlot A B os m u base calls =
        { err := 0, handle := some hnd
          module := { m with bufferMask := m.bufferMask ||| (1 <<< UInt32.ofNat i) }
          calls := calls } := by
  have hone : ¬ m.numBuffers = 1 := by
    intro hone
    have htwo := h.two
    rw [hone] at htwo
    exact absurd htwo (by decide)
  have hmost := h.most
  have hfull := full_iff (w := m.bufferMask) (i := m.numBuffers) (by omega) h.low
  unfold allocSlot
  rw [if_neg hone]
  by_cases hall : ∀ i, i < m.numBuffers.toNat → m.bufferMask.toNat.testBit i = true
  · left
    exact ⟨hall, if_pos (hfull.mpr hall)⟩
  · right
    have hex : ∃ i, i < m.numBuffers.toNat ∧ m.bufferMask.toNat.testBit i = false := by
      push Not at hall
      obtain ⟨i, hi, hset⟩ := hall
      exact ⟨i, hi, by simpa using hset⟩
    obtain ⟨hi, hfree⟩ := Nat.find_spec hex
    have hleast (k : Nat) (hk : k < Nat.find hex) : m.bufferMask.toNat.testBit k = true := by
      by_contra hset
      exact Nat.find_min hex hk ⟨by omega, by simpa using hset⟩
    have hloop := findSlot_eq m.bufferMask m.bufferSize base (n := m.numBuffers.toNat) (i := 0)
      (by simpa using by omega) (Nat.zero_le _) (by simpa using hi) hfree
      fun k _ hk => hleast k hk
    refine ⟨Nat.find hex, fakeHandle B os m base (base + UInt32.ofNat (Nat.find hex) * m.bufferSize),
      hi, hfree, rfl, h.vaddr hi, ?_⟩
    rw [if_neg (mt hfull.mp hall), hloop]
    rfl

/-- The mapping holds every line. -/
theorem le_fbSizeOf {i : FbInfo} (h : i.lineLength.toNat * i.yresVirtual.toNat + 4095 < 2 ^ 32) :
    i.lineLength.toNat * i.yresVirtual.toNat ≤ (fbSizeOf i).toNat := by
  have hmul : (i.lineLength * i.yresVirtual).toNat = i.lineLength.toNat * i.yresVirtual.toNat := by
    rw [UInt32.toNat_mul]
    exact Nat.mod_eq_of_lt (by omega)
  have hround := toNat_roundUpToPageSize ((i.lineLength * i.yresVirtual).toNat : Int)
  rw [ofInt_toNat, hmul] at hround
  have hle := le_alignUp ((i.lineLength.toNat * i.yresVirtual.toNat : Nat) : Int)
    (show (0 : Int) < 4096 by decide)
  have hlt := alignUp_lt ((i.lineLength.toNat * i.yresVirtual.toNat : Nat) : Int)
    (show (0 : Int) < 4096 by decide)
  unfold fbSizeOf
  omega

/-- What the device reports, cut into slots: they fit the mapping. -/
theorem cut_of_info {i : FbInfo} {mapped : Option UInt32} (h : FbOk i mapped)
    (hlines : m.lineLength = i.lineLength) (hyres : m.yres = i.yres)
    (hn : m.numBuffers = i.yresVirtual / i.yres) (hmask : m.bufferMask = 0)
    (hroom : base.toNat + (fbSizeOf i).toNat ≤ 2 ^ 32) :
    Cut m base ∧ m.numBuffers.toNat * m.bufferSize.toNat ≤ (fbSizeOf i).toNat := by
  have hcount : m.numBuffers.toNat = i.yresVirtual.toNat / i.yres.toNat := by
    rw [hn, UInt32.toNat_div]
  have htwo : 2 ≤ m.numBuffers.toNat := by
    rw [hn]
    exact h.two
  have hlines' := Nat.div_mul_le_self i.yresVirtual.toNat i.yres.toNat
  rw [← hcount] at hlines'
  have hyres_pos : 0 < i.yres.toNat := by
    rw [Nat.pos_iff_ne_zero]
    intro hzero
    rw [hcount, hzero, Nat.div_zero] at htwo
    omega
  have hall : m.numBuffers.toNat * (i.lineLength.toNat * i.yres.toNat) ≤
      i.lineLength.toNat * i.yresVirtual.toNat := by
    calc m.numBuffers.toNat * (i.lineLength.toNat * i.yres.toNat)
        = i.lineLength.toNat * (m.numBuffers.toNat * i.yres.toNat) := by ring
      _ ≤ i.lineLength.toNat * i.yresVirtual.toNat := Nat.mul_le_mul_left _ hlines'
  have hone : i.lineLength.toNat * i.yres.toNat ≤
      m.numBuffers.toNat * (i.lineLength.toNat * i.yres.toNat) :=
    Nat.le_mul_of_pos_left _ (by omega)
  have hsize := h.size
  have hbuffer : m.bufferSize.toNat = i.lineLength.toNat * i.yres.toNat := by
    unfold Module.bufferSize
    rw [UInt32.toNat_mul, hlines, hyres]
    exact Nat.mod_eq_of_lt (by omega)
  have hfb := le_fbSizeOf h.size
  rw [← hbuffer] at hall
  refine ⟨⟨htwo, by rw [hn]; exact h.most, ?_, ?_, by omega⟩, by omega⟩
  · rw [hbuffer]
    exact Nat.mul_pos h.line hyres_pos
  · intro j hj
    rw [hmask] at hj
    simp at hj

/-- The framebuffer that the first allocation maps is cut into free slots. It is there also when `mmap`
fails, at the null address. -/
theorem mapFrameBufferLocked_cases (hok : ∀ i ∈ os.fbProbe, FbOk i os.fbMmap) :
    ((mapFrameBufferLocked os m).1 < 0 ∧ (mapFrameBufferLocked os m).2.1 = m) ∨
    ∃ i b, os.fbProbe = some i ∧ (mapFrameBufferLocked os m).2.1.framebuffer = some b ∧
      (mapFrameBufferLocked os m).2.1.bufferMask = 0 ∧
      Cut (mapFrameBufferLocked os m).2.1 b ∧
      (mapFrameBufferLocked os m).2.1.numBuffers.toNat *
        (mapFrameBufferLocked os m).2.1.bufferSize.toNat ≤ (fbSizeOf i).toNat := by
  have hpos := os.errno.pos
  unfold mapFrameBufferLocked
  cases hprobe : os.fbProbe with
  | none => exact .inl ⟨by simp only; omega, rfl⟩
  | some i =>
    have hi := hok i hprobe
    refine .inr ⟨i, ?_⟩
    cases hmap : os.fbMmap with
    | none =>
      have hlt := (fbSizeOf i).toNat_lt
      exact ⟨0, rfl, rfl, rfl, cut_of_info hi rfl rfl rfl rfl (by simp only [UInt32.toNat_zero]; omega)⟩
    | some b => exact ⟨b, rfl, rfl, rfl, cut_of_info hi rfl rfl rfl rfl (hi.room b hmap)⟩

/-! ## What a call keeps -/

/-- The bits of the mask are the slots of the live buffers. -/
structure Inv (s : Screen α) : Prop where
  cut : ∀ base ∈ s.module.framebuffer, Cut s.module base
  inside : ∀ base ∈ s.module.framebuffer,
    s.module.numBuffers.toNat * s.module.bufferSize.toNat ≤ s.fbSize.toNat
  bits : ∀ base ∈ s.module.framebuffer, ∀ i,
    s.module.bufferMask.toNat.testBit i = true ↔ Taken s base i
  slot : ∀ base ∈ s.module.framebuffer, ∀ hnd ∈ s.live, hnd.flags.framebuffer = true ∧
    ∃ i, i < s.module.numBuffers.toNat ∧ InSlot s.module base i hnd
  apart : s.live.Pairwise fun hnd hnd' => hnd.base ≠ hnd'.base
  unmapped : s.module.framebuffer = none → s.live = []

variable {s s' : Screen α} {u : AllocUsage} {calls : List Call}

/-- Before the first allocation. -/
theorem Inv.of_none (hnone : s.module.framebuffer = none) (hlive : s.live = []) : Inv s := by
  have hno (base : UInt32) : base ∉ s.module.framebuffer := by simp [hnone]
  exact ⟨fun base hb => absurd hb (hno base), fun base hb => absurd hb (hno base),
    fun base hb => absurd hb (hno base), fun base hb => absurd hb (hno base),
    by rw [hlive]; exact .nil, fun _ => hlive⟩

/-- The framebuffer is at `base`. -/
theorem Inv.of_some (hb : s.module.framebuffer = some base) (hcut : Cut s.module base)
    (hinside : s.module.numBuffers.toNat * s.module.bufferSize.toNat ≤ s.fbSize.toNat)
    (hbits : ∀ i, s.module.bufferMask.toNat.testBit i = true ↔ Taken s base i)
    (hslot : ∀ hnd ∈ s.live, hnd.flags.framebuffer = true ∧
      ∃ i, i < s.module.numBuffers.toNat ∧ InSlot s.module base i hnd)
    (hapart : s.live.Pairwise fun hnd hnd' => hnd.base ≠ hnd'.base) : Inv s := by
  have hone {b : UInt32} (hb' : b ∈ s.module.framebuffer) : b = base :=
    Option.some.inj (hb'.symm.trans hb)
  refine ⟨fun b hb' => ?_, fun _ _ => hinside, fun b hb' => ?_, fun b hb' => ?_, hapart, fun hnone => ?_⟩
  · rw [hone hb']
    exact hcut
  · rw [hone hb']
    exact hbits
  · rw [hone hb']
    exact hslot
  · rw [hb] at hnone
    cases hnone

theorem start_inv (m : Module α) : Inv (start m) := .of_none rfl rfl

/-- The mask of a slot that is taken besides. -/
theorem Cut.taken (h : Cut m base) (hj : j < m.numBuffers.toNat) :
    Cut { m with bufferMask := m.bufferMask ||| (1 <<< UInt32.ofNat j) } base ∧
      ∀ i, (m.bufferMask ||| (1 <<< UInt32.ofNat j)).toNat.testBit i = true ↔
        m.bufferMask.toNat.testBit i = true ∨ i = j := by
  have hmost := h.most
  have hofNat := h.toNat_ofNat hj
  have hbits (i : Nat) := testBit_setBit (i := UInt32.ofNat j) (by omega) m.bufferMask i
  rw [hofNat] at hbits
  refine ⟨⟨h.two, h.most, h.pos, ?_, h.room⟩, hbits⟩
  intro i hi
  rcases (hbits i).mp hi with hi | rfl
  · exact h.low i hi
  · exact hj

/-- What an allocation in the mapped framebuffer leaves. -/
theorem Inv.allocSlot (h : Inv s) (hb : s.module.framebuffer = some base) :
    Inv { module := (allocSlot A B os s.module u base calls).module, fbSize := s.fbSize
          live := (allocSlot A B os s.module u base calls).handle.toList ++ s.live } := by
  rcases allocSlot_cases A B os (h.cut base hb) u calls with
    ⟨-, heq⟩ | ⟨i, hnd, hi, hfree, hflag, hslot, heq⟩
  · rw [heq]
    exact h
  · rw [heq]
    obtain ⟨hcut, hbits⟩ := (h.cut base hb).taken hi
    refine .of_some hb hcut (h.inside base hb) (fun k => ?_) ?_ (List.pairwise_cons.mpr ⟨?_, h.apart⟩)
    · rw [hbits k, h.bits base hb k]
      constructor
      · rintro (⟨x, hx, hxk⟩ | rfl)
        · exact ⟨x, List.mem_cons_of_mem _ hx, hxk⟩
        · exact ⟨hnd, List.mem_cons_self, hslot⟩
      · rintro ⟨x, hx, hxk⟩
        rcases List.mem_cons.mp hx with rfl | hx
        · exact .inr ((h.cut base hb).slot_inj (hxk.symm.trans hslot))
        · exact .inl ⟨x, hx, hxk⟩
    · intro x hx
      rcases List.mem_cons.mp hx with rfl | hx
      · exact ⟨hflag, i, hi, hslot⟩
      · exact h.slot base hb x hx
    · intro x hx heq
      -- A live buffer at that address would have its bit set.
      have hset := (h.bits base hb i).mpr ⟨x, hx, by rw [InSlot, ← heq]; exact hslot⟩
      rw [hfree] at hset
      cases hset

/-- The framebuffer as the first allocation finds it, before it takes a slot. -/
theorem Inv.mapped (h : Inv s) (hnone : s.module.framebuffer = none)
    (hok : ∀ i ∈ os.fbProbe, FbOk i os.fbMmap) :
    Inv { module := (mapFrameBufferLocked os s.module).2.1
          fbSize := (os.fbProbe.map fbSizeOf).getD 0, live := s.live } := by
  have hlive := h.unmapped hnone
  rcases mapFrameBufferLocked_cases (m := s.module) hok with
    ⟨-, heq⟩ | ⟨i, b, hprobe, hb, hmask, hcut, hfits⟩
  · rw [heq]
    exact .of_none hnone hlive
  · rw [hprobe]
    refine .of_some hb hcut hfits (fun k => ?_) (fun hnd hx => ?_) h.apart
    · rw [hmask, hlive]
      simp [Taken]
    · rw [hlive] at hx
      cases hx

theorem Inv.alloc (h : Inv s) (hok : Allowed s (.alloc u os))
    (hs : step A B s (.alloc u os) = some s') : Inv s' := by
  simp only [step, Option.some.injEq] at hs
  subst hs
  unfold grallocAllocFramebuffer
  cases hb : s.module.framebuffer with
  | some base =>
    by_cases ha : u.pmemAdsp = true
    · rw [if_pos ha]
      exact h
    · rw [if_neg ha]
      exact h.allocSlot hb
  | none =>
    by_cases ha : u.pmemAdsp = true
    · rw [if_pos ha]
      -- Nothing has been mapped.
      exact .of_none hb (h.unmapped hb)
    · rw [if_neg ha]
      have hmapped := h.mapped hb (hok hb)
      have hcases := mapFrameBufferLocked_cases (m := s.module) (hok hb)
      simp only [if_true]
      split
      · exact hmapped
      · rename_i herr
        obtain ⟨i, b, -, hb', -⟩ := hcases.resolve_left fun hneg => herr hneg.1
        simp only [hb', Option.getD_some]
        exact hmapped.allocSlot hb'

/-- The slot is found again from the address. -/
theorem freeImpl_slot {hnd : PrivateHandle} (hcut : Cut m base) (hb : m.framebuffer = some base)
    (hflag : hnd.flags.framebuffer = true) (hj : j < m.numBuffers.toNat) (hslot : InSlot m base j hnd)
    (e : Int) : (freeImpl A B m e hnd).1 =
      { m with bufferMask := m.bufferMask &&& ~~~(1 <<< UInt32.ofNat j) } := by
  have hle := slot_le base hj
  have hroom := hcut.room
  have hpos := hcut.pos
  have hdiff : (hnd.base - base).toNat = j * m.bufferSize.toNat := by
    have hlt := hnd.base.toNat_lt
    unfold InSlot at hslot
    rw [UInt32.toNat_sub]
    omega
  have hindex : (hnd.base - base) / m.bufferSize = UInt32.ofNat j := by
    apply UInt32.toNat_inj.mp
    rw [UInt32.toNat_div, hdiff, Nat.mul_div_cancel _ hpos, hcut.toNat_ofNat hj]
  unfold freeImpl
  simp only [if_pos hflag, hb, Option.getD_some, hindex]

theorem Inv.free {hnd : PrivateHandle} {w : UInt32} {owner : Nat} (h : Inv s)
    (hs : step A B s (.free hnd w owner) = some s') : Inv s' := by
  simp only [step] at hs
  split at hs
  · rename_i hmem
    simp only [Option.some.injEq] at hs
    subst hs
    obtain ⟨base, hb⟩ : ∃ base, s.module.framebuffer = some base := by
      by_contra hno
      rw [h.unmapped (by simpa [Option.eq_none_iff_forall_ne_some] using hno)] at hmem
      cases hmem
    obtain ⟨hflag, j, hj, hslot⟩ := h.slot base hb hnd hmem
    have hcut := h.cut base hb
    have hmost := hcut.most
    have hofNat := hcut.toNat_ofNat hj
    have hbits (i : Nat) := testBit_clearBit (i := UInt32.ofNat j) (by omega) s.module.bufferMask i
    rw [hofNat] at hbits
    have hfree := freeImpl_slot (A := A) (B := B) hcut hb
      (show ({ hnd with lockState := w, writeOwner := owner } : PrivateHandle).flags.framebuffer = true
        from hflag) hj hslot 0
    rw [hfree]
    have hperm := List.perm_cons_erase hmem
    have hapart := (hperm.pairwise_iff fun hne => Ne.symm hne).mp h.apart
    obtain ⟨hothers, hrest⟩ := List.pairwise_cons.mp hapart
    refine .of_some hb ⟨hcut.two, hcut.most, hcut.pos, fun i hi => hcut.low i ((hbits i).mp hi).1,
      hcut.room⟩ (h.inside base hb) (fun i => ?_) (fun x hx => ?_) hrest
    · rw [hbits i, h.bits base hb i]
      constructor
      · rintro ⟨⟨x, hx, hxi⟩, hne⟩
        rcases List.mem_cons.mp (hperm.mem_iff.mp hx) with rfl | hx
        · exact absurd (hcut.slot_inj (hxi.symm.trans hslot)) hne
        · exact ⟨x, hx, hxi⟩
      · rintro ⟨x, hx, hxi⟩
        refine ⟨⟨x, List.mem_of_mem_erase hx, hxi⟩, ?_⟩
        rintro rfl
        exact hothers x hx (UInt32.toNat_inj.mp (hslot.trans hxi.symm))
    · exact h.slot base hb x (List.mem_of_mem_erase hx)
  · cases hs

theorem Inv.step {op : Op} (h : Inv s) (hok : Allowed s op) (hs : step A B s op = some s') :
    Inv s' := by
  cases op with
  | alloc u os => exact h.alloc hok hs
  | free hnd w owner => exact h.free hs

/-! ## Runs -/

/-- How many slots are free. -/
def freeSlots (m : Module α) : Nat :=
  ((Finset.range m.numBuffers.toNat).filter fun i => m.bufferMask.toNat.testBit i = false).card

/-- An allocation without `PRIVATE_PMEM_ADSP` in the mapped framebuffer. -/
theorem grallocAllocFramebuffer_mapped (hb : m.framebuffer = some base) (ha : u.pmemAdsp = false) :
    grallocAllocFramebuffer A B os m u = allocSlot A B os m u base [] := by
  unfold grallocAllocFramebuffer
  rw [if_neg (by simp [ha]), hb]

/-- It fails when all slots are taken. -/
theorem Inv.noMemory_iff (h : Inv s) (hb : s.module.framebuffer = some base) (os : GpuOs)
    (ha : u.pmemAdsp = false) : (grallocAllocFramebuffer A B os s.module u).err = -ENOMEM ↔
      ∀ i, i < s.module.numBuffers.toNat → Taken s base i := by
  rw [grallocAllocFramebuffer_mapped hb ha]
  rcases allocSlot_cases A B os (h.cut base hb) u [] with
    ⟨hall, heq⟩ | ⟨i, hnd, hi, hfree, -, -, heq⟩
  · rw [heq]
    exact iff_of_true rfl fun i hi => (h.bits base hb i).mp (hall i hi)
  · rw [heq]
    refine iff_of_false (show ¬ (0 : Int) = -ENOMEM by decide) fun hall => ?_
    rw [(h.bits base hb i).mpr (hall i hi)] at hfree
    cases hfree

/-- One more allocation: a slot fewer is free. -/
theorem Inv.alloc_free (h : Inv s) (hb : s.module.framebuffer = some base)
    (hfree : ∃ i, i < s.module.numBuffers.toNat ∧ ¬ Taken s base i) :
    ∃ s', FramebufferSlots.step A B s (.alloc {} grants) = some s' ∧ Inv s' ∧
      s'.module.framebuffer = some base ∧
      s'.module.numBuffers = s.module.numBuffers ∧ freeSlots s'.module < freeSlots s.module := by
  have hok : Allowed s (.alloc {} grants) := by
    intro hnone
    rw [hb] at hnone
    cases hnone
  refine ⟨_, rfl, h.alloc hok rfl, ?_⟩
  · rw [grallocAllocFramebuffer_mapped hb rfl]
    rcases allocSlot_cases A B grants (h.cut base hb) {} [] with
      ⟨hall, -⟩ | ⟨i, hnd, hi, hzero, -, -, heq⟩
    · obtain ⟨i, hi, hno⟩ := hfree
      exact absurd ((h.bits base hb i).mp (hall i hi)) hno
    · rw [heq]
      refine ⟨hb, rfl, Finset.card_lt_card ?_⟩
      obtain ⟨-, hbits⟩ := (h.cut base hb).taken hi
      have hset := (hbits i).mpr (.inr rfl)
      refine Finset.ssubset_iff_of_subset ?_ |>.mpr ⟨i, ?_, ?_⟩
      · intro k hk
        obtain ⟨hkn, hk⟩ := Finset.mem_filter.mp hk
        refine Finset.mem_filter.mpr ⟨hkn, ?_⟩
        by_contra hone
        rw [(hbits k).mpr (.inl (by simpa using hone))] at hk
        cases hk
      · exact Finset.mem_filter.mpr ⟨Finset.mem_range.mpr hi, hzero⟩
      · intro hmem
        rw [(Finset.mem_filter.mp hmem).2] at hset
        cases hset

/-- Every slot is taken after enough allocations. -/
theorem Inv.taken_again (h : Inv s) (hb : s.module.framebuffer = some base) {i : Nat}
    (hi : i < s.module.numBuffers.toNat) : ∃ ops s', (∀ op ∈ ops, op = Op.alloc {} grants) ∧
      run (FramebufferSlots.step A B) s ops = some s' ∧ Taken s' base i := by
  induction hm : freeSlots s.module using Nat.strong_induction_on generalizing s with
  | _ n ih =>
    by_cases htaken : Taken s base i
    · exact ⟨[], s, fun _ hop => absurd hop List.not_mem_nil, rfl, htaken⟩
    · obtain ⟨s₁, hs₁, hinv, hb₁, hn₁, hless⟩ := h.alloc_free (A := A) (B := B) hb ⟨i, hi, htaken⟩
      obtain ⟨ops, s', hops, hrun, hslot⟩ := ih _ (hm ▸ hless) hinv hb₁ (by rw [hn₁]; exact hi) rfl
      refine ⟨.alloc {} grants :: ops, s', ?_, ?_, hslot⟩
      · rintro op (_ | ⟨_, hop⟩)
        · rfl
        · exact hops op hop
      · rw [run, hs₁]
        exact hrun

end

/-- What holds of the framebuffer between two calls. -/
structure SlotsOk (A : SubAllocator α) (B : Build) (s : Screen α) : Prop where
  /-- Bit `i` is set when a live buffer is at `base + i*bufferSize`. -/
  bits : ∀ base ∈ s.module.framebuffer, ∀ i,
    s.module.bufferMask.toNat.testBit i = true ↔ Taken s base i
  /-- No two live buffers share a slot. -/
  apart : s.live.Pairwise fun hnd hnd' => hnd.base ≠ hnd'.base
  inside : ∀ base ∈ s.module.framebuffer, ∀ hnd ∈ s.live, base.toNat ≤ hnd.base.toNat ∧
    hnd.base.toNat + s.module.bufferSize.toNat ≤ base.toNat + s.fbSize.toNat
  noMemory : ∀ base ∈ s.module.framebuffer, ∀ u os, u.pmemAdsp = false →
    ((grallocAllocFramebuffer A B os s.module u).err = -ENOMEM ↔
      ∀ i, i < s.module.numBuffers.toNat → Taken s base i)
  /-- A slot that is free, such as one that was freed, is taken after some more allocations. -/
  again : ∀ base ∈ s.module.framebuffer, ∀ i, i < s.module.numBuffers.toNat → ∃ ops s',
    (∀ op ∈ ops, op = Op.alloc {} grants) ∧ run (step A B) s ops = some s' ∧ Taken s' base i

/-- The slots of the framebuffer, after every sequence of allocations and frees of live buffers. -/
theorem slots_ok (A : SubAllocator α) (B : Build) (m : Module α) (ops : List Op) (s : Screen α)
    (hrun : run (step A B) (start m) ops = some s)
    (hok : RunOk (step A B) Allowed (start m) ops) : SlotsOk A B s := by
  have h : Inv s :=
    run_invariant (fun _ _ _ hi hop hst => hi.step hop hst) (start_inv m) hok hrun
  refine ⟨h.bits, h.apart, ?_, fun base hb u os => h.noMemory_iff hb os,
    fun base hb i hi => h.taken_again hb hi⟩
  intro base hb hnd hmem
  obtain ⟨-, j, hj, hslot⟩ := h.slot base hb hnd hmem
  have hle := slot_le base hj
  have hinside := h.inside base hb
  unfold InSlot at hslot
  exact ⟨by omega, by omega⟩

/-- A screen of 800 by 480, with room for two. -/
def screen : GpuOs :=
  { grants with fbProbe := some ⟨7, 1600, 480, 960⟩, fbMmap := some 0x40000000 }

/-- The first buffer of the screen. -/
def front : PrivateHandle := fakeHandle ⟨false, 1⟩ screen
  { fresh with lineLength := 1600, yres := 480 } 0x40000000 0x40000000

/-- Two buffers, and a third after the first is freed. -/
theorem slots_ok_screen : ∃ s, run (step roomy ⟨false, 1⟩) (start fresh)
    [.alloc {} screen, .alloc {} screen, .free front 0 0, .alloc {} screen] = some s ∧
      SlotsOk roomy ⟨false, 1⟩ s := by
  have hsome : (run (step roomy ⟨false, 1⟩) (start fresh)
      [.alloc {} screen, .alloc {} screen, .free front 0 0, .alloc {} screen]).isSome = true := by
    decide +kernel
  obtain ⟨s, hs⟩ := Option.isSome_iff_exists.mp hsome
  exact ⟨s, hs, slots_ok roomy ⟨false, 1⟩ fresh _ s hs (by decide +kernel)⟩

/-- Both buffers are taken, and an allocation for the ADSP does not fail with `-ENOMEM`. -/
theorem adsp_refused : ∃ s, run (step roomy ⟨false, 1⟩) (start fresh)
    [.alloc {} screen, .alloc {} screen] = some s ∧
      (∃ base ∈ s.module.framebuffer, ∀ i, i < s.module.numBuffers.toNat → Taken s base i) ∧
      (grallocAllocFramebuffer roomy ⟨false, 1⟩ screen s.module { pmemAdsp := true }).err = -EINVAL := by
  have hany : (run (step roomy ⟨false, 1⟩) (start fresh) [.alloc {} screen, .alloc {} screen]).any
      (fun s => s.module.framebuffer.any (fun base =>
          decide (∀ i, i < s.module.numBuffers.toNat → Taken s base i)) &&
        (grallocAllocFramebuffer roomy ⟨false, 1⟩ screen s.module { pmemAdsp := true }).err ==
          -EINVAL) = true := by
    decide +kernel
  obtain ⟨s, hs, h⟩ := (Option.any_eq_true ..).mp hany
  obtain ⟨hfull, herr⟩ := Bool.and_eq_true_iff.mp h
  obtain ⟨base, hbase, htaken⟩ := (Option.any_eq_true ..).mp hfull
  exact ⟨s, hs, ⟨base, hbase, of_decide_eq_true htaken⟩, eq_of_beq herr⟩

end Twm.Gralloc.FramebufferSlots
