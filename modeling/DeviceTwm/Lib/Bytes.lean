import Mathlib.Data.Nat.Bitwise
import Mathlib.Data.List.TakeDrop
import Mathlib.Data.List.TakeWhile

/-!
# Byte strings and machine words

Byte strings are `List UInt8`.

* `le32`, `ofLe32`: a 32-bit word as four bytes, the low one first; `le16`, `ofLe16`: two bytes.
* `append_le32_length_inj`: pieces with their lengths after them are read off the end.
* `takeWhile_ne_append`, `takeWhile_ne_stop`: a text up to the first byte of a kind.
* `slice b off n`: the `n` bytes of `b` from `off` on; the `slice_append` lemmas find a piece of a
  concatenation by the lengths before it.
* `blit b off d`: `d` copied over `b` at `off`, if it fits; `getElem?_blit` has its bytes.
* `padTo n b`: `b` filled up with zeros to a whole number of blocks of `n` bytes.
* `and_compl`: what a mask leaves out; `and_highMask`: `x & ~(2 ^ k - 1)` rounds down to a multiple
  of `2 ^ k`.
-/

namespace Lib

/-- The bits of `x` outside a mask, on words of `w` bits. -/
theorem and_compl {x m w : Nat} (hx : x < 2 ^ w) (hm : m < 2 ^ w) :
    x &&& (2 ^ w - 1 - m) = x - (x &&& m) := by
  have hle : x &&& m ≤ x := Nat.and_le_left
  have hle' : x &&& (2 ^ w - 1 - m) ≤ x := Nat.and_le_left
  have hdisj : (BitVec.ofNat w x &&& ~~~BitVec.ofNat w m) &&&
      (BitVec.ofNat w x &&& BitVec.ofNat w m) = 0#w := by
    ext i hi
    simp
    grind
  have hor : (BitVec.ofNat w x &&& ~~~BitVec.ofNat w m) |||
      (BitVec.ofNat w x &&& BitVec.ofNat w m) = BitVec.ofNat w x := by
    ext i hi
    simp
    grind
  have hadd := congrArg BitVec.toNat ((BitVec.add_eq_or_of_and_eq_zero _ _ hdisj).trans hor)
  simp only [BitVec.toNat_add, BitVec.toNat_and, BitVec.toNat_not, BitVec.toNat_ofNat,
    Nat.mod_eq_of_lt hx, Nat.mod_eq_of_lt hm] at hadd
  rcases Nat.lt_or_ge ((x &&& (2 ^ w - 1 - m)) + (x &&& m)) (2 ^ w) with hlt | hge
  · rw [Nat.mod_eq_of_lt hlt] at hadd
    omega
  · rw [Nat.mod_eq_sub_mod hge, Nat.mod_eq_of_lt (by omega)] at hadd
    omega

/-- `x & ~(2^k - 1)` on words of `w` bits. -/
theorem and_highMask {x w k : Nat} (hx : x < 2 ^ w) (hk : k ≤ w) :
    x &&& (2 ^ w - 2 ^ k) = x / 2 ^ k * 2 ^ k := by
  have hpos := Nat.two_pow_pos k
  have hle : 2 ^ k ≤ 2 ^ w := Nat.pow_le_pow_right (by decide) hk
  have hmask : 2 ^ w - 2 ^ k = 2 ^ w - 1 - (2 ^ k - 1) := by omega
  rw [hmask, and_compl hx (by omega), Nat.and_two_pow_sub_one_eq_mod, Nat.mul_comm]
  have := Nat.div_add_mod x (2 ^ k)
  omega

/-! ## Words -/

/-- The bytes of a 32-bit word, the low one first. -/
def le32 (n : Nat) : List UInt8 :=
  [UInt8.ofNat n, UInt8.ofNat (n / 2 ^ 8), UInt8.ofNat (n / 2 ^ 16), UInt8.ofNat (n / 2 ^ 24)]

/-- The word in the first four bytes. -/
def ofLe32 : List UInt8 → Nat
  | b₀ :: b₁ :: b₂ :: b₃ :: _ =>
    b₀.toNat + 2 ^ 8 * b₁.toNat + 2 ^ 16 * b₂.toNat + 2 ^ 24 * b₃.toNat
  | _ => 0

@[simp] theorem length_le32 (n : Nat) : (le32 n).length = 4 := rfl

theorem ofLe32_le32 (n : Nat) (b : List UInt8) : ofLe32 (le32 n ++ b) = n % 2 ^ 32 := by
  simp only [le32, List.cons_append, ofLe32, UInt8.toNat_ofNat']
  omega

theorem ofLe32_lt (b : List UInt8) : ofLe32 b < 2 ^ 32 := by
  unfold ofLe32
  split
  · rename_i b₀ b₁ b₂ b₃ _
    have := b₀.toNat_lt
    have := b₁.toNat_lt
    have := b₂.toNat_lt
    have := b₃.toNat_lt
    omega
  · decide

theorem le32_inj {m n : Nat} (hm : m < 2 ^ 32) (hn : n < 2 ^ 32) (h : le32 m = le32 n) : m = n := by
  have := congrArg ofLe32 h
  rwa [← List.append_nil (le32 m), ← List.append_nil (le32 n), ofLe32_le32, ofLe32_le32,
    Nat.mod_eq_of_lt hm, Nat.mod_eq_of_lt hn] at this

/-- A piece with its length after it can be read off the end. -/
theorem append_le32_length_inj {a b s t : List UInt8} (hs : s.length < 2 ^ 32)
    (ht : t.length < 2 ^ 32) (h : a ++ s ++ le32 s.length = b ++ t ++ le32 t.length) :
    a = b ∧ s = t := by
  obtain ⟨h, hlen⟩ := List.append_inj' h rfl
  exact List.append_inj' h (le32_inj hs ht hlen)

/-- The bytes of a 16-bit word, the low one first. -/
def le16 (n : Nat) : List UInt8 := [UInt8.ofNat n, UInt8.ofNat (n / 2 ^ 8)]

/-- The word in the first two bytes. -/
def ofLe16 : List UInt8 → Nat
  | b₀ :: b₁ :: _ => b₀.toNat + 2 ^ 8 * b₁.toNat
  | _ => 0

@[simp] theorem length_le16 (n : Nat) : (le16 n).length = 2 := rfl

theorem ofLe16_le16 (n : Nat) (b : List UInt8) : ofLe16 (le16 n ++ b) = n % 2 ^ 16 := by
  simp only [le16, List.cons_append, List.nil_append, ofLe16, UInt8.toNat_ofNat']
  omega

theorem le16_mod (n : Nat) : le16 (n % 2 ^ 16 + 1) = le16 (n + 1) := by
  unfold le16
  congr 1
  · apply UInt8.toNat_inj.mp
    simp only [UInt8.toNat_ofNat']
    omega
  · congr 1
    apply UInt8.toNat_inj.mp
    simp only [UInt8.toNat_ofNat']
    omega

/-! ## Pieces of byte strings -/

/-- A byte string has one beginning of a length. -/
theorem exists_append_iff {s b t : List UInt8} {n : Nat} {P : List UInt8 → List UInt8 → Prop}
    (hs : s = b ++ t) (hb : b.length = n) :
    (∃ b' t', s = b' ++ t' ∧ b'.length = n ∧ P b' t') ↔ P b t := by
  constructor
  · rintro ⟨b', t', hs', hb', h⟩
    rw [hs] at hs'
    obtain ⟨rfl, rfl⟩ := List.append_inj hs' (hb.trans hb'.symm)
    exact h
  · intro h
    exact ⟨b, t, hs, hb, h⟩

section Stop

variable {α : Type} [DecidableEq α] {c : α} {s : List α}

theorem ne_of_stop (h : c ∉ s) : ∀ x ∈ s, decide (x ≠ c) = true := fun _ hx =>
  decide_eq_true (ne_of_mem_of_not_mem hx h)

theorem takeWhile_ne_append (h : c ∉ s) (t : List α) :
    (s ++ t).takeWhile (· ≠ c) = s ++ t.takeWhile (· ≠ c) :=
  List.takeWhile_append_of_pos (ne_of_stop h)

theorem takeWhile_ne_self (h : c ∉ s) : s.takeWhile (· ≠ c) = s :=
  List.takeWhile_eq_self_iff.mpr (ne_of_stop h)

/-- A text ends at the first `c` after it. -/
theorem takeWhile_ne_stop (h : c ∉ s) (t : List α) : (s ++ c :: t).takeWhile (· ≠ c) = s := by
  rw [takeWhile_ne_append h, List.takeWhile_cons_of_neg (by simp), List.append_nil]

theorem dropWhile_ne_stop (h : c ∉ s) (t : List α) : (s ++ c :: t).dropWhile (· ≠ c) = c :: t := by
  rw [List.dropWhile_append_of_pos (ne_of_stop h), List.dropWhile_cons_of_neg (by simp)]

/-- What comes after the first `c` does not count. -/
theorem takeWhile_ne_append_of_mem (h : c ∈ s) (t : List α) :
    (s ++ t).takeWhile (· ≠ c) = s.takeWhile (· ≠ c) := by
  obtain ⟨a, b, rfl, ha⟩ := List.eq_append_cons_of_mem h
  rw [List.append_assoc, List.cons_append, takeWhile_ne_stop ha, takeWhile_ne_stop ha]

end Stop

/-- `n` zero bytes. -/
def zeros (n : Nat) : List UInt8 := List.replicate n 0

@[simp] theorem length_zeros (n : Nat) : (zeros n).length = n := List.length_replicate

theorem zeros_append (m n : Nat) : zeros m ++ zeros n = zeros (m + n) :=
  List.replicate_append_replicate

/-- The `n` bytes of `b` from `off` on. -/
def slice (b : List UInt8) (off n : Nat) : List UInt8 := (b.drop off).take n

theorem slice_append_right {a b : List UInt8} {off : Nat} (n : Nat) (h : a.length ≤ off) :
    slice (a ++ b) off n = slice b (off - a.length) n := by
  unfold slice
  rw [List.drop_append, List.drop_eq_nil_of_le h, List.nil_append]

/-- A piece of a concatenation is at the length of what is before it. -/
theorem slice_append {a b : List UInt8} {off n : Nat} (c : List UInt8) (ho : off = a.length)
    (hn : n = b.length) : slice (a ++ (b ++ c)) off n = b := by
  rw [slice_append_right n (by omega), ho, hn, Nat.sub_self]
  simp [slice]

theorem slice_zeros {off m n : Nat} (c : List UInt8) (h : off + m ≤ n) :
    slice (zeros n ++ c) off m = zeros m := by
  unfold slice zeros
  rw [List.drop_append_of_le_length (by simp; omega), List.drop_replicate,
    List.take_append_of_le_length (by simp; omega), List.take_replicate]
  congr 1
  omega

/-- `d` copied over `b` at `off`; `none` if it reaches past the end. -/
def blit (b : List UInt8) (off : Nat) (d : List UInt8) : Option (List UInt8) :=
  if off + d.length ≤ b.length then some (b.take off ++ d ++ b.drop (off + d.length)) else none

/-- A copy over the start of the second part. -/
theorem blit_append (a : List UInt8) {b d : List UInt8} (h : d.length ≤ b.length) :
    blit (a ++ b) a.length d = some (a ++ (d ++ b.drop d.length)) := by
  unfold blit
  rw [if_pos (by simp [h])]
  simp [List.drop_append]

/-- A copy over a piece of its length. -/
theorem blit_piece {a b c d : List UInt8} {off : Nat} (ho : off = a.length) (hd : d.length = b.length) :
    blit (a ++ (b ++ c)) off d = some (a ++ (d ++ c)) := by
  rw [ho, blit_append a (by simp [hd]), List.drop_left' hd.symm]

/-- A copy over the zeros after `a`. -/
theorem blit_zeros {a d : List UInt8} {off n : Nat} (ho : off = a.length) (hn : d.length ≤ n) :
    blit (a ++ zeros n) off d = some (a ++ (d ++ zeros (n - d.length))) := by
  unfold blit
  rw [if_pos (by simp [ho, hn]), ho]
  simp [zeros, List.drop_append]

theorem length_blit {b b' d : List UInt8} {off : Nat} (h : blit b off d = some b') :
    b'.length = b.length := by
  unfold blit at h
  split at h
  · cases h
    simp
    omega
  · cases h

/-- The bytes of the copy are at `off`, and the others stay. -/
theorem getElem?_blit {b b' d : List UInt8} {off : Nat} (h : blit b off d = some b') (j : Nat) :
    b'[j]? = if off ≤ j ∧ j < off + d.length then d[j - off]? else b[j]? := by
  unfold blit at h
  split at h
  · next hle =>
    cases h
    have htake : (b.take off).length = off := by
      rw [List.length_take]
      omega
    rw [List.append_assoc]
    rcases Nat.lt_or_ge j off with hj | hj
    · rw [if_neg (by omega), List.getElem?_append_left (by omega), List.getElem?_take_of_lt hj]
    · rw [List.getElem?_append_right (by omega), htake]
      rcases Nat.lt_or_ge j (off + d.length) with hj' | hj'
      · rw [if_pos ⟨hj, hj'⟩, List.getElem?_append_left (by omega)]
      · rw [if_neg (by omega), List.getElem?_append_right (by omega), List.getElem?_drop]
        congr 1
        omega
  · cases h

theorem take_blit {b b' d : List UInt8} {off n : Nat} (h : blit b off d = some b') (hn : n ≤ off) :
    b'.take n = b.take n := by
  unfold blit at h
  split at h
  · cases h
    rw [List.append_assoc, List.take_append_of_le_length (by rw [List.length_take]; omega),
      List.take_take, Nat.min_eq_left hn]
  · cases h

/-- The copy reads back. -/
theorem slice_blit {b b' d : List UInt8} {off : Nat} (h : blit b off d = some b') :
    slice b' off d.length = d := by
  unfold blit at h
  split at h
  · cases h
    rw [List.append_assoc]
    exact slice_append _ (by rw [List.length_take]; omega) rfl
  · cases h

/-! ## Blocks -/

/-- The number of blocks of `n` bytes that `size` bytes need. -/
def blocks (n size : Nat) : Nat := (size + n - 1) / n

/-- The bytes after `size` bytes up to the end of the last block. -/
def slack (n size : Nat) : Nat := n * blocks n size - size

theorem le_mul_blocks {n : Nat} (hn : 0 < n) (size : Nat) : size ≤ n * blocks n size := by
  unfold blocks
  have := Nat.div_add_mod (size + n - 1) n
  have := Nat.mod_lt (size + n - 1) hn
  omega

/-- `b` filled up to whole blocks. -/
def padTo (n : Nat) (b : List UInt8) : List UInt8 := b ++ zeros (slack n b.length)

theorem padTo_append (n : Nat) (b c : List UInt8) :
    padTo n b ++ c = b ++ (zeros (slack n b.length) ++ c) := List.append_assoc ..

theorem length_padTo {n : Nat} (hn : 0 < n) (b : List UInt8) :
    (padTo n b).length = n * blocks n b.length := by
  have := le_mul_blocks hn b.length
  simp only [padTo, slack, List.length_append, length_zeros]
  omega

/-- The slack is the distance to the next multiple of the block size. -/
theorem slack_eq {n : Nat} (hn : 0 < n) (size : Nat) :
    slack n size = if size % n = 0 then 0 else n - size % n := by
  have hd := Nat.div_add_mod size n
  have hlt := Nat.mod_lt size hn
  unfold slack blocks
  split
  · rename_i h
    have : size + n - 1 = (n - 1) + n * (size / n) := by omega
    rw [this, Nat.add_mul_div_left _ _ hn, Nat.div_eq_of_lt (by omega), Nat.zero_add]
    omega
  · rename_i h
    have : size + n - 1 = (size % n - 1) + n * (size / n + 1) := by
      rw [Nat.mul_add]
      omega
    rw [this, Nat.add_mul_div_left _ _ hn, Nat.div_eq_of_lt (by omega), Nat.zero_add, Nat.mul_add]
    omega

end Lib
