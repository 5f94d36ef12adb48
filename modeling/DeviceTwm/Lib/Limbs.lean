import Mathlib.Algebra.Group.Nat.Defs
import Mathlib.Data.Nat.Digits.Defs

/-!
# Numbers in several words

A number in machine words is a list of words of `w` bits, the low one first.

* `ofWords`: the number; `ofWords_append`, `ofWords_lt`, `ofWords_inj`.
* `ofWords_append_lt`: of two numbers of the same number of words the high words decide.
* `ofBe32`, `be32`: a 32-bit word as four bytes, the high one first, and back; `beWords` and `beBytes`
  do the same to a string.
* `ofBytes`: the number a byte string says, the high byte first; `ofBytes_eq_ofWords` has it in words.
-/

namespace Lib

variable {w : Nat}

/-- The number that words say, the low one first. -/
def ofWords (l : List (BitVec w)) : Nat := Nat.ofDigits (2 ^ w) (l.map BitVec.toNat)

@[simp] theorem ofWords_nil : ofWords ([] : List (BitVec w)) = 0 := rfl

theorem ofWords_cons (d : BitVec w) (ds : List (BitVec w)) :
    ofWords (d :: ds) = d.toNat + 2 ^ w * ofWords ds := by
  rw [ofWords, List.map_cons, Nat.ofDigits_cons]
  rfl

theorem ofWords_append (l m : List (BitVec w)) :
    ofWords (l ++ m) = ofWords l + (2 ^ w) ^ l.length * ofWords m := by
  rw [ofWords, List.map_append, Nat.ofDigits_append, List.length_map]
  rfl

theorem ofWords_replicate_zero (k : Nat) : ofWords (List.replicate k 0#w) = 0 := by
  rw [ofWords, List.map_replicate]
  exact Nat.ofDigits_replicate_zero

theorem ofWords_lt (l : List (BitVec w)) : ofWords l < (2 ^ w) ^ l.length := by
  induction l with
  | nil => exact Nat.one_pos
  | cons d ds ih =>
    have hd := d.isLt
    have hmul : 2 ^ w * (ofWords ds + 1) ≤ 2 ^ w * (2 ^ w) ^ ds.length :=
      Nat.mul_le_mul_left _ ih
    rw [ofWords_cons, List.length_cons, Nat.pow_succ, Nat.mul_comm ((2 ^ w) ^ ds.length)]
    rw [Nat.mul_add] at hmul
    omega

/-- Numbers of the same number of words are equal when their words are. -/
theorem ofWords_inj {l m : List (BitVec w)} (hlen : l.length = m.length)
    (h : ofWords l = ofWords m) : l = m := by
  induction l generalizing m with
  | nil => exact (List.eq_nil_of_length_eq_zero hlen.symm).symm
  | cons d ds ih =>
    rcases m with - | ⟨e, es⟩
    · cases hlen
    · rw [ofWords_cons, ofWords_cons] at h
      have hd := d.isLt
      have he := e.isLt
      have hmod := congrArg (· % 2 ^ w) h
      simp only [Nat.add_mul_mod_self_left, Nat.mod_eq_of_lt hd, Nat.mod_eq_of_lt he] at hmod
      have hrest : ofWords ds = ofWords es := by
        have : 2 ^ w * ofWords ds = 2 ^ w * ofWords es := by omega
        exact Nat.eq_of_mul_eq_mul_left (Nat.two_pow_pos w) this
      rw [BitVec.eq_of_toNat_eq hmod, ih (Nat.succ.inj hlen) hrest]

/-- The high words decide. -/
theorem ofWords_append_lt {l m p q : List (BitVec w)} (hlen : l.length = m.length)
    (h : ofWords p < ofWords q) : ofWords (l ++ p) < ofWords (m ++ q) := by
  have hl := ofWords_lt l
  have hmul : (2 ^ w) ^ m.length * (ofWords p + 1) ≤ (2 ^ w) ^ m.length * ofWords q :=
    Nat.mul_le_mul_left _ h
  rw [ofWords_append, ofWords_append, hlen]
  rw [Nat.mul_add, ← hlen] at hmul
  rw [← hlen]
  omega

/-! ## The high byte first -/

/-- The word of four bytes, the high one first. -/
def ofBe32 (b₀ b₁ b₂ b₃ : UInt8) : BitVec 32 :=
  b₀.toBitVec.setWidth 32 <<< 24 ||| b₁.toBitVec.setWidth 32 <<< 16 |||
    b₂.toBitVec.setWidth 32 <<< 8 ||| b₃.toBitVec.setWidth 32

/-- The bytes of a word, the high one first. -/
def be32 (x : BitVec 32) : List UInt8 :=
  [⟨(x >>> 24).setWidth 8⟩, ⟨(x >>> 16).setWidth 8⟩, ⟨(x >>> 8).setWidth 8⟩, ⟨x.setWidth 8⟩]

@[simp] theorem length_be32 (x : BitVec 32) : (be32 x).length = 4 := rfl

theorem toNat_ofBe32 (b₀ b₁ b₂ b₃ : UInt8) : (ofBe32 b₀ b₁ b₂ b₃).toNat =
    2 ^ 24 * b₀.toNat + 2 ^ 16 * b₁.toNat + 2 ^ 8 * b₂.toNat + b₃.toNat := by
  have h₀ := b₀.toNat_lt
  have h₁ := b₁.toNat_lt
  have h₂ := b₂.toNat_lt
  have h₃ := b₃.toNat_lt
  have hshift : ∀ (b : UInt8) (k : Nat), k ≤ 24 →
      (b.toBitVec.setWidth 32 <<< k).toNat = b.toNat <<< k := by
    intro b k hk
    have hb := b.toNat_lt
    have hpow : 2 ^ k ≤ 2 ^ 24 := Nat.pow_le_pow_right (by decide) hk
    have hlt : b.toNat <<< k < 2 ^ 32 := by
      rw [Nat.shiftLeft_eq]
      calc b.toNat * 2 ^ k ≤ (2 ^ 8 - 1) * 2 ^ 24 := Nat.mul_le_mul (by omega) hpow
        _ < 2 ^ 32 := by decide
    rw [BitVec.toNat_shiftLeft, BitVec.toNat_setWidth, UInt8.toNat_toBitVec,
      Nat.mod_eq_of_lt (by omega : b.toNat < 2 ^ 32), Nat.mod_eq_of_lt hlt]
  have hlow : (b₃.toBitVec.setWidth 32).toNat = b₃.toNat := by
    rw [BitVec.toNat_setWidth, UInt8.toNat_toBitVec, Nat.mod_eq_of_lt (by omega)]
  have hor (a k : Nat) {x : Nat} (hx : x < 2 ^ k) : a <<< k ||| x = 2 ^ k * a + x := by
    rw [← Nat.shiftLeft_add_eq_or_of_lt hx, Nat.shiftLeft_eq, Nat.mul_comm]
  rw [ofBe32, BitVec.toNat_or, BitVec.toNat_or, BitVec.toNat_or, hshift _ _ (by decide),
    hshift _ _ (by decide), hshift _ _ (by decide), hlow, Nat.or_assoc, Nat.or_assoc,
    hor _ 8 h₃, hor _ 16 (by omega), hor _ 24 (by omega)]
  omega

theorem ofBe32_be32 (x : BitVec 32) :
    ofBe32 ⟨(x >>> 24).setWidth 8⟩ ⟨(x >>> 16).setWidth 8⟩ ⟨(x >>> 8).setWidth 8⟩ ⟨x.setWidth 8⟩ =
      x := by
  apply BitVec.eq_of_toNat_eq
  have hx := x.isLt
  rw [toNat_ofBe32]
  simp only [← UInt8.toNat_toBitVec, BitVec.toNat_setWidth, BitVec.toNat_ushiftRight,
    Nat.shiftRight_eq_div_pow]
  omega

theorem be32_ofBe32 (b₀ b₁ b₂ b₃ : UInt8) : be32 (ofBe32 b₀ b₁ b₂ b₃) = [b₀, b₁, b₂, b₃] := by
  have h₀ := b₀.toNat_lt
  have h₁ := b₁.toNat_lt
  have h₂ := b₂.toNat_lt
  have h₃ := b₃.toNat_lt
  have hbyte (b : UInt8) (k : Nat)
      (h : (ofBe32 b₀ b₁ b₂ b₃).toNat / 2 ^ k % 2 ^ 8 = b.toNat) :
      (⟨(ofBe32 b₀ b₁ b₂ b₃ >>> k).setWidth 8⟩ : UInt8) = b := by
    apply UInt8.toNat_inj.mp
    rw [← UInt8.toNat_toBitVec, BitVec.toNat_setWidth, BitVec.toNat_ushiftRight,
      Nat.shiftRight_eq_div_pow, h]
  have hlast : (⟨(ofBe32 b₀ b₁ b₂ b₃).setWidth 8⟩ : UInt8) = b₃ := by
    apply UInt8.toNat_inj.mp
    rw [← UInt8.toNat_toBitVec, BitVec.toNat_setWidth, toNat_ofBe32]
    omega
  rw [be32, hbyte b₀ 24 (by rw [toNat_ofBe32]; omega), hbyte b₁ 16 (by rw [toNat_ofBe32]; omega),
    hbyte b₂ 8 (by rw [toNat_ofBe32]; omega), hlast]

/-- The words of a string, the high byte of each first. -/
def beWords : List UInt8 → List (BitVec 32)
  | b₀ :: b₁ :: b₂ :: b₃ :: b => ofBe32 b₀ b₁ b₂ b₃ :: beWords b
  | _ => []

def beBytes (l : List (BitVec 32)) : List UInt8 := l.flatMap be32

theorem length_beBytes (l : List (BitVec 32)) : (beBytes l).length = 4 * l.length := by
  induction l with
  | nil => rfl
  | cons x l ih =>
    simp only [beBytes, List.flatMap_cons, List.length_append, length_be32, List.length_cons] at ih ⊢
    omega

theorem beWords_beBytes (l : List (BitVec 32)) : beWords (beBytes l) = l := by
  induction l with
  | nil => rfl
  | cons x l ih =>
    simp only [beBytes, List.flatMap_cons, be32, List.cons_append, List.nil_append, beWords] at ih ⊢
    rw [ih, ofBe32_be32]

/-- A string of whole words is the words' bytes. -/
theorem exists_beBytes {n : Nat} : ∀ {b : List UInt8}, b.length = 4 * n →
    ∃ l : List (BitVec 32), l.length = n ∧ b = beBytes l := by
  induction n with
  | zero => exact fun hb => ⟨[], rfl, List.eq_nil_of_length_eq_zero hb⟩
  | succ n ih =>
    intro b hb
    rcases b with - | ⟨b₀, - | ⟨b₁, - | ⟨b₂, - | ⟨b₃, b⟩⟩⟩⟩ <;>
      simp only [List.length_cons, List.length_nil] at hb <;> try omega
    obtain ⟨l, hl, rfl⟩ := ih (by omega : b.length = 4 * n)
    refine ⟨ofBe32 b₀ b₁ b₂ b₃ :: l, by rw [List.length_cons, hl], ?_⟩
    have hbytes : beBytes (ofBe32 b₀ b₁ b₂ b₃ :: l) = be32 (ofBe32 b₀ b₁ b₂ b₃) ++ beBytes l :=
      List.flatMap_cons
    rw [hbytes, be32_ofBe32]
    rfl

/-- The number that a string says, the high byte first. -/
def ofBytes (b : List UInt8) : Nat := ofWords (b.map UInt8.toBitVec).reverse

theorem ofBytes_cons (c : UInt8) (b : List UInt8) :
    ofBytes (c :: b) = ofBytes b + (2 ^ 8) ^ b.length * c.toNat := by
  rw [ofBytes, List.map_cons, List.reverse_cons, ofWords_append, List.length_reverse,
    List.length_map, ofWords_cons, ofWords_nil, Nat.mul_zero, Nat.add_zero]
  rfl

/-- The bytes of words, the high word first, say the same number. -/
theorem ofBytes_beBytes (l : List (BitVec 32)) : ofBytes (beBytes l) = ofWords l.reverse := by
  induction l with
  | nil => rfl
  | cons x l ih =>
    have hpow : (2 ^ 32) ^ l.length = (2 ^ 8) ^ (beBytes l).length := by
      rw [length_beBytes, Nat.pow_mul]
      rfl
    have hx := congrArg BitVec.toNat (ofBe32_be32 x)
    rw [toNat_ofBe32] at hx
    have hbytes : beBytes (x :: l) = be32 x ++ beBytes l := List.flatMap_cons
    rw [hbytes, be32, List.cons_append, List.cons_append, List.cons_append, List.cons_append,
      List.nil_append, ofBytes_cons, ofBytes_cons, ofBytes_cons, ofBytes_cons, ih, List.reverse_cons,
      ofWords_append, List.length_reverse, ofWords_cons, ofWords_nil, Nat.mul_zero, Nat.add_zero,
      hpow, ← hx]
    simp only [List.length_cons, Nat.pow_succ, Nat.mul_add]
    generalize (2 ^ 8) ^ (beBytes l).length = p
    ring

theorem ofBytes_inj {a b : List UInt8} (hlen : a.length = b.length) (h : ofBytes a = ofBytes b) :
    a = b := by
  have hrev := ofWords_inj (by simp [hlen]) h
  have hmap := List.reverse_inj.mp hrev
  exact (List.map_inj_right fun x y hxy => UInt8.toBitVec_inj.mp hxy).mp hmap

end Lib
