import DeviceTwm.Lib.Montgomery
import DeviceTwm.Mincrypt.Sha1

/-!
# RSA signatures

The arithmetic of `mkbootimg/rsa.c`. A number is `key->len` words of 32 bits, the low one first, in an
array that the functions change in place; here it is a list, the old one in and the new one out.
No two array arguments of one call are the same array where one of them is written.

* `montMulAdd_spec`: one digit of a Montgomery product. Nothing is asked of the operands: the
  subtraction that the overflow asks for always brings the number back into its words.
* `montMul_spec`: the product, in as many words, and below the second operand plus the modulus.
* `modpow3_spec`: the cube modulo `n`, when one subtraction is enough to reduce it.
-/

open Lib

namespace Twm.Mincrypt

def RSANUMBYTES : Nat := 256

def RSANUMWORDS : Nat := RSANUMBYTES / 4

structure RSAPublicKey where
  /-- The words of `n` in use. -/
  len : Int
  /-- `-1 / n[0]` modulo `2 ^ 32`. -/
  n0inv : Word
  /-- The modulus. -/
  n : Vector Word RSANUMWORDS
  /-- `R ^ 2` -/
  rr : Vector Word RSANUMWORDS

namespace RSAPublicKey

def nWords (key : RSAPublicKey) : List Word := key.n.toList.take key.len.toNat

def rrWords (key : RSAPublicKey) : List Word := key.rr.toList.take key.len.toNat

end RSAPublicKey

/-- `(uint64_t) x` -/
def wide (x : Word) : BitVec 64 := x.setWidth 64

/-- `(uint32_t) A` -/
def low (A : BitVec 64) : Word := A.setWidth 32

/-- `A` is the signed borrow. -/
def subMLoop : List Word → List Word → BitVec 64 → List Word
  | a :: as, n :: ns, A =>
    let A := A + (wide a - wide n)
    low A :: subMLoop as ns (A.sshiftRight 32)
  | as, _, _ => as

/-- `a[] -= mod` -/
def subM (key : RSAPublicKey) (a : List Word) : List Word := subMLoop a key.nWords 0

/-- From the high words down. -/
def geMLoop : List Word → List Word → Bool
  | a :: as, n :: ns => if a < n then false else if n < a then true else geMLoop as ns
  | _, _ => true

/-- `a[] >= mod` -/
def geM (key : RSAPublicKey) (a : List Word) : Bool := geMLoop a.reverse key.nWords.reverse

/-- The words from the second on: `A` sums `a b + c`, and `B` adds to it the multiple `d0` of `n`. -/
def montMulAddLoop (a d0 : Word) :
    List Word → List Word → List Word → BitVec 64 → BitVec 64 → List Word × BitVec 64 × BitVec 64
  | b :: bs, c :: cs, n :: ns, A, B =>
    let A := (A >>> 32) + wide a * wide b + wide c
    let B := (B >>> 32) + wide d0 * wide n + wide (low A)
    let r := montMulAddLoop a d0 bs cs ns A B
    (low B :: r.1, r.2)
  | _, _, _, A, B => ([], A, B)

/-- `c[] += a * b[] / R % mod` -/
def montMulAdd (key : RSAPublicKey) (c : List Word) (a : Word) (b : List Word) : List Word :=
  match b, c, key.nWords with
  | b₀ :: bs, c₀ :: cs, n₀ :: ns =>
    let A := wide a * wide b₀ + wide c₀
    let d0 := low A * key.n0inv
    let B := wide d0 * wide n₀ + wide (low A)
    let r := montMulAddLoop a d0 bs cs ns A B
    let A := (r.2.1 >>> 32) + (r.2.2 >>> 32)
    let c := r.1 ++ [low A]
    if A >>> 32 ≠ 0 then subM key c else c
  | _, _, _ => c

/-- `c[] = a[] * b[] / R % mod` -/
def montMul (key : RSAPublicKey) (a b : List Word) : List Word :=
  a.foldl (fun c ai => montMulAdd key c ai b) (List.replicate key.len.toNat 0)

/-- The word at `inout + k`. -/
def wordAt (inout : List UInt8) (k : Nat) : Word :=
  ofBe32 (inout.getD k 0) (inout.getD (k + 1) 0) (inout.getD (k + 2) 0) (inout.getD (k + 3) 0)

/-- The cube of the number in `inout`, which has `4 * key->len` bytes. -/
def modpow3 (key : RSAPublicKey) (inout : List UInt8) : List UInt8 :=
  let len := key.len.toNat
  let a := (List.range len).map fun i => wordAt inout ((len - 1 - i) * 4)
  let aR := montMul key a key.rrWords
  let aaR := montMul key aR aR
  let aaa := montMul key aaR a
  let aaa := if geM key aaa then subM key aaa else aaa
  aaa.reverse.flatMap be32

/-! ## Subtraction and comparison -/

theorem toNat_wide (x : Word) : (wide x).toNat = x.toNat := by
  have := x.isLt
  rw [wide, BitVec.toNat_setWidth, Nat.mod_eq_of_lt (by omega)]

theorem toNat_low (A : BitVec 64) : (low A).toNat = A.toNat % 2 ^ 32 := BitVec.toNat_setWidth 32 A

theorem toNat_high (A : BitVec 64) : (A >>> 32).toNat = A.toNat / 2 ^ 32 := by
  rw [BitVec.toNat_ushiftRight, Nat.shiftRight_eq_div_pow]

/-- One word of a subtraction: the borrow is `0` or `-1` before and after. -/
theorem subM_word {A : BitVec 64} (hA : A = 0 ∨ A = -1) (a n : Word) :
    ((A + (wide a - wide n)).sshiftRight 32 = 0 ∨ (A + (wide a - wide n)).sshiftRight 32 = -1) ∧
    A.toInt + a.toNat - n.toNat = (low (A + (wide a - wide n))).toNat +
      2 ^ 32 * ((A + (wide a - wide n)).sshiftRight 32).toInt := by
  have ha := a.isLt
  have hn := n.isLt
  have hA' : A.toInt = 0 ∨ A.toInt = -1 := by
    rcases hA with rfl | rfl
    · exact .inl rfl
    · exact .inr rfl
  have hval : (A + (wide a - wide n)).toInt = A.toInt + a.toNat - n.toNat := by
    have hwa : (wide a).toInt = a.toNat := by
      rw [BitVec.toInt_eq_toNat_of_lt (by rw [toNat_wide]; omega), toNat_wide]
    have hwn : (wide n).toInt = n.toNat := by
      rw [BitVec.toInt_eq_toNat_of_lt (by rw [toNat_wide]; omega), toNat_wide]
    rw [BitVec.toInt_add, BitVec.toInt_sub, hwa, hwn, Int.add_bmod_bmod,
      Int.bmod_eq_of_le (by omega) (by omega)]
    omega
  have hshift : ((A + (wide a - wide n)).sshiftRight 32).toInt =
      (A.toInt + a.toNat - n.toNat) / 2 ^ 32 := by
    rw [BitVec.toInt_sshiftRight, Int.shiftRight_eq_div_pow, hval]
    rfl
  have hlow : ((low (A + (wide a - wide n))).toNat : Int) =
      (A.toInt + a.toNat - n.toNat) % 2 ^ 32 := by
    rw [toNat_low, ← hval, BitVec.toInt_eq_toNat_cond]
    split <;> omega
  refine ⟨?_, ?_⟩
  · have hcases : (A.toInt + a.toNat - n.toNat) / 2 ^ 32 = 0 ∨
        (A.toInt + a.toNat - n.toNat) / 2 ^ 32 = -1 := by omega
    rcases hcases with h | h
    · exact .inl (BitVec.eq_of_toInt_eq (hshift.trans h))
    · exact .inr (BitVec.eq_of_toInt_eq (hshift.trans h))
  · rw [hshift, hlow]
    omega

theorem length_subMLoop : ∀ (as ns : List Word) (A : BitVec 64),
    (subMLoop as ns A).length = as.length
  | [], _, _ => by simp [subMLoop]
  | _ :: _, [], _ => by simp [subMLoop]
  | a :: as, n :: ns, A => by simp [subMLoop, length_subMLoop as ns]

/-- The loop subtracts, with a borrow out of the top. -/
theorem subMLoop_spec {as ns : List Word} (hlen : as.length = ns.length) {A : BitVec 64}
    (hA : A = 0 ∨ A = -1) : ∃ b : Int, (b = 0 ∨ b = -1) ∧
      A.toInt + ofWords as - ofWords ns =
        ofWords (subMLoop as ns A) + (2 ^ 32) ^ as.length * b := by
  induction as generalizing ns A with
  | nil =>
    have hns := List.eq_nil_of_length_eq_zero hlen.symm
    subst hns
    refine ⟨A.toInt, ?_, by simp [subMLoop]⟩
    rcases hA with rfl | rfl
    · exact .inl rfl
    · exact .inr rfl
  | cons a as ih =>
    rcases ns with - | ⟨n, ns⟩
    · cases hlen
    · obtain ⟨hA', hword⟩ := subM_word hA a n
      obtain ⟨b, hb, hrest⟩ := ih (Nat.succ.inj hlen) hA'
      refine ⟨b, hb, ?_⟩
      have hscaled := congrArg (fun x : Int => 2 ^ 32 * x) hrest
      have hpow : ((2 : Int) ^ 32) ^ (as.length + 1) * b = 2 ^ 32 * ((2 ^ 32) ^ as.length * b) := by
        ring
      rw [subMLoop, ofWords_cons, ofWords_cons, ofWords_cons, List.length_cons, hpow]
      simp only [Int.mul_add, Int.mul_sub] at hscaled
      generalize ((2 : Int) ^ 32) ^ as.length * b = q at hscaled ⊢
      omega

variable {key : RSAPublicKey}

theorem length_subM (a : List Word) : (subM key a).length = a.length := length_subMLoop _ _ _

/-- `subM` of a number `v` that is not smaller, of which the words may lack the top bit, when the
difference fits in the words. -/
theorem ofWords_subM {a : List Word} (hlen : a.length = key.nWords.length) {v t : Nat}
    (hv : v = ofWords a + (2 ^ 32) ^ a.length * t) (htop : t ≤ 1) (hle : ofWords key.nWords ≤ v)
    (hlt : v < (2 ^ 32) ^ a.length + ofWords key.nWords) :
    ofWords (subM key a) = v - ofWords key.nWords := by
  obtain ⟨b, hb, hspec⟩ := subMLoop_spec hlen (A := 0) (.inl rfl)
  have hdef : subMLoop a key.nWords 0 = subM key a := rfl
  have hzero : (0 : BitVec 64).toInt = 0 := rfl
  have ha := ofWords_lt a
  have hsub := ofWords_lt (subM key a)
  rw [length_subM] at hsub
  rw [hdef, hzero] at hspec
  have hcast : ((2 : Int) ^ 32) ^ a.length = (((2 ^ 32) ^ a.length : Nat) : Int) := by norm_cast
  rw [hcast] at hspec
  generalize (2 ^ 32) ^ a.length = p at *
  rcases (by omega : t = 0 ∨ t = 1) with rfl | rfl <;> rcases hb with rfl | rfl <;> omega

theorem geMLoop_spec {as ns : List Word} (hlen : as.length = ns.length) :
    geMLoop as ns = true ↔ ofWords ns.reverse ≤ ofWords as.reverse := by
  induction as generalizing ns with
  | nil =>
    have hns := List.eq_nil_of_length_eq_zero hlen.symm
    subst hns
    simp [geMLoop]
  | cons a as ih =>
    rcases ns with - | ⟨n, ns⟩
    · cases hlen
    · have hlen' : as.length = ns.length := Nat.succ.inj hlen
      have hrev : as.reverse.length = ns.reverse.length := by simp [hlen']
      rw [geMLoop, List.reverse_cons, List.reverse_cons]
      split
      case isTrue h =>
        have hlt := ofWords_append_lt hrev (p := [a]) (q := [n]) (by
          simpa [ofWords_cons] using BitVec.lt_def.mp h)
        exact ⟨nofun, fun hle => absurd hle (by omega)⟩
      case isFalse h =>
        split
        case isTrue h' =>
          have hlt := ofWords_append_lt hrev.symm (p := [n]) (q := [a]) (by
            simpa [ofWords_cons] using BitVec.lt_def.mp h')
          exact ⟨fun _ => Nat.le_of_lt hlt, fun _ => rfl⟩
        case isFalse h' =>
          have heq : a = n := BitVec.eq_of_toNat_eq (by
            rw [BitVec.lt_def] at h h'
            omega)
          rw [ih hlen', heq, ofWords_append, ofWords_append, hrev]
          omega

theorem geM_iff {a : List Word} (hlen : a.length = key.nWords.length) :
    geM key a = true ↔ ofWords key.nWords ≤ ofWords a := by
  rw [geM, geMLoop_spec (by simp [hlen]), List.reverse_reverse, List.reverse_reverse]

/-! ## Products -/

/-- A sum of a word, a product of words and a high word does not overflow. -/
theorem toNat_sum (x : BitVec 64) (a b c : Word) :
    ((x >>> 32) + wide a * wide b + wide c).toNat =
      x.toNat / 2 ^ 32 + a.toNat * b.toNat + c.toNat := by
  have hx := x.isLt
  have hc := c.isLt
  have hmul : a.toNat * b.toNat ≤ (2 ^ 32 - 1) * (2 ^ 32 - 1) :=
    Nat.mul_le_mul (Nat.le_pred_of_lt a.isLt) (Nat.le_pred_of_lt b.isLt)
  rw [BitVec.toNat_add, BitVec.toNat_add, BitVec.toNat_mul, toNat_high, toNat_wide, toNat_wide,
    toNat_wide]
  generalize a.toNat * b.toNat = p at *
  omega

theorem length_montMulAddLoop {a d0 : Word} : ∀ {bs cs ns : List Word} (A B : BitVec 64),
    cs.length = bs.length → ns.length = bs.length →
    (montMulAddLoop a d0 bs cs ns A B).1.length = bs.length
  | [], _, _, _, _, _, _ => by simp [montMulAddLoop]
  | b :: bs, [], _, _, _, h, _ => by cases h
  | b :: bs, c :: cs, [], _, _, _, h => by cases h
  | b :: bs, c :: cs, n :: ns, A, B, hc, hn => by
    simp only [montMulAddLoop, List.length_cons]
    rw [length_montMulAddLoop _ _ (Nat.succ.inj hc) (Nat.succ.inj hn)]

/-- The loop sums `a b + c + d0 n`, with what is above the words in the two high halves. -/
theorem montMulAddLoop_spec {a d0 : Word} {bs cs ns : List Word} (hc : cs.length = bs.length)
    (hn : ns.length = bs.length) (A B : BitVec 64) :
    ofWords (montMulAddLoop a d0 bs cs ns A B).1 + (2 ^ 32) ^ bs.length *
        ((montMulAddLoop a d0 bs cs ns A B).2.1.toNat / 2 ^ 32 +
          (montMulAddLoop a d0 bs cs ns A B).2.2.toNat / 2 ^ 32) =
      A.toNat / 2 ^ 32 + B.toNat / 2 ^ 32 + a.toNat * ofWords bs + ofWords cs +
        d0.toNat * ofWords ns := by
  induction bs generalizing cs ns A B with
  | nil =>
    have hcs := List.eq_nil_of_length_eq_zero hc
    have hns := List.eq_nil_of_length_eq_zero hn
    subst hcs hns
    simp [montMulAddLoop]
  | cons b bs ih =>
    rcases cs with - | ⟨c, cs⟩
    · cases hc
    rcases ns with - | ⟨n, ns⟩
    · cases hn
    have hrest := ih (Nat.succ.inj hc) (Nat.succ.inj hn) ((A >>> 32) + wide a * wide b + wide c)
      ((B >>> 32) + wide d0 * wide n + wide (low ((A >>> 32) + wide a * wide b + wide c)))
    simp only [montMulAddLoop, ofWords_cons, List.length_cons]
    generalize hr : montMulAddLoop a d0 bs cs ns ((A >>> 32) + wide a * wide b + wide c)
      ((B >>> 32) + wide d0 * wide n + wide (low ((A >>> 32) + wide a * wide b + wide c))) = r
      at hrest ⊢
    rw [toNat_sum, toNat_sum, toNat_low, toNat_sum] at hrest
    rw [toNat_low, toNat_sum, toNat_low, toNat_sum]
    have hscaled := congrArg (fun x => 2 ^ 32 * x) hrest
    have hpow : (2 ^ 32) ^ (bs.length + 1) * (r.2.1.toNat / 2 ^ 32 + r.2.2.toNat / 2 ^ 32) =
        2 ^ 32 * ((2 ^ 32) ^ bs.length * (r.2.1.toNat / 2 ^ 32 + r.2.2.toNat / 2 ^ 32)) := by ring
    have hab : a.toNat * (b.toNat + 2 ^ 32 * ofWords bs) =
        a.toNat * b.toNat + 2 ^ 32 * (a.toNat * ofWords bs) := by ring
    have hdn : d0.toNat * (n.toNat + 2 ^ 32 * ofWords ns) =
        d0.toNat * n.toNat + 2 ^ 32 * (d0.toNat * ofWords ns) := by ring
    rw [hpow, hab, hdn]
    simp only [Nat.mul_add] at hscaled ⊢
    generalize (2 ^ 32) ^ bs.length * (r.2.1.toNat / 2 ^ 32) = p₁ at *
    generalize (2 ^ 32) ^ bs.length * (r.2.2.toNat / 2 ^ 32) = p₂ at *
    generalize a.toNat * b.toNat = ab at *
    generalize a.toNat * ofWords bs = abs at *
    generalize d0.toNat * n.toNat = dn at *
    generalize d0.toNat * ofWords ns = dns at *
    omega

namespace RSAPublicKey

/-- `n0inv` belongs to the modulus. -/
def Inverse (key : RSAPublicKey) : Prop := key.n0inv * key.n.toList.headD 0 = -1

theorem Inverse.mod (h : key.Inverse) (hpos : 0 < key.len) :
    (key.n0inv.toNat * ofWords key.nWords + 1) % 2 ^ 32 = 0 := by
  obtain ⟨k, hk⟩ : ∃ k, key.len.toNat = k + 1 := ⟨key.len.toNat - 1, by omega⟩
  have hlen : key.n.toList.length = RSANUMWORDS := key.n.length_toList
  rcases hn : key.n.toList with - | ⟨n₀, ns⟩
  · rw [hn] at hlen
    cases hlen
  · rw [Inverse, hn] at h
    have hmod := congrArg BitVec.toNat h
    rw [BitVec.toNat_mul, List.headD_cons] at hmod
    have hone : (-1 : Word).toNat = 2 ^ 32 - 1 := rfl
    have hmul : key.n0inv.toNat * (n₀.toNat + 2 ^ 32 * ofWords (ns.take k)) =
        key.n0inv.toNat * n₀.toNat + 2 ^ 32 * (key.n0inv.toNat * ofWords (ns.take k)) := by ring
    rw [hone] at hmod
    rw [nWords, hn, hk, List.take_succ_cons, ofWords_cons, hmul]
    generalize key.n0inv.toNat * n₀.toNat = p at *
    omega

end RSAPublicKey

theorem nWords_ne_nil (hpos : 0 < key.len) : key.nWords ≠ [] := by
  rw [RSAPublicKey.nWords, Ne, List.take_eq_nil_iff, not_or]
  refine ⟨by omega, fun h => ?_⟩
  have := congrArg List.length h
  rw [key.n.length_toList] at this
  cases this

theorem toNat_mulAdd (a b c : Word) :
    (wide a * wide b + wide c).toNat = a.toNat * b.toNat + c.toNat := by
  have h := toNat_sum 0#64 a b c
  have hzero : (0#64) >>> 32 + wide a * wide b = wide a * wide b := BitVec.zero_add _
  have hnat : (0#64).toNat / 2 ^ 32 = 0 := rfl
  rwa [hzero, hnat, Nat.zero_add] at h

/-- The sum of the two high halves has one bit too many at most. -/
theorem toNat_highs (A B : BitVec 64) :
    ((A >>> 32) + (B >>> 32)).toNat = A.toNat / 2 ^ 32 + B.toNat / 2 ^ 32 := by
  have hA := A.isLt
  have hB := B.isLt
  rw [BitVec.toNat_add, toNat_high, toNat_high]
  omega

/-- The digit that `montMulAdd` chooses is the one of the reduction. -/
theorem toNat_digit (a b₀ c₀ m : Word) (bs cs : List Word) :
    (low (wide a * wide b₀ + wide c₀) * m).toNat =
      (ofWords (c₀ :: cs) + a.toNat * ofWords (b₀ :: bs)) * m.toNat % 2 ^ 32 := by
  have ht : ofWords (c₀ :: cs) + a.toNat * ofWords (b₀ :: bs) =
      a.toNat * b₀.toNat + c₀.toNat + 2 ^ 32 * (ofWords cs + a.toNat * ofWords bs) := by
    rw [ofWords_cons, ofWords_cons]
    ring
  rw [BitVec.toNat_mul, toNat_low, toNat_mulAdd, ht, ← Nat.mod_mul_mod]
  conv_rhs => rw [← Nat.mod_mul_mod, Nat.add_mul_mod_self_left]
  rw [Nat.mod_mod]

/-- The words and the two high halves are the quotient. -/
theorem montMulAddLoop_redc {a m b₀ c₀ n₀ : Word} {bs cs ns : List Word}
    (hc : cs.length = bs.length) (hn : ns.length = bs.length)
    (hm : (m.toNat * ofWords (n₀ :: ns) + 1) % 2 ^ 32 = 0) {A B : BitVec 64} {d0 : Word}
    (hA : A = wide a * wide b₀ + wide c₀) (hd0 : d0 = low A * m)
    (hB : B = wide d0 * wide n₀ + wide (low A)) :
    ofWords (montMulAddLoop a d0 bs cs ns A B).1 + (2 ^ 32) ^ bs.length *
        ((montMulAddLoop a d0 bs cs ns A B).2.1.toNat / 2 ^ 32 +
          (montMulAddLoop a d0 bs cs ns A B).2.2.toNat / 2 ^ 32) =
      redc (ofWords (n₀ :: ns)) m.toNat (2 ^ 32)
        (ofWords (c₀ :: cs) + a.toNat * ofWords (b₀ :: bs)) := by
  have hmul := redc_mul hm (ofWords (c₀ :: cs) + a.toNat * ofWords (b₀ :: bs))
  have hdig := toNat_digit a b₀ c₀ m bs cs
  have hAnat : A.toNat = a.toNat * b₀.toNat + c₀.toNat := by rw [hA, toNat_mulAdd]
  have hBnat : B.toNat = d0.toNat * n₀.toNat + A.toNat % 2 ^ 32 := by
    rw [hB, toNat_mulAdd, toNat_low]
  rw [← hA, ← hd0] at hdig
  rw [← hdig, ofWords_cons, ofWords_cons, ofWords_cons] at hmul
  rw [montMulAddLoop_spec hc hn, ofWords_cons, ofWords_cons, ofWords_cons]
  have hab : a.toNat * (b₀.toNat + 2 ^ 32 * ofWords bs) =
      a.toNat * b₀.toNat + 2 ^ 32 * (a.toNat * ofWords bs) := by ring
  have hdn : d0.toNat * (n₀.toNat + 2 ^ 32 * ofWords ns) =
      d0.toNat * n₀.toNat + 2 ^ 32 * (d0.toNat * ofWords ns) := by ring
  rw [hab, hdn] at hmul
  rw [hab]
  generalize redc (n₀.toNat + 2 ^ 32 * ofWords ns) m.toNat (2 ^ 32)
    (c₀.toNat + 2 ^ 32 * ofWords cs + (a.toNat * b₀.toNat + 2 ^ 32 * (a.toNat * ofWords bs))) = V
    at *
  generalize a.toNat * b₀.toNat = ab at *
  generalize a.toNat * ofWords bs = abs at *
  generalize d0.toNat * n₀.toNat = dn at *
  generalize d0.toNat * ofWords ns = dns at *
  omega

/-- What `montMulAdd` stores: the quotient, or what is left of it when it has a bit too many. -/
theorem montMulAdd_redc (hkey : key.Inverse) (hpos : 0 < key.len) {b c : List Word}
    (hb : b.length = key.nWords.length) (hc : c.length = key.nWords.length) (a : Word) :
    (montMulAdd key c a b).length = key.nWords.length ∧
    (ofWords (montMulAdd key c a b) = redc (ofWords key.nWords) key.n0inv.toNat (2 ^ 32)
        (ofWords c + a.toNat * ofWords b) ∨
      ofWords key.nWords + ofWords (montMulAdd key c a b) =
        redc (ofWords key.nWords) key.n0inv.toNat (2 ^ 32) (ofWords c + a.toNat * ofWords b)) := by
  have hm := hkey.mod hpos
  have hne := nWords_ne_nil hpos
  rcases hn : key.nWords with - | ⟨n₀, ns⟩
  · exact absurd hn hne
  rcases b with - | ⟨b₀, bs⟩
  · rw [hn] at hb
    cases hb
  rcases c with - | ⟨c₀, cs⟩
  · rw [hn] at hc
    cases hc
  rw [hn] at hb hc hm
  have hns : ns.length = bs.length := (Nat.succ.inj hb).symm
  have hcs : cs.length = bs.length := (Nat.succ.inj hc).trans hns
  simp only [montMulAdd, hn]
  generalize hA : wide a * wide b₀ + wide c₀ = A
  generalize hd0 : low A * key.n0inv = d0
  generalize hB : wide d0 * wide n₀ + wide (low A) = B
  have hlen := @length_montMulAddLoop a d0 bs cs ns A B hcs hns
  have hredc := montMulAddLoop_redc (m := key.n0inv) hcs hns hm hA.symm hd0.symm hB.symm
  have hV : redc (ofWords (n₀ :: ns)) key.n0inv.toNat (2 ^ 32)
      (ofWords (c₀ :: cs) + a.toNat * ofWords (b₀ :: bs)) <
        (2 ^ 32) ^ (bs.length + 1) + ofWords (n₀ :: ns) := by
    apply redc_lt (by decide)
    have hcN := ofWords_lt (c₀ :: cs)
    have hbN := ofWords_lt (b₀ :: bs)
    have ha := a.isLt
    rw [List.length_cons, hcs] at hcN
    rw [List.length_cons] at hbN
    have hab : a.toNat * ofWords (b₀ :: bs) ≤ (2 ^ 32 - 1) * (2 ^ 32) ^ (bs.length + 1) :=
      Nat.mul_le_mul (by omega) (by omega)
    omega
  generalize redc (ofWords (n₀ :: ns)) key.n0inv.toNat (2 ^ 32)
    (ofWords (c₀ :: cs) + a.toNat * ofWords (b₀ :: bs)) = V at *
  generalize montMulAddLoop a d0 bs cs ns A B = r at *
  have hhigh := toNat_highs r.2.1 r.2.2
  have hpow : (2 ^ 32) ^ (bs.length + 1) = 2 ^ 32 * (2 ^ 32) ^ bs.length := by ring
  have hr₁ := r.2.1.isLt
  have hr₂ := r.2.2.isLt
  rw [← hhigh] at hredc
  generalize (r.2.1 >>> 32) + (r.2.2 >>> 32) = H at *
  have hclen : (r.1 ++ [low H]).length = bs.length + 1 := by simp [hlen]
  have hval : V = ofWords (r.1 ++ [low H]) + (2 ^ 32) ^ (bs.length + 1) * (H.toNat / 2 ^ 32) := by
    have hH : H.toNat = H.toNat % 2 ^ 32 + 2 ^ 32 * (H.toNat / 2 ^ 32) := (Nat.mod_add_div _ _).symm
    rw [ofWords_append, hlen, ofWords_cons, ofWords_nil, toNat_low, ← hredc, hpow]
    conv_lhs => rw [hH]
    ring
  have htop : H.toNat / 2 ^ 32 ≤ 1 := by omega
  have hnN := ofWords_lt (n₀ :: ns)
  rw [List.length_cons, hns] at hnN ⊢
  split
  case isTrue h =>
    have hone : H.toNat / 2 ^ 32 = 1 := by
      have hne : (H >>> 32).toNat ≠ 0 := fun h0 => h (BitVec.eq_of_toNat_eq h0)
      rw [toNat_high] at hne
      omega
    rw [hone, Nat.mul_one] at hval
    have hsub := @ofWords_subM key (r.1 ++ [low H])
      (by rw [hn, hclen, List.length_cons, hns]) V 1 (by rw [hval, hclen, Nat.mul_one]) (Nat.le_refl 1)
      (by rw [hn]; omega) (by rw [hn, hclen]; exact hV)
    rw [hn] at hsub
    refine ⟨by rw [length_subM, hclen], .inr ?_⟩
    omega
  case isFalse h =>
    have hzero : H.toNat / 2 ^ 32 = 0 := by
      have h0 := congrArg BitVec.toNat (not_not.mp h)
      rwa [toNat_high] at h0
    rw [hzero, Nat.mul_zero, Nat.add_zero] at hval
    exact ⟨hclen, .inl hval.symm⟩

/-- One digit of a product: what is asked of the operands is only that they have as many words as the
modulus. -/
theorem montMulAdd_spec (hkey : key.Inverse) (hpos : 0 < key.len) {b c : List Word}
    (hb : b.length = key.nWords.length) (hc : c.length = key.nWords.length) (a : Word) :
    (montMulAdd key c a b).length = key.nWords.length ∧
    2 ^ 32 * ofWords (montMulAdd key c a b) ≡ ofWords c + a.toNat * ofWords b
      [MOD ofWords key.nWords] ∧
    (ofWords c < ofWords b + ofWords key.nWords →
      ofWords (montMulAdd key c a b) < ofWords b + ofWords key.nWords) := by
  obtain ⟨hlen, hval⟩ := montMulAdd_redc hkey hpos hb hc a
  have hmod := redc_modEq (hkey.mod hpos) (ofWords c + a.toNat * ofWords b)
  have hlt (h : ofWords c < ofWords b + ofWords key.nWords) :
      redc (ofWords key.nWords) key.n0inv.toNat (2 ^ 32) (ofWords c + a.toNat * ofWords b) <
        ofWords b + ofWords key.nWords := by
    apply redc_lt (by decide)
    have hab : a.toNat * ofWords b ≤ (2 ^ 32 - 1) * ofWords b :=
      Nat.mul_le_mul_right _ (by have := a.isLt; omega)
    omega
  rcases hval with h | h
  · exact ⟨hlen, by rw [h]; exact hmod, fun hc => by rw [h]; exact hlt hc⟩
  · refine ⟨hlen, ?_, fun hc => ?_⟩
    · rw [← h, Nat.mul_add] at hmod
      refine Nat.ModEq.trans ?_ hmod
      simp
    · have := hlt hc
      omega

/-- The fold over digits, from a number that `k` digits have been divided out of. -/
theorem montMul_fold (hkey : key.Inverse) (hpos : 0 < key.len) {b : List Word}
    (hb : b.length = key.nWords.length) (a : List Word) {c : List Word} {k t : Nat}
    (hc : c.length = key.nWords.length) (hlt : ofWords c < ofWords b + ofWords key.nWords)
    (h : Mont (ofWords key.nWords) (2 ^ 32) k (ofWords c) t) :
    (a.foldl (fun c ai => montMulAdd key c ai b) c).length = key.nWords.length ∧
    ofWords (a.foldl (fun c ai => montMulAdd key c ai b) c) < ofWords b + ofWords key.nWords ∧
    Mont (ofWords key.nWords) (2 ^ 32) (k + a.length)
      (ofWords (a.foldl (fun c ai => montMulAdd key c ai b) c))
      (t + (2 ^ 32) ^ k * ofWords a * ofWords b) := by
  induction a generalizing c k t with
  | nil => exact ⟨hc, hlt, by simpa using h⟩
  | cons x a ih =>
    obtain ⟨hlen, hmod, hkeep⟩ := montMulAdd_spec hkey hpos hb hc x
    have hstep := h.step hmod
    obtain ⟨hlen', hlt', hmont⟩ := ih hlen (hkeep hlt) hstep
    refine ⟨hlen', hlt', ?_⟩
    have hsum : t + (2 ^ 32) ^ k * x.toNat * ofWords b + (2 ^ 32) ^ (k + 1) * ofWords a * ofWords b =
        t + (2 ^ 32) ^ k * ofWords (x :: a) * ofWords b := by
      rw [ofWords_cons]
      ring
    have hk : k + 1 + a.length = k + (x :: a).length := by
      rw [List.length_cons]
      omega
    rwa [hsum, hk] at hmont

namespace RSAPublicKey

/-- `R`: one more than the greatest number in `key->len` words. -/
def R (key : RSAPublicKey) : Nat := (2 ^ 32) ^ key.len.toNat

/-- The numbers that go with the modulus are the ones its comments say. -/
structure Valid (key : RSAPublicKey) : Prop where
  pos : 0 < key.len
  le : key.len ≤ RSANUMWORDS
  inverse : key.Inverse
  rr : ofWords key.rrWords ≡ key.R ^ 2 [MOD ofWords key.nWords]

namespace Valid

theorem length_nWords (hkey : key.Valid) : key.nWords.length = key.len.toNat := by
  have := hkey.le
  rw [nWords, List.length_take, key.n.length_toList]
  omega

theorem length_rrWords (hkey : key.Valid) : key.rrWords.length = key.len.toNat := by
  have := hkey.le
  rw [rrWords, List.length_take, key.rr.length_toList]
  omega

theorem modulus_pos (hkey : key.Valid) : 0 < ofWords key.nWords := by
  have h := hkey.inverse.mod hkey.pos
  rcases Nat.eq_zero_or_pos (ofWords key.nWords) with h0 | h0
  · rw [h0] at h
    cases h
  · exact h0

theorem coprime (hkey : key.Valid) : (ofWords key.nWords).Coprime (2 ^ 32) := by
  have h := Nat.dvd_of_mod_eq_zero (hkey.inverse.mod hkey.pos)
  have hr := (Nat.gcd_dvd_right (ofWords key.nWords) (2 ^ 32)).trans h
  have hn := (Nat.gcd_dvd_left (ofWords key.nWords) (2 ^ 32)).mul_left key.n0inv.toNat
  exact Nat.dvd_one.mp ((Nat.dvd_add_right hn).mp hr)

end Valid

end RSAPublicKey

/-- The product of two numbers, divided by `R`. -/
theorem montMul_spec (hkey : key.Valid) {a b : List Word} (ha : a.length = key.nWords.length)
    (hb : b.length = key.nWords.length) :
    (montMul key a b).length = key.nWords.length ∧
    ofWords (montMul key a b) < ofWords b + ofWords key.nWords ∧
    Mont (ofWords key.nWords) (2 ^ 32) key.len.toNat (ofWords (montMul key a b))
      (ofWords a * ofWords b) := by
  have hzero : ofWords (List.replicate key.len.toNat (0 : Word)) = 0 := ofWords_replicate_zero _
  have hn := hkey.modulus_pos
  have hstart : Mont (ofWords key.nWords) (2 ^ 32) 0
      (ofWords (List.replicate key.len.toNat (0 : Word))) 0 := by
    rw [hzero]
    exact Nat.ModEq.refl _
  obtain ⟨h₁, h₂, h₃⟩ := montMul_fold hkey.inverse hkey.pos hb a
    (by rw [List.length_replicate, hkey.length_nWords]) (by rw [hzero]; omega) hstart
  rw [Nat.zero_add, Nat.zero_add, Nat.pow_zero, Nat.one_mul, ha, hkey.length_nWords] at h₃
  exact ⟨h₁, h₂, h₃⟩

/-! ## The cube -/

theorem wordAt_beBytes : ∀ {l : List Word} {j : Nat} (hj : j < l.length),
    wordAt (beBytes l) (j * 4) = l[j]
  | x :: l, 0, _ => ofBe32_be32 x
  | x :: l, j + 1, hj => by
    have hbytes : beBytes (x :: l) = be32 x ++ beBytes l := List.flatMap_cons
    have hk : (j + 1) * 4 = j * 4 + 1 + 1 + 1 + 1 := by omega
    rw [hbytes, hk]
    exact wordAt_beBytes (Nat.lt_of_succ_lt_succ hj)

/-- The little endian words of a big endian string. -/
theorem words_beBytes (l : List Word) :
    ((List.range l.length).map fun i => wordAt (beBytes l) ((l.length - 1 - i) * 4)) = l.reverse := by
  apply List.ext_getElem
  · simp
  · intro i h₁ h₂
    rw [List.length_reverse] at h₂
    rw [List.getElem_map, List.getElem_range, List.getElem_reverse,
      wordAt_beBytes (by omega : l.length - 1 - i < l.length)]

/-- **The cube**: `modpow3` keeps the length, its result is the cube modulo `n`, and is below `n` if
the number was, or if the modulus uses its top bit. -/
theorem modpow3_spec (hkey : key.Valid) {inout : List UInt8}
    (hlen : inout.length = 4 * key.len.toNat) :
    (modpow3 key inout).length = inout.length ∧
    ofBytes (modpow3 key inout) ≡ ofBytes inout ^ 3 [MOD ofWords key.nWords] ∧
    (ofBytes inout < ofWords key.nWords ∨ key.R ≤ 2 * ofWords key.nWords →
      ofBytes (modpow3 key inout) = ofBytes inout ^ 3 % ofWords key.nWords) := by
  obtain ⟨l, hl, rfl⟩ := exists_beBytes hlen
  have hnlen := hkey.length_nWords
  have ha : l.reverse.length = key.nWords.length := by rw [List.length_reverse, hl, hnlen]
  have hrr : key.rrWords.length = key.nWords.length := by rw [hkey.length_rrWords, hnlen]
  have hcop := hkey.coprime
  obtain ⟨h₁, -, hm₁⟩ := montMul_spec hkey ha hrr
  obtain ⟨h₂, -, hm₂⟩ := montMul_spec hkey h₁ h₁
  obtain ⟨h₃, hlt, hm₃⟩ := montMul_spec hkey h₂ ha
  have hdef : modpow3 key (beBytes l) =
      beBytes (if geM key (montMul key (montMul key (montMul key l.reverse key.rrWords)
          (montMul key l.reverse key.rrWords)) l.reverse)
        then subM key (montMul key (montMul key (montMul key l.reverse key.rrWords)
          (montMul key l.reverse key.rrWords)) l.reverse)
        else montMul key (montMul key (montMul key l.reverse key.rrWords)
          (montMul key l.reverse key.rrWords)) l.reverse).reverse := by
    simp only [modpow3, ← hl, words_beBytes]
    rfl
  generalize montMul key l.reverse key.rrWords = aR at *
  generalize montMul key aR aR = aaR at *
  generalize montMul key aaR l.reverse = aaa at *
  have hs : ofBytes (beBytes l) = ofWords l.reverse := ofBytes_beBytes l
  have haaa : ofWords aaa ≡ ofWords l.reverse ^ 3 [MOD ofWords key.nWords] := by
    -- each product leaves one factor `R` less than its operands have
    have hR : (2 ^ 32) ^ key.len.toNat = key.R := rfl
    have h₁ : ofWords aR ≡ key.R * ofWords l.reverse [MOD ofWords key.nWords] := by
      refine Mont.cancel hcop (hm₁.congr rfl ?_)
      calc ofWords l.reverse * ofWords key.rrWords
          ≡ ofWords l.reverse * key.R ^ 2 [MOD ofWords key.nWords] := hkey.rr.mul_left _
        _ = (2 ^ 32) ^ key.len.toNat * (key.R * ofWords l.reverse) := by
          rw [hR]
          ring
    have h₂ : ofWords aaR ≡ key.R * ofWords l.reverse ^ 2 [MOD ofWords key.nWords] := by
      refine Mont.cancel hcop (hm₂.congr rfl ?_)
      calc ofWords aR * ofWords aR
          ≡ key.R * ofWords l.reverse * (key.R * ofWords l.reverse) [MOD ofWords key.nWords] :=
            h₁.mul h₁
        _ = (2 ^ 32) ^ key.len.toNat * (key.R * ofWords l.reverse ^ 2) := by
          rw [hR]
          ring
    refine Mont.cancel hcop (hm₃.congr rfl ?_)
    calc ofWords aaR * ofWords l.reverse
        ≡ key.R * ofWords l.reverse ^ 2 * ofWords l.reverse [MOD ofWords key.nWords] :=
          h₂.mul_right _
      _ = (2 ^ 32) ^ key.len.toNat * ofWords l.reverse ^ 3 := by
        rw [hR]
        ring
  have hn := hkey.modulus_pos
  have hR := ofWords_lt aaa
  rw [h₃, hnlen] at hR
  rw [hdef, hs]
  split
  case isTrue hge =>
    have hle := (geM_iff h₃).mp hge
    have hsub : ofWords (subM key aaa) = ofWords aaa - ofWords key.nWords :=
      ofWords_subM h₃ (v := ofWords aaa) (t := 0) (by rw [Nat.mul_zero, Nat.add_zero]) (by decide)
        hle (by rw [h₃, hnlen]; omega)
    have hmod : ofWords (subM key aaa) ≡ ofWords l.reverse ^ 3 [MOD ofWords key.nWords] := by
      refine Nat.ModEq.trans ?_ haaa
      rw [hsub]
      exact (Nat.modEq_iff_dvd' (by omega)).mpr ⟨1, by omega⟩
    rw [ofBytes_beBytes, List.reverse_reverse]
    refine ⟨?_, hmod, fun h => ?_⟩
    · rw [length_beBytes, length_beBytes, List.length_reverse, length_subM, h₃, hnlen, hl]
    · rw [← hmod, Nat.mod_eq_of_lt]
      rcases h with h | h
      · omega
      · rw [RSAPublicKey.R] at h
        omega
  case isFalse hge =>
    have hlt' : ofWords aaa < ofWords key.nWords :=
      Nat.lt_of_not_le fun hle => hge ((geM_iff h₃).mpr hle)
    rw [ofBytes_beBytes, List.reverse_reverse]
    refine ⟨?_, haaa, fun _ => ?_⟩
    · rw [length_beBytes, length_beBytes, List.length_reverse, h₃, hnlen, hl]
    · rw [← haaa, Nat.mod_eq_of_lt hlt']

end Twm.Mincrypt
