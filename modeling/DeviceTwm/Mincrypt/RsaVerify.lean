import DeviceTwm.Mincrypt.Rsa

/-!
# Verifying a signature

`RSA_verify` takes the cube of the signature modulo the key's `n` and compares it, byte by byte, with
the padding and the digest. It does not ask whether the signature is below `n`; the cube that it compares
is reduced all the same, if `n` uses its top bit, as the modulus of a 2048-bit key does
(`RSA_verify_iff`).
-/

open Lib

namespace Twm.Mincrypt

/-- The PKCS1.5 padding before a SHA-1 digest. -/
def padding : List UInt8 :=
  [0x00, 0x01] ++ List.replicate 218 0xff ++
    [0x00, 0x30, 0x21, 0x30, 0x09, 0x06, 0x05, 0x2b, 0x0e, 0x03, 0x02, 0x1a, 0x05, 0x00, 0x04, 0x14]

/-- `signature` has `len` bytes at least, and `sha` a digest's. -/
def RSA_verify (key : RSAPublicKey) (signature : List UInt8) (len : Int) (sha : List UInt8) : Int :=
  if key.len ≠ RSANUMWORDS then 0
  else if len ≠ RSANUMBYTES then 0
  else
    let buf := modpow3 key (signature.take RSANUMBYTES)
    if buf.take padding.length ≠ padding then 0
    else if buf.drop padding.length ≠ sha then 0
    else 1

theorem length_padding : padding.length = RSANUMBYTES - SHA_DIGEST_SIZE := by
  rw [padding, List.length_append, List.length_append, List.length_replicate]
  rfl

variable {key : RSAPublicKey} {signature sha : List UInt8} {len : Int}

/-- What is compared is the whole cube. -/
theorem RSA_verify_eq_one : RSA_verify key signature len sha = 1 ↔ key.len = RSANUMWORDS ∧
    len = RSANUMBYTES ∧ modpow3 key (signature.take RSANUMBYTES) = padding ++ sha := by
  unfold RSA_verify
  split
  case isTrue h => exact ⟨nofun, fun h' => absurd h'.1 h⟩
  case isFalse h =>
    split
    case isTrue h₁ => exact ⟨nofun, fun h' => absurd h'.2.1 h₁⟩
    case isFalse h₁ =>
      simp only [not_not.mp h, not_not.mp h₁, true_and]
      split
      case isTrue h₂ =>
        refine ⟨nofun, fun h' => absurd ?_ h₂⟩
        rw [h', List.take_left]
      case isFalse h₂ =>
        split
        case isTrue h₃ =>
          refine ⟨nofun, fun h' => absurd ?_ h₃⟩
          rw [h', List.drop_left]
        case isFalse h₃ =>
          refine ⟨fun _ => ?_, fun _ => rfl⟩
          conv_lhs => rw [← List.take_append_drop padding.length (modpow3 _ _)]
          rw [not_not.mp h₂, not_not.mp h₃]

/-- **Verification**: a signature is accepted only if its cube is congruent to the padded digest modulo
`n`, and, when it is below `n` or `n` uses its top bit, exactly if the cube modulo `n` is the padded
digest. Everything else is answered by `0`. -/
theorem RSA_verify_iff (hkey : key.len = RSANUMWORDS → key.Valid) (hsig : len ≤ signature.length)
    (hsha : sha.length = SHA_DIGEST_SIZE) :
    (RSA_verify key signature len sha = 1 → key.len = RSANUMWORDS ∧ len = RSANUMBYTES ∧
      ofBytes (signature.take RSANUMBYTES) ^ 3 ≡ ofBytes (padding ++ sha) [MOD ofWords key.nWords]) ∧
    (ofBytes (signature.take RSANUMBYTES) < ofWords key.nWords ∨ key.R ≤ 2 * ofWords key.nWords →
      (RSA_verify key signature len sha = 1 ↔ key.len = RSANUMWORDS ∧ len = RSANUMBYTES ∧
        ofBytes (signature.take RSANUMBYTES) ^ 3 % ofWords key.nWords = ofBytes (padding ++ sha))) ∧
    (RSA_verify key signature len sha ≠ 1 → RSA_verify key signature len sha = 0) := by
  refine ⟨fun h => ?_, fun hn => ?_, fun h => ?_⟩
  · obtain ⟨hk, hl, hbuf⟩ := RSA_verify_eq_one.mp h
    have hlen : (signature.take RSANUMBYTES).length = 4 * key.len.toNat := by
      rw [List.length_take, hk]
      simp only [RSANUMBYTES, RSANUMWORDS] at *
      omega
    obtain ⟨-, hmod, -⟩ := modpow3_spec (hkey hk) hlen
    rw [hbuf] at hmod
    exact ⟨hk, hl, hmod.symm⟩
  · rw [RSA_verify_eq_one]
    refine and_congr_right fun hk => and_congr_right fun hl => ?_
    have hlen : (signature.take RSANUMBYTES).length = 4 * key.len.toNat := by
      rw [List.length_take, hk]
      simp only [RSANUMBYTES, RSANUMWORDS] at *
      omega
    obtain ⟨hsame, -, hcube⟩ := modpow3_spec (hkey hk) hlen
    rw [← hcube hn]
    refine ⟨fun h => by rw [h], fun h => ofBytes_inj ?_ h⟩
    rw [hsame, List.length_append, length_padding, hsha, hlen, hk]
    rfl
  · unfold RSA_verify at h ⊢
    split
    · rfl
    · split
      · rfl
      · dsimp only
        split
        · rfl
        · split
          · rfl
          · rename_i h₁ h₂ h₃ h₄
            simp [h₁, h₂, h₃, h₄] at h

/-- The words of a number. -/
def cubeWords (x : Nat) : Vector Word RSANUMWORDS :=
  Vector.ofFn fun i => BitVec.ofNat 32 (x / 2 ^ (32 * i.val))

/-- A digest, and the modulus that is a cube less it and its padding. -/
def cubeSha : List UInt8 := List.replicate 19 0 ++ [1]

def cubeModulus : Nat := (3 * 2 ^ 681) ^ 3 - ofBytes (padding ++ cubeSha)

def cubeKey : RSAPublicKey where
  len := 64
  n0inv := 1
  n := cubeWords cubeModulus
  rr := cubeWords ((2 ^ 2048) ^ 2 % cubeModulus)

def cubeSignature : List UInt8 := beBytes (cubeWords (3 * 2 ^ 681)).toList.reverse

theorem cubeKey_valid : cubeKey.Valid where
  pos := by decide
  le := by decide
  inverse := by
    unfold RSAPublicKey.Inverse
    decide +kernel
  rr := by
    have h : ofWords cubeKey.rrWords = cubeKey.R ^ 2 % ofWords cubeKey.nWords := by decide +kernel
    rw [h]
    exact Nat.mod_modEq _ _

/-- The key accepts the signature of which it was made. -/
theorem RSA_verify_cubeKey : RSA_verify cubeKey cubeSignature 256 cubeSha = 1 := by
  refine ((RSA_verify_iff (fun _ => cubeKey_valid) ?_ rfl).2.1 (.inr ?_)).mpr ⟨rfl, rfl, ?_⟩
  · decide +kernel
  · decide +kernel
  · decide +kernel

end Twm.Mincrypt
