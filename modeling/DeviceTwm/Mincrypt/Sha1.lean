import DeviceTwm.Lib.BlockHash
import DeviceTwm.Lib.Limbs

/-!
# SHA-1

What the digest is: the message with its padding, in blocks of 64 bytes, each of which is mixed into
five words. The functions of a round are the choice, the parity and the majority of three words.
-/

open Lib

namespace Twm.Mincrypt

abbrev Word := BitVec 32

def SHA_DIGEST_SIZE : Nat := 20

/-- Five words: the registers `A` to `E`, and what they are added to. -/
structure Words5 where
  A : Word
  B : Word
  C : Word
  D : Word
  E : Word
deriving DecidableEq

namespace Words5

protected def add (s t : Words5) : Words5 := ⟨s.A + t.A, s.B + t.B, s.C + t.C, s.D + t.D, s.E + t.E⟩

def toList (s : Words5) : List Word := [s.A, s.B, s.C, s.D, s.E]

end Words5

namespace Sha1

def choice (x y z : Word) : Word := (x &&& y) ^^^ (~~~x &&& z)

def parity (x y z : Word) : Word := x ^^^ y ^^^ z

def majority (x y z : Word) : Word := (x &&& y) ^^^ (x &&& z) ^^^ (y &&& z)

/-- The function of the round `t`. -/
def mix (t : Nat) : Word → Word → Word → Word :=
  if t < 20 then choice else if t < 40 then parity else if t < 60 then majority else parity

/-- The constant of the round `t`. -/
def constant (t : Nat) : Word :=
  if t < 20 then 0x5A827999 else if t < 40 then 0x6ED9EBA1 else if t < 60 then 0x8F1BBCDC
  else 0xCA62C1D6

/-- The word of the round `t`, for a block of the words `M`. -/
def schedule (M : List Word) (t : Nat) : Word :=
  if t < 16 then M.getD t 0
  else (schedule M (t - 3) ^^^ schedule M (t - 8) ^^^ schedule M (t - 14) ^^^
    schedule M (t - 16)).rotateLeft 1
termination_by t

def round (M : List Word) (s : Words5) (t : Nat) : Words5 where
  A := s.A.rotateLeft 5 + mix t s.B s.C s.D + s.E + constant t + schedule M t
  B := s.A
  C := s.B.rotateLeft 30
  D := s.C
  E := s.D

/-- The state after a block. -/
def compress (s : Words5) (block : List UInt8) : Words5 :=
  s.add ((List.range 80).foldl (round (beWords block)) s)

def initial : Words5 := ⟨0x67452301, 0xEFCDAB89, 0x98BADCFE, 0x10325476, 0xC3D2E1F0⟩

/-- The length in bits, in eight bytes. -/
def lengthBytes (n : Nat) : List UInt8 :=
  (List.range 8).map fun i => UInt8.ofNat (8 * n / 2 ^ (8 * (7 - i)))

/-- A one bit, zeros as far as the place of the length in a block, and the length. -/
def padded (m : List UInt8) : List UInt8 :=
  m ++ [0x80] ++ List.replicate ((119 - m.length % 64) % 64) 0 ++ lengthBytes m.length

/-- The digest of a message. -/
def digest (m : List UInt8) : List UInt8 :=
  beBytes ((chunks 64 (padded m)).foldl compress initial).toList

theorem length_padded (m : List UInt8) : (padded m).length % 64 = 0 := by
  simp only [padded, lengthBytes, List.length_append, List.length_replicate, List.length_map,
    List.length_range, List.length_singleton]
  omega

theorem length_digest (m : List UInt8) : (digest m).length = SHA_DIGEST_SIZE := length_beBytes _

end Sha1

end Twm.Mincrypt
