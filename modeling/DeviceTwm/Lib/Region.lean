import DeviceTwm.Lib.Bytes

/-!
# Bytes that were read

A program reads into a buffer, and `read` returns how many bytes there are, or a negative number. Only
these bytes say something.

* `Region.byte d p`: the byte at `p`; `none` if it is not one of those that were read.
* `Region.get d p`: the same byte where it is.
-/

namespace Lib

/-- A buffer, and what `read` returned. -/
structure Region where
  bytes : List UInt8
  len : Int
  le : len ≤ bytes.length

namespace Region

variable {d : Region} {p : Nat}

/-- The byte at `p`, for a program that may use only what was read. -/
def byte (d : Region) (p : Nat) : Option UInt8 := if (p : Int) < d.len then d.bytes[p]? else none

def get (d : Region) (p : Nat) : UInt8 := d.bytes.getD p 0

/-- The bytes at `p` and after it, as a little-endian number. -/
def half (d : Region) (p : Nat) : Option UInt16 := do
  let x ← d.byte p
  let y ← d.byte (p + 1)
  some (x.toUInt16 ||| (y.toUInt16 <<< 8))

theorem byte_of_lt (h : (p : Int) < d.len) : d.byte p = some (d.get p) := by
  have hp : p < d.bytes.length := by
    have := d.le
    omega
  rw [byte, if_pos h, get, List.getD_eq_getElem?_getD, List.getElem?_eq_getElem hp]
  rfl

theorem byte_of_le (h : d.len ≤ p) : d.byte p = none := if_neg (Int.not_lt.mpr h)

theorem half_of_lt (h : (p : Int) + 1 < d.len) :
    d.half p = some ((d.get p).toUInt16 ||| ((d.get (p + 1)).toUInt16 <<< 8)) := by
  rw [half, byte_of_lt (by omega), byte_of_lt (by omega)]
  rfl

end Region

end Lib
