import DeviceTwm.Lib.Bytes

/-!
# C strings

A string in a buffer ends at the first zero byte.

* `cString b`: the string at the start of the buffer `b`.
* `snprintf b off size s`: the buffer after `snprintf(b + off, size, "%s", s)`, if that stays inside.
* `hex4 n`: what `%04x` prints.
-/

namespace Lib

/-- The bytes of a text in ASCII. -/
def str (s : String) : List UInt8 := s.toList.map fun c => UInt8.ofNat c.toNat

/-- The string at the start of a buffer. -/
def cString (b : List UInt8) : List UInt8 := b.takeWhile (· ≠ 0)

theorem cString_append {s : List UInt8} (h : 0 ∉ s) (b : List UInt8) : cString (s ++ 0 :: b) = s :=
  takeWhile_ne_stop h b

theorem cString_of_notMem {s : List UInt8} (h : 0 ∉ s) : cString s = s := takeWhile_ne_self h

/-- A buffer after `snprintf` of the text `s` at `off`, with room for `size` bytes; `none` if it
writes past the end. -/
def snprintf (b : List UInt8) (off size : Nat) (s : List UInt8) : Option (List UInt8) :=
  if size = 0 then some b else blit b off (s.take (size - 1) ++ [0])

/-- A text that fits, and the zero after it. -/
theorem snprintf_fits (a : List UInt8) {b s : List UInt8} (h : s.length < b.length) :
    snprintf (a ++ b) a.length b.length s = some (a ++ (s ++ 0 :: b.drop (s.length + 1))) := by
  unfold snprintf
  rw [if_neg (by omega), List.take_of_length_le (by omega), blit_append a (by simp; omega)]
  simp

/-- A text that does not fit is cut. -/
theorem snprintf_cut (a : List UInt8) {b s : List UInt8} (hb : b ≠ []) (h : b.length ≤ s.length) :
    snprintf (a ++ b) a.length b.length s = some (a ++ (s.take (b.length - 1) ++ [0])) := by
  have hpos : 0 < b.length := List.length_pos_iff.mpr hb
  have hlen : (s.take (b.length - 1) ++ [0]).length = b.length := by
    rw [List.length_append, List.length_take, List.length_singleton]
    omega
  unfold snprintf
  rw [if_neg (by omega), blit_append a (by omega), hlen, List.drop_length, List.append_nil]

/-- A digit of `%x`. -/
def hexDigit (d : Nat) : UInt8 := UInt8.ofNat (if d < 10 then 48 + d else 87 + d)

/-- The four digits of `%04x`, for numbers below `2 ^ 16`. -/
def hex4 (n : Nat) : List UInt8 :=
  [hexDigit (n / 4096 % 16), hexDigit (n / 256 % 16), hexDigit (n / 16 % 16), hexDigit (n % 16)]

@[simp] theorem length_hex4 (n : Nat) : (hex4 n).length = 4 := rfl

end Lib
