import Mathlib.Data.List.TakeWhile
import Mathlib.Algebra.Group.Nat.Defs

/-!
# `strtoul`

The number at the start of a text, in the C locale. `unsigned long` has `w` bits.
-/

namespace Lib

/-- `isspace`. -/
def isSpace (c : UInt8) : Bool := c == 32 || (9 ≤ c && c ≤ 13)

/-- The value of a digit, and 36 for what is none. -/
def digitVal (c : UInt8) : Nat :=
  if 48 ≤ c ∧ c ≤ 57 then c.toNat - 48
  else if 97 ≤ c ∧ c ≤ 122 then c.toNat - 87
  else if 65 ≤ c ∧ c ≤ 90 then c.toNat - 55
  else 36

/-- The number before the first byte that is no digit of the base. -/
def numeral (base : Nat) (s : List UInt8) : Nat :=
  ((s.map digitVal).takeWhile (· < base)).foldl (fun n d => n * base + d) 0

/-- The base, and what follows its prefix. -/
def radix (base : Nat) (s : List UInt8) : Nat × List UInt8 :=
  match s with
  | 48 :: x :: s' =>
    if (x = 120 ∨ x = 88) ∧ (base = 0 ∨ base = 16) then (16, s')
    else (if base = 0 then 8 else base, s)
  | _ => (if base = 0 then 10 else base, s)

/-- The sign, and what follows it. -/
def sign (s : List UInt8) : Bool × List UInt8 :=
  match s with
  | 45 :: s => (true, s)
  | 43 :: s => (false, s)
  | s => (false, s)

/-- A number that is too large gives `ULONG_MAX`; a minus negates in the `unsigned long`. -/
def strtoul (w base : Nat) (s : List UInt8) : Nat :=
  let (minus, s) := sign (s.dropWhile isSpace)
  let (base, s) := radix base s
  let n := numeral base s
  if 2 ^ w ≤ n then 2 ^ w - 1 else if minus then (2 ^ w - n) % 2 ^ w else n

/-- The hexadecimal number at the start of a text, of any size. -/
def hexNumber (s : List UInt8) : Int :=
  let minus := (sign (s.dropWhile isSpace)).1
  let n := numeral 16 (radix 16 (sign (s.dropWhile isSpace)).2).2
  if minus then -n else n

example : strtoul 32 16 [32, 45, 48, 120, 49, 102, 58] = 2 ^ 32 - 31 := by decide

end Lib
