import Mathlib.Data.Nat.Digits.Lemmas
import DeviceTwm.Lib.CString

/-!
# Formatted text

`sprintf` writes a text into a buffer whose size it does not know. The text comes from a format, in
which a `%` begins a conversion, and from arguments, which the conversions take one after the other.

* `vsprintf fmt args`: the text, for a format with `%s`, `%d` and `%%`. Any other conversion, or one
  that has no argument of its type, is undefined.
* `sprintf n fmt args`: the text in a buffer of `n` bytes.
* `vsprintf_self_iff`: a format without arguments is its own text if and only if it has no `%`.
-/

namespace Lib

/-- What a program may do with a text that C leaves undefined. -/
inductive Fault
  /-- More than the buffer holds was written to it. -/
  | overflow
  /-- A conversion without its argument, or one that is no conversion. -/
  | conversion
  deriving DecidableEq

/-- An argument of a format. A string is the bytes before its zero. -/
inductive Arg
  | str (s : List UInt8)
  | int (n : Int)

/-- What `%d` prints. -/
def decimalText (n : Int) : List UInt8 :=
  (if n < 0 then [45] else []) ++ (Nat.toDigits 10 n.natAbs).map fun c => UInt8.ofNat c.toNat

/-- `vsprintf`; the code of `%` is 37, of `s` 115 and of `d` 100. -/
def vsprintf : List UInt8 → List Arg → Except Fault (List UInt8)
  | [], _ => .ok []
  | b :: fmt, args =>
    if b = 37 then
      match fmt, args with
      | [], _ => .error .conversion
      | c :: fmt, args =>
        if c = 37 then (vsprintf fmt args).map (37 :: ·)
        else
          match args with
          | .str s :: args => if c = 115 then (vsprintf fmt args).map (s ++ ·) else .error .conversion
          | .int n :: args =>
            if c = 100 then (vsprintf fmt args).map (decimalText n ++ ·) else .error .conversion
          | [] => .error .conversion
    else (vsprintf fmt args).map (b :: ·)

/-- A text of `n` bytes at most, the zero after it included. -/
def store (n : Nat) (text : List UInt8) : Except Fault (List UInt8) :=
  if text.length < n then .ok text else .error .overflow

/-- `vsprintf` into a buffer of `n` bytes. -/
def sprintf (n : Nat) (fmt : List UInt8) (args : List Arg) : Except Fault (List UInt8) :=
  vsprintf fmt args >>= store n

/-- `strcat` to the text of a buffer of `n` bytes. -/
def strcat (n : Nat) (dest s : List UInt8) : Except Fault (List UInt8) := store n (dest ++ s)

variable {n : Nat} {text s : List UInt8}

theorem store_of_lt (h : text.length < n) : store n text = .ok text := if_pos h

theorem store_of_le (h : n ≤ text.length) : store n text = .error .overflow :=
  if_neg (Nat.not_lt.mpr h)

theorem bind_ok_iff {ε α β : Type} {x : Except ε α} {f : α → Except ε β} {b : β} :
    x >>= f = .ok b ↔ ∃ a, x = .ok a ∧ f a = .ok b := by
  cases x with
  | error e =>
    constructor
    · intro h
      cases h
    · rintro ⟨a, h, -⟩
      cases h
  | ok a =>
    constructor
    · exact fun h => ⟨a, rfl, h⟩
    · rintro ⟨a', h, hb⟩
      cases h
      exact hb

/-- A text that is too long is so before the last part of it is added. -/
theorem store_bind_store {s t : List UInt8} :
    (store n s >>= fun s => store n (s ++ t)) = store n (s ++ t) := by
  by_cases h : s.length < n
  · rw [store_of_lt h]
    rfl
  · rw [store_of_le (Nat.not_lt.mp h), store_of_le]
    · rfl
    · rw [List.length_append]
      omega

/-! ## Conversions -/

variable {fmt pre : List UInt8} {args : List Arg}

theorem vsprintf_cons {b : UInt8} (h : b ≠ 37) :
    vsprintf (b :: fmt) args = (vsprintf fmt args).map (b :: ·) := by
  rw [vsprintf.eq_def]
  exact if_neg h

/-- What is before the first conversion is copied. -/
theorem vsprintf_append (h : 37 ∉ pre) :
    vsprintf (pre ++ fmt) args = (vsprintf fmt args).map (pre ++ ·) := by
  induction pre with
  | nil =>
    change _ = (vsprintf fmt args).map id
    rw [Except.map_id]
    rfl
  | cons b pre ih =>
    obtain ⟨hb, hpre⟩ := not_or.mp (mt List.mem_cons.mpr h)
    rw [List.cons_append, vsprintf_cons (Ne.symm hb), ih hpre]
    cases vsprintf fmt args <;> rfl

theorem vsprintf_plain (h : 37 ∉ fmt) : vsprintf fmt args = .ok fmt := by
  have happ : vsprintf (fmt ++ []) args = _ := vsprintf_append h
  rw [List.append_nil] at happ
  rw [happ, vsprintf]
  change Except.ok (fmt ++ []) = _
  rw [List.append_nil]

theorem vsprintf_str :
    vsprintf (37 :: 115 :: fmt) (.str s :: args) = (vsprintf fmt args).map (s ++ ·) := by
  rw [vsprintf, if_pos rfl]
  exact (if_neg (by decide)).trans (if_pos rfl)

theorem vsprintf_int {k : Int} :
    vsprintf (37 :: 100 :: fmt) (.int k :: args) = (vsprintf fmt args).map (decimalText k ++ ·) := by
  rw [vsprintf, if_pos rfl]
  exact (if_neg (by decide)).trans (if_pos rfl)

/-- Without arguments, a text is no longer than its format, and shorter if a `%` was in it. -/
theorem length_vsprintf : ∀ {fmt text : List UInt8}, vsprintf fmt [] = .ok text →
    text.length ≤ fmt.length ∧ (37 ∈ fmt → text.length < fmt.length)
  | [], text, h => by
    rw [vsprintf] at h
    cases h
    exact ⟨Nat.le_refl _, fun hp => absurd hp List.not_mem_nil⟩
  | [b], text, h => by
    by_cases hb : b = 37
    · rw [vsprintf, if_pos hb] at h
      cases h
    · rw [vsprintf_cons hb, vsprintf] at h
      cases h
      exact ⟨Nat.le_refl _, fun hp => absurd (List.mem_singleton.mp hp).symm hb⟩
  | b :: c :: fmt, text, h => by
    by_cases hb : b = 37
    · rw [vsprintf, if_pos hb] at h
      by_cases hc : c = 37
      · rw [if_pos hc] at h
        cases hv : vsprintf fmt [] with
        | error e =>
          rw [hv] at h
          cases h
        | ok rest =>
          rw [hv] at h
          cases h
          have hle := (length_vsprintf hv).1
          simp only [List.length_cons]
          omega
      · rw [if_neg hc] at h
        cases h
    · rw [vsprintf_cons hb] at h
      cases hv : vsprintf (c :: fmt) [] with
      | error e =>
        rw [hv] at h
        cases h
      | ok rest =>
        rw [hv] at h
        cases h
        obtain ⟨hle, hlt⟩ := length_vsprintf hv
        refine ⟨Nat.succ_le_succ hle, fun hp => Nat.succ_lt_succ (hlt ?_)⟩
        rcases List.mem_cons.mp hp with hp | hp
        · exact absurd hp.symm hb
        · exact hp

/-- A text that is printed as its own format. -/
theorem vsprintf_self_iff : vsprintf fmt [] = .ok fmt ↔ 37 ∉ fmt := by
  constructor
  · intro h hp
    exact Nat.lt_irrefl _ ((length_vsprintf h).2 hp)
  · exact vsprintf_plain

/-- The digits of a number below `10 ^ k`. -/
theorem length_decimalText_le {m k : Nat} (hk : 0 < k) (h : m < 10 ^ k) :
    (decimalText m).length ≤ k := by
  rw [decimalText, if_neg (by omega), List.nil_append, List.length_map, Int.natAbs_natCast]
  exact (Nat.length_toDigits_le_iff (by decide) hk).mpr h

end Lib
