import DeviceTwm.Lib.Bytes

/-!
# Sync messages and connections

The messages of the sync protocol, and one end of a sync connection: the bytes that will still
come in, the bytes written so far, and a log of the `readx` calls with the buffer each one fills.

* `Conn.readx`, `Conn.writex`: a read is short only at the end of the input, and a connection that
  broke stays broken.
-/

open Lib

namespace Twm.Adb

/-- `MKID` on a host that is not `ppc`. -/
def MKID (a b c d : Char) : Nat := a.toNat + b.toNat * 2 ^ 8 + c.toNat * 2 ^ 16 + d.toNat * 2 ^ 24

def ID_LIST : Nat := MKID 'L' 'I' 'S' 'T'
def ID_SEND : Nat := MKID 'S' 'E' 'N' 'D'
def ID_RECV : Nat := MKID 'R' 'E' 'C' 'V'
def ID_DENT : Nat := MKID 'D' 'E' 'N' 'T'
def ID_DONE : Nat := MKID 'D' 'O' 'N' 'E'
def ID_DATA : Nat := MKID 'D' 'A' 'T' 'A'
def ID_OKAY : Nat := MKID 'O' 'K' 'A' 'Y'
def ID_FAIL : Nat := MKID 'F' 'A' 'I' 'L'

def SYNC_DATA_MAX : Nat := 64 * 1024

/-- A message of two words: `req`, `data` and `status` of `syncmsg`. -/
def msg (id n : Nat) : List UInt8 := le32 id ++ le32 n

@[simp] theorem length_msg (id n : Nat) : (msg id n).length = 8 := rfl

/-- The word at byte `off` of a message. -/
def word (m : List UInt8) (off : Nat) : Nat := ofLe32 (m.drop off)

theorem word_lt (m : List UInt8) (off : Nat) : word m off < 2 ^ 32 := ofLe32_lt _

/-- A word stored to an `int`. -/
def int (n : Nat) : Int := if n < 2 ^ 31 then n else n - 2 ^ 32

/-- An `int` passed as a `size_t` of `w` bits. -/
def sizeT (w : Nat) (n : Int) : Nat := (n % 2 ^ w).toNat

theorem sizeT_int_of_lt {w n : Nat} (hw : 32 ≤ w) (hn : n < 2 ^ 31) : sizeT w (int n) = n := by
  have hp : (2 : Int) ^ 32 ≤ 2 ^ w := by
    exact_mod_cast Nat.pow_le_pow_right (show 0 < 2 by decide) hw
  unfold sizeT int
  rw [if_pos hn, Int.emod_eq_of_lt (by omega) (by omega)]
  rfl

/-- A length with the top bit set becomes a huge size. -/
theorem le_sizeT_int {w n : Nat} (hw : 32 ≤ w) (hn : 2 ^ 31 ≤ n) (hn' : n < 2 ^ 32) :
    2 ^ 31 ≤ sizeT w (int n) := by
  have hp : (2 : Int) ^ 32 ≤ 2 ^ w := by
    exact_mod_cast Nat.pow_le_pow_right (show 0 < 2 by decide) hw
  unfold sizeT int
  rw [if_neg (by omega), ← Int.add_emod_right, Int.emod_eq_of_lt (by omega) (by omega)]
  omega

/-- What a `readx` fills. -/
inductive Buf
  /-- The first `n` bytes of a `syncmsg`. -/
  | msg (n : Nat)
  /-- `buf` of `sync_ls`. -/
  | name
  /-- `send_buffer.data`, for a chunk of a file. -/
  | data
  /-- `send_buffer.data`, for the text of a failure: 256 bytes and the final 0 are meant for it. -/
  | message
  /-- `name` of `file_sync_service`. -/
  | path
  deriving DecidableEq

/-- The bytes a buffer holds. -/
def Buf.capacity : Buf → Nat
  | msg n => n
  | name => 257
  | data => SYNC_DATA_MAX
  | message => 256
  | path => 1025

/-- One call of `readx`. -/
structure ReadCall where
  buf : Buf
  count : Nat
  deriving DecidableEq

/-- The call asks for no more than its buffer holds. -/
def ReadCall.Fits (r : ReadCall) : Prop := r.count ≤ r.buf.capacity

instance (r : ReadCall) : Decidable r.Fits := inferInstanceAs (Decidable (_ ≤ _))

/-- A descriptor that is written to: a connection, or a local file. -/
structure Sink where
  /-- The bytes written. -/
  out : List UInt8
  /-- The bytes it still takes until it breaks, if it does. -/
  room : Option Nat

/-- `writex`: whether all of `b` was written. -/
def Sink.writex (s : Sink) (b : List UInt8) : Bool × Sink :=
  match s.room with
  | none => (true, { s with out := s.out ++ b })
  | some n => (decide (b.length ≤ n), ⟨s.out ++ b.take n, some (n - b.length)⟩)

/-- Whether a write of `n` bytes succeeds. -/
def Sink.Takes (s : Sink) (n : Nat) : Prop := ∀ k, s.room = some k → n ≤ k

/-- One end of a sync connection. -/
structure Conn where
  /-- The bytes that will still come in. -/
  inp : List UInt8
  sink : Sink
  /-- The calls of `readx`, the last one first. -/
  reads : List ReadCall

namespace Sink

theorem writex_fst {s : Sink} {b : List UInt8} : (s.writex b).1 = true ↔ s.Takes b.length := by
  unfold writex Takes
  cases s.room with
  | none => simp
  | some n => simp

/-- What a write that succeeds leaves. -/
theorem writex_snd {s : Sink} {b : List UInt8} (h : s.Takes b.length) :
    (s.writex b).2 = ⟨s.out ++ b, s.room.map (· - b.length)⟩ := by
  unfold writex
  cases hr : s.room with
  | none => rfl
  | some n => simp [List.take_of_length_le (h n hr)]

theorem writex_eq {s : Sink} {b : List UInt8} (h : s.Takes b.length) :
    s.writex b = (true, ⟨s.out ++ b, s.room.map (· - b.length)⟩) :=
  Prod.ext (writex_fst.mpr h) (writex_snd h)

/-- Room for more bytes after the first ones. -/
theorem takes_append {s : Sink} {a b : List UInt8} (ha : s.Takes a.length) :
    Takes ⟨s.out ++ a, s.room.map (· - a.length)⟩ b.length ↔ s.Takes (a ++ b).length := by
  rw [List.length_append]
  constructor
  · intro hb k hk
    have := ha k hk
    have := hb (k - a.length) (by simp [hk])
    omega
  · intro hab k hk
    obtain ⟨k', hk', rfl⟩ := Option.map_eq_some_iff.mp hk
    have := hab k' hk'
    omega

theorem takes_left {s : Sink} {a b : List UInt8} (h : s.Takes (a ++ b).length) :
    s.Takes a.length := fun k hk => by
  have := h k hk
  rw [List.length_append] at this
  omega

/-- Two writes, one after the other. -/
theorem writex_two {s : Sink} {a b : List UInt8} :
    ((s.writex a).1 = true ∧ ((s.writex a).2.writex b).1 = true) ↔
      s.Takes (a.length + b.length) := by
  rw [← List.length_append]
  simp only [writex_fst]
  constructor
  · rintro ⟨h₁, h₂⟩
    rw [writex_snd h₁] at h₂
    exact (takes_append h₁).mp h₂
  · intro h
    have h₁ := takes_left h
    refine ⟨h₁, ?_⟩
    rw [writex_snd h₁]
    exact (takes_append h₁).mpr h

end Sink

namespace Conn

/-- `readx`; `none` at the end of the input. A call that does not fit its buffer is only logged:
what the code does after it is undefined. -/
def readx (c : Conn) (buf : Buf) (count : Nat) : Option (List UInt8) × Conn :=
  let c' := { c with reads := ⟨buf, count⟩ :: c.reads }
  if count ≤ buf.capacity ∧ count ≤ c.inp.length then
    (some (c.inp.take count), { c' with inp := c.inp.drop count })
  else (none, { c' with inp := [] })

def writex (c : Conn) (b : List UInt8) : Bool × Conn :=
  let r := c.sink.writex b
  (r.1, { c with sink := r.2 })

/-- `writex(..) || writex(..)`: the second write only after the first one succeeded. -/
def andThen (r : Bool × Conn) (f : Conn → Bool × Conn) : Bool × Conn :=
  match r with
  | (false, c) => (false, c)
  | (true, c) => f c

/-- Every read so far fits its buffer. -/
def Safe (c : Conn) : Prop := ∀ r ∈ c.reads, r.Fits

instance (c : Conn) : Decidable c.Safe := inferInstanceAs (Decidable (∀ r ∈ c.reads, r.Fits))

@[simp] theorem readx_reads (c : Conn) (buf : Buf) (count : Nat) :
    (c.readx buf count).2.reads = ⟨buf, count⟩ :: c.reads := by
  unfold readx
  split <;> rfl

@[simp] theorem writex_reads (c : Conn) (b : List UInt8) : (c.writex b).2.reads = c.reads := rfl

@[simp] theorem writex_inp (c : Conn) (b : List UInt8) : (c.writex b).2.inp = c.inp := rfl

theorem readx_safe {c : Conn} {buf : Buf} {count : Nat} (h : count ≤ buf.capacity) :
    (c.readx buf count).2.Safe ↔ c.Safe := by
  simp [Safe, ReadCall.Fits, h]

theorem not_readx_safe {c : Conn} {buf : Buf} {count : Nat} (h : buf.capacity < count) :
    ¬ (c.readx buf count).2.Safe := by
  intro hs
  exact absurd (hs ⟨buf, count⟩ (by simp)) (by simp [ReadCall.Fits, h])

/-- A read that fits and finds its bytes. -/
theorem readx_append {c : Conn} (buf : Buf) {a b : List UInt8} (hc : a.length ≤ buf.capacity)
    (hi : c.inp = a ++ b) : c.readx buf a.length =
      (some a, { c with inp := b, reads := ⟨buf, a.length⟩ :: c.reads }) := by
  unfold readx
  rw [if_pos ⟨hc, by simp [hi]⟩, hi]
  simp

theorem readx_short {c : Conn} {buf : Buf} {count : Nat} (h : c.inp.length < count) :
    (c.readx buf count).1 = none := by
  unfold readx
  rw [if_neg (by omega)]

end Conn

end Twm.Adb
