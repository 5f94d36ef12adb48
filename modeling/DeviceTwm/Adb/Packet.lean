import Mathlib.Data.List.TakeDrop

/-!
# Packets on their way to a descriptor

`apacket` as a local socket holds it, and the loops of `sockets.c` over `adb_write` and `adb_read`,
one round at a time. The fast path in `local_socket_enqueue` (`fastWrite`) and the queue in
`local_socket_event_func` (`drainWrite`) differ in what they make of `EINTR`.
-/

namespace Twm.Adb

/-- `MAX_PAYLOAD`. -/
def maxPayload : Nat := 4096

/-- The payload of an `apacket`; the `len` bytes from `ptr` on are still to be written. -/
structure APacket where
  data : List UInt8
  ptr : Nat
  len : Nat
  deriving DecidableEq

namespace APacket

/-- `p->ptr = p->data`, with all of the payload to be written. -/
def full (data : List UInt8) : APacket := ⟨data, 0, data.length⟩

/-- What is still to be written. -/
def bytes (p : APacket) : List UInt8 := (p.data.drop p.ptr).take p.len

/-- `p->ptr += n; p->len -= n`. -/
def advance (p : APacket) (n : Nat) : APacket := { p with ptr := p.ptr + n, len := p.len - n }

@[simp] theorem bytes_full (data : List UInt8) : (full data).bytes = data := by
  simp [full, bytes]

theorem bytes_of_len {p : APacket} (h : p.len = 0) : p.bytes = [] := by
  simp [bytes, h]

theorem take_append_advance (p : APacket) (n : Nat) :
    p.bytes.take n ++ (p.advance n).bytes = p.bytes := by
  have : (p.advance n).bytes = p.bytes.drop n := by
    simp only [bytes, advance, List.drop_take, List.drop_drop]
  rw [this, List.take_append_drop]

end APacket

/-- What `adb_write` returns: a number of bytes, or an error. -/
inductive WriteResult
  | wrote (n : Nat)
  | again
  | intr
  | fail
  deriving DecidableEq

/-- What `adb_read` returns: some bytes, none at the end of the file, or an error. -/
inductive FdRead
  | got (bytes : List UInt8)
  | again
  | intr
  | fail
  deriving DecidableEq

/-- How a round of a loop ends: another round with the packet, no more for now, or the socket is
closed. -/
inductive Verdict
  | more (p : APacket)
  | block
  | close
  deriving DecidableEq

/-- The bytes that go out in a round. -/
def sent (p : APacket) : WriteResult → List UInt8
  | .wrote n => p.bytes.take n
  | _ => []

/-- A round of the loop in `local_socket_enqueue`. -/
def fastWrite (p : APacket) : WriteResult → Verdict
  | .wrote 0 => .close
  | .wrote n => .more (p.advance n)
  | .again => .block
  | .intr | .fail => .close

/-- A round of the loop over a packet in `local_socket_event_func`. -/
def drainWrite (p : APacket) : WriteResult → Verdict
  | .wrote 0 => .close
  | .wrote n => .more (p.advance n)
  | .again => .block
  | .intr => .more p
  | .fail => .close

variable {p p' : APacket} {w : WriteResult}

/-- What a round leaves is what it did not write. -/
theorem fastWrite_more (h : fastWrite p w = .more p') : sent p w ++ p'.bytes = p.bytes := by
  unfold fastWrite at h
  split at h <;> cases h
  exact p.take_append_advance _

theorem drainWrite_more (h : drainWrite p w = .more p') : sent p w ++ p'.bytes = p.bytes := by
  unfold drainWrite at h
  split at h <;> cases h
  · exact p.take_append_advance _
  · rfl

theorem fastWrite_block (h : fastWrite p w = .block) : sent p w = [] := by
  unfold fastWrite at h
  split at h <;> cases h
  rfl

theorem drainWrite_block (h : drainWrite p w = .block) : sent p w = [] := by
  unfold drainWrite at h
  split at h <;> cases h
  rfl

end Twm.Adb
