import Mathlib.Tactic.IntervalCases
import DeviceTwm.Adb.SyncConn
import DeviceTwm.Adb.Packet

/-!
# Packets on the wire

`send_packet`, the two `remote_write`s and `remote_read`s (over a socket in `transport_local.c`, over
USB in `transport_usb.c`) and the checks on what comes in, on hosts of either byte order.

* `Endian.store`, `Endian.load`: a word in the memory of a host. `fix_endians` before the store and
  after the load makes both the same on every host (`store_fix`, `fix_load`).
* `remote_roundtrip`: what goes out comes in again.
-/

open Lib

namespace Twm.Adb.Wire

/-! ## Words -/

/-- The byte order of a host; `big` where `__ppc__` is defined. -/
inductive Endian
  | little
  | big
  deriving DecidableEq

def H4 (x : UInt32) : UInt32 :=
  ((x &&& 0xFF000000) >>> 24) ||| ((x &&& 0x00FF0000) >>> 8) ||| ((x &&& 0x0000FF00) <<< 8) |||
    ((x &&& 0x000000FF) <<< 24)

namespace Endian

/-- The bytes of a word in memory. -/
def store (e : Endian) (x : UInt32) : List UInt8 :=
  match e with
  | little => le32 x.toNat
  | big => (le32 x.toNat).reverse

/-- The word in the first four bytes. -/
def load (e : Endian) (b : List UInt8) : UInt32 :=
  match e with
  | little => UInt32.ofNat (ofLe32 b)
  | big => UInt32.ofNat (ofLe32 (b.take 4).reverse)

/-- What `fix_endians` does to a word. -/
def fix (e : Endian) (x : UInt32) : UInt32 :=
  match e with
  | little => x
  | big => H4 x

end Endian

theorem H4_bytes (x : UInt32) :
    (H4 x).toUInt8 = (x >>> 24).toUInt8 ∧ (H4 x >>> 8).toUInt8 = (x >>> 16).toUInt8 ∧
      (H4 x >>> 16).toUInt8 = (x >>> 8).toUInt8 ∧ (H4 x >>> 24).toUInt8 = x.toUInt8 := by
  refine ⟨?_, ?_, ?_, ?_⟩ <;>
  · apply UInt8.toBitVec_inj.mp
    ext i hi
    simp only [H4, UInt32.toBitVec_toUInt8, UInt32.toBitVec_shiftRight, UInt32.toBitVec_shiftLeft,
      UInt32.toBitVec_or, UInt32.toBitVec_and]
    interval_cases i <;> simp

theorem le32_toNat (x : UInt32) :
    le32 x.toNat = [x.toUInt8, (x >>> 8).toUInt8, (x >>> 16).toUInt8, (x >>> 24).toUInt8] := by
  have hbyte (k : UInt32) (hk : k.toNat < 32) :
      UInt8.ofNat (x.toNat / 2 ^ k.toNat) = (x >>> k).toUInt8 := by
    apply UInt8.toNat_inj.mp
    simp [Nat.shiftRight_eq_div_pow, Nat.mod_eq_of_lt hk]
  have h8 := hbyte 8 (by decide)
  have h16 := hbyte 16 (by decide)
  have h24 := hbyte 24 (by decide)
  have h0 : UInt8.ofNat x.toNat = x.toUInt8 := by
    apply UInt8.toNat_inj.mp
    simp
  unfold le32
  rw [h0, ← h8, ← h16, ← h24]
  rfl

/-- `H4` turns the bytes of a word around. -/
theorem le32_H4 (x : UInt32) : le32 (H4 x).toNat = (le32 x.toNat).reverse := by
  obtain ⟨h₀, h₁, h₂, h₃⟩ := H4_bytes x
  rw [le32_toNat, le32_toNat, h₀, h₁, h₂, h₃]
  rfl

theorem ofNat_ofLe32 (x : UInt32) (b : List UInt8) :
    UInt32.ofNat (ofLe32 (le32 x.toNat ++ b)) = x := by
  rw [ofLe32_le32, Nat.mod_eq_of_lt x.toNat_lt, UInt32.ofNat_toNat]

theorem H4_H4 (x : UInt32) : H4 (H4 x) = x := by
  have h : le32 (H4 (H4 x)).toNat = le32 x.toNat := by
    rw [le32_H4, le32_H4, List.reverse_reverse]
  rw [← ofNat_ofLe32 (H4 (H4 x)) [], h, ofNat_ofLe32]

/-- Out of the memory of every host a fixed word goes with the low byte first. -/
theorem store_fix (e : Endian) (x : UInt32) : e.store (e.fix x) = le32 x.toNat := by
  cases e with
  | little => rfl
  | big => rw [Endian.store, Endian.fix, le32_H4, List.reverse_reverse]

/-- And on every host it comes back. -/
theorem fix_load (e : Endian) (x : UInt32) (b : List UInt8) :
    e.fix (e.load (le32 x.toNat ++ b)) = x := by
  cases e with
  | little => exact ofNat_ofLe32 x b
  | big =>
    have htake : (le32 x.toNat ++ b).take 4 = le32 x.toNat := rfl
    rw [Endian.load, Endian.fix, htake, ← le32_H4, ← List.append_nil (le32 (H4 x).toNat),
      ofNat_ofLe32, H4_H4]

/-! ## Messages -/

structure AMessage where
  command : UInt32
  arg0 : UInt32
  arg1 : UInt32
  dataLength : UInt32
  dataCheck : UInt32
  magic : UInt32
  deriving DecidableEq

namespace AMessage

/-- `fix_endians`. -/
def fixEndians (e : Endian) (m : AMessage) : AMessage where
  command := e.fix m.command
  arg0 := e.fix m.arg0
  arg1 := e.fix m.arg1
  dataLength := e.fix m.dataLength
  dataCheck := e.fix m.dataCheck
  magic := e.fix m.magic

/-- An `amessage` in the memory of a host. -/
def store (e : Endian) (m : AMessage) : List UInt8 :=
  e.store m.command ++ (e.store m.arg0 ++ (e.store m.arg1 ++
    (e.store m.dataLength ++ (e.store m.dataCheck ++ e.store m.magic))))

def load (e : Endian) (b : List UInt8) : AMessage where
  command := e.load b
  arg0 := e.load (b.drop 4)
  arg1 := e.load (b.drop 8)
  dataLength := e.load (b.drop 12)
  dataCheck := e.load (b.drop 16)
  magic := e.load (b.drop 20)

/-- `sizeof(amessage)`. -/
def sizeof : Nat := 24

@[simp] theorem length_store (e : Endian) (m : AMessage) : (m.store e).length = sizeof := by
  cases e <;> rfl

/-- The header as it is on the wire. -/
def wire (m : AMessage) : List UInt8 :=
  le32 m.command.toNat ++ (le32 m.arg0.toNat ++ (le32 m.arg1.toNat ++
    (le32 m.dataLength.toNat ++ (le32 m.dataCheck.toNat ++ le32 m.magic.toNat))))

theorem store_fixEndians (e : Endian) (m : AMessage) : (m.fixEndians e).store e = m.wire := by
  simp only [store, fixEndians, store_fix, wire]

theorem fixEndians_load (e : Endian) (m : AMessage) : (load e m.wire).fixEndians e = m := by
  have hword (x : UInt32) (b : List UInt8) (n : Nat) :
      (le32 x.toNat ++ b).drop (n + 4) = b.drop n := rfl
  have hmagic := fix_load e m.magic []
  rw [List.append_nil] at hmagic
  simp only [fixEndians, load, wire, hword, List.drop_zero, fix_load, hmagic]

end AMessage

/-! ## Packets -/

/-- The `msg` and `data` of an `apacket`. -/
structure Packet where
  msg : AMessage
  data : List UInt8
  size : data.length = maxPayload

namespace Packet

/-- `sum` over the first `count` bytes of `data`. -/
def sum (data : List UInt8) (count : Nat) : UInt32 :=
  (data.take count).foldl (fun s b => s + b.toUInt32) 0

/-- The bytes that `data_length` counts. -/
def payload (p : Packet) : List UInt8 := p.data.take p.msg.dataLength.toNat

/-- The packet that `send_packet` hands to the transport. -/
def send (p : Packet) : Packet :=
  { p with
    msg := { p.msg with
      magic := p.msg.command ^^^ 0xffffffff
      dataCheck := sum p.data p.msg.dataLength.toNat } }

/-- `check_header`; `false` for -1. -/
def checkHeader (p : Packet) : Bool :=
  if p.msg.magic ≠ p.msg.command ^^^ 0xffffffff then false
  else if maxPayload < p.msg.dataLength.toNat then false
  else true

def checkData (p : Packet) : Bool := sum p.data p.msg.dataLength.toNat == p.msg.dataCheck

/-- `fix_endians` on the packet in place. -/
def fixEndians (e : Endian) (p : Packet) : Packet := { p with msg := p.msg.fixEndians e }

/-- `b` read into `p->data`. -/
def fill (p : Packet) (b : List UInt8) (h : b.length ≤ maxPayload) : Packet where
  msg := p.msg
  data := b ++ p.data.drop b.length
  size := by
    have := p.size
    simp only [List.length_append, List.length_drop]
    omega

end Packet

/-! ## Transports -/

/-- Which of the two files. -/
inductive Link
  | socket
  | usb
  deriving DecidableEq

/-- `remote_write`: whether it returns 0. -/
def remoteWrite (l : Link) (e : Endian) (p : Packet) (s : Sink) : Bool × Sink :=
  let size := p.msg.dataLength.toNat
  let p := p.fixEndians e
  match l with
  | .socket => s.writex (p.msg.store e ++ p.data.take size)
  | .usb =>
    match s.writex (p.msg.store e) with
    | (false, s) => (false, s)
    | (true, s) => if p.msg.dataLength = 0 then (true, s) else s.writex (p.data.take size)

/-- `readx`, `usb_read`: the next `n` bytes, and what comes after them. -/
def readx (inp : List UInt8) (n : Nat) : Option (List UInt8 × List UInt8) :=
  if n ≤ inp.length then some (inp.take n, inp.drop n) else none

/-- `remote_read` into `p`: the packet and what comes after it; `none` for -1. -/
def remoteRead (l : Link) (e : Endian) (p : Packet) (inp : List UInt8) :
    Option (Packet × List UInt8) :=
  match readx inp AMessage.sizeof with
  | none => none
  | some (b, inp) =>
    let p := Packet.fixEndians e { p with msg := .load e b }
    if !p.checkHeader then none
    else if l = .usb ∧ p.msg.dataLength = 0 then
      if p.checkData then some (p, inp) else none
    else
      match readx inp p.msg.dataLength.toNat with
      | none => none
      | some (b, inp) =>
        -- `check_header` saw to it that the payload fits the buffer.
        if h : b.length ≤ maxPayload then
          if (p.fill b h).checkData then some (p.fill b h, inp) else none
        else none

/-! ## The round trip -/

variable {e : Endian} {p q : Packet} {s : Sink}

theorem AMessage.length_wire (m : AMessage) : m.wire.length = AMessage.sizeof := rfl

theorem Packet.length_payload (h : p.msg.dataLength.toNat ≤ maxPayload) :
    p.payload.length = p.msg.dataLength.toNat := by
  rw [payload, List.length_take, p.size, Nat.min_eq_left h]

theorem fix_eq_zero (x : UInt32) : e.fix x = 0 ↔ x = 0 := by
  cases e with
  | little => exact Iff.rfl
  | big =>
    constructor
    · intro h
      rw [← H4_H4 x, show H4 x = 0 from h]
      rfl
    · rintro rfl
      rfl

/-- Both transports put the header and the payload on the wire. -/
theorem remoteWrite_eq (l : Link) (e : Endian) (h : s.Takes (p.msg.wire ++ p.payload).length) :
    ∃ room, remoteWrite l e p s = (true, ⟨s.out ++ (p.msg.wire ++ p.payload), room⟩) := by
  have hstore : (p.fixEndians e).msg.store e = p.msg.wire := AMessage.store_fixEndians e p.msg
  cases l with
  | socket =>
    simp only [remoteWrite, hstore]
    exact ⟨_, Sink.writex_eq h⟩
  | usb =>
    have hhead := Sink.takes_left h
    simp only [remoteWrite, hstore, Sink.writex_eq hhead]
    -- The test is on the swapped length, which is 0 just when the length is.
    by_cases hzero : (p.fixEndians e).msg.dataLength = 0
    · have hlen : p.msg.dataLength = 0 := (fix_eq_zero _).mp hzero
      rw [if_pos hzero]
      refine ⟨s.room.map (· - p.msg.wire.length), ?_⟩
      rw [Packet.payload, hlen]
      simp
    · have hrest := (Sink.takes_append hhead).mpr h
      rw [if_neg hzero, ← List.append_assoc]
      exact ⟨_, Sink.writex_eq hrest⟩

theorem readx_append (a b : List UInt8) : readx (a ++ b) a.length = some (a, b) := by
  simp [readx]

theorem checkHeader_send (h : p.msg.dataLength.toNat ≤ maxPayload) (hq : q.msg = p.send.msg) :
    q.checkHeader = true := by
  unfold Packet.checkHeader
  rw [hq, if_neg (by simp [Packet.send])]
  exact if_neg (Nat.not_lt.mpr h)

/-- A packet with the header and the payload of one that was sent passes `check_data`. -/
theorem checkData_send (hp : q.payload = p.payload) (hq : q.msg = p.send.msg) :
    q.checkData = true := by
  have hsum : Packet.sum q.data q.msg.dataLength.toNat =
      Packet.sum p.data p.msg.dataLength.toNat := congrArg (List.foldl _ 0) hp
  unfold Packet.checkData
  rw [hsum, hq]
  exact beq_self_eq_true _

theorem Packet.payload_fill {b : List UInt8} (h : b.length ≤ maxPayload)
    (hb : b.length = p.msg.dataLength.toNat) : (p.fill b h).payload = b := by
  rw [payload, fill, ← hb]
  exact List.take_left' rfl

/-- Both transports take the header and the payload off the wire. -/
theorem remoteRead_eq (l : Link) (e : Endian) (q : Packet) (rest : List UInt8)
    (h : p.msg.dataLength.toNat ≤ maxPayload) :
    ∃ q', remoteRead l e q (p.send.msg.wire ++ (p.payload ++ rest)) = some (q', rest) ∧
      q'.msg = p.send.msg ∧ q'.payload = p.payload := by
  have hlen := Packet.length_payload h
  -- The packet in the buffer once the header is read.
  have hbuf : Packet.fixEndians e { q with msg := .load e p.send.msg.wire } =
      { q with msg := p.send.msg } := by
    simp only [Packet.fixEndians, AMessage.fixEndians_load]
  have hhead : readx (p.send.msg.wire ++ (p.payload ++ rest)) AMessage.sizeof =
      some (p.send.msg.wire, p.payload ++ rest) := readx_append _ _
  simp only [remoteRead, hhead, hbuf]
  rw [checkHeader_send (q := { q with msg := p.send.msg }) h rfl, if_neg (by decide)]
  by_cases hzero : l = .usb ∧ p.send.msg.dataLength = 0
  · have hnil : p.payload = [] := by
      have : p.msg.dataLength = 0 := hzero.2
      rw [Packet.payload, this]
      rfl
    have hpay : Packet.payload { q with msg := p.send.msg } = p.payload := by
      rw [hnil, Packet.payload, show p.send.msg.dataLength = 0 from hzero.2]
      rfl
    rw [if_pos hzero, if_pos (checkData_send hpay rfl), hnil]
    exact ⟨_, rfl, rfl, hpay.trans hnil⟩
  · rw [if_neg hzero]
    have hdata : readx (p.payload ++ rest) p.send.msg.dataLength.toNat =
        some (p.payload, rest) := hlen ▸ readx_append p.payload rest
    have hfit : p.payload.length ≤ maxPayload := hlen ▸ h
    simp only [hdata, dif_pos hfit]
    have hpay := Packet.payload_fill (p := { q with msg := p.send.msg }) hfit hlen
    rw [if_pos (checkData_send hpay rfl)]
    exact ⟨_, rfl, rfl, hpay⟩

/-- A packet that `send_packet` and `remote_write` put on the wire on a host of either byte order
is accepted by `remote_read` on a host of either byte order, with what it was sent with. -/
theorem remote_roundtrip (l : Link) (e e' : Endian) (p q : Packet) (s : Sink) (rest : List UInt8)
    (hlen : p.msg.dataLength.toNat ≤ maxPayload)
    (hs : s.Takes (AMessage.sizeof + p.msg.dataLength.toNat)) :
    ∃ out room, remoteWrite l e p.send s = (true, ⟨s.out ++ out, room⟩) ∧
      ∃ q', remoteRead l e' q (out ++ rest) = some (q', rest) ∧
        q'.msg.command = p.msg.command ∧ q'.msg.arg0 = p.msg.arg0 ∧ q'.msg.arg1 = p.msg.arg1 ∧
        q'.msg.dataLength = p.msg.dataLength ∧ q'.payload = p.payload := by
  have htakes : s.Takes (p.send.msg.wire ++ p.send.payload).length := by
    rw [List.length_append, AMessage.length_wire, Packet.length_payload (p := p.send) hlen]
    exact hs
  obtain ⟨room, hwrite⟩ := remoteWrite_eq l e htakes
  obtain ⟨q', hread, hmsg, hpay⟩ := remoteRead_eq l e' q rest hlen
  refine ⟨_, room, hwrite, q', ?_, by rw [hmsg]; rfl, by rw [hmsg]; rfl, by rw [hmsg]; rfl,
    by rw [hmsg]; rfl, hpay⟩
  rw [List.append_assoc]
  exact hread

/-- A packet of one byte, from a big-endian host to a little-endian one. -/
theorem remote_roundtrip_oneByte :
    let p : Packet := ⟨⟨0x45545257, 1, 2, 1, 0, 0⟩, 7 :: zeros 4095, by simp [maxPayload]⟩
    ∃ out room, remoteWrite .usb .big p.send ⟨[], none⟩ = (true, ⟨[] ++ out, room⟩) ∧
      ∃ q', remoteRead .usb .little p (out ++ []) = some (q', []) ∧
        q'.msg.command = 0x45545257 ∧ q'.msg.arg0 = 1 ∧ q'.msg.arg1 = 2 ∧
        q'.msg.dataLength = 1 ∧ q'.payload = [7] := by
  intro p
  have h := remote_roundtrip .usb .big .little p p ⟨[], none⟩ [] (by decide) (fun k hk => nomatch hk)
  exact h

end Twm.Adb.Wire
