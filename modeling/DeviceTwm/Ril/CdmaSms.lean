import DeviceTwm.Ril.Requests

/-!
# CDMA messages in a parcel

`responseCdmaSms` writes a `RIL_CDMA_SMS_Message` field by field, and `dispatchCdmaSms` reads one.
The digits and the bearer data go one byte at a time, each padded to four.

`cdmaSms_roundTrip`: what `responseCdmaSms` writes, `dispatchCdmaSms` reads back, to the last byte.
`Parcel` is not part of the repository; what is used of it is that writes and reads are padded and
in order (`Padded`).
-/

open Lib

namespace Twm.Ril

/-- `RIL_CDMA_SMS_Message`, with its arrays whole. -/
structure RilCdmaSmsMessage (cfg : Config) where
  uTeleserviceID : Int32
  bIsServicePresent : UInt8
  uServicecategory : Int32
  digitMode : Int32
  numberMode : Int32
  numberType : Int32
  numberPlan : Int32
  numberOfDigits : UInt8
  digits : Vector UInt8 cfg.addressMax
  subaddressType : Int32
  odd : UInt8
  subNumberOfDigits : UInt8
  subDigits : Vector UInt8 cfg.subaddressMax
  uBearerDataLen : Int32
  aBearerData : Vector UInt8 cfg.bearerDataMax
  deriving DecidableEq

/-- An array after `memset` with 0 and the writes of its first elements. -/
def fill (n : Nat) (l : List UInt8) : Vector UInt8 n := Vector.ofFn fun i => l.getD i 0

/-- The struct that `dispatchCdmaSms` passes to `onRequest`. -/
def CdmaSmsMessage.rcsm (cfg : Config) (m : CdmaSmsMessage) : RilCdmaSmsMessage cfg where
  uTeleserviceID := m.uTeleserviceID
  bIsServicePresent := m.bIsServicePresent
  uServicecategory := m.uServicecategory
  digitMode := m.digitMode
  numberMode := m.numberMode
  numberType := m.numberType
  numberPlan := m.numberPlan
  numberOfDigits := m.numberOfDigits
  digits := fill _ m.digits
  subaddressType := m.subaddressType
  odd := m.odd
  subNumberOfDigits := m.subNumberOfDigits
  subDigits := fill _ m.subDigits
  uBearerDataLen := m.uBearerDataLen
  aBearerData := fill _ m.aBearerData

/-- `p.writeInt32(t)`. -/
def writeInt32 (t : Int32) : List UInt8 := le32 t.toUInt32.toNat

/-- `p.write(&uct, sizeof(uct))`. -/
def write (uct : UInt8) : List UInt8 := [uct, 0, 0, 0]

def RIL_ERRNO_INVALID_RESPONSE : Int := -1

section

variable {cfg : Config}

/-- The first elements of an array, up to `digitLimit`. -/
def firstDigits {n : Nat} (digits : Vector UInt8 n) (digitLimit : Nat) : List UInt8 :=
  digits.toList.take digitLimit

/-- What `responseCdmaSms` writes of a message. -/
def writeMessage (p_cur : RilCdmaSmsMessage cfg) : List UInt8 :=
  [writeInt32 p_cur.uTeleserviceID,
    write p_cur.bIsServicePresent,
    writeInt32 p_cur.uServicecategory,
    writeInt32 p_cur.digitMode,
    writeInt32 p_cur.numberMode,
    writeInt32 p_cur.numberType,
    writeInt32 p_cur.numberPlan,
    write p_cur.numberOfDigits,
    (firstDigits p_cur.digits (min p_cur.numberOfDigits.toNat cfg.addressMax)).flatMap write,
    writeInt32 p_cur.subaddressType,
    write p_cur.odd,
    write p_cur.subNumberOfDigits,
    (firstDigits p_cur.subDigits (min p_cur.subNumberOfDigits.toNat cfg.subaddressMax)).flatMap write,
    writeInt32 p_cur.uBearerDataLen,
    (firstDigits p_cur.aBearerData
      (min p_cur.uBearerDataLen.toNatClampNeg cfg.bearerDataMax)).flatMap write].flatten

/-- `responseCdmaSms`, with the bytes of the parcel after it; `sizeof` is the size of the struct. -/
def responseCdmaSms (sizeof : Nat) (p : List UInt8) (response : Option (RilCdmaSmsMessage cfg))
    (responselen : Nat) : Int × List UInt8 :=
  match response with
  | none => (RIL_ERRNO_INVALID_RESPONSE, p)
  | some p_cur =>
    if responselen ≠ sizeof then (RIL_ERRNO_INVALID_RESPONSE, p)
    else (0, p ++ writeMessage p_cur)

end

/-! ## Reading what was written -/

/-- `left` is what is left of a parcel. Reads are in order, and take what the writes put there. -/
structure Padded {P : Type} (lib : Parcel P) (left : P → List UInt8) : Prop where
  setData : ∀ bytes, left (lib.setData bytes) = bytes
  readInt32 : ∀ p t rest, left p = writeInt32 t ++ rest →
    ∃ p', lib.readInt32 p = (some t, p') ∧ left p' = rest
  read : ∀ p ut rest, left p = write ut ++ rest → ∃ p', lib.read p = (some ut, p') ∧ left p' = rest

/-- The elements that a message does not use are 0. -/
structure RilCdmaSmsMessage.ZeroUnused {cfg : Config} (m : RilCdmaSmsMessage cfg) : Prop where
  digits : ∀ i (h : i < cfg.addressMax), m.numberOfDigits.toNat ≤ i → m.digits[i] = 0
  subDigits : ∀ i (h : i < cfg.subaddressMax), m.subNumberOfDigits.toNat ≤ i → m.subDigits[i] = 0
  aBearerData : ∀ i (h : i < cfg.bearerDataMax), m.uBearerDataLen.toInt ≤ i → m.aBearerData[i] = 0

theorem fill_zero {n i : Nat} {l : List UInt8} (hi : i < n) (h : l.length ≤ i) :
    (fill n l)[i] = 0 := by
  simp [fill, List.getElem?_eq_none h]

/-- An array whose other elements are 0 is known by its first ones. -/
theorem fill_firstDigits {n k : Nat} (v : Vector UInt8 n)
    (h : ∀ i (hi : i < n), k ≤ i → v[i] = 0) : fill n (firstDigits v (min k n)) = v := by
  apply Vector.ext
  intro i hi
  simp only [fill, firstDigits, Vector.getElem_ofFn, List.getD_eq_getElem?_getD, List.getElem?_take]
  by_cases hk : i < k
  · rw [if_pos (Nat.lt_min.mpr ⟨hk, hi⟩)]
    simp [hi]
  · rw [if_neg (fun hlt => hk (Nat.lt_min.mp hlt).1), h i hi (Nat.not_lt.mp hk)]
    rfl

theorem length_firstDigits {n k : Nat} (v : Vector UInt8 n) :
    (firstDigits v (min k n)).length = min k n := by
  simp [firstDigits]

/-- The elements that `dispatchCdmaSms` reads of a message. -/
def RilCdmaSmsMessage.elements {cfg : Config} (m : RilCdmaSmsMessage cfg) : CdmaSmsMessage where
  uTeleserviceID := m.uTeleserviceID
  bIsServicePresent := m.bIsServicePresent
  uServicecategory := m.uServicecategory
  digitMode := m.digitMode
  numberMode := m.numberMode
  numberType := m.numberType
  numberPlan := m.numberPlan
  numberOfDigits := m.numberOfDigits
  digits := firstDigits m.digits (min m.numberOfDigits.toNat cfg.addressMax)
  subaddressType := m.subaddressType
  odd := m.odd
  subNumberOfDigits := m.subNumberOfDigits
  subDigits := firstDigits m.subDigits (min m.subNumberOfDigits.toNat cfg.subaddressMax)
  uBearerDataLen := m.uBearerDataLen
  aBearerData := firstDigits m.aBearerData (min m.uBearerDataLen.toNatClampNeg cfg.bearerDataMax)

theorem RilCdmaSmsMessage.ZeroUnused.rcsm_elements {cfg : Config} {m : RilCdmaSmsMessage cfg}
    (h : m.ZeroUnused) : m.elements.rcsm cfg = m := by
  have hb : ∀ i (hi : i < cfg.bearerDataMax), m.uBearerDataLen.toNatClampNeg ≤ i →
      m.aBearerData[i] = 0 := fun i hi hle => h.aBearerData i hi (by
    rw [← Int32.toNat_toInt] at hle
    omega)
  simp only [CdmaSmsMessage.rcsm, elements, fill_firstDigits _ h.digits,
    fill_firstDigits _ h.subDigits, fill_firstDigits _ hb]

section

variable {P : Type} {lib : Parcel P} {left : P → List UInt8} (hp : Padded lib left)

include hp

theorem readInt32_takes (t : Int32) :
    Takes (fun l : Locals P => left l.p) (·.status = true) (readInt32 lib) (writeInt32 t) t := by
  intro l rest h
  obtain ⟨p', hr, hl⟩ := hp.readInt32 l.p t rest h
  refine ⟨{ l with p := p', status := true, t := t }, ?_, hl, fun _ => rfl⟩
  simp [StateT.run, readInt32, hr]

theorem readByte_takes (ut : UInt8) :
    Takes (fun l : Locals P => left l.p) (·.status = true) (readByte lib) (write ut) ut := by
  intro l rest h
  obtain ⟨p', hr, hl⟩ := hp.read l.p ut rest h
  refine ⟨{ l with p := p', status := true, ut := ut }, ?_, hl, fun _ => rfl⟩
  simp [StateT.run, readByte, hr]

theorem readBytes_takes {n : Nat} {l : List UInt8} (h : l.length = n) :
    Takes (fun l : Locals P => left l.p) (·.status = true) (readBytes lib n) (l.flatMap write) l := by
  subst h
  exact Takes.replicate (readByte_takes hp) l

/-- What was written of a message is taken by a reader that reads as many elements of each array. -/
theorem readMessage_takes {cfg : Config} (m : RilCdmaSmsMessage cfg)
    {address subaddress : UInt8 → Nat} {bearerData : Int32 → Nat}
    (ha : min m.numberOfDigits.toNat cfg.addressMax = address m.numberOfDigits)
    (hs : min m.subNumberOfDigits.toNat cfg.subaddressMax = subaddress m.subNumberOfDigits)
    (hb : min m.uBearerDataLen.toNatClampNeg cfg.bearerDataMax = bearerData m.uBearerDataLen) :
    Takes (fun l : Locals P => left l.p) (·.status = true)
      (readMessage lib address subaddress bearerData) (writeMessage m) m.elements := by
  have int := readInt32_takes hp
  have byte := readByte_takes hp
  have bytes : ∀ {n k k' : Nat} (v : Vector UInt8 n), min k n = k' →
      Takes (fun l : Locals P => left l.p) (·.status = true) (readBytes lib k')
        ((firstDigits v (min k n)).flatMap write) (firstDigits v (min k n)) :=
    fun v h => readBytes_takes hp ((length_firstDigits v).trans h)
  simp only [writeMessage, List.flatten_cons, List.flatten_nil]
  exact (int _).bind <| (byte _).bind <| (int _).bind <| (int _).bind <| (int _).bind <|
    (int _).bind <| (int _).bind <| (byte _).bind <| (bytes _ ha).bind <| (int _).bind <|
    (byte _).bind <| (byte _).bind <| (bytes _ hs).bind <| (int _).bind <| (bytes _ hb).bind <|
    .pure _

/-- **Round trip of a CDMA message.** What `responseCdmaSms` writes of a message whose unused
elements are 0, `dispatchCdmaSms` reads back into the same message, and nothing is left. `status`,
`t` and `ut` are what the local variables hold at first; a count above its maximum makes no
difference. -/
theorem cdmaSms_roundTrip {cfg : Config} (m : RilCdmaSmsMessage cfg) (hz : m.ZeroUnused)
    (sizeof : Nat) (p : List UInt8) :
    ∃ bytes, responseCdmaSms sizeof p (some m) sizeof = (0, p ++ bytes) ∧
      ∀ status t ut, ∃ d l, (dispatchCdmaSms lib cfg).run ⟨lib.setData bytes, status, t, ut⟩ =
          (.request (.cdmaSms d), l) ∧ d.rcsm cfg = m ∧ left l.p = [] := by
  refine ⟨writeMessage m, by simp [responseCdmaSms], fun status t ut => ?_⟩
  have hset : left (lib.setData (writeMessage m)) = writeMessage m ++ [] := by
    rw [hp.setData, List.append_nil]
  have hread : Takes (fun l : Locals P => left l.p) (·.status = true)
      (readMessage lib (fun n => min n.toNat cfg.addressMax)
        (fun n => min n.toNat cfg.subaddressMax) (fun n => min n.toNatClampNeg cfg.bearerDataMax))
      (writeMessage m) m.elements :=
    readMessage_takes hp m rfl rfl rfl
  obtain ⟨l, hl, hleft, hgood⟩ := hread ⟨lib.setData (writeMessage m), status, t, ut⟩ [] hset
  have hs : l.status = true := hgood (.inr (by simp [writeMessage, writeInt32, le32]))
  refine ⟨m.elements, l, ?_, hz.rcsm_elements, hleft⟩
  rw [dispatchCdmaSms, StateT.run_bind, hl]
  show (checkStatus _).run l = _
  rw [run_checkStatus, if_pos hs]
  rfl

end

/-! ## A message -/

theorem bytesParcel_padded : Padded Requests.bytesParcel id where
  setData _ := rfl
  readInt32 p t rest h := by
    obtain rfl : p = writeInt32 t ++ rest := h
    refine ⟨rest, ?_, rfl⟩
    have ht : (UInt32.ofNat (ofLe32 (writeInt32 t ++ rest))).toInt32 = t := by
      rw [writeInt32, ofLe32_le32, Nat.mod_eq_of_lt t.toUInt32.toNat_lt, UInt32.ofNat_toNat]
      rfl
    simp only [Requests.bytesParcel]
    rw [if_pos (by simp [writeInt32]), ht]
    rfl
  read p ut rest h := by
    obtain rfl : p = write ut ++ rest := h
    exact ⟨rest, by simp [Requests.bytesParcel, write], rfl⟩

/-- Two digits, no subaddress, and three bytes of data. -/
def exampleMessage : RilCdmaSmsMessage Requests.exampleConfig where
  uTeleserviceID := 4098
  bIsServicePresent := 0
  uServicecategory := 0
  digitMode := 0
  numberMode := 0
  numberType := 0
  numberPlan := 0
  numberOfDigits := 2
  digits := fill _ [1, 2]
  subaddressType := 0
  odd := 0
  subNumberOfDigits := 0
  subDigits := fill _ []
  uBearerDataLen := 3
  aBearerData := fill _ [0, 3, 16]

theorem exampleMessage_zeroUnused : exampleMessage.ZeroUnused := by
  refine ⟨fun i hi h => fill_zero hi ?_, fun i hi _ => fill_zero hi (Nat.zero_le i),
    fun i hi h => fill_zero hi ?_⟩
  · exact h
  · exact Int.ofNat_le.mp h

theorem cdmaSms_exampleMessage :
    ∃ bytes, responseCdmaSms 360 [] (some exampleMessage) 360 = (0, [] ++ bytes) ∧
      ∀ status t ut, ∃ d l, (dispatchCdmaSms Requests.bytesParcel Requests.exampleConfig).run
          ⟨bytes, status, t, ut⟩ = (.request (.cdmaSms d), l) ∧
        d.rcsm Requests.exampleConfig = exampleMessage ∧ l.p = [] :=
  cdmaSms_roundTrip bytesParcel_padded exampleMessage exampleMessage_zeroUnused 360 []

end Twm.Ril
