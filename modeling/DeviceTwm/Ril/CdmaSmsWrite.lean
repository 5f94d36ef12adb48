import DeviceTwm.Ril.CdmaSms

/-!
# Writing a CDMA message to the RUIM

`dispatchRilCdmaSmsWriteArgs` reads a status and a `RIL_CDMA_SMS_Message`. Its three loops run to the
maxima of the arrays, where `responseCdmaSms` writes and `dispatchCdmaSms` reads as many elements as
the counts say.

`cdmaSmsWrite_iff`: of a status and a message in the layout of `responseCdmaSms`, the function hands
on this message if and only if all three arrays are full. Otherwise the reads run ahead of what was
written, the last one finds nothing left, and the command is refused (`cdmaSmsWrite_invalid`).
-/

open Lib

namespace Twm.Ril

/-- A number or a byte takes the next four bytes, whatever they are. When fewer are left, the read
fails and stays where it is. -/
structure Words {P : Type} (lib : Parcel P) (left : P → List UInt8) : Prop
    extends Padded lib left where
  readInt32_some : ∀ p, 4 ≤ (left p).length →
    ∃ t p', lib.readInt32 p = (some t, p') ∧ left p' = (left p).drop 4
  readInt32_none : ∀ p, (left p).length < 4 → lib.readInt32 p = (none, p)
  read_some : ∀ p, 4 ≤ (left p).length →
    ∃ ut p', lib.read p = (some ut, p') ∧ left p' = (left p).drop 4
  read_none : ∀ p, (left p).length < 4 → lib.read p = (none, p)

/-- Every array of the message is full. -/
structure RilCdmaSmsMessage.Full {cfg : Config} (m : RilCdmaSmsMessage cfg) : Prop where
  digits : cfg.addressMax ≤ m.numberOfDigits.toNat
  subDigits : cfg.subaddressMax ≤ m.subNumberOfDigits.toNat
  aBearerData : cfg.bearerDataMax ≤ m.uBearerDataLen.toNatClampNeg

/-- The counts are within their maxima. -/
structure RilCdmaSmsMessage.InRange {cfg : Config} (m : RilCdmaSmsMessage cfg) : Prop where
  digits : m.numberOfDigits.toNat ≤ cfg.addressMax
  subDigits : m.subNumberOfDigits.toNat ≤ cfg.subaddressMax
  aBearerData : 0 ≤ m.uBearerDataLen.toInt ∧ m.uBearerDataLen.toInt ≤ cfg.bearerDataMax

section

variable {P : Type} {lib : Parcel P} {left : P → List UInt8}

/-- The words that are left of the parcel. -/
def words (left : P → List UInt8) (l : Locals P) : Nat := (left l.p).length / 4

/-! ## What the reads use up -/

/-- A read that takes a word if there is one, and fails otherwise. -/
theorem consumes_one {α : Type} {x : StateM (Locals P) α}
    (hshort : ∀ l, (left l.p).length < 4 →
      left (x.run l).2.p = left l.p ∧ (x.run l).2.status = false)
    (hlong : ∀ l, 4 ≤ (left l.p).length →
      left (x.run l).2.p = (left l.p).drop 4 ∧ (x.run l).2.status = true) :
    Consumes (words left) (·.status = true) x 1 := by
  intro l
  simp only [words]
  rcases Nat.lt_or_ge (left l.p).length 4 with h | h
  · obtain ⟨hleft, hstatus⟩ := hshort l h
    rw [hleft, hstatus]
    exact ⟨by omega, iff_of_false Bool.false_ne_true (by omega)⟩
  · obtain ⟨hleft, hstatus⟩ := hlong l h
    rw [hleft, hstatus, List.length_drop]
    exact ⟨by omega, iff_of_true rfl (by omega)⟩

section

variable (hw : Words lib left)

include hw

theorem readInt32_consumes : Consumes (words left) (·.status = true) (readInt32 lib) 1 := by
  apply consumes_one
  · intro l h
    simp [StateT.run, readInt32, hw.readInt32_none l.p h]
  · intro l h
    obtain ⟨t, p', hr, hp⟩ := hw.readInt32_some l.p h
    simp [StateT.run, readInt32, hr, hp]

theorem readByte_consumes : Consumes (words left) (·.status = true) (readByte lib) 1 := by
  apply consumes_one
  · intro l h
    simp [StateT.run, readByte, hw.read_none l.p h]
  · intro l h
    obtain ⟨ut, p', hr, hp⟩ := hw.read_some l.p h
    simp [StateT.run, readByte, hr, hp]

theorem readBytes_consumes (n : Nat) :
    Consumes (words left) (·.status = true) (readBytes lib n) n := by
  have h := (readByte_consumes hw).replicate n
  rwa [Nat.mul_one] at h

/-- Where the counts do not matter, a message is as many words as its arrays have, and twelve. -/
theorem readMessage_consumes (a s b : Nat) :
    Consumes (words left) (·.status = true)
      (readMessage lib (fun _ => a) (fun _ => s) (fun _ => b)) (a + s + b + 12) := by
  have int := readInt32_consumes hw
  have byte := readByte_consumes hw
  have bytes := readBytes_consumes hw
  have h : Consumes (words left) (·.status = true)
      (readMessage lib (fun _ => a) (fun _ => s) (fun _ => b)) _ :=
    int.bind fun _ => byte.bind fun _ => int.bind fun _ => int.bind fun _ => int.bind fun _ =>
      int.bind fun _ => int.bind fun _ => byte.bind fun _ => (bytes a).bind fun _ =>
      int.bind fun _ => byte.bind fun _ => byte.bind fun _ => (bytes s).bind fun _ =>
      int.bind fun _ => (bytes b).bind fun _ => .pure _
  have hn : a + s + b + 12 = 1 + (1 + (1 + (1 + (1 + (1 + (1 + (1 + (a +
      (1 + (1 + (1 + (s + (1 + (b + 0)))))))))))))) := by omega
  rw [hn]
  exact h

end

/-! ## What was written -/

theorem length_flatMap_write (l : List UInt8) : (l.flatMap write).length = 4 * l.length := by
  induction l with
  | nil => rfl
  | cons a l ih => simp [ih, write]; omega

theorem length_writeMessage {cfg : Config} (m : RilCdmaSmsMessage cfg) :
    (writeMessage m).length = 4 * (min m.numberOfDigits.toNat cfg.addressMax +
      min m.subNumberOfDigits.toNat cfg.subaddressMax +
      min m.uBearerDataLen.toNatClampNeg cfg.bearerDataMax + 12) := by
  simp only [writeMessage, List.flatten_cons, List.flatten_nil, List.length_append,
    length_flatMap_write, length_firstDigits, writeInt32, write, le32, List.length_cons,
    List.length_nil]
  omega

/-- A message whose arrays are not all full is shorter than what is read. -/
theorem RilCdmaSmsMessage.full_iff_length {cfg : Config} (m : RilCdmaSmsMessage cfg) :
    m.Full ↔ cfg.addressMax + cfg.subaddressMax + cfg.bearerDataMax + 12 ≤
      (writeMessage m).length / 4 := by
  have hb := Int32.toNat_toInt m.uBearerDataLen
  rw [length_writeMessage, Nat.mul_div_cancel_left _ (by decide)]
  constructor
  · rintro ⟨ha, hs, hbe⟩
    omega
  · intro h
    exact ⟨by omega, by omega, by omega⟩

/-! ## The dispatch function -/

/-- The reads of `dispatchRilCdmaSmsWriteArgs`. -/
def readWriteArgs (lib : Parcel P) (cfg : Config) : StateM (Locals P) (Int32 × CdmaSmsMessage) := do
  let status ← readInt32 lib
  let message ← readMessage lib (fun _ => cfg.addressMax) (fun _ => cfg.subaddressMax)
    (fun _ => cfg.bearerDataMax)
  return (status, message)

theorem dispatchRilCdmaSmsWriteArgs_eq (lib : Parcel P) (cfg : Config) :
    dispatchRilCdmaSmsWriteArgs lib cfg = readWriteArgs lib cfg >>= fun a =>
      checkStatus (return .request (.cdmaSmsWrite a.1 a.2)) := by
  simp only [dispatchRilCdmaSmsWriteArgs, readWriteArgs, bind_assoc, pure_bind]

variable {cfg : Config} (hw : Words lib left) (m : RilCdmaSmsMessage cfg) (status : Int32)

include hw

/-- The last read fails, whichever array is not full. -/
theorem cdmaSmsWrite_invalid (hm : ¬ m.Full) (good : Bool) (t : Int32) (ut : UInt8) :
    ((dispatchRilCdmaSmsWriteArgs lib cfg).run
      ⟨lib.setData (writeInt32 status ++ writeMessage m), good, t, ut⟩).1 = .invalid := by
  have hc : Consumes (words left) (·.status = true) (readWriteArgs lib cfg) _ :=
    (readInt32_consumes hw).bind fun _ => (readMessage_consumes hw _ _ _).bind fun _ => .pure _
  obtain ⟨-, hgood⟩ := hc ⟨lib.setData (writeInt32 status ++ writeMessage m), good, t, ut⟩
  have hwords : words left ⟨lib.setData (writeInt32 status ++ writeMessage m), good, t, ut⟩ =
      1 + (writeMessage m).length / 4 := by
    simp only [words, hw.setData, List.length_append, writeInt32, le32, List.length_cons,
      List.length_nil]
    omega
  rw [m.full_iff_length] at hm
  rw [dispatchRilCdmaSmsWriteArgs_eq, StateT.run_bind]
  show ((checkStatus _).run _).1 = _
  rw [run_checkStatus, if_neg]
  intro hs
  have hwritten := hgood.mp hs
  omega

theorem cdmaSmsWrite_taken (hm : m.Full) (good : Bool) (t : Int32) (ut : UInt8) :
    ∃ l, (dispatchRilCdmaSmsWriteArgs lib cfg).run
      ⟨lib.setData (writeInt32 status ++ writeMessage m), good, t, ut⟩ =
        (.request (.cdmaSmsWrite status m.elements), l) := by
  have hread : Takes (fun l : Locals P => left l.p) (·.status = true) (readWriteArgs lib cfg)
      (writeInt32 status ++ writeMessage m) (status, m.elements) :=
    (readInt32_takes hw.toPadded status).bind <|
      (readMessage_takes hw.toPadded m (Nat.min_eq_right hm.digits) (Nat.min_eq_right hm.subDigits)
        (Nat.min_eq_right hm.aBearerData)).last (.pure _)
  have hset : left (lib.setData (writeInt32 status ++ writeMessage m)) =
      writeInt32 status ++ writeMessage m ++ [] := by
    rw [hw.setData, List.append_nil]
  obtain ⟨l, hl, -, hgood⟩ := hread ⟨_, good, t, ut⟩ _ hset
  have hs : l.status = true := hgood (.inr (by simp [writeInt32, le32]))
  refine ⟨l, ?_⟩
  rw [dispatchRilCdmaSmsWriteArgs_eq, StateT.run_bind, hl]
  show (checkStatus _).run l = _
  rw [run_checkStatus, if_pos hs]
  rfl

/-- **Writing a message.** `m` and `status` reach `onRequest` if and only if the arrays of `m` are
full: the parcel is `status`, and what `responseCdmaSms` writes of `m`. For counts within their
maxima (`InRange`) this is that each count is its maximum. -/
theorem cdmaSmsWrite_iff (hz : m.ZeroUnused) (hr : m.InRange) (good : Bool) (t : Int32) (ut : UInt8) :
    (∃ d l, (dispatchRilCdmaSmsWriteArgs lib cfg).run
        ⟨lib.setData (writeInt32 status ++ writeMessage m), good, t, ut⟩ =
          (.request (.cdmaSmsWrite status d), l) ∧ d.rcsm cfg = m) ↔
      m.numberOfDigits.toNat = cfg.addressMax ∧ m.subNumberOfDigits.toNat = cfg.subaddressMax ∧
        m.uBearerDataLen.toInt = cfg.bearerDataMax := by
  have hb := Int32.toNat_toInt m.uBearerDataLen
  have hfull : m.Full ↔ m.numberOfDigits.toNat = cfg.addressMax ∧
      m.subNumberOfDigits.toNat = cfg.subaddressMax ∧ m.uBearerDataLen.toInt = cfg.bearerDataMax := by
    obtain ⟨ha, hs, hbe⟩ := hr
    constructor
    · rintro ⟨ha', hs', hb'⟩
      omega
    · rintro ⟨ha', hs', hb'⟩
      exact ⟨by omega, by omega, by omega⟩
  rw [← hfull]
  constructor
  · rintro ⟨d, l, hrun, -⟩
    by_contra hm
    have h := cdmaSmsWrite_invalid hw m status hm good t ut
    rw [hrun] at h
    cases h
  · intro hm
    obtain ⟨l, hl⟩ := cdmaSmsWrite_taken hw m status hm good t ut
    exact ⟨m.elements, l, hl, hz.rcsm_elements⟩

end

/-! ## A message that is not full, and one that is -/

theorem bytesParcel_words : Words Requests.bytesParcel id where
  toPadded := bytesParcel_padded
  readInt32_some p h := ⟨_, _, if_pos h, rfl⟩
  readInt32_none p h := if_neg (Nat.not_le.mpr h)
  read_some p h := by
    cases p with
    | nil => cases h
    | cons ut p => exact ⟨ut, _, if_pos h, rfl⟩
  read_none p h := if_neg (Nat.not_le.mpr h)

/-- A message of two digits and three bytes, with the status 3, is refused. -/
theorem cdmaSmsWrite_refused :
    exampleMessage.ZeroUnused ∧ exampleMessage.InRange ∧
      ¬ ∃ d l, (dispatchRilCdmaSmsWriteArgs Requests.bytesParcel Requests.exampleConfig).run
          ⟨writeInt32 3 ++ writeMessage exampleMessage, true, 0, 0⟩ =
            (.request (.cdmaSmsWrite 3 d), l) ∧ d.rcsm Requests.exampleConfig = exampleMessage := by
  refine ⟨exampleMessage_zeroUnused, ⟨by decide, by decide, by decide⟩, ?_⟩
  rintro ⟨d, l, hrun, -⟩
  have h : ((dispatchRilCdmaSmsWriteArgs Requests.bytesParcel Requests.exampleConfig).run
      ⟨writeInt32 3 ++ writeMessage exampleMessage, true, 0, 0⟩).1 = .invalid := by
    decide +kernel
  rw [hrun] at h
  cases h

/-- As many digits and bytes as the arrays have. -/
def fullMessage : RilCdmaSmsMessage Requests.exampleConfig :=
  { exampleMessage with
    numberOfDigits := 36
    digits := fill _ (List.replicate 36 1)
    subNumberOfDigits := 36
    subDigits := fill _ (List.replicate 36 2)
    uBearerDataLen := 255
    aBearerData := fill _ (List.replicate 255 3) }

theorem cdmaSmsWrite_fullMessage :
    ∃ d l, (dispatchRilCdmaSmsWriteArgs Requests.bytesParcel Requests.exampleConfig).run
        ⟨writeInt32 3 ++ writeMessage fullMessage, true, 0, 0⟩ =
          (.request (.cdmaSmsWrite 3 d), l) ∧ d.rcsm Requests.exampleConfig = fullMessage := by
  have hz : fullMessage.ZeroUnused :=
    ⟨fun _ hi h => absurd hi (Nat.not_lt.mpr h), fun _ hi h => absurd hi (Nat.not_lt.mpr h),
      fun _ hi h => absurd hi (Nat.not_lt.mpr (Int.ofNat_le.mp h))⟩
  exact (cdmaSmsWrite_iff bytesParcel_words fullMessage 3 hz ⟨by decide, by decide, by decide⟩
    true 0 0).mpr ⟨rfl, rfl, rfl⟩

end Twm.Ril
