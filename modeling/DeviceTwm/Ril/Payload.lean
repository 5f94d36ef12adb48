import DeviceTwm.Lib.Reading
import DeviceTwm.Ril.Dispatch

/-!
# The payload of a command

What a dispatch function accepts, field by field (`payload`): every number can be read, the strings
that have to be there are, and the arrays have room on the stack. A string that may be null is null
when it cannot be read.

`dispatchFunction_accepted`: the dispatch function calls `onRequest` for exactly the payloads of this
form, with their fields. It looks at the status of the last read only, which is enough because after a
read that fails there is no number left in the parcel (`Parcel.Lawful`).
-/

open Lib

namespace Twm.Ril

variable {P : Type}

/-- A read that fails does not move; a byte takes as much room as a number, and a string starts with
one. -/
structure Parcel.Lawful (lib : Parcel P) : Prop where
  int32_fails : ∀ p, (lib.readInt32 p).1 = none → (lib.readInt32 p).2 = p
  byte_fails : ∀ p, (lib.read p).1 = none → (lib.read p).2 = p
  byte_room : ∀ p, (lib.read p).1 = none ↔ (lib.readInt32 p).1 = none
  string_fails : ∀ p, (lib.readInt32 p).1 = none → lib.readString16Inplace p = (none, p)

/-! ## Fields -/

namespace Fields

section

variable (lib : Parcel P)

def int : StateT P Option Int32 := fun p =>
  match lib.readInt32 p with
  | (some v, p) => some (v, p)
  | (none, _) => none

def byte : StateT P Option UInt8 := fun p =>
  match lib.read p with
  | (some v, p) => some (v, p)
  | (none, _) => none

/-- A string that may be null. -/
def string : StateT P Option CString := fun p =>
  let (s, p) := lib.readString16Inplace p
  some (s.map lib.strndup16to8, p)

/-- A string that is not null. -/
def someString : StateT P Option (List UInt8) := fun p =>
  let (s, p) := lib.readString16Inplace p
  s.map fun s => (lib.strndup16to8 s, p)

def inplace (len : Int32) : StateT P Option (Option (List UInt8)) := fun p =>
  some (lib.readInplace len p)

/-- So many times the same. -/
def times {α : Type} (n : Nat) (x : StateT P Option α) : StateT P Option (List α) :=
  (List.replicate n ()).mapM fun _ => x

end

/-! ## Payloads -/

section

variable (lib : Parcel P) (cfg : Config)

/-- An array of `count` words fits on the stack, and its size in a `size_t`. -/
def Fits (count : Int32) : Prop :=
  size4 count ≤ cfg.stack ∧ 4 * count.toNatClampNeg ≤ size4 count

instance (count : Int32) : Decidable (Fits cfg count) := inferInstanceAs (Decidable (_ ∧ _))

def strings : StateT P Option Data := do
  let count ← int lib
  if count = 0 then return .strings [] 0
  else if count = -1 then return .null
  else if Fits cfg count then
    let l ← times count.toNatClampNeg (string lib)
    return .strings l (size4 count)
  else failure

def ints : StateT P Option Data := do
  let count ← int lib
  if count ≠ 0 ∧ Fits cfg count then
    let l ← times count.toNatClampNeg (int lib)
    return .ints l (size4 count)
  else failure

def smsWrite : StateT P Option Data := do
  let status ← int lib
  let pdu ← someString lib
  let smsc ← string lib
  return .smsWrite status pdu smsc

def uus (address : List UInt8) (clir : Int32) : StateT P Option Data := do
  let uusType ← int lib
  let uusDcs ← int lib
  let len ← int lib
  if len = -1 then return .dial address clir (some ⟨uusType, uusDcs, none, 0⟩)
  else
    let uusData ← inplace lib len
    return .dial address clir (some ⟨uusType, uusDcs, uusData, len⟩)

def dial : StateT P Option Data := do
  let address ← someString lib
  let clir ← int lib
  if cfg.version < 3 then return .dial address clir none
  else
    let uusPresent ← int lib
    if uusPresent = 0 then return .dial address clir none else uus lib address clir

def simIo : StateT P Option Data := do
  let command ← int lib
  let fileid ← int lib
  let path ← string lib
  let p1 ← int lib
  let p2 ← int lib
  let p3 ← int lib
  let data ← string lib
  let pin2 ← string lib
  return .simIo command fileid path p1 p2 p3 data pin2

def callForward : StateT P Option Data := do
  let status ← int lib
  let reason ← int lib
  let serviceClass ← int lib
  let toa ← int lib
  let number ← string lib
  let timeSeconds ← int lib
  return .callForward status reason serviceClass toa (callForwardNumber number) timeSeconds

def raw : StateT P Option Data := do
  let len ← int lib
  let len := if len = -1 then 0 else len
  let data ← inplace lib len
  return .raw data len

def message (address subaddress : UInt8 → Nat) (bearerData : Int32 → Nat) :
    StateT P Option CdmaSmsMessage := do
  let uTeleserviceID ← int lib
  let bIsServicePresent ← byte lib
  let uServicecategory ← int lib
  let digitMode ← int lib
  let numberMode ← int lib
  let numberType ← int lib
  let numberPlan ← int lib
  let numberOfDigits ← byte lib
  let digits ← times (address numberOfDigits) (byte lib)
  let subaddressType ← int lib
  let odd ← byte lib
  let subNumberOfDigits ← byte lib
  let subDigits ← times (subaddress subNumberOfDigits) (byte lib)
  let uBearerDataLen ← int lib
  let aBearerData ← times (bearerData uBearerDataLen) (byte lib)
  return ⟨uTeleserviceID, bIsServicePresent, uServicecategory, digitMode, numberMode, numberType,
    numberPlan, numberOfDigits, digits, subaddressType, odd, subNumberOfDigits, subDigits,
    uBearerDataLen, aBearerData⟩

def cdmaSms : StateT P Option Data := do
  let m ← message lib (fun n => min n.toNat cfg.addressMax)
    (fun n => min n.toNat cfg.subaddressMax) (fun n => min n.toNatClampNeg cfg.bearerDataMax)
  return .cdmaSms m

def cdmaSmsAck : StateT P Option Data := do
  let uErrorClass ← int lib
  let uSMSCauseCode ← int lib
  return .cdmaSmsAck uErrorClass uSMSCauseCode

def gsmBroadcast : StateT P Option GsmBroadcast := do
  let fromServiceId ← int lib
  let toServiceId ← int lib
  let fromCodeScheme ← int lib
  let toCodeScheme ← int lib
  let selected ← int lib
  return ⟨fromServiceId, toServiceId, fromCodeScheme, toCodeScheme, selected.toUInt32.toUInt8⟩

def cdmaBroadcast : StateT P Option CdmaBroadcast := do
  let serviceCategory ← int lib
  let language ← int lib
  let selected ← int lib
  return ⟨serviceCategory, language, selected.toUInt32.toUInt8⟩

def gsmBrSmsCnf : StateT P Option Data := do
  let num ← int lib
  if noRoom cfg num cfg.gsmInfoSize then failure
  else
    let l ← times num.toNatClampNeg (gsmBroadcast lib)
    return .gsmBrSmsCnf l

def cdmaBrSmsCnf : StateT P Option Data := do
  let num ← int lib
  if noRoom cfg num cfg.cdmaInfoSize then failure
  else
    let l ← times num.toNatClampNeg (cdmaBroadcast lib)
    return .cdmaBrSmsCnf l

def cdmaSmsWrite : StateT P Option Data := do
  let status ← int lib
  let m ← message lib (fun _ => cfg.addressMax) (fun _ => cfg.subaddressMax)
    (fun _ => cfg.bearerDataMax)
  return .cdmaSmsWrite status m

end

end Fields

/-- The payload that a dispatch function accepts. -/
def payload (lib : Parcel P) (cfg : Config) : DispatchFunction → StateT P Option Data
  | .void => return .null
  | .string => do return .string (← Fields.string lib)
  | .strings => Fields.strings lib cfg
  | .ints => Fields.ints lib cfg
  | .smsWrite => Fields.smsWrite lib
  | .dial => Fields.dial lib cfg
  | .simIo => Fields.simIo lib
  | .callForward => Fields.callForward lib
  | .raw => Fields.raw lib
  | .cdmaSms => Fields.cdmaSms lib cfg
  | .cdmaSmsAck => Fields.cdmaSmsAck lib
  | .gsmBrSmsCnf => Fields.gsmBrSmsCnf lib cfg
  | .cdmaBrSmsCnf => Fields.cdmaBrSmsCnf lib cfg
  | .rilCdmaSmsWriteArgs => Fields.cdmaSmsWrite lib cfg

/-! ## Readers that agree with the fields -/

section

variable (lib : Parcel P)

/-- Once a read has failed, no number is left. -/
def laxity : Laxity (Locals P) P where
  view l := l.p
  good l := l.status = true
  stuck l := l.status = false ∧ (lib.readInt32 l.p).1 = none

variable {lib} (hl : lib.Lawful)

include hl

theorem readInt32_agrees : Agrees (laxity lib) (readInt32 lib) (Fields.int lib) where
  ok l v p _ h := by
    simp only [StateT.run, Fields.int, laxity] at h
    split at h
    · next v' p' hr =>
      cases h
      exact ⟨{ l with p := p, status := true, t := v }, by simp [StateT.run, readInt32, hr], rfl, rfl⟩
    · cases h
  fails l h _ := by
    simp only [StateT.run, Fields.int, laxity] at h
    split at h
    · cases h
    · next p' hr =>
      have hp : p' = l.p := by simpa [hr] using hl.int32_fails l.p
      simp [laxity, StateT.run, readInt32, hr, hp]
  stays l h := by
    have hp := hl.int32_fails l.p h.2
    have hr : lib.readInt32 l.p = (none, l.p) := Prod.ext h.2 hp
    simp [laxity, StateT.run, readInt32, hr]

theorem readByte_agrees : Agrees (laxity lib) (readByte lib) (Fields.byte lib) where
  ok l v p _ h := by
    simp only [StateT.run, Fields.byte, laxity] at h
    split at h
    · next v' p' hr =>
      cases h
      exact ⟨{ l with p := p, status := true, ut := v }, by simp [StateT.run, readByte, hr], rfl, rfl⟩
    · cases h
  fails l h _ := by
    simp only [StateT.run, Fields.byte, laxity] at h
    split at h
    · cases h
    · next p' hr =>
      have hp : p' = l.p := by simpa [hr] using hl.byte_fails l.p
      have hi : (lib.readInt32 l.p).1 = none := (hl.byte_room l.p).mp (by rw [hr])
      simp [laxity, StateT.run, readByte, hr, hp, hi]
  stays l h := by
    have hb := (hl.byte_room l.p).mpr h.2
    have hr : lib.read l.p = (none, l.p) := Prod.ext hb (hl.byte_fails l.p hb)
    simp [laxity, StateT.run, readByte, hr, h.2]

theorem strdupReadString_agrees :
    Agrees (laxity lib) (strdupReadString lib) (Fields.string lib) where
  ok l v p hg h := by
    cases h
    exact ⟨{ l with p := (lib.readString16Inplace l.p).2 }, rfl, rfl, hg⟩
  fails l h := by cases h
  stays l h := by
    have hr := hl.string_fails l.p h.2
    simpa [laxity, StateT.run, strdupReadString, hr] using h

end

/-! ## Functions that accept a payload -/

/-- When no read has failed, `x` calls `onRequest` for what `y` accepts, and for nothing else. -/
def Accepts (x : StateM (Locals P) Outcome) (y : StateT P Option Data) : Prop :=
  ∀ l, l.status = true → (x.run l).1.accepted = (y.run l.p).map Prod.fst

/-- And it calls `onRequest` for nothing once a read has failed. -/
structure Dispatches (lib : Parcel P) (x : StateM (Locals P) Outcome) (y : StateT P Option Data) :
    Prop where
  accepts : Accepts x y
  stuck : ∀ l, (laxity lib).stuck l → (x.run l).1.accepted = none

section

variable {lib : Parcel P} {α : Type} {x x' : StateM (Locals P) Outcome}
  {y y' : StateT P Option Data}

theorem accepts_request (d : Data) :
    Accepts (pure (.request d) : StateM (Locals P) Outcome) (pure d) := fun _ _ => rfl

theorem accepts_failure (o : Outcome) (ho : o.accepted = none) :
    Accepts (pure o : StateM (Locals P) Outcome) failure := fun _ _ => ho

theorem Accepts.ite {c : Prop} [Decidable c] (h : c → Accepts x y) (h' : ¬ c → Accepts x' y') :
    Accepts (if c then x else x') (if c then y else y') := by
  split
  · next hc => exact h hc
  · next hc => exact h' hc

theorem Dispatches.bind {x : StateM (Locals P) α} {y : StateT P Option α}
    {f : α → StateM (Locals P) Outcome} {g : α → StateT P Option Data}
    (hx : Agrees (laxity lib) x y) (hf : ∀ a, Dispatches lib (f a) (g a)) :
    Dispatches lib (x >>= f) (y >>= g) where
  accepts l hg := by
    rw [StateT.run_bind, StateT.run_bind]
    cases hy : y.run l.p with
    | none => exact (hf _).stuck _ (hx.fails l hy hg)
    | some as =>
      obtain ⟨a, p⟩ := as
      obtain ⟨l', hr, rfl, hg'⟩ := hx.ok l a p hg hy
      rw [hr]
      exact (hf a).accepts l' hg'
  stuck l h := by
    rw [StateT.run_bind]
    exact (hf _).stuck _ (hx.stays l h)

/-- The check of `status`. -/
theorem Accepts.check (h : Accepts x y) : Dispatches lib (checkStatus x) y where
  accepts l hg := by
    rw [run_checkStatus, if_pos hg]
    exact h l hg
  stuck l hs := by
    rw [run_checkStatus, if_neg (Bool.eq_false_iff.mp hs.1)]
    rfl

theorem readCount_some {l : Locals P} {v : Int32} {p : P} (h : lib.readInt32 l.p = (some v, p)) :
    (readCount lib).run l = (some v, { l with p := p, status := true }) := by
  simp [StateT.run, readCount, h]

theorem readCount_none {l : Locals P} {p : P} (h : lib.readInt32 l.p = (none, p)) :
    (readCount lib).run l = (none, { l with p := p, status := false }) := by
  simp [StateT.run, readCount, h]

/-- A number whose status is checked at once. -/
theorem Accepts.count {f : Int32 → StateM (Locals P) Outcome} {g : Int32 → StateT P Option Data}
    (h : ∀ v, Accepts (f v) (g v)) :
    Dispatches lib (do match ← readCount lib with | none => return .invalid | some v => f v)
      (Fields.int lib >>= g) where
  accepts l hg := by
    rw [StateT.run_bind, StateT.run_bind]
    rcases hr : lib.readInt32 l.p with ⟨_ | v, p⟩
    · have hi : (Fields.int lib).run l.p = none := by simp [StateT.run, Fields.int, hr]
      rw [hi, readCount_none hr]
      rfl
    · have hi : (Fields.int lib).run l.p = some (v, p) := by simp [StateT.run, Fields.int, hr]
      rw [hi, readCount_some hr]
      exact h v { l with p := p, status := true } rfl
  stuck l hs := by
    have hr : lib.readInt32 l.p = (none, (lib.readInt32 l.p).2) := Prod.ext hs.2 rfl
    rw [StateT.run_bind, readCount_none hr]
    rfl

theorem Accepts.string {f : CString → StateM (Locals P) Outcome}
    {g : CString → StateT P Option Data} (h : ∀ s, Accepts (f s) (g s)) :
    Accepts (strdupReadString lib >>= f) (Fields.string lib >>= g) := by
  intro l hg
  rw [StateT.run_bind, StateT.run_bind]
  exact h _ { l with p := (lib.readString16Inplace l.p).2 } hg

theorem Accepts.inplace {f : Option (List UInt8) → StateM (Locals P) Outcome}
    {g : Option (List UInt8) → StateT P Option Data} (len : Int32) (h : ∀ s, Accepts (f s) (g s)) :
    Accepts (readInplace lib len >>= f) (Fields.inplace lib len >>= g) := by
  intro l hg
  rw [StateT.run_bind, StateT.run_bind]
  exact h _ { l with p := (lib.readInplace len l.p).2 } hg

/-- A string that has to be there, and a number, are checked together. -/
theorem Accepts.someString {f : List UInt8 → StateM (Locals P) Outcome}
    {g : List UInt8 → StateT P Option Data} (h : ∀ s, Accepts (f s) (g s)) (s : CString) :
    Accepts (match s with | none => pure .invalid | some s => f s)
      (match s with | none => failure | some s => g s) := by
  cases s with
  | none => exact accepts_failure .invalid rfl
  | some s => exact h s

end

/-! ## The loops -/

section

variable {lib : Parcel P}

theorem times_succ {α : Type} (n : Nat) (x : StateT P Option α) :
    Fields.times (n + 1) x = (do
      let a ← x
      let as ← Fields.times n x
      return a :: as) := by
  simp only [Fields.times, List.replicate_succ, List.mapM_cons]

theorem bind_failure {α : Type} (x : StateT P Option α) :
    (x >>= fun _ => (failure : StateT P Option Data)) = failure := by
  funext p
  show ((x.run p).bind fun _ => none) = none
  cases x.run p <;> rfl

theorem someString_bind (g : List UInt8 → StateT P Option Data) :
    (Fields.someString lib >>= g) = (Fields.string lib >>= fun s =>
      match s with
      | none => failure
      | some s => g s) := by
  funext p
  show ((Fields.someString lib p).bind fun a => g a.1 a.2) = _
  rcases hr : lib.readString16Inplace p with ⟨_ | s, p'⟩ <;>
    simp [Fields.someString, Fields.string, hr, bind, StateT.bind, failure, StateT.failure]

/-- The rest of an array of `datalen` bytes, of which `l` is written. -/
def arrayRest {α : Type} (x : StateT P Option α) (mk : List α → Data) (datalen n : Nat)
    (l : List α) : StateT P Option Data :=
  if 4 * (l.length + n) ≤ datalen then do
    let l' ← Fields.times n x
    return mk (l ++ l')
  else failure

theorem arrayRest_zero {α : Type} {x : StateT P Option α} {mk : List α → Data} {datalen : Nat}
    {l : List α} (h : 4 * l.length ≤ datalen) : arrayRest x mk datalen 0 l = pure (mk l) := by
  simp [arrayRest, Fields.times, h]

theorem arrayRest_succ {α : Type} (x : StateT P Option α) (mk : List α → Data) (datalen n : Nat)
    (l : List α) :
    arrayRest x mk datalen (n + 1) l = (x >>= fun a => arrayRest x mk datalen n (l ++ [a])) := by
  have hlen : ∀ a : α, 4 * ((l ++ [a]).length + n) = 4 * (l.length + (n + 1)) := by
    intro a
    rw [List.length_append, List.length_singleton]
    omega
  simp only [arrayRest, hlen]
  split
  · simp [times_succ]
  · exact (bind_failure x).symm

theorem arrayRest_full {α : Type} {x : StateT P Option α} {mk : List α → Data} {datalen n : Nat}
    {l : List α} (h : datalen < 4 * (l.length + 1)) : arrayRest x mk datalen (n + 1) l = failure := by
  rw [arrayRest, if_neg (by omega)]

/-- The array is written within its bounds when it is large enough for all that is read. -/
theorem stringsLoop_accepts (datalen n : Nat) (l : List CString) (h : 4 * l.length ≤ datalen) :
    Accepts (stringsLoop lib datalen n l)
      (arrayRest (Fields.string lib) (Data.strings · datalen) datalen n l) := by
  induction n generalizing l with
  | zero =>
    rw [arrayRest_zero h]
    exact accepts_request _
  | succ n ih =>
    unfold stringsLoop
    by_cases hfull : datalen < 4 * (l.length + 1)
    · simp only [if_pos hfull]
      rw [arrayRest_full hfull, ← bind_failure (Fields.string lib)]
      exact Accepts.string fun _ => accepts_failure .fault rfl
    · simp only [if_neg hfull]
      rw [arrayRest_succ]
      refine Accepts.string fun s => ih (l ++ [s]) ?_
      rw [List.length_append, List.length_singleton]
      omega

theorem intsLoop_accepts (hlaw : lib.Lawful) (datalen n : Nat) (l : List Int32)
    (h : 4 * l.length ≤ datalen) :
    Accepts (intsLoop lib datalen n l)
      (arrayRest (Fields.int lib) (Data.ints · datalen) datalen n l) := by
  induction n generalizing l with
  | zero =>
    rw [arrayRest_zero h]
    exact accepts_request _
  | succ n ih =>
    unfold intsLoop
    by_cases hfull : datalen < 4 * (l.length + 1)
    · simp only [if_pos hfull]
      rw [arrayRest_full hfull, ← bind_failure (Fields.int lib)]
      exact (Dispatches.bind (readInt32_agrees hlaw) fun _ =>
        ⟨accepts_failure .fault rfl, fun _ _ => rfl⟩).accepts
    · simp only [if_neg hfull]
      rw [arrayRest_succ]
      refine (Dispatches.bind (readInt32_agrees hlaw) fun t => (ih (l ++ [t]) ?_).check).accepts
      rw [List.length_append, List.length_singleton]
      omega

end

/-! ## The functions -/

/-- The test of the stack, and the loop. -/
theorem fits_eq {α : Type} (cfg : Config) (count : Int32) (x : StateT P Option α)
    (mk : List α → Data) :
    (if Fields.Fits cfg count then (do
        let l ← Fields.times count.toNatClampNeg x
        return mk l)
      else failure) =
    if cfg.stack < size4 count then failure
    else arrayRest x mk (size4 count) count.toNatClampNeg [] := by
  by_cases hs : cfg.stack < size4 count
  · have hf : ¬ Fields.Fits cfg count := fun h => absurd h.1 (by omega)
    rw [if_neg hf, if_pos hs]
  · have hf : Fields.Fits cfg count ↔ 4 * count.toNatClampNeg ≤ size4 count :=
      ⟨fun h => h.2, fun h => ⟨by omega, h⟩⟩
    simp [hf, hs, arrayRest]

section

variable {lib : Parcel P} (cfg : Config)

theorem dispatchStrings_accepts : Accepts (dispatchStrings lib cfg) (Fields.strings lib cfg) := by
  refine (Accepts.count fun count => ?_).accepts
  refine .ite (fun _ => accepts_request _) fun _ => .ite (fun _ => accepts_request _) fun _ => ?_
  rw [fits_eq cfg count (Fields.string lib) (Data.strings · (size4 count))]
  exact .ite (fun _ => accepts_failure .fault rfl)
    fun _ => stringsLoop_accepts _ _ [] (Nat.zero_le _)

theorem dispatchRaw_accepts : Accepts (dispatchRaw lib) (Fields.raw lib) :=
  (Accepts.count fun _ => Accepts.inplace _ fun _ => accepts_request _).accepts

variable (hl : lib.Lawful)

include hl

theorem dispatchInts_accepts : Accepts (dispatchInts lib cfg) (Fields.ints lib cfg) := by
  refine (Accepts.count fun count => ?_).accepts
  by_cases h0 : count = 0
  · simp only [h0, ne_eq, not_true_eq_false, false_and, if_true, if_false]
    exact accepts_failure .invalid rfl
  · simp only [h0, ne_eq, not_false_eq_true, true_and, if_false]
    rw [fits_eq cfg count (Fields.int lib) (Data.ints · (size4 count))]
    exact .ite (fun _ => accepts_failure .fault rfl)
      fun _ => intsLoop_accepts hl _ _ [] (Nat.zero_le _)

theorem dispatchSmsWrite_accepts : Accepts (dispatchSmsWrite lib) (Fields.smsWrite lib) := by
  simp only [Fields.smsWrite, someString_bind]
  exact (Dispatches.bind (readInt32_agrees hl) fun status =>
    .bind (strdupReadString_agrees hl) fun pdu =>
      (Accepts.someString (fun _ => Accepts.string fun _ => accepts_request _) pdu).check).accepts

theorem dialUus_accepts (address : List UInt8) (clir : Int32) :
    Accepts (dialUus lib address clir) (Fields.uus lib address clir) := by
  have int := readInt32_agrees hl
  refine (Dispatches.bind int fun _ => .bind int fun _ => Accepts.count fun len => ?_).accepts
  exact .ite (fun _ => accepts_request _) fun _ => Accepts.inplace _ fun _ => accepts_request _

theorem dispatchDial_accepts : Accepts (dispatchDial lib cfg) (Fields.dial lib cfg) := by
  have hy : Fields.dial lib cfg = (do
      let address ← Fields.string lib
      let clir ← Fields.int lib
      match address with
      | none => failure
      | some address =>
        if cfg.version < 3 then return .dial address clir none
        else
          let uusPresent ← Fields.int lib
          if uusPresent = 0 then return .dial address clir none
          else Fields.uus lib address clir) := by
    simp only [Fields.dial, someString_bind]
    congr 1
    funext s
    cases s with
    | none => exact (bind_failure _).symm
    | some s => rfl
  rw [hy]
  refine (Dispatches.bind (strdupReadString_agrees hl) fun address =>
    .bind (readInt32_agrees hl) fun clir =>
      (Accepts.someString (fun address => ?_) address).check).accepts
  refine .ite (fun _ => accepts_request _) fun _ => (Accepts.count fun uusPresent => ?_).accepts
  exact .ite (fun _ => accepts_request _) fun _ => dialUus_accepts hl address clir

theorem dispatchSimIo_accepts : Accepts (dispatchSimIo lib) (Fields.simIo lib) := by
  have int := readInt32_agrees hl
  have str := strdupReadString_agrees hl
  exact (Dispatches.bind int fun _ => .bind int fun _ => .bind str fun _ => .bind int fun _ =>
    .bind int fun _ => .bind int fun _ => .bind str fun _ => .bind str fun _ =>
    (accepts_request _).check).accepts

theorem dispatchCallForward_accepts :
    Accepts (dispatchCallForward lib) (Fields.callForward lib) := by
  have int := readInt32_agrees hl
  exact (Dispatches.bind int fun _ => .bind int fun _ => .bind int fun _ => .bind int fun _ =>
    .bind (strdupReadString_agrees hl) fun _ => .bind int fun _ =>
    (accepts_request _).check).accepts

theorem readMessage_agrees (address subaddress : UInt8 → Nat) (bearerData : Int32 → Nat) :
    Agrees (laxity lib) (readMessage lib address subaddress bearerData)
      (Fields.message lib address subaddress bearerData) := by
  have int := readInt32_agrees hl
  have byte := readByte_agrees hl
  exact int.bind fun _ => byte.bind fun _ => int.bind fun _ => int.bind fun _ => int.bind fun _ =>
    int.bind fun _ => int.bind fun _ => byte.bind fun n => (byte.replicate (address n)).bind fun _ =>
    int.bind fun _ => byte.bind fun _ => byte.bind fun n =>
    (byte.replicate (subaddress n)).bind fun _ => int.bind fun n =>
    (byte.replicate (bearerData n)).bind fun _ => .pure _

theorem dispatchCdmaSms_accepts : Accepts (dispatchCdmaSms lib cfg) (Fields.cdmaSms lib cfg) :=
  (Dispatches.bind (readMessage_agrees hl _ _ _) fun _ => (accepts_request _).check).accepts

theorem dispatchCdmaSmsAck_accepts : Accepts (dispatchCdmaSmsAck lib) (Fields.cdmaSmsAck lib) :=
  (Dispatches.bind (readInt32_agrees hl) fun _ => .bind (readInt32_agrees hl) fun _ =>
    (accepts_request _).check).accepts

theorem readGsmBroadcast_agrees :
    Agrees (laxity lib) (readGsmBroadcast lib) (Fields.gsmBroadcast lib) := by
  have int := readInt32_agrees hl
  exact int.bind fun _ => int.bind fun _ => int.bind fun _ => int.bind fun _ => int.bind fun _ =>
    .pure _

theorem readCdmaBroadcast_agrees :
    Agrees (laxity lib) (readCdmaBroadcast lib) (Fields.cdmaBroadcast lib) := by
  have int := readInt32_agrees hl
  exact int.bind fun _ => int.bind fun _ => int.bind fun _ => .pure _

theorem dispatchGsmBrSmsCnf_accepts :
    Accepts (dispatchGsmBrSmsCnf lib cfg) (Fields.gsmBrSmsCnf lib cfg) := by
  refine (Accepts.count fun num => ?_).accepts
  refine .ite (fun _ => accepts_failure .fault rfl) fun _ => ?_
  exact (Dispatches.bind ((readGsmBroadcast_agrees hl).replicate _) fun _ =>
    (accepts_request _).check).accepts

theorem dispatchCdmaBrSmsCnf_accepts :
    Accepts (dispatchCdmaBrSmsCnf lib cfg) (Fields.cdmaBrSmsCnf lib cfg) := by
  refine (Accepts.count fun num => ?_).accepts
  refine .ite (fun _ => accepts_failure .fault rfl) fun _ => ?_
  exact (Dispatches.bind ((readCdmaBroadcast_agrees hl).replicate _) fun _ =>
    (accepts_request _).check).accepts

theorem dispatchRilCdmaSmsWriteArgs_accepts :
    Accepts (dispatchRilCdmaSmsWriteArgs lib cfg) (Fields.cdmaSmsWrite lib cfg) :=
  (Dispatches.bind (readInt32_agrees hl) fun _ => .bind (readMessage_agrees hl _ _ _) fun _ =>
    (accepts_request _).check).accepts

/-- A dispatch function calls `onRequest` for the payloads it is for, with their fields, and for no
others. -/
theorem dispatchFunction_accepted (f : DispatchFunction) :
    Accepts (dispatchFunction lib cfg f) (payload lib cfg f) := by
  cases f with
  | void => exact accepts_request _
  | string => exact Accepts.string fun _ => accepts_request _
  | strings => exact dispatchStrings_accepts cfg
  | ints => exact dispatchInts_accepts cfg hl
  | smsWrite => exact dispatchSmsWrite_accepts hl
  | dial => exact dispatchDial_accepts cfg hl
  | simIo => exact dispatchSimIo_accepts hl
  | callForward => exact dispatchCallForward_accepts hl
  | raw => exact dispatchRaw_accepts
  | cdmaSms => exact dispatchCdmaSms_accepts cfg hl
  | cdmaSmsAck => exact dispatchCdmaSmsAck_accepts hl
  | gsmBrSmsCnf => exact dispatchGsmBrSmsCnf_accepts cfg hl
  | cdmaBrSmsCnf => exact dispatchCdmaBrSmsCnf_accepts cfg hl
  | rilCdmaSmsWriteArgs => exact dispatchRilCdmaSmsWriteArgs_accepts cfg hl

end

end Twm.Ril
