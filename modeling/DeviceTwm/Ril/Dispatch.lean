import Mathlib.Logic.Function.Basic

/-!
# Dispatch functions

The functions of `ril.cpp` that read the payload of a command and call `onRequest`, and the table
`s_commands`. `Parcel` and `strndup16to8` are not part of the repository, so the functions are over
any implementation of them (`Parcel`).

A dispatch function reads into local variables (`Locals`). A read that fails leaves the variable as it
is, and most functions look at `status` only after the last read. The result is the data that is
passed to `onRequest`, a call of `invalidCommandBlock`, or a fault: an array on the stack that does
not fit, or a write past its end.
-/

namespace Twm.Ril

/-- What the dispatch functions use of `Parcel` and of `libcutils`. A read gives nothing when its
status is not `NO_ERROR`, or its pointer is null. -/
structure Parcel (P : Type) where
  setData : List UInt8 → P
  readInt32 : P → Option Int32 × P
  /-- `read(&ut, sizeof(ut))`. -/
  read : P → Option UInt8 × P
  readInplace : Int32 → P → Option (List UInt8) × P
  readString16Inplace : P → Option (List UInt16) × P
  strndup16to8 : List UInt16 → List UInt8

/-- Constants of the build. -/
structure Config where
  /-- `s_callbacks.version`. -/
  version : Int32
  /-- What is left of the stack. -/
  stack : Nat
  /-- `RIL_CDMA_SMS_ADDRESS_MAX`. -/
  addressMax : Nat
  /-- `RIL_CDMA_SMS_SUBADDRESS_MAX`. -/
  subaddressMax : Nat
  /-- `RIL_CDMA_SMS_BEARER_DATA_MAX`. -/
  bearerDataMax : Nat
  /-- `sizeof(RIL_GSM_BroadcastSmsConfigInfo)`. -/
  gsmInfoSize : Nat
  /-- `sizeof(RIL_CDMA_BroadcastSmsConfigInfo)`. -/
  cdmaInfoSize : Nat

/-! ## The data of a request -/

/-- A `char *`. -/
abbrev CString := Option (List UInt8)

/-- `RIL_UUS_Info`. -/
structure UusInfo where
  uusType : Int32
  uusDcs : Int32
  uusData : Option (List UInt8)
  uusLength : Int32
  deriving DecidableEq

/-- `RIL_CDMA_SMS_Message`; of the arrays, the elements that were read. -/
structure CdmaSmsMessage where
  uTeleserviceID : Int32
  bIsServicePresent : UInt8
  uServicecategory : Int32
  digitMode : Int32
  numberMode : Int32
  numberType : Int32
  numberPlan : Int32
  numberOfDigits : UInt8
  digits : List UInt8
  subaddressType : Int32
  odd : UInt8
  subNumberOfDigits : UInt8
  subDigits : List UInt8
  uBearerDataLen : Int32
  aBearerData : List UInt8
  deriving DecidableEq

/-- `RIL_GSM_BroadcastSmsConfigInfo`. -/
structure GsmBroadcast where
  fromServiceId : Int32
  toServiceId : Int32
  fromCodeScheme : Int32
  toCodeScheme : Int32
  selected : UInt8
  deriving DecidableEq

/-- `RIL_CDMA_BroadcastSmsConfigInfo`. -/
structure CdmaBroadcast where
  serviceCategory : Int32
  language : Int32
  selected : UInt8
  deriving DecidableEq

/-- What is passed to `onRequest`. -/
inductive Data
  | null
  | string (s : CString)
  | strings (l : List CString) (datalen : Nat)
  | ints (l : List Int32) (datalen : Nat)
  | smsWrite (status : Int32) (pdu : List UInt8) (smsc : CString)
  | dial (address : List UInt8) (clir : Int32) (uusInfo : Option UusInfo)
  | simIo (command fileid : Int32) (path : CString) (p1 p2 p3 : Int32) (data pin2 : CString)
  | callForward (status reason serviceClass toa : Int32) (number : CString) (timeSeconds : Int32)
  | raw (data : Option (List UInt8)) (len : Int32)
  | cdmaSms (m : CdmaSmsMessage)
  | cdmaSmsAck (uErrorClass uSMSCauseCode : Int32)
  | gsmBrSmsCnf (l : List GsmBroadcast)
  | cdmaBrSmsCnf (l : List CdmaBroadcast)
  | cdmaSmsWrite (status : Int32) (m : CdmaSmsMessage)
  deriving DecidableEq

/-- How a dispatch function ends. -/
inductive Outcome
  /-- `onRequest` is called. -/
  | request (data : Data)
  /-- `invalidCommandBlock` is called. -/
  | invalid
  | fault
  deriving DecidableEq

def Outcome.accepted : Outcome → Option Data
  | .request data => some data
  | _ => none

/-! ## Reading -/

/-- The parcel, and the local variables that the reads go to. -/
structure Locals (P : Type) where
  p : P
  /-- `status == NO_ERROR`. -/
  status : Bool
  t : Int32
  ut : UInt8

/-- `4 * count`, as a `size_t`. -/
def size4 (count : Int32) : Nat := (4 * count.toUInt32).toNat

section

variable {P : Type} (lib : Parcel P)

/-- `status = p.readInt32(&t)`, and `t`. -/
def readInt32 : StateM (Locals P) Int32 := fun l =>
  match lib.readInt32 l.p with
  | (some t, p) => (t, { l with p := p, status := true, t := t })
  | (none, p) => (l.t, { l with p := p, status := false })

/-- `status = p.readInt32(&count)` for a variable that is used only after the check of `status`. -/
def readCount : StateM (Locals P) (Option Int32) := fun l =>
  match lib.readInt32 l.p with
  | (some count, p) => (some count, { l with p := p, status := true })
  | (none, p) => (none, { l with p := p, status := false })

/-- `status = p.read(&ut, sizeof(ut))`, and `ut`. -/
def readByte : StateM (Locals P) UInt8 := fun l =>
  match lib.read l.p with
  | (some ut, p) => (ut, { l with p := p, status := true, ut := ut })
  | (none, p) => (l.ut, { l with p := p, status := false })

def strdupReadString : StateM (Locals P) CString := fun l =>
  let (s, p) := lib.readString16Inplace l.p
  (s.map lib.strndup16to8, { l with p := p })

def readInplace (len : Int32) : StateM (Locals P) (Option (List UInt8)) := fun l =>
  let (data, p) := lib.readInplace len l.p
  (data, { l with p := p })

/-- A loop of reads into an array that is large enough. -/
def readBytes (n : Nat) : StateM (Locals P) (List UInt8) :=
  (List.replicate n ()).mapM fun _ => readByte lib

/-- `if (status != NO_ERROR) goto invalid;` and the rest of the function. -/
def checkStatus (rest : StateM (Locals P) Outcome) : StateM (Locals P) Outcome := do
  if (← get).status then rest else return .invalid

end

theorem run_checkStatus {P : Type} (rest : StateM (Locals P) Outcome) (l : Locals P) :
    (checkStatus rest).run l = if l.status then rest.run l else (.invalid, l) := by
  simp only [checkStatus, StateT.run_bind]
  show (if l.status then rest else pure .invalid : StateM (Locals P) Outcome).run l = _
  split <;> rfl

/-! ## The functions -/

section

variable {P : Type} (lib : Parcel P) (cfg : Config)

def dispatchVoid : StateM (Locals P) Outcome := return .request .null

def dispatchString : StateM (Locals P) Outcome := do
  let string8 ← strdupReadString lib
  return .request (.string string8)

/-- The loop of `dispatchStrings` over an array of `datalen` bytes. -/
def stringsLoop (datalen : Nat) : Nat → List CString → StateM (Locals P) Outcome
  | 0, pStrings => return .request (.strings pStrings datalen)
  | n + 1, pStrings => do
    let s ← strdupReadString lib
    if datalen < 4 * (pStrings.length + 1) then return .fault
    else stringsLoop datalen n (pStrings ++ [s])

def dispatchStrings : StateM (Locals P) Outcome := do
  match ← readCount lib with
  | none => return .invalid
  | some countStrings =>
    if countStrings = 0 then return .request (.strings [] 0)
    else if countStrings = -1 then return .request .null
    else if cfg.stack < size4 countStrings then return .fault
    else stringsLoop lib (size4 countStrings) countStrings.toNatClampNeg []

/-- The loop of `dispatchInts`; the element is written before the check. -/
def intsLoop (datalen : Nat) : Nat → List Int32 → StateM (Locals P) Outcome
  | 0, pInts => return .request (.ints pInts datalen)
  | n + 1, pInts => do
    let t ← readInt32 lib
    if datalen < 4 * (pInts.length + 1) then return .fault
    else checkStatus (intsLoop datalen n (pInts ++ [t]))

def dispatchInts : StateM (Locals P) Outcome := do
  match ← readCount lib with
  | none => return .invalid
  | some count =>
    if count = 0 then return .invalid
    else if cfg.stack < size4 count then return .fault
    else intsLoop lib (size4 count) count.toNatClampNeg []

def dispatchSmsWrite : StateM (Locals P) Outcome := do
  let status ← readInt32 lib
  let pdu ← strdupReadString lib
  checkStatus do
    match pdu with
    | none => return .invalid
    | some pdu =>
      let smsc ← strdupReadString lib
      return .request (.smsWrite status pdu smsc)

/-- `uusInfo` of a `RIL_Dial`, when it is present. -/
def dialUus (address : List UInt8) (clir : Int32) : StateM (Locals P) Outcome := do
  let uusType ← readInt32 lib
  let uusDcs ← readInt32 lib
  match ← readCount lib with
  | none => return .invalid
  | some len =>
    if len = -1 then return .request (.dial address clir (some ⟨uusType, uusDcs, none, 0⟩))
    else
      let uusData ← readInplace lib len
      return .request (.dial address clir (some ⟨uusType, uusDcs, uusData, len⟩))

def dispatchDial : StateM (Locals P) Outcome := do
  let address ← strdupReadString lib
  let clir ← readInt32 lib
  checkStatus do
    match address with
    | none => return .invalid
    | some address =>
      if cfg.version < 3 then return .request (.dial address clir none)
      else
        match ← readCount lib with
        | none => return .invalid
        | some uusPresent =>
          if uusPresent = 0 then return .request (.dial address clir none)
          else dialUus lib address clir

def dispatchSimIo : StateM (Locals P) Outcome := do
  let command ← readInt32 lib
  let fileid ← readInt32 lib
  let path ← strdupReadString lib
  let p1 ← readInt32 lib
  let p2 ← readInt32 lib
  let p3 ← readInt32 lib
  let data ← strdupReadString lib
  let pin2 ← strdupReadString lib
  checkStatus do return .request (.simIo command fileid path p1 p2 p3 data pin2)

/-- `number`, which is null when its `strlen` is 0. -/
def callForwardNumber : CString → CString
  | none => none
  | some number => if number.takeWhile (· ≠ 0) = [] then none else some number

def dispatchCallForward : StateM (Locals P) Outcome := do
  let status ← readInt32 lib
  let reason ← readInt32 lib
  let serviceClass ← readInt32 lib
  let toa ← readInt32 lib
  let number ← strdupReadString lib
  let timeSeconds ← readInt32 lib
  checkStatus do
    return .request (.callForward status reason serviceClass toa (callForwardNumber number)
      timeSeconds)

def dispatchRaw : StateM (Locals P) Outcome := do
  match ← readCount lib with
  | none => return .invalid
  | some len =>
    let len := if len = -1 then 0 else len
    let data ← readInplace lib len
    return .request (.raw data len)

/-- A `RIL_CDMA_SMS_Message`, with the number of elements that is read of each array. -/
def readMessage (address subaddress : UInt8 → Nat) (bearerData : Int32 → Nat) :
    StateM (Locals P) CdmaSmsMessage := do
  let uTeleserviceID ← readInt32 lib
  let bIsServicePresent ← readByte lib
  let uServicecategory ← readInt32 lib
  let digitMode ← readInt32 lib
  let numberMode ← readInt32 lib
  let numberType ← readInt32 lib
  let numberPlan ← readInt32 lib
  let numberOfDigits ← readByte lib
  let digits ← readBytes lib (address numberOfDigits)
  let subaddressType ← readInt32 lib
  let odd ← readByte lib
  let subNumberOfDigits ← readByte lib
  let subDigits ← readBytes lib (subaddress subNumberOfDigits)
  let uBearerDataLen ← readInt32 lib
  let aBearerData ← readBytes lib (bearerData uBearerDataLen)
  return ⟨uTeleserviceID, bIsServicePresent, uServicecategory, digitMode, numberMode, numberType,
    numberPlan, numberOfDigits, digits, subaddressType, odd, subNumberOfDigits, subDigits,
    uBearerDataLen, aBearerData⟩

def dispatchCdmaSms : StateM (Locals P) Outcome := do
  let rcsm ← readMessage lib (fun n => min n.toNat cfg.addressMax)
    (fun n => min n.toNat cfg.subaddressMax) (fun n => min n.toNatClampNeg cfg.bearerDataMax)
  checkStatus do return .request (.cdmaSms rcsm)

def dispatchCdmaSmsAck : StateM (Locals P) Outcome := do
  let uErrorClass ← readInt32 lib
  let uSMSCauseCode ← readInt32 lib
  checkStatus do return .request (.cdmaSmsAck uErrorClass uSMSCauseCode)

def readGsmBroadcast : StateM (Locals P) GsmBroadcast := do
  let fromServiceId ← readInt32 lib
  let toServiceId ← readInt32 lib
  let fromCodeScheme ← readInt32 lib
  let toCodeScheme ← readInt32 lib
  let selected ← readInt32 lib
  return ⟨fromServiceId, toServiceId, fromCodeScheme, toCodeScheme, selected.toUInt32.toUInt8⟩

def readCdmaBroadcast : StateM (Locals P) CdmaBroadcast := do
  let serviceCategory ← readInt32 lib
  let language ← readInt32 lib
  let selected ← readInt32 lib
  return ⟨serviceCategory, language, selected.toUInt32.toUInt8⟩

/-- An array of `num` entries and one of pointers to them do not fit on the stack. -/
def noRoom (num : Int32) (infoSize : Nat) : Prop :=
  num < 0 ∨ cfg.stack < num.toNatClampNeg * (infoSize + 4)

instance (num : Int32) (infoSize : Nat) : Decidable (noRoom cfg num infoSize) :=
  inferInstanceAs (Decidable (_ ∨ _))

def dispatchGsmBrSmsCnf : StateM (Locals P) Outcome := do
  match ← readCount lib with
  | none => return .invalid
  | some num =>
    if noRoom cfg num cfg.gsmInfoSize then return .fault
    else
      let gsmBci ← (List.replicate num.toNatClampNeg ()).mapM fun _ => readGsmBroadcast lib
      checkStatus do return .request (.gsmBrSmsCnf gsmBci)

def dispatchCdmaBrSmsCnf : StateM (Locals P) Outcome := do
  match ← readCount lib with
  | none => return .invalid
  | some num =>
    if noRoom cfg num cfg.cdmaInfoSize then return .fault
    else
      let cdmaBci ← (List.replicate num.toNatClampNeg ()).mapM fun _ => readCdmaBroadcast lib
      checkStatus do return .request (.cdmaBrSmsCnf cdmaBci)

def dispatchRilCdmaSmsWriteArgs : StateM (Locals P) Outcome := do
  let status ← readInt32 lib
  let message ← readMessage lib (fun _ => cfg.addressMax) (fun _ => cfg.subaddressMax)
    (fun _ => cfg.bearerDataMax)
  checkStatus do return .request (.cdmaSmsWrite status message)

end

/-! ## `s_commands` -/

inductive DispatchFunction
  | void | string | strings | ints | smsWrite | dial | simIo | callForward | raw | cdmaSms
  | cdmaSmsAck | gsmBrSmsCnf | cdmaBrSmsCnf | rilCdmaSmsWriteArgs
  deriving DecidableEq

/-- `s_commands`, the dispatch functions from request 1 on; the index is the request number. -/
def sCommands : List DispatchFunction :=
  [ -- from 1 (`RIL_REQUEST_GET_SIM_STATUS`)
    .void, .strings, .strings, .strings, .strings, .strings, .strings, .strings, .void, .dial,
    -- from 11 (`RIL_REQUEST_GET_IMSI`)
    .void, .ints, .void, .void, .void, .void, .void, .void, .void, .void,
    -- from 21 (`RIL_REQUEST_GPRS_REGISTRATION_STATE`)
    .void, .void, .ints, .string, .strings, .strings, .strings, .simIo, .string, .void,
    -- from 31 (`RIL_REQUEST_GET_CLIR`)
    .void, .ints, .callForward, .callForward, .ints, .ints, .ints, .void, .void, .void,
    -- from 41 (`RIL_REQUEST_DEACTIVATE_DATA_CALL`)
    .strings, .strings, .strings, .strings, .void, .void, .string, .void, .string, .void,
    -- from 51 (`RIL_REQUEST_BASEBAND_VERSION`)
    .void, .ints, .ints, .void, .void, .void, .void, .void, .raw, .strings,
    -- from 61 (`RIL_REQUEST_SCREEN_STATE`)
    .ints, .ints, .smsWrite, .ints, .ints, .void, .void, .string, .string, .string,
    -- from 71 (`RIL_REQUEST_STK_HANDLE_CALL_SETUP_REQUESTED_FROM_SIM`)
    .ints, .void, .ints, .void, .void, .ints, .ints, .ints, .void, .ints,
    -- from 81 (`RIL_REQUEST_QUERY_TTY_MODE`)
    .void, .ints, .void, .string, .strings, .string, .cdmaSms, .cdmaSmsAck, .void, .gsmBrSmsCnf,
    -- from 91 (`RIL_REQUEST_GSM_SMS_BROADCAST_ACTIVATION`)
    .ints, .void, .cdmaBrSmsCnf, .ints, .void, .rilCdmaSmsWriteArgs, .ints, .void, .void, .void,
    -- from 101 (`RIL_REQUEST_SET_SMSC_ADDRESS`)
    .string, .ints, .void ]

/-- `s_commands[request].dispatchFunction`; nothing for a request number that is not supported. -/
def command (request : Int32) : Option DispatchFunction :=
  if request < 1 then none else sCommands[request.toNatClampNeg - 1]?

def dispatchFunction {P : Type} (lib : Parcel P) (cfg : Config) :
    DispatchFunction → StateM (Locals P) Outcome
  | .void => dispatchVoid
  | .string => dispatchString lib
  | .strings => dispatchStrings lib cfg
  | .ints => dispatchInts lib cfg
  | .smsWrite => dispatchSmsWrite lib
  | .dial => dispatchDial lib cfg
  | .simIo => dispatchSimIo lib
  | .callForward => dispatchCallForward lib
  | .raw => dispatchRaw lib
  | .cdmaSms => dispatchCdmaSms lib cfg
  | .cdmaSmsAck => dispatchCdmaSmsAck lib
  | .gsmBrSmsCnf => dispatchGsmBrSmsCnf lib cfg
  | .cdmaBrSmsCnf => dispatchCdmaBrSmsCnf lib cfg
  | .rilCdmaSmsWriteArgs => dispatchRilCdmaSmsWriteArgs lib cfg

end Twm.Ril
