import DeviceTwm.Ril.Requests
import DeviceTwm.Ril.CdmaSms

/-!
# Response functions

The functions of `ril.cpp` that put what the vendor passes to `RIL_onRequestComplete` in a parcel, the
column of `s_commands` with these functions, and `RIL_onRequestComplete` from where the request is off
the list. `Parcel` and `libcutils` are not part of the repository, so the functions are over any
implementation of them (`OutParcel`).

The vendor passes a pointer and a length. What the pointer points at is taken as each function takes
it, after a cast (`Contents`). A function that follows a null pointer faults: it has no result.
-/

open Lib

namespace Twm.Ril.Response

/-- What the response functions use of a `Parcel` and of `libcutils`. -/
structure OutParcel (P : Type) where
  empty : P
  writeInt32 : Int32 → P → P
  /-- `write(data, len)`. -/
  write : (Nat → UInt8) → UInt32 → P → P
  /-- `writeString16(s16, s16_len)`. -/
  writeString16 : Option (List UInt16) → P → P
  dataPosition : P → Nat
  setDataPosition : Nat → P → P
  /-- `data()`, `dataSize()` bytes of it. -/
  data : P → List UInt8
  strdup8to16 : CString → Option (List UInt16)

/-- Constants of the build. -/
structure Build where
  /-- `s_callbacks.version`. -/
  version : Int32
  /-- `NEW_LIBRIL_HTC` is defined. -/
  newLibrilHtc : Bool
  /-- `sizeof (RIL_SMS_Response)`. -/
  smsSize : UInt32
  /-- `sizeof (RIL_SIM_IO_Response)`. -/
  simIoSize : UInt32
  /-- `sizeof (RIL_Data_Call_Response)`. -/
  dataCallSize : UInt32
  /-- `sizeof (RIL_SignalStrength)`. -/
  signalStrengthSize : UInt32
  /-- What `property_get` gives for `ro.build.baseband_version`. -/
  baseband : List UInt8

/-! ## What the vendor passes -/

/-- `RIL_UUS_Info`, of a call. -/
structure CallUus where
  uusType : Int32
  uusDcs : Int32
  uusLength : Int32
  uusData : Option (Nat → UInt8)
  deriving Inhabited

/-- `RIL_Call`. -/
structure RilCall where
  state : Int32
  index : Int32
  toa : Int32
  isMpty : Int32
  isMT : Int32
  als : Int32
  isVoice : Int32
  isVoicePrivacy : Int32
  number : CString
  numberPresentation : Int32
  name : CString
  namePresentation : Int32
  uusInfo : Option CallUus
  deriving Inhabited

/-- `RIL_SMS_Response`. -/
structure SmsResponse where
  messageRef : Int32
  ackPDU : CString
  errorCode : Int32
  deriving Inhabited

/-- `RIL_Data_Call_Response`. -/
structure DataCallResponse where
  cid : Int32
  active : Int32
  type : CString
  apn : CString
  address : CString
  deriving Inhabited

/-- `RIL_SIM_IO_Response`. -/
structure SimIoResponse where
  sw1 : Int32
  sw2 : Int32
  simResponse : CString
  deriving Inhabited

/-- `RIL_CallForwardInfo`. -/
structure CallForwardInfo where
  status : Int32
  reason : Int32
  serviceClass : Int32
  toa : Int32
  number : CString
  timeSeconds : Int32
  deriving Inhabited

/-- `RIL_NeighboringCell`. -/
structure NeighboringCell where
  rssi : Int32
  cid : CString
  deriving Inhabited

/-- `RIL_SignalStrength`. -/
structure SignalStrength where
  gwSignalStrength : Int32
  gwBitErrorRate : Int32
  cdmaDbm : Int32
  cdmaEcio : Int32
  evdoDbm : Int32
  evdoEcio : Int32
  evdoSignalNoiseRatio : Int32
  deriving Inhabited

/-- `RIL_AppStatus`. -/
structure AppStatus where
  appType : Int32
  appState : Int32
  persoSubstate : Int32
  aidPtr : CString
  appLabelPtr : CString
  pin1Replaced : Int32
  pin1 : Int32
  pin2 : Int32
  deriving Inhabited

/-- `RIL_CardStatus`. -/
structure CardStatus where
  cardState : Int32
  universalPinState : Int32
  gsmUmtsSubscriptionAppIndex : Int32
  cdmaSubscriptionAppIndex : Int32
  numApplications : Int32
  applications : Nat → AppStatus
  deriving Inhabited

deriving instance Inhabited for GsmBroadcast, CdmaBroadcast

/-- What `response` points at: `ints i` is `((int *) response)[i]`, and so on for each cast. -/
structure Contents where
  ints : Nat → Int32
  /-- `((char **) response)[i]`. -/
  strings : Nat → CString
  /-- `(char *) response`. -/
  string : List UInt8
  /-- `*((RIL_Call **) response)[i]`. -/
  calls : Nat → RilCall
  sms : SmsResponse
  /-- `((RIL_Data_Call_Response *) response)[i]`. -/
  dataCalls : Nat → DataCallResponse
  /-- `((uint8_t *) response)[i]`. -/
  bytes : Nat → UInt8
  simIo : SimIoResponse
  callForwards : Nat → CallForwardInfo
  cells : Nat → NeighboringCell
  signalStrength : SignalStrength
  cardStatus : CardStatus
  gsmBroadcasts : Nat → GsmBroadcast
  cdmaBroadcasts : Nat → CdmaBroadcast
  deriving Inhabited

/-! ## Writing -/

section

variable {P : Type} (lib : OutParcel P)

/-- `p.writeInt32(t)`. -/
def writeInt32 (t : Int32) : StateT P Option Unit := modify (lib.writeInt32 t)

def writeStringToParcel (s : CString) : StateT P Option Unit :=
  modify (lib.writeString16 (lib.strdup8to16 s))

/-- What is behind the pointer. -/
def deref (response : Option Contents) : StateT P Option Contents := StateT.lift response

/-- `for (int i = 0 ; i < num ; i++)`. -/
def loop (num : Int32) (f : Nat → StateT P Option Unit) : StateT P Option Unit :=
  (List.range num.toNatClampNeg).forM f

/-- The tests of a function that takes an array with elements of `size` bytes. -/
def checkArray (response : Option Contents) (responselen size : UInt32)
    (rest : StateT P Option Int) : StateT P Option Int :=
  if response.isNone ∧ responselen ≠ 0 then return RIL_ERRNO_INVALID_RESPONSE
  else if responselen % size ≠ 0 then return RIL_ERRNO_INVALID_RESPONSE
  else rest

/-- The tests of a function that takes one struct of `size` bytes. -/
def checkStruct (response : Option Contents) (responselen size : UInt32)
    (rest : StateT P Option Int) : StateT P Option Int :=
  if response.isNone then return RIL_ERRNO_INVALID_RESPONSE
  else if responselen ≠ size then return RIL_ERRNO_INVALID_RESPONSE
  else rest

/-! ## The functions -/

variable (build : Build) (response : Option Contents) (responselen : UInt32)

def responseInts : StateT P Option Int :=
  checkArray response responselen 4 do
    let numInts := (responselen / 4).toInt32
    writeInt32 lib numInts
    loop numInts fun i => do writeInt32 lib ((← deref response).ints i)
    return 0

/-- The loop of `responseStrings` with `NEW_LIBRIL_HTC`: one string, and `sCount`. -/
def responseStringsHtc (networkSearch : Bool) (p_cur : Contents) (sCount : Nat) (i : Nat) :
    StateT P Option Nat :=
  let sCount := sCount + 1
  if networkSearch ∧ sCount % 5 = 0 then return 0
  else do
    writeStringToParcel lib (p_cur.strings i)
    return sCount

/-- `responseStrings`, with `network_search`. -/
def responseStringsSearch (networkSearch : Bool) : StateT P Option Int :=
  checkArray response responselen 4 do
    match response with
    | none => writeInt32 lib 0
    | some p_cur =>
      let numStrings := (responselen / 4).toInt32
      if build.newLibrilHtc then
        writeInt32 lib (if networkSearch then numStrings - numStrings / 5 else numStrings)
        let _ ← (List.range numStrings.toNatClampNeg).foldlM
          (responseStringsHtc lib networkSearch p_cur) 0
      else
        writeInt32 lib numStrings
        loop numStrings fun i => writeStringToParcel lib (p_cur.strings i)
    return 0

def responseStrings : StateT P Option Int :=
  responseStringsSearch lib build response responselen false

def responseStringsNetworks : StateT P Option Int :=
  responseStringsSearch lib build response responselen true

def responseString : StateT P Option Int := do
  writeStringToParcel lib (response.map (·.string))
  return 0

def responseVoid : StateT P Option Int := return 0

/-- The user-to-user information of a call. -/
def writeUus (p_cur : RilCall) : StateT P Option Unit :=
  match if build.version < 3 then none else p_cur.uusInfo.bind fun u => u.uusData.map (u, ·) with
  | none => writeInt32 lib 0
  | some (uusInfo, uusData) => do
    writeInt32 lib 1
    writeInt32 lib uusInfo.uusType
    writeInt32 lib uusInfo.uusDcs
    writeInt32 lib uusInfo.uusLength
    modify (lib.write uusData uusInfo.uusLength.toUInt32)

def responseCallList : StateT P Option Int :=
  checkArray response responselen 4 do
    let num := (responselen / 4).toInt32
    writeInt32 lib num
    loop num fun i => do
      let p_cur := (← deref response).calls i
      writeInt32 lib p_cur.state
      writeInt32 lib p_cur.index
      writeInt32 lib p_cur.toa
      writeInt32 lib p_cur.isMpty
      writeInt32 lib p_cur.isMT
      writeInt32 lib p_cur.als
      writeInt32 lib p_cur.isVoice
      writeInt32 lib p_cur.isVoicePrivacy
      writeStringToParcel lib p_cur.number
      writeInt32 lib p_cur.numberPresentation
      writeStringToParcel lib p_cur.name
      writeInt32 lib p_cur.namePresentation
      writeUus lib build p_cur
    return 0

def responseSMS : StateT P Option Int :=
  checkStruct response responselen build.smsSize do
    let p_cur := (← deref response).sms
    writeInt32 lib p_cur.messageRef
    writeStringToParcel lib p_cur.ackPDU
    writeInt32 lib p_cur.errorCode
    return 0

def responseDataCallList : StateT P Option Int :=
  checkArray response responselen build.dataCallSize do
    let num := (responselen / build.dataCallSize).toInt32
    writeInt32 lib num
    loop num fun i => do
      let p_cur := (← deref response).dataCalls i
      writeInt32 lib p_cur.cid
      writeInt32 lib p_cur.active
      writeStringToParcel lib p_cur.type
      writeStringToParcel lib p_cur.apn
      writeStringToParcel lib p_cur.address
    return 0

def responseRaw : StateT P Option Int :=
  if response.isNone ∧ responselen ≠ 0 then return RIL_ERRNO_INVALID_RESPONSE
  else do
    match response with
    | none => writeInt32 lib (-1)
    | some response =>
      writeInt32 lib responselen.toInt32
      modify (lib.write response.bytes responselen)
    return 0

def responseSimIo : StateT P Option Int :=
  checkStruct response responselen build.simIoSize do
    let p_cur := (← deref response).simIo
    writeInt32 lib p_cur.sw1
    writeInt32 lib p_cur.sw2
    writeStringToParcel lib p_cur.simResponse
    return 0

def responseCallForwards : StateT P Option Int :=
  checkArray response responselen 4 do
    let num := (responselen / 4).toInt32
    writeInt32 lib num
    loop num fun i => do
      let p_cur := (← deref response).callForwards i
      writeInt32 lib p_cur.status
      writeInt32 lib p_cur.reason
      writeInt32 lib p_cur.serviceClass
      writeInt32 lib p_cur.toa
      writeStringToParcel lib p_cur.number
      writeInt32 lib p_cur.timeSeconds
    return 0

def responseCellList : StateT P Option Int :=
  checkArray response responselen 4 do
    let num := (responselen / 4).toInt32
    writeInt32 lib num
    loop num fun i => do
      let p_cur := (← deref response).cells i
      writeInt32 lib p_cur.rssi
      writeStringToParcel lib p_cur.cid
    return 0

def responseRilSignalStrength : StateT P Option Int :=
  if response.isNone ∧ responselen ≠ 0 then return RIL_ERRNO_INVALID_RESPONSE
  else if responselen = build.signalStrengthSize then do
    let p_cur := (← deref response).signalStrength
    writeInt32 lib p_cur.gwSignalStrength
    writeInt32 lib p_cur.gwBitErrorRate
    writeInt32 lib p_cur.cdmaDbm
    writeInt32 lib p_cur.cdmaEcio
    writeInt32 lib p_cur.evdoDbm
    writeInt32 lib p_cur.evdoEcio
    writeInt32 lib p_cur.evdoSignalNoiseRatio
    return 0
  else if responselen % 4 = 0 then do
    -- an old library gives one or two numbers, and the others are 0
    let num := (responselen / 4).toNat
    (List.range num).forM fun i => do writeInt32 lib ((← deref response).ints i)
    (List.replicate (7 - num) ()).forM fun _ => writeInt32 lib 0
    return 0
  else return RIL_ERRNO_INVALID_RESPONSE

def responseSimStatus : StateT P Option Int :=
  checkArray response responselen 4 do
    let p_cur := (← deref response).cardStatus
    writeInt32 lib p_cur.cardState
    writeInt32 lib p_cur.universalPinState
    writeInt32 lib p_cur.gsmUmtsSubscriptionAppIndex
    writeInt32 lib p_cur.cdmaSubscriptionAppIndex
    writeInt32 lib p_cur.numApplications
    loop p_cur.numApplications fun i => do
      let app := p_cur.applications i
      writeInt32 lib app.appType
      writeInt32 lib app.appState
      writeInt32 lib app.persoSubstate
      writeStringToParcel lib app.aidPtr
      writeStringToParcel lib app.appLabelPtr
      writeInt32 lib app.pin1Replaced
      writeInt32 lib app.pin1
      writeInt32 lib app.pin2
    return 0

/-- A function that takes an array of pointers, and makes no tests. -/
def responsePointers {α : Type} (info : Contents → Nat → α) (write : α → StateT P Option Unit) :
    StateT P Option Int := do
  let num := (responselen / 4).toInt32
  writeInt32 lib num
  loop num fun i => do write (info (← deref response) i)
  return 0

def responseGsmBrSmsCnf : StateT P Option Int :=
  responsePointers lib response responselen Contents.gsmBroadcasts fun p_cur => do
    writeInt32 lib p_cur.fromServiceId
    writeInt32 lib p_cur.toServiceId
    writeInt32 lib p_cur.fromCodeScheme
    writeInt32 lib p_cur.toCodeScheme
    writeInt32 lib p_cur.selected.toUInt32.toInt32

def responseCdmaBrSmsCnf : StateT P Option Int :=
  responsePointers lib response responselen Contents.cdmaBroadcasts fun p_cur => do
    writeInt32 lib p_cur.serviceCategory
    writeInt32 lib p_cur.language
    writeInt32 lib p_cur.selected.toUInt32.toInt32

end

/-! ## `s_commands` -/

inductive ResponseFunction
  | simStatus | ints | callList | void | string | rilSignalStrength | strings | sms | simIo
  | callForwards | stringsNetworks | dataCallList | raw | cellList | gsmBrSmsCnf | cdmaBrSmsCnf
  deriving DecidableEq

/-- `s_commands`, the response functions from request 1 on; the index is the request number. -/
def sCommands : List ResponseFunction :=
  [ -- from 1 (`RIL_REQUEST_GET_SIM_STATUS`)
    .simStatus, .ints, .ints, .ints, .ints, .ints, .ints, .ints, .callList, .void,
    -- from 11 (`RIL_REQUEST_GET_IMSI`)
    .string, .void, .void, .void, .void, .void, .void, .ints, .rilSignalStrength, .strings,
    -- from 21 (`RIL_REQUEST_GPRS_REGISTRATION_STATE`)
    .strings, .strings, .void, .void, .sms, .sms, .strings, .simIo, .void, .void,
    -- from 31 (`RIL_REQUEST_GET_CLIR`)
    .ints, .void, .callForwards, .void, .ints, .void, .void, .string, .string, .void,
    -- from 41 (`RIL_REQUEST_DEACTIVATE_DATA_CALL`)
    .void, .ints, .ints, .void, .ints, .void, .void, .stringsNetworks, .void, .void,
    -- from 51 (`RIL_REQUEST_BASEBAND_VERSION`)
    .string, .void, .void, .ints, .ints, .ints, .dataCallList, .void, .raw, .strings,
    -- from 61 (`RIL_REQUEST_SCREEN_STATE`)
    .void, .void, .ints, .void, .void, .ints, .string, .void, .string, .void,
    -- from 71 (`RIL_REQUEST_STK_HANDLE_CALL_SETUP_REQUESTED_FROM_SIM`)
    .void, .void, .void, .ints, .cellList, .void, .void, .void, .ints, .void,
    -- from 81 (`RIL_REQUEST_QUERY_TTY_MODE`)
    .ints, .void, .ints, .void, .void, .void, .sms, .void, .gsmBrSmsCnf, .void,
    -- from 91 (`RIL_REQUEST_GSM_SMS_BROADCAST_ACTIVATION`)
    .void, .cdmaBrSmsCnf, .void, .void, .strings, .ints, .void, .strings, .void, .string,
    -- from 101 (`RIL_REQUEST_SET_SMSC_ADDRESS`)
    .void, .void, .void ]

/-- `s_commands[request].responseFunction`. -/
def command (request : Int32) : Option ResponseFunction :=
  if request < 1 then none else sCommands[request.toNatClampNeg - 1]?

section

variable {P : Type} (lib : OutParcel P) (build : Build) (response : Option Contents)
  (responselen : UInt32)

def responseFunction : ResponseFunction → StateT P Option Int
  | .simStatus => responseSimStatus lib response responselen
  | .ints => responseInts lib response responselen
  | .callList => responseCallList lib build response responselen
  | .void => responseVoid
  | .string => responseString lib response
  | .rilSignalStrength => responseRilSignalStrength lib build response responselen
  | .strings => responseStrings lib build response responselen
  | .sms => responseSMS lib build response responselen
  | .simIo => responseSimIo lib build response responselen
  | .callForwards => responseCallForwards lib response responselen
  | .stringsNetworks => responseStringsNetworks lib build response responselen
  | .dataCallList => responseDataCallList lib build response responselen
  | .raw => responseRaw lib response responselen
  | .cellList => responseCellList lib response responselen
  | .gsmBrSmsCnf => responseGsmBrSmsCnf lib response responselen
  | .cdmaBrSmsCnf => responseCdmaBrSmsCnf lib response responselen

/-! ## `RIL_onRequestComplete` -/

def RIL_REQUEST_BASEBAND_VERSION : Int32 := 51

def RESPONSE_SOLICITED : Int32 := 0

/-- What comes of a call of `RIL_onRequestComplete`. -/
structure Completed where
  /-- What `responseFunction` returned, if it was called. -/
  ret : Option Int
  /-- What `sendResponse` is called with. -/
  packet : Option (List UInt8)
  deriving DecidableEq

/-- The parcel with the token, and with the error after `errorOffset`. -/
def solicitedHeader (token e : Int32) : P × Nat :=
  let p := lib.writeInt32 token (lib.writeInt32 RESPONSE_SOLICITED lib.empty)
  (lib.writeInt32 e p, lib.dataPosition p)

/-- `RIL_onRequestComplete`, after `checkAndDequeueRequestInfo`; nothing when it faults. -/
def onRequestComplete (pRI : Requests.RequestInfo) (e : Int32) : Option Completed :=
  if pRI.isLocal then some ⟨none, none⟩
  else
    let response :=
      if pRI.request = RIL_REQUEST_BASEBAND_VERSION then
        some { (default : Contents) with string := build.baseband }
      else response
    if pRI.cancelled then some ⟨none, none⟩
    else
      let (p, errorOffset) := solicitedHeader lib pRI.token e
      if response.isNone then some ⟨none, some (lib.data p)⟩
      else do
        let f ← command pRI.request
        let (ret, p) ← (responseFunction lib build response responselen f).run p
        if ret ≠ 0 then
          let p := lib.writeInt32 (Int32.ofInt ret) (lib.setDataPosition errorOffset p)
          return ⟨some ret, some (lib.data p)⟩
        else return ⟨some ret, some (lib.data p)⟩

end

/-! ## The parcel -/

/-- Bytes put in place of others at `off`, and after them. -/
def overwrite (b : List UInt8) (off : Nat) (d : List UInt8) : List UInt8 :=
  b.take off ++ d ++ b.drop (off + d.length)

theorem overwrite_length (b d : List UInt8) : overwrite b b.length d = b ++ d := by
  rw [overwrite, List.take_length, List.drop_eq_nil_of_le (Nat.le_add_right _ _), List.append_nil]

/-- A write goes to the position and moves it. `setDataPosition` moves the position, and nothing
else. -/
structure OutParcel.Lawful {P : Type} (lib : OutParcel P) : Prop where
  data_empty : lib.data lib.empty = []
  position_empty : lib.dataPosition lib.empty = 0
  data_writeInt32 : ∀ t p,
    lib.data (lib.writeInt32 t p) = overwrite (lib.data p) (lib.dataPosition p) (Ril.writeInt32 t)
  position_writeInt32 : ∀ t p, lib.dataPosition (lib.writeInt32 t p) = lib.dataPosition p + 4
  data_setDataPosition : ∀ n p, lib.data (lib.setDataPosition n p) = lib.data p
  position_setDataPosition : ∀ n p, lib.dataPosition (lib.setDataPosition n p) = n

/-- The position is at the end of the data. -/
def AtEnd {P : Type} (lib : OutParcel P) (p : P) : Prop := lib.dataPosition p = (lib.data p).length

/-- A write at the end. -/
theorem OutParcel.Lawful.append {P : Type} {lib : OutParcel P} (hl : lib.Lawful) {p : P} (t : Int32)
    (h : AtEnd lib p) :
    lib.data (lib.writeInt32 t p) = lib.data p ++ Ril.writeInt32 t ∧
      AtEnd lib (lib.writeInt32 t p) := by
  have hdata : lib.data (lib.writeInt32 t p) = lib.data p ++ Ril.writeInt32 t := by
    rw [hl.data_writeInt32, h, overwrite_length]
  refine ⟨hdata, ?_⟩
  rw [AtEnd, hl.position_writeInt32, hdata, List.length_append, h]
  rfl

/-- The bytes of the parcel, and the position. -/
def bytesOutParcel : OutParcel (List UInt8 × Nat) where
  empty := ([], 0)
  writeInt32 t p := (overwrite p.1 p.2 (Ril.writeInt32 t), p.2 + 4)
  write d len p :=
    let n := Requests.padSize len.toNat
    (overwrite p.1 p.2 ((List.range n).map fun i => if i < len.toNat then d i else 0), p.2 + n)
  writeString16
    | none, p => (overwrite p.1 p.2 (Ril.writeInt32 (-1)), p.2 + 4)
    | some s, p =>
      let n := Requests.padSize (2 * (s.length + 1))
      let b := s.flatMap fun c => [c.toUInt8, (c / 256).toUInt8]
      (overwrite p.1 p.2 (le32 s.length ++ b ++ List.replicate (n - b.length) 0), p.2 + 4 + n)
  dataPosition := Prod.snd
  setDataPosition n p := (p.1, n)
  data := Prod.fst
  strdup8to16 := Option.map (List.map (·.toUInt16))

theorem bytesOutParcel_lawful : bytesOutParcel.Lawful where
  data_empty := rfl
  position_empty := rfl
  data_writeInt32 _ _ := rfl
  position_writeInt32 _ _ := rfl
  data_setDataPosition _ _ := rfl
  position_setDataPosition _ _ := rfl

/-- A build with the sizes of a 32-bit machine. -/
def exampleBuild : Build := ⟨3, false, 12, 12, 20, 28, [81, 67, 84]⟩

end Twm.Ril.Response
