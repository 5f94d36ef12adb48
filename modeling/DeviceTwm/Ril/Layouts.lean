import DeviceTwm.Ril.Counts

/-!
# The layouts of structured commands

Five dispatch functions fill a struct field by field from the payload (`Structured`). The comments in
`ril.cpp` give their layouts; here a layout is a value (`Layout`), with two ways to read a payload: as
the dispatch function does (`Layout.read`), and such that every field has to be there
(`Layout.decode`).

The functions check the numbers, and the strings that must not be null. They do not check the strings
that may be null, nor the user-to-user data: when such a field is missing or malformed, a null pointer
is passed for it, and what comes after it is read from where the read stopped.

`complete_iff`: a function passes on nothing but whole payloads, unless an unchecked field cannot be
decoded while the checked ones can be read (`Layout.Lapses`).
-/

namespace Twm.Ril

variable {P α β : Type}

/-- What a payload consists of, up to a result. -/
inductive Layout (α : Type)
  | done (a : α)
  | number (next : Int32 → Layout α)
  | byte (next : UInt8 → Layout α)
  /-- A string that must not be null. -/
  | text (next : List UInt8 → Layout α)
  /-- A string that may be null. -/
  | option (next : CString → Layout α)
  /-- So many bytes. -/
  | data (len : Int32) (next : Option (List UInt8) → Layout α)

/-- The bytes of an array whose size is in the payload. -/
def Fields.presentBytes (lib : Parcel P) (len : Int32) : StateT P Option (Option (List UInt8)) :=
  fun p =>
    match lib.readInplace len p with
    | (some bytes, p) => some (some bytes, p)
    | (none, _) => none

namespace Layout

/-- `n` bytes. -/
def bytes : Nat → (List UInt8 → Layout α) → Layout α
  | 0, next => next []
  | n + 1, next => .byte fun b => bytes n fun l => next (b :: l)

section

variable (lib : Parcel P)

/-- The fields, as the dispatch functions take them. -/
def read : Layout α → StateT P Option α
  | .done a => return a
  | .number next => Fields.int lib >>= fun v => (next v).read
  | .byte next => Fields.byte lib >>= fun v => (next v).read
  | .text next => Fields.someString lib >>= fun s => (next s).read
  | .option next => Fields.string lib >>= fun s => (next s).read
  | .data len next => Fields.inplace lib len >>= fun d => (next d).read

/-- The fields, each of them present and decoded. -/
def decode : Layout α → StateT P Option α
  | .done a => return a
  | .number next => Fields.int lib >>= fun v => (next v).decode
  | .byte next => Fields.byte lib >>= fun v => (next v).decode
  | .text next => Fields.someString lib >>= fun s => (next s).decode
  | .option next => Fields.presentString lib >>= fun s => (next s).decode
  | .data len next => Fields.presentBytes lib len >>= fun d => (next d).decode

/-- The checked fields can be read, each from where the reads before it stopped. -/
def Reads : Layout α → P → Prop
  | .done _, _ => True
  | .number next, p => ∃ v q, lib.readInt32 p = (some v, q) ∧ (next v).Reads q
  | .byte next, p => ∃ v q, lib.read p = (some v, q) ∧ (next v).Reads q
  | .text next, p =>
    ∃ s q, lib.readString16Inplace p = (some s, q) ∧ (next (lib.strndup16to8 s)).Reads q
  | .option next, p =>
    (next ((lib.readString16Inplace p).1.map lib.strndup16to8)).Reads (lib.readString16Inplace p).2
  | .data len next, p => (next (lib.readInplace len p).1).Reads (lib.readInplace len p).2

/-- An unchecked field cannot be decoded where the reads come to it: a string that is not there, and
is not the null string either, or bytes that are not there. -/
def Undecoded : Layout α → P → Prop
  | .done _, _ => False
  | .number next, p => ∃ v q, lib.readInt32 p = (some v, q) ∧ (next v).Undecoded q
  | .byte next, p => ∃ v q, lib.read p = (some v, q) ∧ (next v).Undecoded q
  | .text next, p =>
    ∃ s q, lib.readString16Inplace p = (some s, q) ∧ (next (lib.strndup16to8 s)).Undecoded q
  | .option next, p =>
    ((lib.readString16Inplace p).1 = none ∧ (lib.readInt32 p).1 ≠ some (-1)) ∨
      (next ((lib.readString16Inplace p).1.map lib.strndup16to8)).Undecoded
        (lib.readString16Inplace p).2
  | .data len next, p =>
    (lib.readInplace len p).1 = none ∨
      (next (lib.readInplace len p).1).Undecoded (lib.readInplace len p).2

/-- The checked fields can be read, and an unchecked one cannot be decoded. -/
def Lapses (l : Layout α) (p : P) : Prop := l.Reads lib p ∧ l.Undecoded lib p

end

/-! ## The two readers -/

section

variable {lib : Parcel P}

theorem int_bind (f : Int32 → StateT P Option α) (p : P) (r : α × P) :
    (Fields.int lib >>= f).run p = some r ↔
      ∃ v q, lib.readInt32 p = (some v, q) ∧ (f v).run q = some r := by
  rw [StateT.run_bind]
  rcases h : lib.readInt32 p with ⟨_ | v, q⟩ <;> simp [StateT.run, Fields.int, h]

theorem byte_bind (f : UInt8 → StateT P Option α) (p : P) (r : α × P) :
    (Fields.byte lib >>= f).run p = some r ↔
      ∃ v q, lib.read p = (some v, q) ∧ (f v).run q = some r := by
  rw [StateT.run_bind]
  rcases h : lib.read p with ⟨_ | v, q⟩ <;> simp [StateT.run, Fields.byte, h]

theorem text_bind (f : List UInt8 → StateT P Option α) (p : P) (r : α × P) :
    (Fields.someString lib >>= f).run p = some r ↔
      ∃ s q, lib.readString16Inplace p = (some s, q) ∧ (f (lib.strndup16to8 s)).run q = some r := by
  rw [StateT.run_bind]
  rcases h : lib.readString16Inplace p with ⟨_ | s, q⟩ <;> simp [StateT.run, Fields.someString, h]

theorem presentString_bind (f : CString → StateT P Option α) (p : P) (r : α × P) :
    (Fields.presentString lib >>= f).run p = some r ↔
      ((lib.readString16Inplace p).1 = none → (lib.readInt32 p).1 = some (-1)) ∧
        (f ((lib.readString16Inplace p).1.map lib.strndup16to8)).run
          (lib.readString16Inplace p).2 = some r := by
  rw [StateT.run_bind]
  rcases h : lib.readString16Inplace p with ⟨_ | s, q⟩
  · by_cases hm : (lib.readInt32 p).1 = some (-1) <;>
      simp [StateT.run, Fields.presentString, h, hm]
  · simp [StateT.run, Fields.presentString, h]

theorem presentBytes_bind (len : Int32) (f : Option (List UInt8) → StateT P Option α) (p : P)
    (r : α × P) :
    (Fields.presentBytes lib len >>= f).run p = some r ↔
      (lib.readInplace len p).1 ≠ none ∧
        (f (lib.readInplace len p).1).run (lib.readInplace len p).2 = some r := by
  rw [StateT.run_bind]
  rcases h : lib.readInplace len p with ⟨_ | d, q⟩ <;> simp [StateT.run, Fields.presentBytes, h]

/-- The functions accept the payloads whose checked fields can be read. -/
theorem reads_iff (l : Layout α) (p : P) : l.Reads lib p ↔ ∃ r, (l.read lib).run p = some r := by
  induction l generalizing p with
  | done a => exact iff_of_true trivial ⟨(a, p), rfl⟩
  | number next ih =>
    simp only [Reads, read, int_bind, ih]
    grind
  | byte next ih =>
    simp only [Reads, read, byte_bind, ih]
    grind
  | text next ih =>
    simp only [Reads, read, text_bind, ih]
    grind
  | option next ih => exact ih _ _
  | data len next ih => exact ih _ _

/-- Both readers give the same where every unchecked field can be decoded. -/
theorem decode_iff (l : Layout α) (p : P) (r : α × P) :
    (l.decode lib).run p = some r ↔ (l.read lib).run p = some r ∧ ¬ l.Undecoded lib p := by
  induction l generalizing p with
  | done a => simp [decode, read, Undecoded]
  | number next ih =>
    simp only [decode, read, Undecoded, int_bind, ih]
    grind
  | byte next ih =>
    simp only [decode, read, Undecoded, byte_bind, ih]
    grind
  | text next ih =>
    simp only [decode, read, Undecoded, text_bind, ih]
    grind
  | option next ih =>
    have hread : ((Layout.option next).read lib).run p =
        ((next ((lib.readString16Inplace p).1.map lib.strndup16to8)).read lib).run
          (lib.readString16Inplace p).2 := rfl
    simp only [decode, Undecoded, presentString_bind, ih, hread]
    grind
  | data len next ih =>
    have hread : ((Layout.data len next).read lib).run p =
        ((next (lib.readInplace len p).1).read lib).run (lib.readInplace len p).2 := rfl
    simp only [decode, Undecoded, presentBytes_bind, ih, hread]
    grind

end

/-- A layout without unchecked fields. -/
def Checked : Layout α → Prop
  | .done _ => True
  | .number next => ∀ v, (next v).Checked
  | .byte next => ∀ v, (next v).Checked
  | .text next => ∀ s, (next s).Checked
  | .option _ | .data _ _ => False

theorem Checked.not_undecoded {lib : Parcel P} {l : Layout α} (h : l.Checked) (p : P) :
    ¬ l.Undecoded lib p := by
  induction l generalizing p with
  | done a => exact id
  | number next ih =>
    rintro ⟨v, q, -, hu⟩
    exact ih v (h v) q hu
  | byte next ih =>
    rintro ⟨v, q, -, hu⟩
    exact ih v (h v) q hu
  | text next ih =>
    rintro ⟨s, q, -, hu⟩
    exact ih _ (h _) q hu
  | option next ih => exact h.elim
  | data len next ih => exact h.elim

theorem Checked.bytes {n : Nat} {next : List UInt8 → Layout α} (h : ∀ l, (next l).Checked) :
    (bytes n next).Checked := by
  induction n generalizing next with
  | zero => exact h []
  | succ n ih => exact fun b => ih fun l => h (b :: l)

theorem read_ite (lib : Parcel P) {c : Prop} [Decidable c] (l l' : Layout α) :
    (if c then l else l').read lib = if c then l.read lib else l'.read lib := apply_ite _ _ _ _

theorem read_bytes (lib : Parcel P) (n : Nat) (next : List UInt8 → Layout α) :
    (bytes n next).read lib = Fields.times n (Fields.byte lib) >>= fun l => (next l).read lib := by
  induction n generalizing next with
  | zero => rfl
  | succ n ih =>
    rw [times_succ, bytes, read]
    simp only [ih, bind_assoc, pure_bind]

end Layout

/-! ## The five layouts -/

/-- The dispatch functions that fill a struct. -/
inductive Structured
  | smsWrite | dial | simIo | callForward | cdmaSms
  deriving DecidableEq

def Structured.function : Structured → DispatchFunction
  | .smsWrite => .smsWrite
  | .dial => .dial
  | .simIo => .simIo
  | .callForward => .callForward
  | .cdmaSms => .cdmaSms

/-- `int32_t status`, `String pdu`, and the `smsc` after it. -/
def smsWriteLayout : Layout Data :=
  .number fun status => .text fun pdu => .option fun smsc => .done (.smsWrite status pdu smsc)

/-- `uusType`, `uusDcs`, and the data with its length; the length of null data is -1. -/
def uusLayout (address : List UInt8) (clir : Int32) : Layout Data :=
  .number fun uusType => .number fun uusDcs => .number fun len =>
    if len = -1 then .done (.dial address clir (some ⟨uusType, uusDcs, none, 0⟩))
    else .data len fun uusData => .done (.dial address clir (some ⟨uusType, uusDcs, uusData, len⟩))

/-- `String address`, `int32_t clir`, and the user-to-user information from version 3 on. -/
def dialLayout (cfg : Config) : Layout Data :=
  .text fun address => .number fun clir =>
    if cfg.version < 3 then .done (.dial address clir none)
    else .number fun uusPresent =>
      if uusPresent = 0 then .done (.dial address clir none) else uusLayout address clir

/-- `int32_t command`, `int32_t fileid`, `String path`, `int32_t p1, p2, p3`, `String data`,
`String pin2`. -/
def simIoLayout : Layout Data :=
  .number fun command => .number fun fileid => .option fun path => .number fun p1 =>
    .number fun p2 => .number fun p3 => .option fun data => .option fun pin2 =>
    .done (.simIo command fileid path p1 p2 p3 data pin2)

/-- `int32_t status/action`, `int32_t reason`, `int32_t serviceCode`, `int32_t toa`,
`String number (0 length -> null)`, `int32_t timeSeconds`. -/
def callForwardLayout : Layout Data :=
  .number fun status => .number fun reason => .number fun serviceClass => .number fun toa =>
    .option fun number => .number fun timeSeconds =>
    .done (.callForward status reason serviceClass toa (callForwardNumber number) timeSeconds)

/-- A `RIL_CDMA_SMS_Message`, with as many elements of each array as its count says. -/
def cdmaSmsLayout (cfg : Config) : Layout Data :=
  .number fun uTeleserviceID => .byte fun bIsServicePresent => .number fun uServicecategory =>
    .number fun digitMode => .number fun numberMode => .number fun numberType =>
    .number fun numberPlan => .byte fun numberOfDigits =>
    .bytes (min numberOfDigits.toNat cfg.addressMax) fun digits =>
    .number fun subaddressType => .byte fun odd => .byte fun subNumberOfDigits =>
    .bytes (min subNumberOfDigits.toNat cfg.subaddressMax) fun subDigits =>
    .number fun uBearerDataLen =>
    .bytes (min uBearerDataLen.toNatClampNeg cfg.bearerDataMax) fun aBearerData =>
    .done (.cdmaSms ⟨uTeleserviceID, bIsServicePresent, uServicecategory, digitMode, numberMode,
      numberType, numberPlan, numberOfDigits, digits, subaddressType, odd, subNumberOfDigits,
      subDigits, uBearerDataLen, aBearerData⟩)

def Structured.layout (cfg : Config) : Structured → Layout Data
  | .smsWrite => smsWriteLayout
  | .dial => dialLayout cfg
  | .simIo => simIoLayout
  | .callForward => callForwardLayout
  | .cdmaSms => cdmaSmsLayout cfg

theorem read_uusLayout (lib : Parcel P) (address : List UInt8) (clir : Int32) :
    (uusLayout address clir).read lib = Fields.uus lib address clir := by
  simp only [uusLayout, Fields.uus, Layout.read, Layout.read_ite]

theorem read_dialLayout (lib : Parcel P) (cfg : Config) :
    (dialLayout cfg).read lib = Fields.dial lib cfg := by
  simp only [dialLayout, Fields.dial, Layout.read, Layout.read_ite, read_uusLayout]

theorem read_cdmaSmsLayout (lib : Parcel P) (cfg : Config) :
    (cdmaSmsLayout cfg).read lib = Fields.cdmaSms lib cfg := by
  simp only [cdmaSmsLayout, Fields.cdmaSms, Fields.message, Layout.read, Layout.read_bytes,
    bind_assoc, pure_bind]

/-- A dispatch function reads its layout. -/
theorem read_layout (lib : Parcel P) (cfg : Config) (f : Structured) :
    (f.layout cfg).read lib = payload lib cfg f.function := by
  cases f with
  | smsWrite => rfl
  | dial => exact read_dialLayout lib cfg
  | simIo => rfl
  | callForward => rfl
  | cdmaSms => exact read_cdmaSmsLayout lib cfg

/-! ## What is passed on -/

/-- If `onRequest` is called, then every field of the layout was there, and it is called with them. -/
def Complete (lib : Parcel P) (l : Layout Data) (p : P) (o : Outcome) : Prop :=
  ∀ d, o = .request d → ∃ q, (l.decode lib).run p = some (d, q)

theorem accepted_eq_some {o : Outcome} {d : Data} : o.accepted = some d ↔ o = .request d := by
  cases o <;> simp [Outcome.accepted]

section

variable {lib : Parcel P} (hl : lib.Lawful) (cfg : Config) (f : Structured) (p : P) (t : Int32)
  (ut : UInt8)

include hl

theorem request_iff (d : Data) :
    ((dispatchFunction lib cfg f.function).run ⟨p, true, t, ut⟩).1 = .request d ↔
      ∃ q, ((f.layout cfg).read lib).run p = some (d, q) := by
  have ha := dispatchFunction_accepted cfg hl f.function ⟨p, true, t, ut⟩ rfl
  rw [← read_layout] at ha
  rw [← accepted_eq_some, ha, Option.map_eq_some_iff]
  grind

theorem complete_of_not_lapses (h : ¬ (f.layout cfg).Lapses lib p) :
    Complete lib (f.layout cfg) p
      ((dispatchFunction lib cfg f.function).run ⟨p, true, t, ut⟩).1 := by
  intro d hrequest
  obtain ⟨q, hq⟩ := (request_iff hl cfg f p t ut d).mp hrequest
  have hr : (f.layout cfg).Reads lib p := (Layout.reads_iff _ p).mpr ⟨_, hq⟩
  exact ⟨q, (Layout.decode_iff _ p _).mpr ⟨hq, fun hu => h ⟨hr, hu⟩⟩⟩

/-- **Truncated and malformed commands.** A dispatch function that fills a struct passes on nothing but
whole payloads, if and only if no unchecked field of the payload fails to be decoded while the checked
ones can be read. -/
theorem complete_iff :
    Complete lib (f.layout cfg) p
        ((dispatchFunction lib cfg f.function).run ⟨p, true, t, ut⟩).1 ↔
      ¬ (f.layout cfg).Lapses lib p := by
  constructor
  · rintro h ⟨hr, hu⟩
    obtain ⟨⟨d, q⟩, hq⟩ := (Layout.reads_iff _ p).mp hr
    obtain ⟨q', hq'⟩ := h d ((request_iff hl cfg f p t ut d).mpr ⟨q, hq⟩)
    exact ((Layout.decode_iff _ p _).mp hq').2 hu
  · exact complete_of_not_lapses hl cfg f p t ut

end

/-- Every field of a CDMA message is checked. -/
theorem cdmaSmsLayout_checked (cfg : Config) : (cdmaSmsLayout cfg).Checked :=
  fun _ _ _ _ _ _ _ _ => .bytes fun _ _ _ _ => .bytes fun _ _ => .bytes fun _ => trivial

theorem cdmaSms_complete {lib : Parcel P} (hl : lib.Lawful) (cfg : Config) (p : P) (t : Int32)
    (ut : UInt8) :
    Complete lib (cdmaSmsLayout cfg) p ((dispatchCdmaSms lib cfg).run ⟨p, true, t, ut⟩).1 :=
  complete_of_not_lapses hl cfg .cdmaSms p t ut fun h =>
    (cdmaSmsLayout_checked cfg).not_undecoded p h.2

/-! ## A payload of `RIL_REQUEST_SIM_IO` -/

/-- Nine bytes of the file 6FAD are to be read; `path`, `data` and `pin2` are null. -/
def simIoPayload : List UInt8 :=
  [176, 0, 0, 0, 173, 111, 0, 0, 255, 255, 255, 255, 0, 0, 0, 0, 0, 0, 0, 0, 9, 0, 0, 0,
    255, 255, 255, 255, 255, 255, 255, 255]

theorem simIoPayload_complete :
    Complete Requests.bytesParcel simIoLayout simIoPayload
      ((dispatchFunction Requests.bytesParcel Requests.exampleConfig .simIo).run
        ⟨simIoPayload, true, 0, 0⟩).1 := by
  refine (complete_iff Requests.bytesParcel_lawful Requests.exampleConfig .simIo simIoPayload 0 0).mpr
    fun h => ?_
  have hd : ((simIoLayout.decode Requests.bytesParcel).run simIoPayload).isSome = true := by
    decide +kernel
  obtain ⟨r, hr⟩ := Option.isSome_iff_exists.mp hd
  exact ((Layout.decode_iff _ _ r).mp hr).2 h.2

/-- The payload ends after `p3`, and `onRequest` is called all the same. -/
theorem simIo_truncated :
    ((dispatchFunction Requests.bytesParcel Requests.exampleConfig .simIo).run
        ⟨simIoPayload.take 24, true, 0, 0⟩).1 = .request (.simIo 176 28589 none 0 0 9 none none) ∧
      ¬ Complete Requests.bytesParcel simIoLayout (simIoPayload.take 24)
        ((dispatchFunction Requests.bytesParcel Requests.exampleConfig .simIo).run
          ⟨simIoPayload.take 24, true, 0, 0⟩).1 := by
  have hrequest : ((dispatchFunction Requests.bytesParcel Requests.exampleConfig .simIo).run
      ⟨simIoPayload.take 24, true, 0, 0⟩).1 = .request (.simIo 176 28589 none 0 0 9 none none) := by
    decide +kernel
  refine ⟨hrequest, fun h => ?_⟩
  obtain ⟨q, hq⟩ := h _ hrequest
  have hd : ((simIoLayout.decode Requests.bytesParcel).run (simIoPayload.take 24)).isSome = false := by
    decide +kernel
  rw [hq] at hd
  cases hd

end Twm.Ril
