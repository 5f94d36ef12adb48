import DeviceTwm.Lib.Writing
import DeviceTwm.Ril.CdmaSms
import DeviceTwm.Ril.Payload
import DeviceTwm.Ril.ResponseFunctions

/-!
# Broadcast configurations

The vendor answers `RIL_REQUEST_GSM_GET_BROADCAST_SMS_CONFIG` with an array of pointers to
`RIL_GSM_BroadcastSmsConfigInfo`, which `responseGsmBrSmsCnf` writes; `dispatchGsmBrSmsCnf` reads such
a list for `RIL_REQUEST_GSM_SET_BROADCAST_SMS_CONFIG`. The same goes for CDMA.

`brSmsCnf_roundTrip`: what the response function writes of a list that fits a packet, the dispatch
function hands on: as many pointers, to the same entries, in the same order.
-/

open Lib

namespace Twm.Ril.Response

section

variable {Q : Type} {out : OutParcel Q} (ho : out.Lawful)

include ho

theorem writeInt32_puts (t : Int32) :
    Puts out.data (AtEnd out) (writeInt32 out t) (Ril.writeInt32 t) () := by
  intro p h
  obtain ⟨hdata, hend⟩ := ho.append t h
  exact ⟨out.writeInt32 t p, rfl, hdata, hend⟩

/-- What is written of an array of pointers: the number of them, and what is written of each entry. -/
theorem responsePointers_puts {α : Type} {info : Contents → Nat → α}
    {write : α → StateT Q Option Unit} {enc : α → List UInt8}
    (hw : ∀ a, Puts out.data (AtEnd out) (write a) (enc a) ()) (c : Contents) (l : List α)
    (hc : ∀ i (h : i < l.length), info c i = l[i]) (hlen : 4 * l.length < 2 ^ 31) :
    Puts out.data (AtEnd out)
      (responsePointers out (some c) (UInt32.ofNat (4 * l.length)) info write)
      (Ril.writeInt32 (Int32.ofNat l.length) ++ l.flatMap enc) 0 := by
  have hdiv : UInt32.ofNat (4 * l.length) / 4 = UInt32.ofNat l.length := by
    rw [← UInt32.toNat_inj, UInt32.toNat_div, UInt32.toNat_ofNat', UInt32.toNat_ofNat',
      Nat.mod_eq_of_lt (by omega), Nat.mod_eq_of_lt (by omega)]
    exact Nat.mul_div_cancel_left _ (by decide)
  have hk : (Int32.ofNat l.length).toNatClampNeg = l.length :=
    Int32.toNatClampNeg_ofNat_of_lt (by omega)
  have hmap : (List.range l.length).flatMap (fun i => enc (info c i)) = l.flatMap enc := by
    have hl : (List.range l.length).map (info c) = l := by
      apply List.ext_getElem
      · simp
      · intro i _ hi
        simp [hc i hi]
    conv_rhs => rw [← hl]
    rw [List.flatMap_map]
  have hloop : Puts out.data (AtEnd out)
      (loop (Int32.ofNat l.length) fun i => do write (info (← deref (some c)) i))
      (l.flatMap enc) () := by
    rw [loop, hk, ← hmap]
    refine .forM _ fun i _ => ?_
    exact hw (info c i)
  unfold responsePointers
  dsimp only
  rw [hdiv]
  exact (writeInt32_puts ho _).bind (hloop.last (.pure 0))

/-! ## What is written of an entry -/

def writeGsmBroadcast (a : GsmBroadcast) : List UInt8 :=
  Ril.writeInt32 a.fromServiceId ++ (Ril.writeInt32 a.toServiceId ++
    (Ril.writeInt32 a.fromCodeScheme ++ (Ril.writeInt32 a.toCodeScheme ++
      Ril.writeInt32 a.selected.toUInt32.toInt32)))

def writeCdmaBroadcast (a : CdmaBroadcast) : List UInt8 :=
  Ril.writeInt32 a.serviceCategory ++ (Ril.writeInt32 a.language ++
    Ril.writeInt32 a.selected.toUInt32.toInt32)

theorem responseGsmBrSmsCnf_puts (c : Contents) (l : List GsmBroadcast)
    (hc : ∀ i (h : i < l.length), c.gsmBroadcasts i = l[i]) (hlen : 4 * l.length < 2 ^ 31) :
    Puts out.data (AtEnd out)
      (responseGsmBrSmsCnf out (some c) (UInt32.ofNat (4 * l.length)))
      (Ril.writeInt32 (Int32.ofNat l.length) ++ l.flatMap writeGsmBroadcast) 0 := by
  have int := writeInt32_puts ho
  refine responsePointers_puts ho (fun a => ?_) c l hc hlen
  exact (int _).bind <| (int _).bind <| (int _).bind <| (int _).bind <| int _

theorem responseCdmaBrSmsCnf_puts (c : Contents) (l : List CdmaBroadcast)
    (hc : ∀ i (h : i < l.length), c.cdmaBroadcasts i = l[i]) (hlen : 4 * l.length < 2 ^ 31) :
    Puts out.data (AtEnd out)
      (responseCdmaBrSmsCnf out (some c) (UInt32.ofNat (4 * l.length)))
      (Ril.writeInt32 (Int32.ofNat l.length) ++ l.flatMap writeCdmaBroadcast) 0 := by
  have int := writeInt32_puts ho
  refine responsePointers_puts ho (fun a => ?_) c l hc hlen
  exact (int _).bind <| (int _).bind <| int _

end

/-! ## Reading it back -/

section

variable {P : Type} {lib : Parcel P} {left : P → List UInt8} (hp : Padded lib left)

/-- `(uint8_t) t`, of what was written of an 8-bit value. -/
theorem toUInt8_toInt32 (b : UInt8) : b.toUInt32.toInt32.toUInt32.toUInt8 = b := by
  simp

include hp

theorem readCount_takes (t : Int32) :
    Takes (fun l : Locals P => left l.p) (·.status = true) (readCount lib) (Ril.writeInt32 t)
      (some t) := by
  intro l rest h
  obtain ⟨p', hr, hl⟩ := hp.readInt32 l.p t rest h
  exact ⟨_, readCount_some hr, hl, fun _ => rfl⟩

theorem readGsmBroadcast_takes (a : GsmBroadcast) :
    Takes (fun l : Locals P => left l.p) (·.status = true) (readGsmBroadcast lib)
      (writeGsmBroadcast a) a := by
  have int := readInt32_takes hp
  have h : Takes (fun l : Locals P => left l.p) (·.status = true) (readGsmBroadcast lib)
      (writeGsmBroadcast a) ⟨a.fromServiceId, a.toServiceId, a.fromCodeScheme, a.toCodeScheme,
        a.selected.toUInt32.toInt32.toUInt32.toUInt8⟩ :=
    (int _).bind <| (int _).bind <| (int _).bind <| (int _).bind <| (int _).last <| .pure _
  rwa [toUInt8_toInt32] at h

theorem readCdmaBroadcast_takes (a : CdmaBroadcast) :
    Takes (fun l : Locals P => left l.p) (·.status = true) (readCdmaBroadcast lib)
      (writeCdmaBroadcast a) a := by
  have int := readInt32_takes hp
  have h : Takes (fun l : Locals P => left l.p) (·.status = true) (readCdmaBroadcast lib)
      (writeCdmaBroadcast a) ⟨a.serviceCategory, a.language,
        a.selected.toUInt32.toInt32.toUInt32.toUInt8⟩ :=
    (int _).bind <| (int _).bind <| (int _).last <| .pure _
  rwa [toUInt8_toInt32] at h

/-- The arrays of as many entries as a packet holds fit on the stack. -/
def RoomForPacket (cfg : Config) (size infoSize : Nat) : Prop :=
  (maxCommandBytes - 4) / size * (infoSize + 4) ≤ cfg.stack

instance (cfg : Config) (size infoSize : Nat) : Decidable (RoomForPacket cfg size infoSize) :=
  inferInstanceAs (Decidable (_ ≤ _))

/-- A dispatch function for a list of entries; `mk` is what it calls `onRequest` with. -/
def dispatchBrSmsCnf {α : Type} (lib : Parcel P) (cfg : Config) (infoSize : Nat)
    (item : StateM (Locals P) α) (mk : List α → Data) : StateM (Locals P) Outcome := do
  match ← readCount lib with
  | none => return .invalid
  | some num =>
    if noRoom cfg num infoSize then return .fault
    else
      let bci ← (List.replicate num.toNatClampNeg ()).mapM fun _ => item
      checkStatus do return .request (mk bci)

/-- The whole list is read. -/
theorem dispatchBrSmsCnf_takes {α : Type} {cfg : Config} {infoSize size : Nat}
    {item : StateM (Locals P) α} {enc : α → List UInt8} (mk : List α → Data)
    (hitem : ∀ a, Takes (fun l : Locals P => left l.p) (·.status = true) item (enc a) a)
    (hroom : RoomForPacket cfg size infoSize) (l : List α) (hsize : 0 < size)
    (hfit : 4 + size * l.length ≤ maxCommandBytes) (status : Bool) (t : Int32) (ut : UInt8) :
    ∃ s, (dispatchBrSmsCnf lib cfg infoSize item mk).run
        ⟨lib.setData (Ril.writeInt32 (Int32.ofNat l.length) ++ l.flatMap enc), status, t, ut⟩ =
          (.request (mk l), s) ∧ left s.p = [] := by
  have hlen : l.length ≤ (maxCommandBytes - 4) / size := by
    rw [Nat.le_div_iff_mul_le hsize, Nat.mul_comm]
    omega
  have hsmall : (maxCommandBytes - 4) / size ≤ maxCommandBytes - 4 := Nat.div_le_self _ _
  have hmax : maxCommandBytes = 8192 := rfl
  have hk : (Int32.ofNat l.length).toNatClampNeg = l.length :=
    Int32.toNatClampNeg_ofNat_of_lt (by omega)
  have hno : ¬ noRoom cfg (Int32.ofNat l.length) infoSize := by
    rw [noRoom, hk, not_or, Int32.not_lt, Nat.not_lt]
    refine ⟨?_, Nat.le_trans (Nat.mul_le_mul_right _ hlen) hroom⟩
    rw [Int32.le_iff_toInt_le, Int32.toInt_ofNat_of_lt (by omega)]
    exact Int.natCast_nonneg _
  have hitems := Takes.replicate hitem l
  rw [← hk] at hitems
  have hset : left (lib.setData (Ril.writeInt32 (Int32.ofNat l.length) ++ l.flatMap enc)) =
      Ril.writeInt32 (Int32.ofNat l.length) ++ (l.flatMap enc ++ []) := by
    rw [hp.setData, List.append_nil]
  obtain ⟨s₁, hs₁, hleft₁, hgood₁⟩ := readCount_takes hp _ ⟨_, status, t, ut⟩ _ hset
  obtain ⟨s₂, hs₂, hleft₂, hgood₂⟩ := hitems s₁ [] hleft₁
  have hgood : s₂.status = true := hgood₂ (.inl (hgood₁ (.inr (by simp [Ril.writeInt32, le32]))))
  refine ⟨s₂, ?_, hleft₂⟩
  rw [dispatchBrSmsCnf, StateT.run_bind, hs₁]
  show ((ite (noRoom cfg (Int32.ofNat l.length) infoSize) _ _ : StateM (Locals P) Outcome).run s₁) = _
  rw [if_neg hno, StateT.run_bind, hs₂]
  show (checkStatus _).run s₂ = _
  rw [run_checkStatus, if_pos hgood]
  rfl

end

/-! ## The round trip -/

/-- What `response` writes of a list of at most a packet's size, `dispatch` hands on as `mk l`, to the
last byte. The size that goes with it, `num * sizeof (info *)`, is that of as many pointers. -/
def RoundTrip {P Q α : Type} (lib : Parcel P) (left : P → List UInt8) (out : OutParcel Q)
    (info : Contents → Nat → α) (size : Nat)
    (response : Option Contents → UInt32 → StateT Q Option Int)
    (dispatch : StateM (Locals P) Outcome) (mk : List α → Data) : Prop :=
  ∀ (c : Contents) (l : List α), (∀ i (h : i < l.length), info c i = l[i]) →
    4 + size * l.length ≤ maxCommandBytes → ∀ p, AtEnd out p →
    ∃ p' bytes, (response (some c) (UInt32.ofNat (4 * l.length))).run p = some (0, p') ∧
      out.data p' = out.data p ++ bytes ∧ bytes.length = 4 + size * l.length ∧
      (∃ num, (lib.readInt32 (lib.setData bytes)).1 = some num ∧ size4 num = 4 * l.length) ∧
      ∀ status t ut, ∃ s, dispatch.run ⟨lib.setData bytes, status, t, ut⟩ = (.request (mk l), s) ∧
        left s.p = []

section

variable {P Q : Type} {lib : Parcel P} {left : P → List UInt8} (hp : Padded lib left)
  {out : OutParcel Q} (ho : out.Lawful)

include hp

theorem roundTrip {α : Type} {cfg : Config} {info : Contents → Nat → α} {infoSize size : Nat}
    {enc : α → List UInt8} {response : Option Contents → UInt32 → StateT Q Option Int}
    {item : StateM (Locals P) α} (mk : List α → Data) (hsize : 0 < size)
    (henc : ∀ a, (enc a).length = size) (hroom : RoomForPacket cfg size infoSize)
    (hresponse : ∀ c (l : List α), (∀ i (h : i < l.length), info c i = l[i]) → 4 * l.length < 2 ^ 31 →
      Puts out.data (AtEnd out) (response (some c) (UInt32.ofNat (4 * l.length)))
        (Ril.writeInt32 (Int32.ofNat l.length) ++ l.flatMap enc) 0)
    (hitem : ∀ a, Takes (fun l : Locals P => left l.p) (·.status = true) item (enc a) a) :
    RoundTrip lib left out info size response (dispatchBrSmsCnf lib cfg infoSize item mk) mk := by
  intro c l hc hfit p hend
  have hsmall : l.length ≤ size * l.length := Nat.le_mul_of_pos_left _ hsize
  rw [show maxCommandBytes = 8192 from rfl] at hfit
  obtain ⟨p', hrun, hdata, -⟩ := hresponse c l hc (by omega) p hend
  have hlen : (l.flatMap enc).length = size * l.length := by
    rw [List.length_flatMap, funext henc, List.map_const', List.sum_replicate_nat, Nat.mul_comm]
  refine ⟨p', _, hrun, hdata, ?_, ?_, dispatchBrSmsCnf_takes hp mk hitem hroom l hsize hfit⟩
  · rw [List.length_append, hlen]
    rfl
  · obtain ⟨q, hq, -⟩ := hp.readInt32 _ (Int32.ofNat l.length) (l.flatMap enc) (hp.setData _)
    refine ⟨_, congrArg Prod.fst hq, ?_⟩
    show (4 * (UInt32.ofNat l.length)).toNat = 4 * l.length
    have h4 : UInt32.toNat 4 = 4 := rfl
    have hl : l.length % 2 ^ 32 = l.length := Nat.mod_eq_of_lt (by omega)
    rw [UInt32.toNat_mul, UInt32.toNat_ofNat', h4, hl]
    exact Nat.mod_eq_of_lt (by omega)

include ho

/-- **Round trip of the broadcast configurations**, of GSM and of CDMA, on a stack with room for the
entries of one packet. -/
theorem brSmsCnf_roundTrip (cfg : Config) (hgsm : RoomForPacket cfg 20 cfg.gsmInfoSize)
    (hcdma : RoomForPacket cfg 12 cfg.cdmaInfoSize) :
    RoundTrip lib left out Contents.gsmBroadcasts 20 (responseGsmBrSmsCnf out)
        (dispatchGsmBrSmsCnf lib cfg) .gsmBrSmsCnf ∧
      RoundTrip lib left out Contents.cdmaBroadcasts 12 (responseCdmaBrSmsCnf out)
        (dispatchCdmaBrSmsCnf lib cfg) .cdmaBrSmsCnf := by
  constructor
  · exact roundTrip hp .gsmBrSmsCnf (by decide) (fun _ => rfl) hgsm
      (responseGsmBrSmsCnf_puts ho) (readGsmBroadcast_takes hp)
  · exact roundTrip hp .cdmaBrSmsCnf (by decide) (fun _ => rfl) hcdma
      (responseCdmaBrSmsCnf_puts ho) (readCdmaBroadcast_takes hp)

end

/-! ## On a stack of one megabyte -/

theorem brSmsCnf_roundTrip_bytesParcel :
    RoundTrip Requests.bytesParcel id bytesOutParcel Contents.gsmBroadcasts 20
        (responseGsmBrSmsCnf bytesOutParcel)
        (dispatchGsmBrSmsCnf Requests.bytesParcel { Requests.exampleConfig with stack := 2 ^ 20 })
        .gsmBrSmsCnf ∧
      RoundTrip Requests.bytesParcel id bytesOutParcel Contents.cdmaBroadcasts 12
        (responseCdmaBrSmsCnf bytesOutParcel)
        (dispatchCdmaBrSmsCnf Requests.bytesParcel { Requests.exampleConfig with stack := 2 ^ 20 })
        .cdmaBrSmsCnf :=
  brSmsCnf_roundTrip bytesParcel_padded bytesOutParcel_lawful
    { Requests.exampleConfig with stack := 2 ^ 20 } (by decide) (by decide)

end Twm.Ril.Response
