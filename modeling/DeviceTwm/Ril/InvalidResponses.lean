import DeviceTwm.Ril.ResponseFunctions

/-!
# Invalid responses

When a response function returns an error, `RIL_onRequestComplete` goes back to `errorOffset` and
writes the error there. What was written after it would stay in the packet, since `setDataPosition`
does not make the parcel shorter.

`rejected_packet`: the packet ends with the error, whatever the request and the response. The reason
is that no function of `s_commands` writes anything before it returns an error
(`responseFunction_clean`).
-/

open Lib

namespace Twm.Ril.Response

variable {P : Type}

/-! ## Errors before writes -/

/-- No error, or `RIL_ERRNO_INVALID_RESPONSE` with the parcel as it was. -/
def Clean (x : StateT P Option Int) : Prop :=
  ∀ p ret p', x.run p = some (ret, p') → ret = 0 ∨ ret = RIL_ERRNO_INVALID_RESPONSE ∧ p' = p

/-- No error is returned. -/
def Succeeds (x : StateT P Option Int) : Prop := ∀ p ret p', x.run p = some (ret, p') → ret = 0

namespace Succeeds

theorem zero : Succeeds (return 0 : StateT P Option Int) := by
  intro p ret p' h
  cases h
  rfl

theorem bind {α : Type} {x : StateT P Option α} {f : α → StateT P Option Int}
    (hf : ∀ a, Succeeds (f a)) : Succeeds (x >>= f) := by
  intro p ret p' h
  rw [StateT.run_bind] at h
  obtain ⟨⟨a, q⟩, -, hq⟩ := Option.bind_eq_some_iff.mp h
  exact hf a q ret p' hq

end Succeeds

namespace Clean

variable {x y : StateT P Option Int}

theorem of_succeeds (h : Succeeds x) : Clean x := fun p ret p' hx => .inl (h p ret p' hx)

theorem error : Clean (return RIL_ERRNO_INVALID_RESPONSE : StateT P Option Int) := by
  intro p ret p' h
  cases h
  exact .inr ⟨rfl, rfl⟩

theorem ite {c : Prop} [Decidable c] (hx : Clean x) (hy : Clean y) :
    Clean (if c then x else y) := by
  split
  · exact hx
  · exact hy

theorem checkArray {response : Option Contents} {responselen size : UInt32} (h : Succeeds x) :
    Clean (checkArray response responselen size x) :=
  .ite .error (.ite .error (.of_succeeds h))

theorem checkStruct {response : Option Contents} {responselen size : UInt32} (h : Succeeds x) :
    Clean (checkStruct response responselen size x) :=
  .ite .error (.ite .error (.of_succeeds h))

end Clean

/-! ## The functions of `s_commands` -/

section

variable (lib : OutParcel P) (build : Build) (response : Option Contents) (responselen : UInt32)

theorem responseStringsSearch_clean (networkSearch : Bool) :
    Clean (responseStringsSearch lib build response responselen networkSearch) := by
  refine .checkArray ?_
  split
  · exact .bind fun _ => .zero
  · dsimp only
    split
    · exact .bind fun _ => .bind fun _ => .zero
    · exact .bind fun _ => .bind fun _ => .zero

theorem responseRaw_clean : Clean (responseRaw lib response responselen) := by
  refine .ite .error (.of_succeeds ?_)
  split
  · exact .bind fun _ => .zero
  · exact .bind fun _ => .bind fun _ => .zero

theorem responseRilSignalStrength_clean :
    Clean (responseRilSignalStrength lib build response responselen) := by
  refine .ite .error (.ite (.of_succeeds ?_) (.ite (.of_succeeds ?_) .error))
  · exact .bind fun _ => .bind fun _ => .bind fun _ => .bind fun _ => .bind fun _ =>
      .bind fun _ => .bind fun _ => .bind fun _ => .zero
  · exact .bind fun _ => .bind fun _ => .zero

theorem responsePointers_succeeds {α : Type} (info : Contents → Nat → α)
    (write : α → StateT P Option Unit) :
    Succeeds (responsePointers lib response responselen info write) :=
  .bind fun _ => .bind fun _ => .zero

/-- A response function that returns an error has written nothing. -/
theorem responseFunction_clean (f : ResponseFunction) :
    Clean (responseFunction lib build response responselen f) := by
  cases f with
  | simStatus =>
    exact .checkArray <| .bind fun _ => .bind fun _ => .bind fun _ => .bind fun _ =>
      .bind fun _ => .bind fun _ => .bind fun _ => .zero
  | ints => exact .checkArray <| .bind fun _ => .bind fun _ => .zero
  | callList => exact .checkArray <| .bind fun _ => .bind fun _ => .zero
  | void => exact .of_succeeds .zero
  | string => exact .of_succeeds <| .bind fun _ => .zero
  | rilSignalStrength => exact responseRilSignalStrength_clean lib build response responselen
  | strings => exact responseStringsSearch_clean lib build response responselen false
  | sms =>
    exact .checkStruct <| .bind fun _ => .bind fun _ => .bind fun _ => .bind fun _ => .zero
  | simIo =>
    exact .checkStruct <| .bind fun _ => .bind fun _ => .bind fun _ => .bind fun _ => .zero
  | callForwards => exact .checkArray <| .bind fun _ => .bind fun _ => .zero
  | stringsNetworks => exact responseStringsSearch_clean lib build response responselen true
  | dataCallList => exact .checkArray <| .bind fun _ => .bind fun _ => .zero
  | raw => exact responseRaw_clean lib response responselen
  | cellList => exact .checkArray <| .bind fun _ => .bind fun _ => .zero
  | gsmBrSmsCnf =>
    rw [responseFunction, responseGsmBrSmsCnf]
    exact .of_succeeds (responsePointers_succeeds lib response responselen _ _)
  | cdmaBrSmsCnf =>
    rw [responseFunction, responseCdmaBrSmsCnf]
    exact .of_succeeds (responsePointers_succeeds lib response responselen _ _)

end

/-! ## The packet -/

section

variable {lib : OutParcel P} (hl : lib.Lawful)

include hl

theorem data_solicitedHeader (token e : Int32) :
    lib.data (solicitedHeader lib token e).1 =
        Ril.writeInt32 RESPONSE_SOLICITED ++ Ril.writeInt32 token ++ Ril.writeInt32 e ∧
      AtEnd lib (solicitedHeader lib token e).1 ∧ (solicitedHeader lib token e).2 = 8 := by
  have hempty : AtEnd lib lib.empty := by
    rw [AtEnd, hl.position_empty, hl.data_empty]
    rfl
  obtain ⟨h₁, hp₁⟩ := hl.append RESPONSE_SOLICITED hempty
  obtain ⟨h₂, hp₂⟩ := hl.append token hp₁
  obtain ⟨h₃, hp₃⟩ := hl.append e hp₂
  refine ⟨?_, hp₃, ?_⟩
  · simp only [solicitedHeader]
    rw [h₃, h₂, h₁, hl.data_empty, List.nil_append]
  · simp only [solicitedHeader]
    rw [hl.position_writeInt32, hl.position_writeInt32, hl.position_empty]

/-- The error takes the place of `e`, and nothing comes after it. -/
theorem data_rewind (token e ret : Int32) :
    lib.data (lib.writeInt32 ret
        (lib.setDataPosition (solicitedHeader lib token e).2 (solicitedHeader lib token e).1)) =
      Ril.writeInt32 RESPONSE_SOLICITED ++ Ril.writeInt32 token ++ Ril.writeInt32 ret := by
  obtain ⟨hd, -, hoff⟩ := data_solicitedHeader hl token e
  rw [hl.data_writeInt32, hl.position_setDataPosition, hl.data_setDataPosition, hd, hoff]
  rfl

end

/-- How a call of `RIL_onRequestComplete` goes: nothing is sent, or the parcel as it is before the
response, or with what the response function makes of it. -/
theorem onRequestComplete_cases {lib : OutParcel P} {build : Build} {response : Option Contents}
    {responselen : UInt32} {pRI : Requests.RequestInfo} {e : Int32} {c : Completed}
    (h : onRequestComplete lib build response responselen pRI e = some c) :
    c = ⟨none, none⟩ ∨ c = ⟨none, some (lib.data (solicitedHeader lib pRI.token e).1)⟩ ∨
      ∃ passed f ret p', (responseFunction lib build passed responselen f).run
          (solicitedHeader lib pRI.token e).1 = some (ret, p') ∧
        c = ⟨some ret, some (lib.data (if ret ≠ 0 then lib.writeInt32 (Int32.ofInt ret)
          (lib.setDataPosition (solicitedHeader lib pRI.token e).2 p') else p'))⟩ := by
  unfold onRequestComplete at h
  split at h
  · cases h
    exact .inl rfl
  dsimp only at h
  generalize (if pRI.request = RIL_REQUEST_BASEBAND_VERSION then _ else response) = passed at h
  split at h
  · cases h
    exact .inl rfl
  split at h
  · cases h
    exact .inr (.inl rfl)
  obtain ⟨f, -, hf⟩ := Option.bind_eq_some_iff.mp h
  obtain ⟨⟨ret, p'⟩, hrun, hsent⟩ := Option.bind_eq_some_iff.mp hf
  refine .inr (.inr ⟨passed, f, ret, p', hrun, ?_⟩)
  dsimp only at hsent
  split at hsent
  · next hne =>
    cases hsent
    rw [if_pos hne]
  · next heq =>
    cases hsent
    rw [if_neg heq]

section

variable {lib : OutParcel P} (hl : lib.Lawful)

include hl

/-- **Invalid responses.** When the response function of a request returns an error, the packet is
`RESPONSE_SOLICITED`, the token and this error. -/
theorem rejected_packet (build : Build) (response : Option Contents) (responselen : UInt32)
    (pRI : Requests.RequestInfo) (e : Int32) (c : Completed) (ret : Int)
    (h : onRequestComplete lib build response responselen pRI e = some c)
    (hret : c.ret = some ret) (hne : ret ≠ 0) :
    c.packet = some (Ril.writeInt32 RESPONSE_SOLICITED ++ Ril.writeInt32 pRI.token ++
      Ril.writeInt32 (Int32.ofInt ret)) := by
  rcases onRequestComplete_cases h with rfl | rfl | ⟨passed, f, ret', p', hrun, rfl⟩
  · cases hret
  · cases hret
  · cases hret
    have hclean := responseFunction_clean lib build passed responselen f _ _ _ hrun
    rw [if_pos hne, (hclean.resolve_left hne).2]
    exact congrArg some (data_rewind hl pRI.token e (Int32.ofInt ret))

end

/-- `RIL_REQUEST_SEND_SMS` is completed with a response that is too short. -/
theorem rejected_sendSms :
    ∃ c, onRequestComplete bytesOutParcel exampleBuild (some default) 4
        ⟨1, 0, 7, 25, false, false⟩ 0 = some c ∧
      c.packet = some (Ril.writeInt32 RESPONSE_SOLICITED ++ Ril.writeInt32 7 ++
        Ril.writeInt32 (-1)) := by
  have hrun : onRequestComplete bytesOutParcel exampleBuild (some default) 4
      ⟨1, 0, 7, 25, false, false⟩ 0 =
        some ⟨some (-1), some [0, 0, 0, 0, 7, 0, 0, 0, 255, 255, 255, 255]⟩ := by
    decide +kernel
  refine ⟨_, hrun, ?_⟩
  exact rejected_packet bytesOutParcel_lawful exampleBuild (some default) 4
    ⟨1, 0, 7, 25, false, false⟩ 0 _ (-1) hrun rfl (by decide)

end Twm.Ril.Response
