import DeviceTwm.Lib.Writing
import DeviceTwm.Ril.InvalidResponses

/-!
# The packets of solicited responses

The models of the command socket and of the list of requests take what a response function puts in
the parcel as any bytes (`Payload`, `solicited`). Here the functions are the ones of `s_commands`: a
packet that `RIL_onRequestComplete` sends is of this form (`packet_solicited`), since no response
function touches what is in front of its own writes (`responseFunction_extends`).
-/

open Lib

namespace Twm.Ril.Response

/-- The other writes append too, when they are at the end. -/
structure OutParcel.Appends {P : Type} (lib : OutParcel P) : Prop extends lib.Lawful where
  write : ∀ d len p, AtEnd lib p →
    lib.data p <+: lib.data (lib.write d len p) ∧ AtEnd lib (lib.write d len p)
  writeString16 : ∀ s p, AtEnd lib p →
    lib.data p <+: lib.data (lib.writeString16 s p) ∧ AtEnd lib (lib.writeString16 s p)

section

variable {P : Type} {lib : OutParcel P} (hl : lib.Appends)

include hl

theorem writeInt32_extends (t : Int32) : Extends lib.data (AtEnd lib) (writeInt32 lib t) :=
  .modify fun p h => by
    obtain ⟨hdata, hend⟩ := hl.append t h
    exact ⟨⟨_, hdata.symm⟩, hend⟩

theorem writeStringToParcel_extends (s : CString) :
    Extends lib.data (AtEnd lib) (writeStringToParcel lib s) :=
  .modify fun p h => hl.writeString16 _ p h

theorem write_extends (d : Nat → UInt8) (len : UInt32) :
    Extends lib.data (AtEnd lib) (modify (lib.write d len) : StateT P Option PUnit) :=
  .modify fun p h => hl.write d len p h

variable (build : Build) (response : Option Contents) (responselen : UInt32)

omit hl in
theorem loop_extends (num : Int32) {f : Nat → StateT P Option Unit}
    (hf : ∀ i, Extends lib.data (AtEnd lib) (f i)) : Extends lib.data (AtEnd lib) (loop num f) :=
  .forM hf _

omit hl in
/-- The tests write nothing, whatever they are. -/
theorem checkArray_extends (size : UInt32) {rest : StateT P Option Int}
    (h : Extends lib.data (AtEnd lib) rest) :
    Extends lib.data (AtEnd lib) (checkArray response responselen size rest) :=
  .ite (.pure _) (.ite (.pure _) h)

omit hl in
theorem checkStruct_extends (size : UInt32) {rest : StateT P Option Int}
    (h : Extends lib.data (AtEnd lib) rest) :
    Extends lib.data (AtEnd lib) (checkStruct response responselen size rest) :=
  .ite (.pure _) (.ite (.pure _) h)

theorem responseStringsSearch_extends (networkSearch : Bool) :
    Extends lib.data (AtEnd lib)
      (responseStringsSearch lib build response responselen networkSearch) := by
  have int := writeInt32_extends hl
  have str := writeStringToParcel_extends hl
  refine checkArray_extends response responselen 4 ?_
  split
  · exact (int _).bind fun _ => .pure _
  · dsimp only
    split
    · refine (int _).bind fun _ => .bind (.foldlM (fun sCount i => ?_) _ _) fun _ => .pure _
      exact .ite (.pure _) ((str _).bind fun _ => .pure _)
    · exact (int _).bind fun _ => (loop_extends _ fun _ => str _).bind fun _ => .pure _

theorem writeUus_extends (p_cur : RilCall) :
    Extends lib.data (AtEnd lib) (writeUus lib build p_cur) := by
  have int := writeInt32_extends hl
  unfold writeUus
  split
  · exact int _
  · exact (int _).bind fun _ => (int _).bind fun _ => (int _).bind fun _ => (int _).bind fun _ =>
      write_extends hl _ _

/-- A response function keeps what is in the parcel. -/
theorem responseFunction_extends (f : ResponseFunction) :
    Extends lib.data (AtEnd lib) (responseFunction lib build response responselen f) := by
  have int := writeInt32_extends hl
  have str := writeStringToParcel_extends hl
  have deref : Extends lib.data (AtEnd lib) (deref response : StateT P Option Contents) :=
    .lift response
  cases f with
  | simStatus =>
    refine checkArray_extends response responselen 4 <| deref.bind fun _ => (int _).bind fun _ =>
      (int _).bind fun _ => (int _).bind fun _ => (int _).bind fun _ => (int _).bind fun _ =>
      (loop_extends _ fun _ => ?_).bind fun _ => .pure _
    exact (int _).bind fun _ => (int _).bind fun _ => (int _).bind fun _ => (str _).bind fun _ =>
      (str _).bind fun _ => (int _).bind fun _ => (int _).bind fun _ => int _
  | ints =>
    exact checkArray_extends response responselen 4 <| (int _).bind fun _ =>
      (loop_extends _ fun _ => deref.bind fun _ => int _).bind fun _ => .pure _
  | callList =>
    refine checkArray_extends response responselen 4 <| (int _).bind fun _ =>
      (loop_extends _ fun _ => deref.bind fun _ => ?_).bind fun _ => .pure _
    exact (int _).bind fun _ => (int _).bind fun _ => (int _).bind fun _ => (int _).bind fun _ =>
      (int _).bind fun _ => (int _).bind fun _ => (int _).bind fun _ => (int _).bind fun _ =>
      (str _).bind fun _ => (int _).bind fun _ => (str _).bind fun _ => (int _).bind fun _ =>
      writeUus_extends hl build _
  | void => exact .pure _
  | string => exact (str _).bind fun _ => .pure _
  | rilSignalStrength =>
    refine .ite (.pure _) (.ite ?_ (.ite ?_ (.pure _)))
    · exact deref.bind fun _ => (int _).bind fun _ => (int _).bind fun _ => (int _).bind fun _ =>
        (int _).bind fun _ => (int _).bind fun _ => (int _).bind fun _ => (int _).bind fun _ =>
        .pure _
    · exact .bind (.forM (fun _ => deref.bind fun _ => int _) _) fun _ =>
        .bind (.forM (fun _ => int _) _) fun _ => .pure _
  | strings => exact responseStringsSearch_extends hl build response responselen false
  | sms =>
    exact checkStruct_extends response responselen _ <| deref.bind fun _ => (int _).bind fun _ =>
      (str _).bind fun _ => (int _).bind fun _ => .pure _
  | simIo =>
    exact checkStruct_extends response responselen _ <| deref.bind fun _ => (int _).bind fun _ =>
      (int _).bind fun _ => (str _).bind fun _ => .pure _
  | callForwards =>
    exact checkArray_extends response responselen 4 <| (int _).bind fun _ =>
      (loop_extends _ fun _ => deref.bind fun _ => (int _).bind fun _ => (int _).bind fun _ =>
        (int _).bind fun _ => (int _).bind fun _ => (str _).bind fun _ => int _).bind fun _ => .pure _
  | stringsNetworks => exact responseStringsSearch_extends hl build response responselen true
  | dataCallList =>
    exact checkArray_extends response responselen _ <| (int _).bind fun _ =>
      (loop_extends _ fun _ => deref.bind fun _ => (int _).bind fun _ => (int _).bind fun _ =>
        (str _).bind fun _ => (str _).bind fun _ => str _).bind fun _ => .pure _
  | raw =>
    refine .ite (.pure _) ?_
    split
    · exact (int _).bind fun _ => .pure _
    · exact (int _).bind fun _ => (write_extends hl _ _).bind fun _ => .pure _
  | cellList =>
    exact checkArray_extends response responselen 4 <| (int _).bind fun _ =>
      (loop_extends _ fun _ => deref.bind fun _ => (int _).bind fun _ => str _).bind fun _ => .pure _
  | gsmBrSmsCnf =>
    exact (int _).bind fun _ => (loop_extends _ fun _ => deref.bind fun _ => (int _).bind fun _ =>
      (int _).bind fun _ => (int _).bind fun _ => (int _).bind fun _ => int _).bind fun _ => .pure _
  | cdmaBrSmsCnf =>
    exact (int _).bind fun _ => (loop_extends _ fun _ => deref.bind fun _ => (int _).bind fun _ =>
      (int _).bind fun _ => int _).bind fun _ => .pure _

/-- What `RIL_onRequestComplete` sends is the packet of a payload, with what the response function
returned. -/
theorem packet_solicited (pRI : Requests.RequestInfo) (e : Int32) (c : Completed)
    (h : onRequestComplete lib build response responselen pRI e = some c) {packet : List UInt8}
    (hpacket : c.packet = some packet) :
    ∃ bytes, packet = solicited pRI.token.toUInt32.toNat e.toUInt32.toNat
      (c.ret.map fun ret => ⟨bytes, (Int32.ofInt ret).toUInt32.toNat⟩) := by
  obtain ⟨hdata, hend, -⟩ := data_solicitedHeader hl.toLawful pRI.token e
  rcases onRequestComplete_cases h with rfl | rfl | ⟨passed, f, ret, p', hrun, rfl⟩
  · cases hpacket
  · cases hpacket
    exact ⟨[], hdata⟩
  · obtain ⟨⟨bytes, hbytes⟩, -⟩ :=
      responseFunction_extends hl build passed responselen f _ _ _ hend hrun
    cases hpacket
    rcases responseFunction_clean lib build passed responselen f _ _ _ hrun with h0 | ⟨hret, rfl⟩
    · refine ⟨bytes, ?_⟩
      subst h0
      rw [if_neg (not_not.mpr rfl), ← hbytes, hdata]
      rfl
    · refine ⟨[], ?_⟩
      subst hret
      rw [if_pos (by decide), data_rewind hl.toLawful]
      rfl

end

theorem overwrite_prefix {p : List UInt8 × Nat} (h : p.2 = p.1.length) (d : List UInt8) :
    p.1 <+: overwrite p.1 p.2 d ∧ p.2 + d.length = (overwrite p.1 p.2 d).length := by
  rw [h, overwrite_length, List.length_append]
  exact ⟨List.prefix_append _ _, rfl⟩

theorem bytesOutParcel_appends : bytesOutParcel.Appends where
  toLawful := bytesOutParcel_lawful
  write d len p h := by
    have hw := overwrite_prefix h ((List.range (Requests.padSize len.toNat)).map fun i =>
      if i < len.toNat then d i else 0)
    rwa [List.length_map, List.length_range] at hw
  writeString16 s p h := by
    cases s with
    | none => exact overwrite_prefix h (Ril.writeInt32 (-1))
    | some s =>
      have hb : (s.flatMap fun c => [c.toUInt8, (c / 256).toUInt8]).length = 2 * s.length := by
        rw [List.length_flatMap]
        show (s.map fun _ => 2).sum = 2 * s.length
        rw [List.map_const', List.sum_replicate_nat, Nat.mul_comm]
      have hpad : 2 * s.length ≤ Requests.padSize (2 * (s.length + 1)) := by
        rw [Requests.padSize]
        omega
      simp only [bytesOutParcel, AtEnd] at h ⊢
      generalize (s.flatMap fun c => [c.toUInt8, (c / 256).toUInt8]) = b at hb ⊢
      have hw := overwrite_prefix h (le32 s.length ++ b ++
        List.replicate (Requests.padSize (2 * (s.length + 1)) - b.length) 0)
      refine ⟨hw.1, ?_⟩
      rw [← hw.2]
      simp only [List.length_append, length_le32, List.length_replicate, hb]
      omega

end Twm.Ril.Response
