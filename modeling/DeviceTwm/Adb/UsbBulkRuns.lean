import DeviceTwm.Adb.UsbBulk

/-!
# Runs of the bulk transfers

* `SameOut`, `SameIn`: most steps touch one direction only, and keep what is known of the other.
* `step_inv`: what every step keeps.
* `bulk_good`: what holds in every run. A call of `usb_write` that returns 0 has sent what it was given,
  but for bytes of its last transfer in one case: that has as many bytes as `ETIMEDOUT` is, it fails, and
  the wait that ended it has timed out.
-/

open Lib

namespace Twm.Adb.UsbBulk

variable {s : Sys} {c : WriteCall} {base n : Nat}

namespace WriteCall

theorem length_chunk (c : WriteCall) : c.chunk.length = c.xfer := by
  rw [chunk, List.length_take, List.length_drop, Nat.min_eq_left]
  exact Nat.min_le_right _ _

theorem xfer_eq_zero (h : ¬ c.done < c.data.length) : c.xfer = 0 := by
  rw [xfer, Nat.sub_eq_zero_of_le (Nat.not_lt.mp h), Nat.min_zero]

theorem xfer_le (h : c.done ≤ c.data.length) : c.done + c.xfer ≤ c.data.length := by
  have : c.xfer ≤ c.data.length - c.done := Nat.min_le_right _ _
  omega

/-- A transfer that does not come to the end is a whole one. -/
theorem xfer_eq (h : c.done + c.xfer < c.data.length) : c.xfer = chunkSize := by
  rw [xfer] at h ⊢
  omega

theorem Valid.le_length {late : Bool} (h : c.Valid base late) : base ≤ c.data.length := by
  rcases Nat.lt_or_eq_of_le h.le with hlt | heq
  · rw [(h.middle hlt).1]
    exact h.le
  · rcases h.last heq with h | h
    · exact Nat.le_of_eq h
    · exact h.1

theorem Valid.add_le {late : Bool} (h : c.Valid base late) : base + c.xfer ≤ c.data.length := by
  rcases Nat.lt_or_eq_of_le h.le with hlt | heq
  · rw [(h.middle hlt).1]
    exact xfer_le h.le
  · rw [xfer_eq_zero (by omega)]
    exact h.le_length

/-- The bytes of a transfer come directly after those before it. -/
theorem Valid.take_chunk {late : Bool} (h : c.Valid base late) {a : Nat} (ha : a ≤ c.chunk.length) :
    c.data.take base ++ c.chunk.take a = c.data.take (base + a) := by
  rw [length_chunk] at ha
  rcases Nat.lt_or_eq_of_le h.le with hlt | heq
  · rw [(h.middle hlt).1, chunk, List.take_take, Nat.min_eq_left ha, List.take_add]
  · rw [xfer_eq_zero (by omega)] at ha
    obtain rfl : a = 0 := by omega
    rw [List.take_zero, List.append_nil, Nat.add_zero]

end WriteCall

theorem sentBytes_snoc (ws : List Written) (w : Written) :
    sentBytes (ws ++ [w]) = sentBytes ws ++ w.data.take w.sent := by
  rw [sentBytes, List.flatMap_append, List.flatMap_singleton]
  rfl

/-- What is known when the writer does not wait. -/
structure Between (s : Sys) (data : List UInt8) : Prop where
  quiet : s.dead = false → Quiet s
  dead : s.dead = true → ∀ d, s.kernelOut ≠ .flying d
  taken : s.taken = sentBytes s.writes ++ data.take s.sent
  writes : ∀ w ∈ s.writes, w.Ok

/-- `usb_write` returns. -/
theorem Between.returns (hb : Between s c.data) {k : Int}
    (hok : Written.Ok ⟨c.data, s.sent, s.late, k⟩) : WriteInv (s.write (.returns c k)) where
  writer := ⟨rfl, fun hd => ⟨(hb.quiet hd).kernel, (hb.quiet hd).reader, (hb.quiet hd).busy⟩⟩
  dead := hb.dead
  taken := by
    change s.taken = sentBytes (s.writes ++ [_]) ++ [].take 0
    rw [sentBytes_snoc, hb.taken, List.take_nil, List.append_nil]
  writes w hw := by
    rcases List.mem_append.mp hw with hw | hw
    · exact hb.writes w hw
    · cases List.mem_singleton.mp hw
      exact hok

/-- `usb_write` goes on at the head of its loop. -/
theorem Between.go (hb : Between s c.data) (hv : c.Valid s.sent s.late) :
    WriteInv (s.write c.go) := by
  rw [WriteCall.go]
  split
  · exact ⟨⟨hv, fun hd => ⟨(hb.quiet hd).kernel, (hb.quiet hd).reader, (hb.quiet hd).busy⟩⟩, hb.dead,
      hb.taken, hb.writes⟩
  · next h =>
    have heq : c.done = c.data.length := by
      have := hv.le
      omega
    exact hb.returns ⟨hv.le_length, fun _ => (hv.last heq).imp_right And.right⟩

/-- A transfer has ended with `k`. -/
theorem Between.next {late : Bool} {k : Int} (hb : Between s c.data) (hv : c.Valid base late)
    (hlate : ¬ c.done < c.data.length → late = true → s.late = true) (hle : base ≤ s.sent) (hsent : s.sent ≤ base + c.xfer)
    (hk : c.done < c.data.length → k = c.xfer → s.sent = base + c.xfer ∨ s.late = true ∧ k = 110) :
    WriteInv (s.write (c.next k)) := by
  have hmax : s.sent ≤ c.data.length := Nat.le_trans hsent hv.add_le
  rw [WriteCall.next]
  split
  case isTrue hlt =>
    obtain ⟨rfl, hdvd⟩ := hv.middle hlt
    split
    case isTrue hx =>
      refine hb.go (c := { c with done := c.done + c.xfer }) ⟨WriteCall.xfer_le hv.le, fun hlt' => ?_,
        fun heq => ?_⟩
      · have hwhole : c.xfer = chunkSize := WriteCall.xfer_eq hlt'
        rcases hk hlt hx with h | ⟨-, h⟩
        · exact ⟨h, Nat.dvd_add hdvd (hwhole ▸ Nat.dvd_refl _)⟩
        · rw [hwhole, h] at hx
          exact absurd hx (by decide)
      · rcases hk hlt hx with h | ⟨hl, h⟩
        · exact .inl (h.trans heq)
        · have h110 : c.xfer = 110 := by omega
          change c.done + c.xfer = c.data.length at heq
          refine .inr ⟨hmax, hl, ?_, ?_⟩
          · obtain ⟨m, hm⟩ := hdvd
            rw [← heq, h110, hm, Nat.mul_add_mod]
            decide
          · -- the transfers before have gone out as a whole
            change c.data.length ≤ s.sent + 110
            omega
    case isFalse => exact hb.returns ⟨hmax, fun h => absurd h (by decide : ¬ (-1 : Int) = 0)⟩
  case isFalse hge =>
    have heq : c.done = c.data.length := Nat.le_antisymm hv.le (Nat.not_lt.mp hge)
    have hsame : s.sent = base := by
      rw [WriteCall.xfer_eq_zero hge] at hsent
      omega
    refine hb.returns ⟨hmax, fun _ => ?_⟩
    change s.sent = _ ∨ _
    rw [hsame]
    exact (hv.last heq).imp_right fun h => ⟨hlate hge h.2.1, h.2.2⟩

/-! ## What each step does to what goes out -/

variable {s' : Sys} {rc : ReadCall}

/-- Nothing that goes out is touched. -/
structure SameOut (s s' : Sys) : Prop where
  dead : s'.dead = s.dead
  kernel : s'.kernelOut = s.kernelOut
  urb : s'.urbOut = s.urbOut
  busy : s'.urbOutBusy = s.urbOutBusy
  writer : s'.writer = s.writer
  sent : s'.sent = s.sent
  late : s'.late = s.late
  taken : s'.taken = s.taken
  writes : s'.writes = s.writes
  reader : s.dead = false → s'.reader.hasOut = s.reader.hasOut

theorem SameOut.quiet (h : SameOut s s') (hd : s.dead = false) (hq : Quiet s) : Quiet s' :=
  ⟨h.kernel.trans hq.kernel, (h.reader hd).trans hq.reader, h.busy.trans hq.busy⟩

theorem SameOut.underway (h : SameOut s s') (hd : s.dead = false) (hu : Underway s c base) :
    Underway s' c base := by
  have hr := h.reader hd
  cases hu with
  | flying hk hrd hb hs =>
    exact .flying (h.kernel.trans hk) (hr.trans hrd) (h.busy.trans hb) (h.sent.trans hs)
  | completed u hk hrd hb hs =>
    exact .completed u (h.kernel.trans hk) (hr.trans hrd) (h.busy.trans hb) (h.sent.trans hs)
  | reaped hk hrd hb hs =>
    refine .reaped (h.kernel.trans hk) (hr.trans hrd) (h.busy.trans hb) (h.sent.trans ?_)
    rw [hs, h.urb]
  | handled hk hrd hb hs =>
    refine .handled (h.kernel.trans hk) (hr.trans hrd) (h.busy.trans hb) (h.sent.trans ?_)
    rw [hs, h.urb]

theorem SameOut.inv (h : SameOut s s') (hi : WriteInv s) : WriteInv s' where
  writer := by
    have hw := hi.writer
    unfold WriterInv at hw ⊢
    rw [h.writer, h.sent, h.late, h.dead]
    split at hw
    · exact ⟨hw.1, fun hd => h.quiet hd (hw.2 hd)⟩
    · exact ⟨hw.1, fun hd => h.quiet hd (hw.2 hd)⟩
    · obtain ⟨base, hv, hle, hlt, hu⟩ := hw
      exact ⟨base, hv, hle, hlt, fun hd => h.underway hd (hu hd)⟩
  dead := by rw [h.dead, h.kernel]; exact hi.dead
  taken := by rw [h.taken, h.writes, h.writer, h.sent]; exact hi.taken
  writes := by rw [h.writes]; exact hi.writes

/-- The reader goes on, and has no completion in its hands. -/
theorem sameOut_read (nx : Next ReadCall) (h : s.dead = false → s.reader.hasOut = false) :
    SameOut s (s.read nx) := by
  cases nx <;> exact ⟨rfl, rfl, rfl, rfl, rfl, rfl, rfl, rfl, rfl, fun hd => (h hd).symm⟩

theorem WriteInv.usbWrite (hi : WriteInv s) (hw : s.writer = .idle) (data : List UInt8) :
    WriteInv (s.usbWrite data) := by
  have hwi := hi.writer
  have ht := hi.taken
  rw [WriterInv, hw] at hwi
  rw [hw] at ht
  have hb : Between s data := ⟨hwi.2, hi.dead, by rw [ht, hwi.1]; rfl, hi.writes⟩
  refine hb.go (c := ⟨data, 0, _⟩) ⟨Nat.zero_le _, fun _ => ⟨hwi.1, Nat.dvd_zero _⟩, fun h => .inl ?_⟩
  exact hwi.1.trans h

/-- The writer is between two transfers. -/
theorem WriteInv.between (hi : WriteInv s) (hw : s.writer = .ready c) :
    Between s c.data ∧ c.Valid s.sent s.late := by
  have hwi := hi.writer
  have ht := hi.taken
  rw [WriterInv, hw] at hwi
  rw [hw] at ht
  exact ⟨⟨hwi.2, hi.dead, ht, hi.writes⟩, hwi.1⟩

theorem WriteInv.bulkWrite (hi : WriteInv s) (hw : s.writer = .ready c) (ok : Bool) :
    ∃ s', s.bulkWrite c ok = some s' ∧ WriteInv s' := by
  obtain ⟨hb, hv⟩ := hi.between hw
  have hb₁ : Between { s with urbOut := ⟨-1, 0⟩ } c.data :=
    ⟨fun hd => ⟨(hb.quiet hd).kernel, (hb.quiet hd).reader, (hb.quiet hd).busy⟩, hb.dead, hb.taken,
      hb.writes⟩
  have hfail := hb₁.next hv (fun _ => id) (Nat.le_refl _) (Nat.le_add_right _ _) (k := -1)
    (fun _ h => absurd h (by omega))
  rw [Sys.bulkWrite]
  by_cases hd : s.dead = true
  · rw [if_pos hd]
    exact ⟨_, rfl, hfail⟩
  rw [if_neg hd]
  cases ok with
  | false => exact ⟨_, rfl, hfail⟩
  | true =>
    have hq := hb.quiet (Bool.not_eq_true _ ▸ hd)
    dsimp only
    rw [if_pos rfl, hq.kernel]
    refine ⟨_, rfl, ?_, fun hd' => absurd hd' hd, hb.taken, hb.writes⟩
    exact ⟨s.sent, hv, Nat.le_refl _, Nat.le_add_right _ _, fun _ => .flying rfl hq.reader rfl rfl⟩

theorem WriteInv.wake (hi : WriteInv s) (hw : s.writer = .waiting c) (timedOut : Bool) :
    WriteInv (s.wake c timedOut) := by
  have hwi := hi.writer
  have ht := hi.taken
  rw [WriterInv, hw] at hwi
  rw [hw] at ht
  obtain ⟨base, hv, hle, hlt, hu⟩ := hwi
  set late := if c.done < c.data.length then timedOut else s.late
  -- what is returned if there is no completion, or one with an error
  have hres : c.done < c.data.length → (if timedOut then ETIMEDOUT else 0) = (c.xfer : Int) →
      s.sent = base + c.xfer ∨ late = true ∧ (if timedOut then ETIMEDOUT else 0) = (110 : Int) := by
    intro hdata h
    cases timedOut with
    | true => exact .inr ⟨if_pos hdata, rfl⟩
    | false =>
      refine .inl ?_
      change (0 : Int) = c.xfer at h
      omega
  have hlate : ¬ c.done < c.data.length → s.late = true → late = true := fun hmark h =>
    (if_neg hmark).trans h
  rw [Sys.wake]
  by_cases hd : s.dead = true
  · have hb : Between { s with late := late } c.data :=
      ⟨fun hf => absurd (hd.symm.trans hf) nofun, hi.dead, ht, hi.writes⟩
    rw [if_pos hd]
    exact hb.next hv hlate hle hlt hres
  rw [if_neg hd]
  by_cases hbusy : s.urbOutBusy = true
  · rw [if_pos hbusy]
    exact hi
  rw [if_neg hbusy]
  have hd' : s.dead = false := Bool.not_eq_true _ ▸ hd
  cases hu hd' with
  | flying _ _ hb _ => exact absurd hb hbusy
  | completed _ _ _ hb _ => exact absurd hb hbusy
  | reaped _ _ hb _ => exact absurd hb hbusy
  | handled hk hrd hb hs =>
    have hbt : Between { s with late := late } c.data :=
      ⟨fun _ => ⟨hk, hrd, hb⟩, hi.dead, ht, hi.writes⟩
    refine hbt.next hv hlate hle hlt fun hdata h => ?_
    split at h
    · refine .inl ?_
      change s.sent = _
      omega
    · split
      · contradiction
      · exact hres hdata h

/-- A request that is on its way out belongs to the writer. -/
theorem WriteInv.flying (hi : WriteInv s) {d : List UInt8} (hk : s.kernelOut = .flying d) :
    s.dead = false ∧ ∃ c, s.writer = .waiting c ∧ d = c.chunk ∧ c.Valid s.sent s.late ∧
      s.reader.hasOut = false ∧ s.urbOutBusy = true := by
  have hd : s.dead = false := by
    by_contra hd
    exact hi.dead (Bool.not_eq_false _ ▸ hd) d hk
  have hwi := hi.writer
  unfold WriterInv at hwi
  have hq (hq : Quiet s) : False := by
    have := hk.symm.trans hq.kernel
    cases this
  split at hwi
  · exact (hq (hwi.2 hd)).elim
  · exact (hq (hwi.2 hd)).elim
  case h_3 c hw =>
    obtain ⟨base, hv, -, -, hu⟩ := hwi
    cases hu hd with
    | flying hk' hrd hb hs =>
      cases hk.symm.trans hk'
      exact ⟨hd, c, hw, rfl, hs ▸ hv, hrd, hb⟩
    | completed _ hk' => cases hk.symm.trans hk'
    | reaped hk' => cases hk.symm.trans hk'
    | handled hk' => cases hk.symm.trans hk'

/-- The bytes of a request that has ended. -/
theorem WriteInv.taken_append (hi : WriteInv s) (hw : s.writer = .waiting c)
    (hv : c.Valid s.sent s.late) {a : Nat} (ha : a ≤ c.chunk.length) :
    s.taken ++ c.chunk.take a = sentBytes s.writes ++ c.data.take (s.sent + a) := by
  rw [hi.taken, hw, List.append_assoc]
  exact congrArg _ (hv.take_chunk ha)

theorem WriteInv.completeOut (hi : WriteInv s) {d : List UInt8} (hk : s.kernelOut = .flying d)
    (status : Int) {a : Nat} (ha : a ≤ d.length) : WriteInv (s.completeOut d status a) := by
  obtain ⟨hd, c, hw, rfl, hv, hrd, hb⟩ := hi.flying hk
  refine ⟨?_, fun _ => nofun, ?_, hi.writes⟩
  · have : (s.completeOut c.chunk status a).writer = .waiting c := hw
    rw [WriterInv, this]
    refine ⟨s.sent, hv, Nat.le_add_right _ _, ?_, fun _ => .completed ⟨status, a⟩ rfl hrd hb rfl⟩
    exact Nat.add_le_add_left (c.length_chunk ▸ ha) _
  · change s.taken ++ _ = sentBytes s.writes ++ s.writer.data.take (s.sent + a)
    rw [hw]
    exact hi.taken_append hw hv ha

/-- The completion of the request that went out comes into the hands of the reader. -/
theorem WriteInv.reapOut (hi : WriteInv s) {u : Urb} (hk : s.kernelOut = .completed u) (rc : ReadCall) :
    WriteInv { s with kernelOut := .free, urbOut := u, reader := .reaped rc .outUrb } := by
  refine ⟨?_, fun _ => nofun, hi.taken, hi.writes⟩
  have hwi := hi.writer
  have hq (hd : s.dead = false) (hq : Quiet s) : Quiet { s with
      kernelOut := .free, urbOut := u, reader := .reaped rc .outUrb } := by
    have := hk.symm.trans hq.kernel
    cases this
  unfold WriterInv at hwi ⊢
  dsimp only
  split at hwi
  · exact ⟨hwi.1, fun hd => hq hd (hwi.2 hd)⟩
  · exact ⟨hwi.1, fun hd => hq hd (hwi.2 hd)⟩
  · obtain ⟨base, hv, hle, hlt, hu⟩ := hwi
    refine ⟨base, hv, hle, hlt, fun hd => ?_⟩
    cases hu hd with
    | flying hk' => cases hk.symm.trans hk'
    | completed u' hk' hrd hb hs =>
      cases hk.symm.trans hk'
      exact .reaped rfl rfl hb hs
    | reaped hk' => cases hk.symm.trans hk'
    | handled hk' => cases hk.symm.trans hk'

theorem WriteInv.reap (hi : WriteInv s) (hr : s.reader = .reaping rc) (r : Reaped) :
    WriteInv (s.reap rc r) := by
  have hsame {x : Reaped} (hx : (Reader.reaped rc x).hasOut = false) (k : Slot Nat (Int × List UInt8))
      (u : Urb) : SameOut s { s with kernelIn := k, urbIn := u, reader := .reaped rc x } :=
    ⟨rfl, rfl, rfl, rfl, rfl, rfl, rfl, rfl, rfl, fun _ => by rw [hr]; exact hx⟩
  unfold Sys.reap
  split
  · exact hi.reapOut ‹_› rc
  · exact (hsame rfl _ _).inv hi
  · exact (hsame rfl s.kernelIn s.urbIn).inv hi
  · exact (hsame rfl s.kernelIn s.urbIn).inv hi

theorem WriteInv.reaped (hi : WriteInv s) {r : Reaped} (hr : s.reader = .reaped rc r)
    (timedOut : Bool) : WriteInv (s.reaped rc timedOut r) := by
  have hread {s₁ : Sys} {nx : Next ReadCall} (hs : SameOut s s₁)
      (hno : s₁.dead = false → s₁.reader.hasOut = false) : WriteInv (s₁.read nx) :=
    (sameOut_read _ hno).inv (hs.inv hi)
  have hrefl : SameOut s s := ⟨rfl, rfl, rfl, rfl, rfl, rfl, rfl, rfl, rfl, fun _ => rfl⟩
  have hdead (h : s.dead = true) : s.dead = false → s.reader.hasOut = false := fun hf =>
    absurd (h.symm.trans hf) nofun
  cases r with
  | interrupted =>
    rw [Sys.reaped]
    split
    · exact hread hrefl (hdead ‹_›)
    · have hs : SameOut s { s with reader := .reaping rc } :=
        ⟨rfl, rfl, rfl, rfl, rfl, rfl, rfl, rfl, rfl, fun _ => by rw [hr]; rfl⟩
      exact hs.inv hi
  | failed =>
    rw [Sys.reaped]
    exact hread hrefl fun _ => by rw [hr]; rfl
  | inUrb d =>
    rw [Sys.reaped]
    split
    · exact hread hrefl (hdead ‹_›)
    · exact hread ⟨rfl, rfl, rfl, rfl, rfl, rfl, rfl, rfl, rfl, fun _ => rfl⟩ fun _ => by
        change s.reader.hasOut = false
        rw [hr]
        rfl
  | outUrb =>
    rw [Sys.reaped]
    split
    · exact hread hrefl (hdead ‹_›)
    · have hout : s.reader.hasOut = true := by
        rw [hr]
        rfl
      refine ⟨?_, hi.dead, hi.taken, hi.writes⟩
      have hwi := hi.writer
      unfold WriterInv at hwi ⊢
      dsimp only
      split at hwi
      · exact ⟨hwi.1, fun hd => absurd (hout.symm.trans (hwi.2 hd).reader) nofun⟩
      · exact ⟨hwi.1, fun hd => absurd (hout.symm.trans (hwi.2 hd).reader) nofun⟩
      · obtain ⟨base, hv, hle, hlt, hu⟩ := hwi
        refine ⟨base, hv, hle, hlt, fun hd => ?_⟩
        cases hu hd with
        | flying _ hrd => exact absurd (hout.symm.trans hrd) nofun
        | completed _ _ hrd => exact absurd (hout.symm.trans hrd) nofun
        | reaped hk _ hb hs => exact .handled hk rfl rfl hs
        | handled _ hrd => exact absurd (hout.symm.trans hrd) nofun

theorem sameOut_completeIn (s : Sys) (status : Int) (d : List UInt8) :
    SameOut s (s.completeIn status d) := ⟨rfl, rfl, rfl, rfl, rfl, rfl, rfl, rfl, rfl, fun _ => rfl⟩

theorem sameOut_discardIn (s : Sys) (d : List UInt8) : SameOut s (s.discardIn d) := by
  unfold Sys.discardIn
  split
  · exact sameOut_completeIn s (-2) d
  · exact ⟨rfl, rfl, rfl, rfl, rfl, rfl, rfl, rfl, rfl, fun _ => rfl⟩

theorem WriteInv.discardOut (hi : WriteInv s) {a : Nat}
    (ha : ∀ x, s.kernelOut = .flying x → a ≤ x.length) :
    WriteInv (s.discardOut a) ∧ ∀ d, (s.discardOut a).kernelOut ≠ .flying d := by
  unfold Sys.discardOut
  split
  case h_1 d hk => exact ⟨hi.completeOut hk (-2) (ha d hk), fun d => nofun⟩
  case h_2 hno => exact ⟨hi, hno⟩

theorem WriteInv.die (hi : WriteInv s) (hk : ∀ d, s.kernelOut ≠ .flying d) : WriteInv s.die := by
  refine ⟨?_, fun _ => hk, hi.taken, hi.writes⟩
  have hwi := hi.writer
  unfold WriterInv at hwi ⊢
  dsimp only [Sys.die]
  split at hwi
  · exact ⟨hwi.1, nofun⟩
  · exact ⟨hwi.1, nofun⟩
  · obtain ⟨base, hv, hle, hlt, -⟩ := hwi
    exact ⟨base, hv, hle, hlt, nofun⟩

theorem WriteInv.usbKick (hi : WriteInv s) {a : Nat} (ha : ∀ x, s.kernelOut = .flying x → a ≤ x.length)
    (d : List UInt8) : WriteInv (s.usbKick a d) := by
  rw [Sys.usbKick]
  split
  · exact hi
  · have hs := sameOut_discardIn s d
    obtain ⟨h, hk⟩ := (hs.inv hi).discardOut (a := a) (by rw [hs.kernel]; exact ha)
    exact h.die hk

/-! ## What each step does to what comes in -/

/-- Nothing that comes in is touched. -/
structure SameIn (s s' : Sys) : Prop where
  dead : s'.dead = s.dead
  kernel : s'.kernelIn = s.kernelIn
  urb : s'.urbIn = s.urbIn
  reader : s'.reader = s.reader
  given : s'.given = s.given
  reads : s'.reads = s.reads

theorem SameIn.received (h : SameIn s s') : s'.received = s.received := by
  rw [Sys.received, Sys.received, h.reads, h.reader]

theorem SameIn.inv (h : SameIn s s') (hi : ReadInv s) : ReadInv s' where
  reader hd := by
    have hr := hi.reader (h.dead ▸ hd)
    unfold ReaderInv Incoming at hr ⊢
    rw [h.reader, h.kernel, h.received, h.given, h.urb, h.reads]
    exact hr
  dead := by rw [h.dead, h.kernel]; exact hi.dead
  fits := by rw [h.reader]; exact hi.fits
  begins := by rw [h.received, h.given]; exact hi.begins
  reads := by rw [h.reads]; exact hi.reads

theorem gotBytes_snoc (rs : List Read) (r : Read) : gotBytes (rs ++ [r]) = gotBytes rs ++ r.got := by
  rw [gotBytes, List.flatMap_append, List.flatMap_singleton]
  rfl

/-- What is known of the call `c` of `usb_read`, wherever its transfer is. -/
structure Reading (s : Sys) (rc : ReadCall) : Prop where
  dead : s.dead = true → ∀ n, s.kernelIn ≠ .flying n
  fits : rc.got.length ≤ rc.len
  begins : gotBytes s.reads ++ rc.got <+: s.given
  reads : ∀ r ∈ s.reads, r.Ok

/-- What is known when no transfer is on its way in. -/
structure Settled (s : Sys) (rc : ReadCall) : Prop extends Reading s rc where
  quiet : s.dead = false → s.kernelIn = .free ∧ s.given = gotBytes s.reads ++ rc.got

/-- `usb_read` returns. -/
theorem Reading.returns (h : Reading s rc) {k : Int}
    (hk : k = 0 → rc.got.length = rc.len ∧ Settled s rc) : ReadInv (s.read (.returns rc k)) := by
  have hr : (s.read (.returns rc k)).received = gotBytes s.reads ++ rc.got := by
    change gotBytes (s.reads ++ [_]) ++ [] = _
    rw [gotBytes_snoc, List.append_nil]
  refine ⟨fun hd hall => ?_, h.dead, trivial, hr ▸ h.begins, fun r hrm => ?_⟩
  · rw [hr]
    have hz : k = 0 := hall _ (List.mem_append_right _ (List.mem_singleton_self _))
    exact (hk hz).2.quiet hd
  · rcases List.mem_append.mp hrm with hrm | hrm
    · exact h.reads r hrm
    · cases List.mem_singleton.mp hrm
      exact ⟨h.fits, fun hz => (hk hz).1⟩

/-- `usb_read` goes on at the head of its loop. -/
theorem Settled.go (h : Settled s rc) : ReadInv (s.read rc.go) := by
  rw [ReadCall.go]
  split
  · next hlt => exact ⟨fun hd => ⟨hlt, h.quiet hd⟩, h.dead, h.fits, h.begins, h.reads⟩
  · next hge => exact h.toReading.returns fun _ => ⟨Nat.le_antisymm h.fits (Nat.not_lt.mp hge), h⟩

/-- A transfer has ended with `k`, and has left `d` in the buffer. -/
theorem Settled.next {k : Int} {d : List UInt8} (hr : Reading s rc)
    (hpos : k = rc.xfer → 0 < k)
    (h : Settled s { rc with got := if 0 < k then rc.got ++ d else rc.got }) (timedOut : Bool) :
    ReadInv (s.read (rc.next k d timedOut)) := by
  rw [ReadCall.next]
  split
  · next hk =>
    rw [if_pos (hpos hk)] at h
    exact h.go
  · split
    · exact h.go
    · exact hr.returns fun hz => absurd hz (by decide)

/-- The code does not come to wait for the transfer. -/
theorem Settled.next_failed (h : Settled s rc) (d : List UInt8) (timedOut : Bool) :
    ReadInv (s.read (rc.next (-1) d timedOut)) :=
  Settled.next h.toReading (fun hx => absurd hx (by omega)) (by rw [if_neg (by decide)]; exact h)
    timedOut

theorem ReadInv.reading (hi : ReadInv s) (hgot : s.reader.got = rc.got)
    (hfits : rc.got.length ≤ rc.len) : Reading s rc :=
  ⟨hi.dead, hfits, by rw [← hgot]; exact hi.begins, hi.reads⟩

/-- Nothing is said of the transfers of a handle that is dead. -/
theorem Reading.settled (h : Reading s rc) (hd : s.dead = true) : Settled s rc :=
  ⟨h, fun hf => absurd (hd.symm.trans hf) nofun⟩

theorem ReadInv.usbRead (hi : ReadInv s) (hr : s.reader = .idle) (hok : ∀ r ∈ s.reads, r.ret = 0)
    (len : Nat) : ReadInv (s.usbRead len) := by
  have hread : Reading s ⟨len, []⟩ := hi.reading (by rw [hr]; rfl) (Nat.zero_le _)
  have hset : Settled s ⟨len, []⟩ := by
    refine ⟨hread, fun hd => ?_⟩
    have h := hi.reader hd
    rw [ReaderInv, hr] at h
    rw [← show s.received = gotBytes s.reads ++ [] by rw [Sys.received, hr]; rfl]
    exact h hok
  exact hset.go

theorem ReadInv.bulkRead (hi : ReadInv s) (hr : s.reader = .ready rc) (ok timedOut : Bool) :
    ∃ s', s.bulkRead rc ok timedOut = some s' ∧ ReadInv s' := by
  have hgot : s.reader.got = rc.got := by rw [hr]; rfl
  have hfits : rc.got.length ≤ rc.len := by
    have := hi.fits
    rw [hr] at this
    exact this
  have hread := hi.reading hgot hfits
  have hready (hd : s.dead = false) : rc.got.length < rc.len ∧ s.kernelIn = .free ∧
      s.given = s.received := by
    have h := hi.reader hd
    rw [ReaderInv, hr] at h
    exact h
  have hset : Settled { s with urbIn := ⟨-1, 0⟩ } rc :=
    ⟨⟨hread.dead, hread.fits, hread.begins, hread.reads⟩, fun hd =>
      ⟨(hready hd).2.1, (hready hd).2.2.trans (by rw [Sys.received, hgot])⟩⟩
  rw [Sys.bulkRead]
  by_cases hd : s.dead = true
  · rw [if_pos hd]
    exact ⟨_, rfl, hset.next_failed _ _⟩
  rw [if_neg hd]
  cases ok with
  | false => exact ⟨_, rfl, hset.next_failed _ _⟩
  | true =>
    obtain ⟨hlt, hk, hg⟩ := hready (Bool.not_eq_true _ ▸ hd)
    dsimp only
    rw [if_pos rfl, hk]
    refine ⟨_, rfl, fun _ => ⟨hlt, .inl ⟨rfl, ?_⟩⟩, fun hd' => absurd hd' hd, hfits, hread.begins,
      hi.reads⟩
    exact hg.trans (by rw [Sys.received, hgot]; rfl)

/-- What is known of the reader that is in `REAPURB`, or has come back from it. -/
theorem ReadInv.inReap (hi : ReadInv s) (hr : s.reader = .reaping rc) :
    Reading s rc ∧ (s.dead = false → rc.got.length < rc.len ∧ Incoming s rc) := by
  have hfits := hi.fits
  rw [hr] at hfits
  refine ⟨hi.reading (by rw [hr]; rfl) hfits, fun hd => ?_⟩
  have h := hi.reader hd
  rw [ReaderInv, hr] at h
  exact h

/-- What the reader has reaped is another transfer, or none. -/
theorem ReadInv.reapOther (hi : ReadInv s) (hr : s.reader = .reaping rc) {x : Reaped}
    (hx : ∀ d, x ≠ .inUrb d) (k : Slot (List UInt8) Urb) (u : Urb) :
    ReadInv { s with kernelOut := k, urbOut := u, reader := .reaped rc x } := by
  obtain ⟨hread, hin⟩ := hi.inReap hr
  have hrec : ({ s with kernelOut := k, urbOut := u, reader := .reaped rc x } : Sys).received =
      s.received := by
    rw [Sys.received, Sys.received, hr]
    rfl
  refine ⟨fun hd => ?_, hi.dead, hread.fits, hrec ▸ hi.begins, hi.reads⟩
  obtain ⟨hlt, hin⟩ := hin hd
  cases x with
  | inUrb d => exact absurd rfl (hx d)
  | failed => exact hlt
  | interrupted | outUrb =>
    refine ⟨hlt, ?_⟩
    rw [Incoming, hrec]
    exact hin

/-- The transfer that came in is in the hands of the reader. -/
theorem ReadInv.reapIn (hi : ReadInv s) (hr : s.reader = .reaping rc) {status : Int} {d : List UInt8}
    (hk : s.kernelIn = .completed (status, d)) :
    ReadInv { s with
      kernelIn := .free, urbIn := ⟨status, d.length⟩, reader := .reaped rc (.inUrb d) } := by
  obtain ⟨hread, hin⟩ := hi.inReap hr
  have hrec : ({ s with
      kernelIn := .free, urbIn := ⟨status, d.length⟩, reader := .reaped rc (.inUrb d) } :
        Sys).received = s.received := by
    rw [Sys.received, Sys.received, hr]
    rfl
  refine ⟨fun hd => ?_, fun _ n => nofun, hread.fits, hrec ▸ hi.begins, hi.reads⟩
  obtain ⟨hlt, ⟨hk', -⟩ | ⟨status', d', hk', hle, hg⟩⟩ := hin hd
  · cases hk.symm.trans hk'
  · cases hk.symm.trans hk'
    refine ⟨hlt, rfl, rfl, hle, ?_⟩
    rw [hrec]
    exact hg

theorem ReadInv.reap (hi : ReadInv s) (hr : s.reader = .reaping rc) (r : Reaped) :
    ReadInv (s.reap rc r) := by
  unfold Sys.reap
  split
  · exact hi.reapOther (x := .outUrb) hr (fun _ => nofun) .free _
  · exact hi.reapIn hr ‹_›
  · exact hi.reapOther (x := .failed) hr (fun _ => nofun) s.kernelOut s.urbOut
  · exact hi.reapOther (x := .interrupted) hr (fun _ => nofun) s.kernelOut s.urbOut

/-- The reader goes back to `REAPURB`. -/
theorem ReadInv.again (hi : ReadInv s) {x : Reaped} (hr : s.reader = .reaped rc x)
    (hx : (∀ d, x ≠ .inUrb d) ∧ x ≠ .failed) (busy : Bool) :
    ReadInv { s with urbOutBusy := busy, reader := .reaping rc } := by
  have hrec : ({ s with urbOutBusy := busy, reader := .reaping rc } : Sys).received = s.received := by
    rw [Sys.received, Sys.received, hr]
    rfl
  have hfits := hi.fits
  rw [hr] at hfits
  refine ⟨fun hd => ?_, hi.dead, hfits, hrec ▸ hi.begins, hi.reads⟩
  have h := hi.reader hd
  rw [ReaderInv, hr] at h
  cases x with
  | inUrb d => exact absurd rfl (hx.1 d)
  | failed => exact absurd rfl hx.2
  | interrupted | outUrb =>
    refine ⟨h.1, ?_⟩
    rw [Incoming, hrec]
    exact h.2

theorem ReadInv.reaped (hi : ReadInv s) {x : Reaped} (hr : s.reader = .reaped rc x) (timedOut : Bool) :
    ReadInv (s.reaped rc timedOut x) := by
  have hfits := hi.fits
  rw [hr] at hfits
  have hread : Reading s rc := hi.reading (by rw [hr]; rfl) hfits
  cases x with
  | interrupted =>
    rw [Sys.reaped]
    split
    · exact (hread.settled ‹_›).next_failed [] false
    · exact hi.again hr ⟨fun _ => nofun, nofun⟩ s.urbOutBusy
  | failed =>
    rw [Sys.reaped, ReadCall.next, if_neg (by omega)]
    exact hread.returns (k := -1) fun h => absurd h (by decide)
  | outUrb =>
    rw [Sys.reaped]
    split
    · exact (hread.settled ‹_›).next_failed [] timedOut
    · exact hi.again hr ⟨fun _ => nofun, nofun⟩ false
  | inUrb d =>
    rw [Sys.reaped]
    split
    · exact (hread.settled ‹_›).next_failed [] timedOut
    · next hd =>
      have h := hi.reader (Bool.not_eq_true _ ▸ hd)
      rw [ReaderInv, hr] at h
      obtain ⟨hlt, hk, hactual, hle, hg⟩ := h
      have hrec : s.received = gotBytes s.reads ++ rc.got := by
        rw [Sys.received, hr]
        rfl
      rw [hrec] at hg
      have hread' : Reading { s with urbInBusy := false } rc :=
        ⟨hread.dead, hread.fits, hread.begins, hread.reads⟩
      have hset {got : List UInt8} (hfits : got.length ≤ rc.len)
          (hg : s.given = gotBytes s.reads ++ got) :
          Settled { s with urbInBusy := false } { rc with got := got } :=
        ⟨⟨hread.dead, hfits, hg ▸ List.prefix_rfl, hread.reads⟩, fun _ => ⟨hk, hg⟩⟩
      by_cases hst : s.urbIn.status = 0
      · rw [if_pos hst] at hg ⊢
        have hx : rc.xfer ≤ rc.len - rc.got.length := Nat.min_le_right _ _
        have hpos : (s.urbIn.actual : Int) = rc.xfer → (0 : Int) < s.urbIn.actual := by
          have : 0 < rc.xfer := Nat.lt_min.mpr ⟨by decide, by omega⟩
          omega
        refine Settled.next hread' hpos (hset ?_ ?_) timedOut
        · split
          · rw [List.length_append]
            omega
          · exact hfits
        · split
          · rw [hg, List.append_assoc]
          · have : d = [] := List.eq_nil_of_length_eq_zero (by omega)
            rw [hg, this, List.append_nil]
      · rw [if_neg hst, List.append_nil] at hg
        rw [if_neg hst]
        exact (hset hfits hg).next_failed d timedOut

theorem ReadInv.completeIn (hi : ReadInv s) (hk : s.kernelIn = .flying n) (status : Int)
    {d : List UInt8} (hd : d.length ≤ n) : ReadInv (s.completeIn status d) := by
  have hgiven : (s.completeIn status d).given = s.given ++ if status = 0 then d else [] := by
    change (if status = 0 then s.given ++ d else s.given) = _
    split
    · rfl
    · rw [List.append_nil]
  have hbegins : s.received <+: (s.completeIn status d).given :=
    hgiven ▸ hi.begins.trans (List.prefix_append _ _)
  refine ⟨fun hlive => ?_, fun _ => nofun, hi.fits, hbegins, hi.reads⟩
  have h := hi.reader hlive
  have hin {c : ReadCall} (h : Incoming s c) : Incoming (s.completeIn status d) c := by
    obtain ⟨hk', hg⟩ | ⟨_, _, hk', -⟩ := h
    · cases hk.symm.trans hk'
      exact .inr ⟨status, d, rfl, hd, by rw [hgiven, hg]; rfl⟩
    · cases hk.symm.trans hk'
  have hfree (h : s.kernelIn = .free) : False := by cases hk.symm.trans h
  have hr : (s.completeIn status d).reader = s.reader := rfl
  unfold ReaderInv at h ⊢
  rw [hr]
  split at h
  · exact fun hall => (hfree (h hall).1).elim
  · exact (hfree h.2.1).elim
  · exact ⟨h.1, hin h.2⟩
  · exact (hfree h.2.1).elim
  · exact h
  · exact ⟨h.1, hin h.2⟩

theorem ReadInv.discardIn (hi : ReadInv s) {d : List UInt8}
    (hd : ∀ n, s.kernelIn = .flying n → d.length ≤ n) :
    ReadInv (s.discardIn d) ∧ ∀ n, (s.discardIn d).kernelIn ≠ .flying n := by
  unfold Sys.discardIn
  split
  case h_1 n hk => exact ⟨hi.completeIn hk (-2) (hd n hk), fun n => nofun⟩
  case h_2 hno => exact ⟨hi, hno⟩

theorem ReadInv.die (hi : ReadInv s) (hk : ∀ n, s.kernelIn ≠ .flying n) : ReadInv s.die :=
  ⟨nofun, fun _ => hk, hi.fits, hi.begins, hi.reads⟩

theorem sameIn_completeOut (s : Sys) (d : List UInt8) (status : Int) (a : Nat) :
    SameIn s (s.completeOut d status a) := ⟨rfl, rfl, rfl, rfl, rfl, rfl⟩

theorem sameIn_discardOut (s : Sys) (a : Nat) : SameIn s (s.discardOut a) := by
  unfold Sys.discardOut
  split
  · exact sameIn_completeOut ..
  · exact ⟨rfl, rfl, rfl, rfl, rfl, rfl⟩

theorem sameIn_write (s : Sys) (nx : Next WriteCall) : SameIn s (s.write nx) := by
  cases nx <;> exact ⟨rfl, rfl, rfl, rfl, rfl, rfl⟩

theorem SameIn.trans {s₁ s₂ s₃ : Sys} (h : SameIn s₁ s₂) (h' : SameIn s₂ s₃) : SameIn s₁ s₃ :=
  ⟨h'.dead.trans h.dead, h'.kernel.trans h.kernel, h'.urb.trans h.urb, h'.reader.trans h.reader,
    h'.given.trans h.given, h'.reads.trans h.reads⟩

theorem sameIn_bulkWrite {ok : Bool} (h : s.bulkWrite c ok = some s') : SameIn s s' := by
  have hurb : SameIn s { s with urbOut := ⟨-1, 0⟩ } := ⟨rfl, rfl, rfl, rfl, rfl, rfl⟩
  have hfail := hurb.trans (sameIn_write _ (c.next (-1)))
  unfold Sys.bulkWrite at h
  dsimp only at h
  split at h
  · exact Option.some.inj h ▸ hfail
  · split at h
    · split at h
      · exact Option.some.inj h ▸ ⟨rfl, rfl, rfl, rfl, rfl, rfl⟩
      · exact absurd h (Option.some_ne_none _).symm
    · exact Option.some.inj h ▸ hfail

theorem sameIn_wake (s : Sys) (c : WriteCall) (timedOut : Bool) : SameIn s (s.wake c timedOut) := by
  have hlate (late : Bool) : SameIn s { s with late := late } := ⟨rfl, rfl, rfl, rfl, rfl, rfl⟩
  have hnext (late : Bool) (nx : Next WriteCall) : SameIn s ({ s with late := late }.write nx) :=
    (hlate late).trans (sameIn_write _ nx)
  unfold Sys.wake
  dsimp only
  split
  · exact hnext _ _
  · split
    · exact ⟨rfl, rfl, rfl, rfl, rfl, rfl⟩
    · exact hnext _ _

theorem ReadInv.usbKick (hi : ReadInv s) (a : Nat) {d : List UInt8}
    (hd : ∀ n, s.kernelIn = .flying n → d.length ≤ n) : ReadInv (s.usbKick a d) := by
  rw [Sys.usbKick]
  split
  · exact hi
  · obtain ⟨h, hk⟩ := hi.discardIn hd
    have hs := sameIn_discardOut (s.discardIn d) a
    exact (hs.inv h).die (by rw [hs.kernel]; exact hk)

theorem sameOut_bulkRead {ok timedOut : Bool} (hr : s.reader = .ready rc)
    (h : s.bulkRead rc ok timedOut = some s') : SameOut s s' := by
  have hno : s.dead = false → s.reader.hasOut = false := fun _ => by rw [hr]; rfl
  have hfail : SameOut s ({ s with urbIn := ⟨-1, 0⟩ }.read (rc.next (-1) [] timedOut)) := by
    cases rc.next (-1) [] timedOut <;>
      exact ⟨rfl, rfl, rfl, rfl, rfl, rfl, rfl, rfl, rfl, fun hd => (hno hd).symm⟩
  unfold Sys.bulkRead at h
  dsimp only at h
  split at h
  · exact Option.some.inj h ▸ hfail
  · split at h
    · split at h
      · exact Option.some.inj h ▸
          ⟨rfl, rfl, rfl, rfl, rfl, rfl, rfl, rfl, rfl, fun hd => (hno hd).symm⟩
      · exact absurd h (Option.some_ne_none _).symm
    · exact Option.some.inj h ▸ hfail

/-! ## Runs -/

/-- A step that the threads and the kernel may take never submits a request block that is in use. -/
theorem step_inv (t : Step) (hok : StepOk s t) (hw : WriteInv s) (hr : ReadInv s) :
    ∃ s', step s t = some s' ∧ WriteInv s' ∧ ReadInv s' := by
  cases t with
  | usbWrite data => exact ⟨_, rfl, hw.usbWrite hok data, (sameIn_write _ _).inv hr⟩
  | usbRead len =>
    exact ⟨_, rfl, (sameOut_read _ fun _ => by rw [hok.1]; rfl).inv hw, hr.usbRead hok.1 hok.2 len⟩
  | bulkWrite ok =>
    unfold step
    dsimp only
    split
    case h_1 c hc =>
      obtain ⟨s', hs, hw'⟩ := hw.bulkWrite hc ok
      exact ⟨s', hs, hw', (sameIn_bulkWrite hs).inv hr⟩
    case h_2 => exact ⟨s, rfl, hw, hr⟩
  | wake timedOut =>
    unfold step
    dsimp only
    split
    case h_1 c hc => exact ⟨_, rfl, hw.wake hc timedOut, (sameIn_wake s c timedOut).inv hr⟩
    case h_2 => exact ⟨s, rfl, hw, hr⟩
  | bulkRead ok timedOut =>
    unfold step
    dsimp only
    split
    case h_1 rc hc =>
      obtain ⟨s', hs, hr'⟩ := hr.bulkRead hc ok timedOut
      exact ⟨s', hs, (sameOut_bulkRead hc hs).inv hw, hr'⟩
    case h_2 => exact ⟨s, rfl, hw, hr⟩
  | reap r =>
    unfold step
    dsimp only
    split
    case h_1 rc hc => exact ⟨_, rfl, hw.reap hc r, hr.reap hc r⟩
    case h_2 => exact ⟨s, rfl, hw, hr⟩
  | reaped timedOut =>
    unfold step
    dsimp only
    split
    case h_1 rc r hc => exact ⟨_, rfl, hw.reaped hc timedOut, hr.reaped hc timedOut⟩
    case h_2 => exact ⟨s, rfl, hw, hr⟩
  | completeOut status actual =>
    unfold step
    dsimp only
    split
    case h_1 d hk =>
      exact ⟨_, rfl, hw.completeOut hk status (hok d hk), (sameIn_completeOut s d status actual).inv hr⟩
    case h_2 => exact ⟨s, rfl, hw, hr⟩
  | completeIn status d =>
    unfold step
    dsimp only
    split
    case h_1 n hk =>
      exact ⟨_, rfl, (sameOut_completeIn s status d).inv hw, hr.completeIn hk status (hok n hk)⟩
    case h_2 => exact ⟨s, rfl, hw, hr⟩
  | usbKick actual d => exact ⟨_, rfl, hw.usbKick hok.1 d, hr.usbKick actual hok.2⟩

/-- A handle that was just opened. -/
theorem init_inv (zeroMask : Nat) : WriteInv (Sys.init zeroMask) ∧ ReadInv (Sys.init zeroMask) :=
  ⟨⟨⟨rfl, fun _ => ⟨rfl, rfl, rfl⟩⟩, fun _ _ => nofun, rfl, nofun⟩,
    ⟨fun _ _ => ⟨rfl, rfl⟩, fun _ _ => nofun, trivial, List.prefix_rfl, nofun⟩⟩

/-- While the writer waits, the flag says whether its request was completed and that handled. -/
theorem WriteInv.busy_iff (hi : WriteInv s) (hd : s.dead = false) (hw : s.writer = .waiting c) :
    s.urbOutBusy = false ↔ s.kernelOut = .free ∧ s.reader.hasOut = false := by
  have hwi := hi.writer
  rw [WriterInv, hw] at hwi
  obtain ⟨base, -, -, -, hu⟩ := hwi
  cases hu hd with
  | flying hk _ hb _ =>
    exact ⟨fun h => absurd (hb.symm.trans h) nofun, fun h => by cases hk.symm.trans h.1⟩
  | completed _ hk _ hb _ =>
    exact ⟨fun h => absurd (hb.symm.trans h) nofun, fun h => by cases hk.symm.trans h.1⟩
  | reaped _ hrd hb _ =>
    exact ⟨fun h => absurd (hb.symm.trans h) nofun, fun h => absurd (hrd.symm.trans h.2) nofun⟩
  | handled hk hrd hb _ => exact ⟨fun _ => ⟨hk, hrd⟩, fun _ => hb⟩

/-- With every call of `usb_read` back with 0, nothing is lost that the device has sent. -/
theorem ReadInv.complete (hi : ReadInv s) (hd : s.dead = false) (hr : s.reader = .idle)
    (hok : ∀ r ∈ s.reads, r.ret = 0) : s.given = gotBytes s.reads := by
  have h := hi.reader hd
  rw [ReaderInv, hr] at h
  rw [(h hok).2, Sys.received, hr]
  exact List.append_nil _

/-- What the calls have done, in any state of the handle. -/
structure Good (s : Sys) : Prop where
  /-- The device has taken the bytes of the calls of `usb_write`, in their order, and the first ones of
  each. -/
  taken : s.taken = sentBytes s.writes ++ s.writer.data.take s.sent
  writes : ∀ w ∈ s.writes, w.Ok
  /-- The bytes that came in are those that the device has sent, in their order. -/
  received : s.received <+: s.given
  reads : ∀ r ∈ s.reads, r.Ok
  complete : s.dead = false → s.reader = .idle → (∀ r ∈ s.reads, r.ret = 0) →
    s.given = gotBytes s.reads
  busy : s.dead = false → ∀ c, s.writer = .waiting c →
    (s.urbOutBusy = false ↔ s.kernelOut = .free ∧ s.reader.hasOut = false)
  /-- No transfer runs on a handle that was kicked. -/
  dead : s.dead = true → (∀ d, s.kernelOut ≠ .flying d) ∧ ∀ n, s.kernelIn ≠ .flying n

/-- Whatever the order of the threads and of the kernel. -/
theorem bulk_good (zeroMask : Nat) {ts : List Step} (hok : RunOk step StepOk (Sys.init zeroMask) ts) :
    ∃ s, run step (Sys.init zeroMask) ts = some s ∧ Good s := by
  obtain ⟨s, hs, hw, hr⟩ := run_exists (I := fun s => WriteInv s ∧ ReadInv s)
    (fun s t hi hok => step_inv t hok hi.1 hi.2) (init_inv zeroMask) hok
  exact ⟨s, hs, hw.taken, hw.writes, hr.begins, hr.reads, hr.complete, fun hd _ hc => hw.busy_iff hd hc,
    fun hd => ⟨hw.dead hd, hr.dead hd⟩⟩

/-- Two bytes go out while the reader waits for one, which comes then. -/
theorem bulk_good_exchange : ∃ s, run step (Sys.init 0)
    [.usbWrite [1, 2], .bulkWrite true, .usbRead 1, .bulkRead true false, .completeOut 0 2,
      .reap .outUrb, .reaped false, .wake false, .completeIn 0 [7], .reap (.inUrb []), .reaped false] =
        some s ∧ Good s :=
  bulk_good 0 ⟨rfl, trivial, ⟨rfl, nofun⟩, trivial, fun d h => by cases h; decide, trivial, trivial,
    trivial, fun n h => by cases h; decide, trivial, trivial, trivial⟩

/-- A call of 110 bytes returns 0 with none of them sent, if the wait for a transfer that fails times
out. -/
example : (run step (Sys.init 0) [.usbRead 1, .bulkRead true false, .usbWrite (List.replicate 110 0),
    .bulkWrite true, .completeOut (-71) 0, .reap .outUrb, .reaped false, .wake true]).map
      (fun s => s.writes.map fun w => (w.sent, w.ret)) = some [(0, 0)] := by
  decide

end Twm.Adb.UsbBulk
