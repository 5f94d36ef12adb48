import DeviceTwm.Fastboot.Protocol

/-!
# What a download sends

A download is complete (`Delivered`) when the device asked for all of the data, took it, and
acknowledged. `fb_download_data` takes two other conversations for success: the device may answer the
command with `OKAY`, or with `DATA` and another number, of which `check_response` makes one that is
not too large. Then the device does not get what it asked for, or not all of the data (`Short`).

* `checkResponse_cases`: one call takes the `INFO` lines and the answer after them.
* `download_zero_iff`: the conversations for which the function returns 0.
-/

open Lib

namespace Twm.Fastboot.Protocol

/-! ## Conversations -/

/-- An `INFO` line. -/
def isInfo : Option Status → Bool
  | none => false
  | some s => s.bytes.take 4 = str "INFO"

/-- What the device says that is no `INFO` line. -/
def answers (reads : List (Option Status)) : List (Option Status) := reads.filter (¬ isInfo ·)

inductive Answer
  | okay
  /-- It asks for as many bytes as the text says. -/
  | data (text : List UInt8)
  | other
  deriving DecidableEq

def Status.answer (s : Status) : Answer :=
  if s.bytes.take 4 = str "OKAY" then .okay
  else if s.bytes.take 4 = str "DATA" then .data s.text
  else .other

/-- A read that fails is no answer. -/
def answer : Option Status → Answer
  | none => .other
  | some s => s.answer

/-- How many bytes the device asks for. -/
def Answer.asks : Answer → Option Int
  | data text => some (hexNumber text)
  | _ => none

/-- How many `check_response` makes of it. -/
def Answer.dsize (w : Nat) : Answer → Option Nat
  | data text => some (strtoul w 16 text % 2 ^ 32)
  | _ => none

/-- The device asked for all of the data, took it and acknowledged. -/
def Delivered (data : List UInt8) (u u' : Usb) : Prop :=
  ∃ first second rest, answers u.reads = first :: second :: rest ∧
    (answer first).asks = some (data.length : Int) ∧ answer second = .okay ∧
    u'.sent = u.sent ++ download data.length :: if data.length = 0 then [] else [data]

/-- The device takes the command, answers it in this way, takes `n` bytes and acknowledges. -/
def Accepts (n size : Nat) (u : Usb) (P : Answer → Prop) : Prop :=
  (∃ first second rest, answers u.reads = first :: second :: rest ∧ P (answer first) ∧
    answer second = .okay) ∧
  ∃ writes, u.writes = ((download size).length : Int) :: writes ∧ (n ≠ 0 → writes.head? = some (n : Int))

/-- The device asks for nothing, or for another number of bytes than there are, and is content with as
many as the code makes of that. -/
def Short (w size : Nat) (u : Usb) : Prop :=
  Accepts 0 size u (· = .okay) ∨
    ∃ n ≤ size, n < 2 ^ 31 ∧
      Accepts n size u fun a => a.dsize w = some n ∧ ¬ (a.asks = some (size : Int) ∧ n = size)

/-! ## One answer -/

variable {w size n : Nat} {dataOkay : Bool} {s : Option Status} {r : Response}
  {reads reads' : List (Option Status)}

/-- A status with a code has four bytes. -/
theorem not_short {b c : List UInt8} (hc : c.length = 4) (h : b.take 4 = c) : ¬ b.length < 4 := by
  intro hlt
  have := congrArg List.length h
  rw [List.length_take, hc] at this
  omega

theorem checkStatus_info (h : isInfo s = true) : checkStatus w size dataOkay s = .again := by
  cases s with
  | none => cases h
  | some s =>
    have hi : s.bytes.take 4 = str "INFO" := of_decide_eq_true h
    rw [checkStatus, if_neg (not_short rfl hi), if_pos hi]

theorem int_eq_iff {m : Nat} (hm : m < 2 ^ 32) : int m = n ↔ m = n ∧ n < 2 ^ 31 := by
  unfold int
  rw [Int.bmod_def]
  omega

/-- What is returned for an answer. -/
def Answer.result (w size : Nat) (dataOkay : Bool) : Answer → Int
  | okay => 0
  | data text =>
    if dataOkay = true ∧ strtoul w 16 text % 2 ^ 32 ≤ size then int (strtoul w 16 text % 2 ^ 32) else -1
  | other => -1

theorem checkStatus_answer (w size : Nat) (dataOkay : Bool) (h : isInfo s = false) :
    ∃ r, checkStatus w size dataOkay s = .returns r ∧ r.r = (answer s).result w size dataOkay := by
  cases s with
  | none => exact ⟨_, rfl, rfl⟩
  | some s =>
    have hi : ¬ s.bytes.take 4 = str "INFO" := of_decide_eq_false h
    rw [answer, Status.answer]
    by_cases ho : s.bytes.take 4 = str "OKAY"
    · rw [checkStatus, if_neg (not_short rfl ho), if_neg hi, if_pos ho, if_pos ho]
      exact ⟨_, rfl, rfl⟩
    by_cases hd : s.bytes.take 4 = str "DATA"
    · have hf : ¬ s.bytes.take 4 = str "FAIL" := by
        rw [hd]
        decide
      rw [checkStatus, if_neg (not_short rfl hd), if_neg hi, if_neg ho, if_neg hf, if_neg ho, if_pos hd]
      by_cases hok : dataOkay = true
      · rw [if_pos ⟨hd, hok⟩]
        dsimp only
        by_cases hlt : size < strtoul w 16 s.text % 2 ^ 32
        · rw [if_pos hlt, Answer.result, if_neg fun hle => Nat.not_le.mpr hlt hle.2]
          exact ⟨_, rfl, rfl⟩
        · rw [if_neg hlt, Answer.result, if_pos ⟨hok, Nat.not_lt.mp hlt⟩]
          refine ⟨_, rfl, ?_⟩
          dsimp only
      · rw [if_neg fun h => hok h.2, Answer.result, if_neg fun hle => hok hle.1]
        exact ⟨_, rfl, rfl⟩
    · rw [if_neg ho, if_neg hd, checkStatus]
      by_cases hlt : s.bytes.length < 4
      · rw [if_pos hlt]
        exact ⟨_, rfl, rfl⟩
      rw [if_neg hlt, if_neg hi, if_neg ho]
      by_cases hf : s.bytes.take 4 = str "FAIL"
      · rw [if_pos hf]
        exact ⟨_, rfl, rfl⟩
      · rw [if_neg hf, if_neg fun h => hd h.1]
        exact ⟨_, rfl, rfl⟩

theorem negOne_ne (n : Nat) : (-1 : Int) ≠ n := by
  omega

/-- The answers that are not refused: an `OKAY`, and the number of a `DATA` that may come. -/
theorem Answer.result_eq_iff {a : Answer} : a.result w size dataOkay = n ↔
    a = .okay ∧ n = 0 ∨ dataOkay = true ∧ a.dsize w = some n ∧ n ≤ size ∧ n < 2 ^ 31 := by
  cases a with
  | okay =>
    constructor
    · intro h0
      exact .inl ⟨rfl, (Int.natCast_eq_zero.mp h0.symm)⟩
    · rintro (⟨-, rfl⟩ | ⟨-, hd, -⟩)
      · rfl
      · cases hd
  | other =>
    constructor
    · intro h1
      exact absurd h1 (negOne_ne n)
    · rintro (⟨ho, -⟩ | ⟨-, hd, -⟩)
      · cases ho
      · cases hd
  | data text =>
    have hint := int_eq_iff (n := n) (Nat.mod_lt (strtoul w 16 text) (Nat.two_pow_pos 32))
    rw [result, dsize]
    by_cases hd : dataOkay = true ∧ strtoul w 16 text % 2 ^ 32 ≤ size
    · rw [if_pos hd, hint]
      constructor
      · rintro ⟨rfl, hlt⟩
        exact .inr ⟨hd.1, rfl, hd.2, hlt⟩
      · rintro (⟨ho, -⟩ | ⟨-, hm, -, hlt⟩)
        · cases ho
        · exact ⟨Option.some.inj hm, hlt⟩
    · rw [if_neg hd]
      constructor
      · intro h1
        exact absurd h1 (negOne_ne n)
      · rintro (⟨ho, -⟩ | ⟨hok, hm, hle, -⟩)
        · cases ho
        · exact absurd ⟨hok, Option.some.inj hm ▸ hle⟩ hd

/-- A call takes the `INFO` lines and one answer. -/
theorem checkResponse_cases (h : checkResponse w size dataOkay reads = some (r, reads')) :
    ∃ s, answers reads = s :: answers reads' ∧ r.r = (answer s).result w size dataOkay := by
  induction reads with
  | nil => cases h
  | cons s reads ih =>
    unfold checkResponse at h
    cases hi : isInfo s with
    | true =>
      rw [checkStatus_info hi] at h
      obtain ⟨s', hs', hr⟩ := ih h
      refine ⟨s', ?_, hr⟩
      rw [answers, List.filter_cons_of_neg (by simp [hi])]
      exact hs'
    | false =>
      obtain ⟨r', hr', hres⟩ := checkStatus_answer w size dataOkay hi
      rw [hr'] at h
      cases h
      refine ⟨s, ?_, hres⟩
      rw [answers, List.filter_cons_of_pos (by simp [hi])]
      rfl

/-- An answer ends the call. -/
theorem checkResponse_some (w size : Nat) (dataOkay : Bool) {rest : List (Option Status)}
    (h : answers reads = s :: rest) :
    ∃ r reads', checkResponse w size dataOkay reads = some (r, reads') ∧ answers reads' = rest := by
  induction reads with
  | nil => cases h
  | cons s' reads ih =>
    unfold checkResponse
    cases hi : isInfo s' with
    | true =>
      rw [checkStatus_info hi]
      rw [answers, List.filter_cons_of_neg (by simp [hi])] at h
      exact ih h
    | false =>
      obtain ⟨r, hr, -⟩ := checkStatus_answer w size dataOkay hi
      rw [hr]
      rw [answers, List.filter_cons_of_pos (by simp [hi])] at h
      exact ⟨r, reads, rfl, (List.cons.inj h).2⟩

/-! ## The download -/

variable {data : List UInt8} {u u' : Usb} {v : Int}

theorem length_download (size : Nat) : (download size).length = 17 := rfl

theorem respond_cases (h : respond w size dataOkay u = some (r, u')) :
    ∃ s, answers u.reads = s :: answers u'.reads ∧ r.r = (answer s).result w size dataOkay ∧
      u'.writes = u.writes ∧ u'.sent = u.sent := by
  obtain ⟨⟨r', reads'⟩, hc, heq⟩ := Option.map_eq_some_iff.mp h
  cases heq
  obtain ⟨s, hs, hr⟩ := checkResponse_cases hc
  exact ⟨s, hs, hr, rfl, rfl⟩

theorem usbWrite_cases {buf : List UInt8} (h : usbWrite u buf = some (v, u')) :
    u.writes = v :: u'.writes ∧ u'.reads = u.reads ∧
      u'.sent = if v = buf.length then u.sent ++ [buf] else u.sent := by
  unfold usbWrite at h
  split at h
  · cases h
  · next hw =>
    cases h
    exact ⟨hw, rfl, rfl⟩

theorem sendAck_cases (h : sendAck w size u = some (r, u')) :
    ∃ s, answers u.reads = s :: answers u'.reads ∧ u'.sent = u.sent ∧
      r.r = if answer s = .okay then (size : Int) else -1 := by
  unfold sendAck at h
  obtain ⟨⟨r', u₁⟩, hr, h⟩ := Option.bind_eq_some_iff.mp h
  cases h
  obtain ⟨s, hs, hres, -, hsent⟩ := respond_cases hr
  refine ⟨s, hs, hsent, ?_⟩
  dsimp only
  rw [hres]
  cases answer s with
  | okay => rfl
  | data n => rfl
  | other => rfl

/-- What is left of the conversation after the device has named `n` bytes. -/
def Takes (n : Nat) (u : Usb) : Prop :=
  (∃ s rest, answers u.reads = s :: rest ∧ answer s = .okay) ∧
    (n ≠ 0 → u.writes.head? = some (n : Int))

theorem sendData_cases (hn : n ≤ data.length) (h : sendData w data n u = some (r, u')) :
    r.r = n ∧ Takes n u ∧ u'.sent = u.sent ++ (if n = 0 then [] else [data.take n]) ∨
      r.r = -1 ∧ ¬ Takes n u := by
  have hack {u₁ : Usb} (h : sendAck w n u₁ = some (r, u')) (hreads : u₁.reads = u.reads)
      (hsent : u₁.sent = u.sent ++ if n = 0 then [] else [data.take n])
      (hw : n ≠ 0 → u.writes.head? = some (n : Int)) :
      r.r = n ∧ Takes n u ∧ u'.sent = u.sent ++ (if n = 0 then [] else [data.take n]) ∨
        r.r = -1 ∧ ¬ Takes n u := by
    obtain ⟨s, hs, hsent', hr⟩ := sendAck_cases h
    rw [hreads] at hs
    by_cases hok : answer s = .okay
    · rw [if_pos hok] at hr
      exact .inl ⟨hr, ⟨⟨s, _, hs, hok⟩, hw⟩, hsent'.trans hsent⟩
    · rw [if_neg hok] at hr
      refine .inr ⟨hr, ?_⟩
      rintro ⟨⟨s', rest, hs', hok'⟩, -⟩
      cases hs.symm.trans hs'
      exact hok hok'
  unfold sendData at h
  by_cases h0 : n = 0
  · rw [if_pos h0] at h
    exact hack h rfl (by rw [if_pos h0, List.append_nil]) fun hne => absurd h0 hne
  · rw [if_neg h0] at h
    obtain ⟨⟨v, u₁⟩, hw, h⟩ := Option.bind_eq_some_iff.mp h
    obtain ⟨hwrites, hreads, hsent⟩ := usbWrite_cases hw
    have hlen : (data.take n).length = n := by
      rw [List.length_take]
      omega
    have hhead : u.writes.head? = some v := by
      rw [hwrites]
      rfl
    rw [hlen] at hsent
    dsimp only at h
    by_cases hv : v = n
    · rw [if_neg (by omega), if_neg (not_not_intro hv)] at h
      rw [if_pos hv] at hsent
      exact hack h hreads (by rw [hsent, if_neg h0]) fun _ => by rw [hhead, hv]
    · have hno : ¬ Takes n u := by
        rintro ⟨-, hw⟩
        rw [hhead] at hw
        exact hv (Option.some.inj (hw h0))
      split at h
      · cases h
        exact .inr ⟨rfl, hno⟩
      · cases h
        exact .inr ⟨rfl, hno⟩

/-- The function returns 0 for a conversation in which the device takes `n` bytes: those that it asked
for, or none after an `OKAY`. -/
def Succeeds (w n : Nat) (data : List UInt8) (u : Usb) : Prop :=
  n ≤ data.length ∧ n < 2 ^ 31 ∧
    Accepts n data.length u fun a => a = .okay ∧ n = 0 ∨ a.dsize w = some n

theorem commandSend_cases
    (h : commandSend w (download data.length) (some data) data.length u = some (r, u')) :
    (∃ n : Nat, r.r = n ∧ Succeeds w n data u ∧
      u'.sent = u.sent ++ download data.length :: if n = 0 then [] else [data.take n]) ∨
    r.r = -1 ∧ ∀ n, ¬ Succeeds w n data u := by
  unfold commandSend at h
  rw [if_neg (by rw [length_download]; decide)] at h
  obtain ⟨⟨v, u₁⟩, hw, h⟩ := Option.bind_eq_some_iff.mp h
  obtain ⟨hwrites, hreads, hsent⟩ := usbWrite_cases hw
  dsimp only at h
  by_cases hv : v = (download data.length).length
  · rw [if_neg (not_not_intro hv)] at h
    rw [if_pos hv] at hsent
    obtain ⟨⟨r₂, u₂⟩, hr₂, h⟩ := Option.bind_eq_some_iff.mp h
    obtain ⟨first, hfirst, hres, hwrites₂, hsent₂⟩ := respond_cases hr₂
    rw [hreads] at hfirst
    -- The number of bytes that is taken is what `check_response` returns.
    have hnum (n : Nat) (hS : Succeeds w n data u) : r₂.r = n ∧ Takes n u₂ := by
      obtain ⟨hn, hlt, ⟨f, s, rest, hans, hP, hok⟩, writes, hws, hhead⟩ := hS
      obtain ⟨rfl, hrest⟩ := List.cons.inj (hfirst.symm.trans hans)
      obtain ⟨-, rfl⟩ := List.cons.inj (hwrites.symm.trans hws)
      constructor
      · rw [hres, Answer.result_eq_iff]
        rcases hP with ho | hd
        · exact .inl ho
        · exact .inr ⟨rfl, hd, hn, hlt⟩
      · rw [Takes, hwrites₂]
        exact ⟨⟨s, rest, hrest, hok⟩, hhead⟩
    dsimp only at h
    by_cases hneg : r₂.r < 0
    · rw [if_pos hneg] at h
      cases h
      refine .inr ⟨rfl, fun n hS => ?_⟩
      have := (hnum n hS).1
      omega
    · rw [if_neg hneg] at h
      obtain ⟨k, hk⟩ : ∃ k : Nat, r₂.r = k := ⟨r₂.r.toNat, by omega⟩
      have hP := Answer.result_eq_iff.mp (hres.symm.trans hk)
      have hle : k ≤ data.length ∧ k < 2 ^ 31 := by
        rcases hP with ⟨-, rfl⟩ | ⟨-, -, hle, hlt⟩
        · exact ⟨Nat.zero_le _, by decide⟩
        · exact ⟨hle, hlt⟩
      rw [hk, Int.toNat_natCast] at h
      rcases sendData_cases hle.1 h with ⟨hr, ⟨⟨s, rest, hs, hok⟩, hhead⟩, hlog⟩ | ⟨hr, hno⟩
      · refine .inl ⟨k, hr, ⟨hle.1, hle.2, ⟨first, s, rest, ?_, ?_, hok⟩, u₁.writes, ?_, ?_⟩, ?_⟩
        · rw [hfirst, hs]
        · exact hP.imp id fun hd => hd.2.1
        · rw [hwrites, hv]
        · rwa [hwrites₂] at hhead
        · rw [hlog, hsent₂, hsent, List.append_assoc]
          rfl
      · refine .inr ⟨hr, fun n hS => ?_⟩
        obtain ⟨hn, ht⟩ := hnum n hS
        obtain rfl : k = n := by omega
        exact hno ht
  · rw [if_pos hv] at h
    cases h
    refine .inr ⟨rfl, ?_⟩
    rintro n ⟨-, -, -, writes, hws, -⟩
    exact hv (List.cons.inj (hwrites.symm.trans hws)).1

theorem fbDownloadData_cases (h : fbDownloadData w data u = some (v, u')) :
    (v = 0 ∧ ∃ n : Nat, Succeeds w n data u ∧
      u'.sent = u.sent ++ download data.length :: if n = 0 then [] else [data.take n]) ∨
    v = -1 ∧ ∀ n, ¬ Succeeds w n data u := by
  unfold fbDownloadData at h
  obtain ⟨⟨r, u₁⟩, hr, h⟩ := Option.bind_eq_some_iff.mp h
  cases h
  rcases commandSend_cases hr with ⟨n, hn, hS, hlog⟩ | ⟨hn, hS⟩
  · exact .inl ⟨if_neg (by rw [hn]; omega), n, hS, hlog⟩
  · exact .inr ⟨if_pos (by rw [hn]; decide), hS⟩

theorem respond_some (w size : Nat) (dataOkay : Bool) {s : Option Status} {rest : List (Option Status)}
    (h : answers u.reads = s :: rest) :
    ∃ r u₁, respond w size dataOkay u = some (r, u₁) ∧ answers u₁.reads = rest ∧
      u₁.writes = u.writes := by
  obtain ⟨r, reads', hc, hrest⟩ := checkResponse_some w size dataOkay h
  exact ⟨r, { u with reads := reads' }, by rw [respond, hc]; rfl, hrest, rfl⟩

theorem sendAck_some {s : Option Status} {rest : List (Option Status)}
    (h : answers u.reads = s :: rest) : ∃ r u₁, sendAck w size u = some (r, u₁) := by
  obtain ⟨r, u₁, hr, -⟩ := respond_some w 0 false h
  exact ⟨_, u₁, by rw [sendAck, hr]; rfl⟩

theorem sendData_some {s : Option Status} {rest : List (Option Status)} {x : Int} {writes : List Int}
    (h : answers u.reads = s :: rest) (hw : u.writes = x :: writes) :
    ∃ r u₁, sendData w data n u = some (r, u₁) := by
  unfold sendData
  split
  · exact sendAck_some h
  · rw [usbWrite, hw]
    dsimp only [bind, Option.bind]
    split
    · exact ⟨_, _, rfl⟩
    · split
      · exact ⟨_, _, rfl⟩
      · exact sendAck_some h

/-- Two answers, and what the two writes return, are enough for the call to return. -/
theorem fbDownloadData_some {s s' : Option Status} {rest : List (Option Status)} {x y : Int}
    {writes : List Int} (h : answers u.reads = s :: s' :: rest) (hw : u.writes = x :: y :: writes) :
    ∃ v u', fbDownloadData w data u = some (v, u') := by
  have hsend : ∃ r u', commandSend w (download data.length) (some data) data.length u = some (r, u') := by
    rw [commandSend, if_neg (by rw [length_download]; decide), usbWrite, hw]
    dsimp only [bind, Option.bind]
    split
    · exact ⟨_, _, rfl⟩
    · obtain ⟨r, u₁, hr, hrest, hwrites⟩ := respond_some w data.length true
        (u := ⟨u.reads, y :: writes, _⟩) h
      rw [hr]
      dsimp only
      split
      · exact ⟨_, _, rfl⟩
      · exact sendData_some hrest hwrites
  obtain ⟨r, u', hr⟩ := hsend
  exact ⟨_, u', by rw [fbDownloadData, hr]; rfl⟩

/-- 0 is returned for a download that is complete, and -1 for any other conversation. -/
def Faithful (data : List UInt8) (u : Usb) (v : Int) (u' : Usb) : Prop :=
  (v = 0 → Delivered data u u') ∧ (¬ Delivered data u u' → v = -1)

/-- The buffers that were sent show whether it was all of the data. -/
theorem eq_length_of_sent {sent : List (List UInt8)} {cmd : List UInt8} (hn : n ≤ data.length)
    (h : sent ++ cmd :: (if n = 0 then [] else [data.take n]) =
      sent ++ cmd :: if data.length = 0 then [] else [data]) : n = data.length := by
  have h := (List.cons.inj (List.append_cancel_left h)).2
  split at h
  · next h0 =>
    split at h
    · next hlen => rw [h0, hlen]
    · cases h
  · split at h
    · cases h
    · have htake := congrArg List.length (List.cons.inj h).1
      rw [List.length_take, Nat.min_eq_left hn] at htake
      exact htake

/-- **Success means that everything was sent**, exactly when the device does not answer the command with
`OKAY`, or ask for another number of bytes, and then take what it gets and acknowledge. The call
returns when the device has answered twice. -/
theorem faithful_iff (w : Nat) (data : List UInt8) (u : Usb) :
    (2 ≤ (answers u.reads).length → 2 ≤ u.writes.length →
      ∃ v u', fbDownloadData w data u = some (v, u')) ∧
    ∀ v u', fbDownloadData w data u = some (v, u') →
      (Faithful data u v u' ↔ ¬ Short w data.length u) := by
  constructor
  · intro ha hw
    match hans : answers u.reads, hwr : u.writes with
    | s :: s' :: rest, x :: y :: writes => exact fbDownloadData_some hans hwr
    | [], _ | [_], _ =>
      rw [hans] at ha
      simp at ha
    | _ :: _ :: _, [] | _ :: _ :: _, [_] =>
      rw [hwr] at hw
      simp at hw
  · intro v u' h
    have hcases := fbDownloadData_cases h
    constructor
    · -- A short download is taken for success.
      intro hf hshort
      have hS : ∃ n, Succeeds w n data u := by
        rcases hshort with ⟨⟨f, s, rest, ha, hP, hok⟩, hw⟩ | ⟨n, hn, hlt, ⟨f, s, rest, ha, hP, hok⟩, hw⟩
        · exact ⟨0, Nat.zero_le _, by decide, ⟨f, s, rest, ha, .inl ⟨hP, rfl⟩, hok⟩, hw⟩
        · exact ⟨n, hn, hlt, ⟨f, s, rest, ha, .inr hP.1, hok⟩, hw⟩
      obtain ⟨n, hS⟩ := hS
      obtain ⟨rfl, m, hm, hlog⟩ : v = 0 ∧ ∃ m, Succeeds w m data u ∧
          u'.sent = u.sent ++ download data.length :: if m = 0 then [] else [data.take m] := by
        rcases hcases with h0 | ⟨-, hno⟩
        · exact h0
        · exact absurd hS (hno n)
      obtain ⟨first, second, rest, ha, hfirst, -, hall⟩ := hf.1 rfl
      have hok : answer first ≠ .okay := by
        intro ho
        rw [ho] at hfirst
        cases hfirst
      rcases hshort with ⟨⟨f, s, rest', ha', hP, -⟩, -⟩ |
        ⟨k, hk, -, ⟨f, s, rest', ha', ⟨hd, hne⟩, -⟩, -⟩
      · obtain ⟨rfl, -⟩ := List.cons.inj (ha.symm.trans ha')
        exact hok hP
      · obtain ⟨rfl, -⟩ := List.cons.inj (ha.symm.trans ha')
        obtain ⟨hle, -, ⟨g, t, rest₂, ha₂, hP, -⟩, -⟩ := hm
        obtain ⟨rfl, -⟩ := List.cons.inj (ha.symm.trans ha₂)
        obtain rfl : k = m := Option.some.inj (hd.symm.trans (hP.resolve_left fun ho => hok ho.1))
        exact hne ⟨hfirst, eq_length_of_sent hle (hlog.symm.trans hall)⟩
    · intro hno
      rcases hcases with ⟨rfl, n, ⟨hn, hlt, ⟨f, s, rest, ha, hP, hok⟩, hw⟩, hlog⟩ | ⟨rfl, -⟩
      · have hd : Delivered data u u' := by
          rcases hP with ⟨ho, rfl⟩ | hdata
          · exact absurd (.inl ⟨⟨f, s, rest, ha, ho, hok⟩, hw⟩) hno
          · obtain ⟨hasks, rfl⟩ : (answer f).asks = some (data.length : Int) ∧ n = data.length := by
              by_contra hne
              exact hno (.inr ⟨n, hn, hlt, ⟨f, s, rest, ha, ⟨hdata, hne⟩, hok⟩, hw⟩)
            rw [List.take_length] at hlog
            exact ⟨f, s, rest, ha, hasks, hok, hlog⟩
        exact ⟨fun _ => hd, fun hd' => absurd hd hd'⟩
      · exact ⟨fun h0 => absurd h0 (by decide), fun _ => rfl⟩

/-- A status of the device. -/
def status (s : String) (h : (str s).length ≤ 64) : Option Status := some ⟨str s, h⟩

/-- A device that asks for three bytes and takes them. -/
def threeBytes : Usb :=
  ⟨[status "INFOerasing" (by decide), status "DATA00000003" (by decide), status "OKAY" (by decide)],
    [17, 3], []⟩

theorem faithful_threeBytes : ∃ v u', fbDownloadData 64 [1, 2, 3] threeBytes = some (v, u') ∧
    Faithful [1, 2, 3] threeBytes v u' := by
  have hans : answers threeBytes.reads =
      [status "DATA00000003" (by decide), status "OKAY" (by decide)] := rfl
  obtain ⟨hret, hiff⟩ := faithful_iff 64 [1, 2, 3] threeBytes
  obtain ⟨v, u', h⟩ := hret (by rw [hans]; decide) (by decide)
  refine ⟨v, u', h, (hiff v u' h).mpr ?_⟩
  have hthree : (answer (status "DATA00000003" (by decide))).asks = some 3 ∧
      (answer (status "DATA00000003" (by decide))).dsize 64 = some 3 := by decide
  rintro (⟨⟨f, s, rest, ha, hP, -⟩, -⟩ | ⟨n, -, -, ⟨f, s, rest, ha, ⟨hd, hne⟩, -⟩, -⟩)
  · obtain ⟨rfl, -⟩ := List.cons.inj (hans.symm.trans ha)
    exact absurd hP (by decide)
  · obtain ⟨rfl, -⟩ := List.cons.inj (hans.symm.trans ha)
    exact hne ⟨hthree.1, Option.some.inj (hd.symm.trans hthree.2)⟩

/-- A device that answers a download with `OKAY` twice. -/
def contentDevice : Usb := ⟨[status "OKAY" (by decide), status "OKAY" (by decide)], [17], []⟩

/-- Nothing is sent to it, and 0 is returned. -/
theorem nothing_sent : ∃ u', fbDownloadData 64 [1, 2, 3] contentDevice = some (0, u') ∧
    u'.sent = [download 3] ∧ ¬ Faithful [1, 2, 3] contentDevice 0 u' := by
  refine ⟨⟨[], [], [download 3]⟩, rfl, rfl, fun hf => ?_⟩
  obtain ⟨first, second, rest, ha, hfirst, -⟩ := hf.1 rfl
  have hans : answers contentDevice.reads =
      [status "OKAY" (by decide), status "OKAY" (by decide)] := rfl
  obtain ⟨rfl, -⟩ := List.cons.inj (hans.symm.trans ha)
  exact absurd hfirst (by decide)

-- A device that asks for 2 ^ 32 + 3 bytes gets three.
example : (answer (status "DATA100000003" (by decide))).asks = some (2 ^ 32 + 3) ∧
    (fbDownloadData 64 [1, 2, 3] ⟨[status "DATA100000003" (by decide), status "OKAY" (by decide)],
      [17, 3], []⟩).map (·.1) = some 0 := by decide

end Twm.Fastboot.Protocol
