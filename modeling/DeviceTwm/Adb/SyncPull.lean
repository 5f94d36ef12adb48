import DeviceTwm.Adb.SyncReads
import DeviceTwm.Adb.SyncPush

/-!
# Pulling a file

`do_recv` on the device, and `sync_recv` on whatever a server sends. `sync_recv` returns 0 after
`DONE`, and also after a message that is neither `DATA` nor `DONE`, when it has unlinked the file.

* `Refused`: the streams on which it gets to such a message.
* `pull_honest_iff`: apart from these, and from lengths that a read cannot take, a pull that
  returns 0 left the content of the chunks, and the connection is after `DONE`.
-/

open Lib

namespace Twm.Adb

/-! ## `do_recv` -/

/-- What the file system of the device answers for the path of a `RECV`. -/
structure Source where
  /-- `adb_open`; an error is its `errno`. -/
  opened : Except Int Unit
  reads : List ReadResult
  /-- The `errno` of a read that fails. -/
  readErrno : Int
  chunk : ∀ b, .data b ∈ reads → 0 < b.length ∧ b.length ≤ SYNC_DATA_MAX

/-- The loop of `do_recv`. -/
def doRecvLoop (dev : Device) (errno : Int) : List ReadResult → Conn → Bool × Conn
  | [], c => c.writex (msg ID_DONE 0)
  | .eintr :: rs, c => doRecvLoop dev errno rs c
  | .error :: _, c => failErrno dev c errno
  | .data b :: rs, c =>
    Conn.andThen (c.writex (msg ID_DATA b.length)) fun c =>
      Conn.andThen (c.writex b) fun c => doRecvLoop dev errno rs c

/-- `do_recv`: whether it returns 0. -/
def doRecv (dev : Device) (src : Source) (c : Conn) : Bool × Conn :=
  match src.opened with
  | .error e => failErrno dev c e
  | .ok () => doRecvLoop dev src.readErrno src.reads c

/-- The reads get to the end of the file. -/
def Source.Whole (src : Source) : Prop := src.opened = .ok () ∧ .error ∉ src.reads

/-- The bytes of the remote file. -/
def Source.content (src : Source) : List UInt8 := src.reads.flatMap Push.dataOf

/-- What `do_recv` sends last. -/
def doRecvEnd (dev : Device) (errno : Int) (rs : List ReadResult) : List UInt8 :=
  if .error ∈ rs then msg ID_FAIL (dev.strerror errno).length ++ dev.strerror errno
  else msg ID_DONE 0

theorem doRecvLoop_attempts (dev : Device) (errno : Int) (rs : List ReadResult) (c : Conn) :
    Attempts c (dataBytes (chunksRead rs) ++ doRecvEnd dev errno rs)
      (doRecvLoop dev errno rs c) := by
  induction rs generalizing c with
  | nil =>
    simp only [chunksRead, dataBytes_nil, List.nil_append, doRecvEnd]
    exact Attempts.writex c _
  | cons r rs ih =>
    cases r with
    | eintr =>
      have hend : doRecvEnd dev errno (.eintr :: rs) = doRecvEnd dev errno rs := by
        simp [doRecvEnd]
      rw [hend]
      exact ih c
    | error =>
      simp only [chunksRead, dataBytes_nil, List.nil_append, doRecvEnd, List.mem_cons, true_or,
        if_true]
      exact failMessage_attempts c _
    | data b =>
      have hend : doRecvEnd dev errno (.data b :: rs) = doRecvEnd dev errno rs := by
        simp [doRecvEnd]
      rw [hend, chunksRead, dataBytes_cons, List.append_assoc, List.append_assoc]
      refine (Attempts.writex c _).andThen fun c₁ => ?_
      exact (Attempts.writex c₁ b).andThen fun c₂ => ih c₂

/-- The reply of a device whose connection holds. -/
def recvReply (dev : Device) (src : Source) : List UInt8 :=
  (doRecv dev src ⟨[], ⟨[], none⟩, []⟩).2.sink.out

theorem out_of_attempts {b : List UInt8} {r : Bool × Conn}
    (h : Attempts ⟨[], ⟨[], none⟩, []⟩ b r) : r.2.sink.out = b := by
  rw [h.sends.sent fun k hk => nomatch hk]
  rfl

/-- A reply is chunks, then `DONE` for a file that was read to its end and `FAIL` otherwise. -/
theorem recvReply_eq (dev : Device) (src : Source) :
    (src.Whole ∧ recvReply dev src = dataBytes (chunksRead src.reads) ++ (msg ID_DONE 0 ++ [])) ∨
    ∃ chunks n text, (∀ b ∈ chunks, b.length < 2 ^ 32) ∧
      recvReply dev src = dataBytes chunks ++ (msg ID_FAIL n ++ text) := by
  unfold recvReply doRecv Source.Whole
  cases ho : src.opened with
  | error e =>
    have hout := out_of_attempts (failMessage_attempts ⟨[], ⟨[], none⟩, []⟩ (dev.strerror e))
    exact .inr ⟨[], _, _, by simp, hout⟩
  | ok u =>
    have hout := out_of_attempts (doRecvLoop_attempts dev src.readErrno src.reads
      ⟨[], ⟨[], none⟩, []⟩)
    by_cases herr : .error ∈ src.reads
    · rw [doRecvEnd, if_pos herr] at hout
      refine .inr ⟨chunksRead src.reads, _, _, fun b hb => ?_, hout⟩
      have := chunksRead_small (fun b hb => (src.chunk b hb).2) b hb
      exact Nat.lt_of_le_of_lt this (by decide)
    · rw [doRecvEnd, if_neg herr] at hout
      rw [List.append_nil]
      exact .inl ⟨⟨rfl, herr⟩, hout⟩

/-! ## Streams -/

/-- The message `h`, with `t` after it, is neither `DATA` nor `DONE`, and of the text of a `FAIL` the
first 256 bytes are there. -/
structure Stops (h t : List UInt8) : Prop where
  length : h.length = 8
  notData : word h 0 ≠ ID_DATA
  notDone : word h 0 ≠ ID_DONE
  text : word h 0 = ID_FAIL → word h 4 < 2 ^ 31 ∧ min (word h 4) 256 ≤ t.length

/-- Chunks that the local file takes, then such a message; `room` is what the local file takes. -/
inductive Refused : Option Nat → List UInt8 → Prop
  | here (room : Option Nat) (h t : List UInt8) : Stops h t → Refused room (h ++ t)
  | next (room : Option Nat) (h b t : List UInt8) : h.length = 8 → word h 0 = ID_DATA →
    word h 4 ≤ SYNC_DATA_MAX → b.length = word h 4 → (∀ n, room = some n → b.length ≤ n) →
    Refused (room.map (· - b.length)) t → Refused room (h ++ (b ++ t))

/-- The streams on which `sync_recv` gets to such a message. Without a local file it gets no
further than the first one. -/
def StreamRefused (creat : Option (Option Nat)) (inp : List UInt8) : Prop :=
  (∃ h t, inp = h ++ t ∧ Stops h t) ∨ ∃ room, creat = some room ∧ Refused room inp

/-- The stream is the chunks, `DONE`, and then `rest`. -/
def Sent (inp : List UInt8) (chunks : List (List UInt8)) (rest : List UInt8) : Prop :=
  (∀ b ∈ chunks, b.length < 2 ^ 32) ∧ ∃ n, inp = dataBytes chunks ++ (msg ID_DONE n ++ rest)

/-- A message is the two words in it. -/
theorem eq_msg {h : List UInt8} (hl : h.length = 8) : h = msg (word h 0) (word h 4) := by
  have hword (b₀ b₁ b₂ b₃ : UInt8) (t : List UInt8) :
      le32 (ofLe32 (b₀ :: b₁ :: b₂ :: b₃ :: t)) = [b₀, b₁, b₂, b₃] := by
    have := b₀.toNat_lt
    have := b₁.toNat_lt
    have := b₂.toNat_lt
    have := b₃.toNat_lt
    simp only [le32, ofLe32, List.cons.injEq, and_true, ← UInt8.toNat_inj, UInt8.toNat_ofNat']
    omega
  rcases h with _ | ⟨b₀, _ | ⟨b₁, _ | ⟨b₂, _ | ⟨b₃, _ | ⟨b₄, _ | ⟨b₅, _ | ⟨b₆, _ | ⟨b₇, _ | ⟨b₈, t⟩⟩⟩⟩⟩⟩⟩⟩⟩
  -- The other lengths are not 8.
  all_goals first
    | simp at hl
      done
    | unfold msg word
      simp only [List.drop_zero, List.drop_succ_cons, hword, List.cons_append, List.nil_append]

theorem msg_append_inj {id id' n n' : Nat} {t t' : List UInt8} (hid : id < 2 ^ 32)
    (hid' : id' < 2 ^ 32) (h : msg id n ++ t = msg id' n' ++ t') :
    id = id' ∧ n % 2 ^ 32 = n' % 2 ^ 32 ∧ t = t' := by
  obtain ⟨hm, ht⟩ := List.append_inj h rfl
  have h₀ := congrArg (word · 0) hm
  have h₄ := congrArg (word · 4) hm
  simp only [word_msg_id hid, word_msg_id hid'] at h₀
  have hlen (k i : Nat) : word (msg i k) 4 = k % 2 ^ 32 := by
    have := ofLe32_le32 k []
    rwa [List.append_nil] at this
  simp only [hlen] at h₄
  exact ⟨h₀, h₄, ht⟩

/-- Chunks can be read off a stream in one way only. -/
theorem dataBytes_inj {as bs : List (List UInt8)} {id id' n n' : Nat} {t t' : List UInt8}
    (ha : ∀ b ∈ as, b.length < 2 ^ 32) (hb : ∀ b ∈ bs, b.length < 2 ^ 32)
    (hid : id < 2 ^ 32) (hid' : id' < 2 ^ 32) (hne : id ≠ ID_DATA) (hne' : id' ≠ ID_DATA)
    (h : dataBytes as ++ (msg id n ++ t) = dataBytes bs ++ (msg id' n' ++ t')) :
    as = bs ∧ id = id' ∧ t = t' := by
  have hdata : ID_DATA < 2 ^ 32 := by decide
  induction as generalizing bs with
  | nil =>
    cases bs with
    | nil =>
      obtain ⟨h₁, -, h₂⟩ := msg_append_inj hid hid' h
      exact ⟨rfl, h₁, h₂⟩
    | cons b bs =>
      rw [dataBytes_cons, List.append_assoc] at h
      exact absurd (msg_append_inj hid hdata h).1 hne
  | cons a as ih =>
    cases bs with
    | nil =>
      rw [dataBytes_cons, List.append_assoc] at h
      exact absurd (msg_append_inj hdata hid' h).1.symm hne'
    | cons b bs =>
      simp only [dataBytes_cons, List.append_assoc] at h
      obtain ⟨-, hlen, h⟩ := msg_append_inj hdata hdata h
      rw [Nat.mod_eq_of_lt (ha a (by simp)), Nat.mod_eq_of_lt (hb b (by simp))] at hlen
      obtain ⟨rfl, hrest⟩ := List.append_inj h hlen
      have ha' : ∀ c ∈ as, c.length < 2 ^ 32 := fun c hc => ha c (by simp [hc])
      have hb' : ∀ c ∈ bs, c.length < 2 ^ 32 := fun c hc => hb c (by simp [hc])
      obtain ⟨rfl, h₁, h₂⟩ := ih ha' hb' hrest
      exact ⟨rfl, h₁, h₂⟩

theorem refused_cons {room : Option Nat} {h t : List UInt8} (hl : h.length = 8) :
    Refused room (h ++ t) ↔ Stops h t ∨
      (word h 0 = ID_DATA ∧ word h 4 ≤ SYNC_DATA_MAX ∧ ∃ b t', t = b ++ t' ∧
        b.length = word h 4 ∧ (∀ n, room = some n → b.length ≤ n) ∧
        Refused (room.map (· - b.length)) t') := by
  constructor
  · intro hh
    generalize hs : h ++ t = s at hh
    cases hh with
    | here _ h' t' hstop =>
      obtain ⟨rfl, rfl⟩ := List.append_inj hs (hl.trans hstop.length.symm)
      exact .inl hstop
    | next _ h' b t' hl' hid hlen hb htakes ht =>
      obtain ⟨rfl, rfl⟩ := List.append_inj hs (hl.trans hl'.symm)
      exact .inr ⟨hid, hlen, b, t', rfl, hb, htakes, ht⟩
  · rintro (hstop | ⟨hid, hlen, b, t', rfl, hb, htakes, ht⟩)
    · exact .here room h t hstop
    · exact .next room h b t' hl hid hlen hb htakes ht

theorem not_refused_short {room : Option Nat} {s : List UInt8} (hs : s.length < 8) :
    ¬ Refused room s := by
  intro h
  cases h with
  | here _ h t hstop =>
    rw [List.length_append, hstop.length] at hs
    omega
  | next _ h b t hl =>
    rw [List.length_append, hl] at hs
    omega

/-! ## `sync_recv` -/

/-- Whether the text of a failure, cut to 256 bytes, can be read. -/
theorem readx_message_isSome {w n : Nat} (hw : 32 ≤ w) (hn : n < 2 ^ 32) (c : Conn) :
    (c.readx .message (sizeT w (if 256 < int n then 256 else int n))).1.isSome = true ↔
      n < 2 ^ 31 ∧ min n 256 ≤ c.inp.length := by
  by_cases hlim : 256 < int n
  · have hb := bounds_of_lt_int 256 hn hlim
    have h256 : sizeT w 256 = 256 := sizeT_int_of_lt (n := 256) hw (by decide)
    rw [if_pos hlim, h256, Nat.min_eq_right (by omega)]
    unfold Conn.readx
    by_cases hle : 256 ≤ c.inp.length
    · rw [if_pos ⟨Nat.le_refl _, hle⟩]
      exact iff_of_true rfl ⟨hb.1, hle⟩
    · rw [if_neg fun h => hle h.2]
      exact iff_of_false (by simp) fun h => hle h.2
  · rw [if_neg hlim]
    rcases readx_length 256 .message c hw hn hlim (by decide) (by decide) with
      ⟨hbig, c', hread, -⟩ | ⟨hle, hshort, c', hread, -⟩ | ⟨hle, b, t, hi, hb, c', hread, -, -⟩
    · rw [hread]
      exact iff_of_false (by simp) (by omega)
    · rw [hread]
      exact iff_of_false (by simp) (by omega)
    · rw [hread, hi, List.length_append]
      exact iff_of_true rfl (by omega)

/-- `remote_error` returns 0 when the text of a failure is there. -/
theorem remoteError_spec {w : Nat} (hw : 32 ≤ w) {m : List UInt8} (hm : m.length = 8) (c : Conn)
    (hdata : word m 0 ≠ ID_DATA) (hdone : word m 0 ≠ ID_DONE) :
    (remoteError w m c).file = none ∧ ((remoteError w m c).ret = 0 ↔ Stops m c.inp) := by
  unfold remoteError
  by_cases hfail : word m 0 = ID_FAIL
  · rw [if_pos hfail]
    have hstop : Stops m c.inp ↔ word m 4 < 2 ^ 31 ∧ min (word m 4) 256 ≤ c.inp.length :=
      ⟨fun h => h.text hfail, fun h => ⟨hm, hdata, hdone, fun _ => h⟩⟩
    rw [hstop, ← readx_message_isSome hw (word_lt m 4) c]
    dsimp only
    obtain ⟨_ | text, c'⟩ := c.readx .message (sizeT w (if 256 < int (word m 4) then 256
      else int (word m 4)))
    · exact ⟨rfl, iff_of_false (by simp) (by simp)⟩
    · exact ⟨rfl, iff_of_true rfl rfl⟩
  · rw [if_neg hfail]
    exact ⟨rfl, iff_of_true rfl ⟨hm, hdata, hdone, fun h => absurd h hfail⟩⟩

/-- What a `sync_recv` may end with: no file and 0 when the server refused, and otherwise 0 only
with the chunks in the file and the connection after `DONE`. -/
def Ends (refused : Prop) (inp old : List UInt8) (r : RecvResult) : Prop :=
  (refused → r.ret = 0 ∧ r.file = none) ∧
  (r.ret = 0 → ¬ refused → ∃ chunks, Sent inp chunks r.conn.inp ∧
    r.file = some (old ++ chunks.flatten))

theorem Ends.failed {refused : Prop} {inp old : List UInt8} {r : RecvResult} (h : ¬ refused)
    (hr : r.ret = -1) : Ends refused inp old r :=
  ⟨fun h' => absurd h' h, fun h' => absurd (hr.symm.trans h') (by decide)⟩

/-- A chunk before the rest of the stream. -/
theorem Ends.chunk {refused refused' : Prop} {m b inp old : List UInt8} {r : RecvResult}
    (hm : m.length = 8) (hdata : word m 0 = ID_DATA) (hb : b.length = word m 4)
    (href : refused ↔ refused') (h : Ends refused' inp (old ++ b) r) :
    Ends refused (m ++ (b ++ inp)) old r := by
  refine ⟨fun h' => h.1 (href.mp h'), fun hr hno => ?_⟩
  obtain ⟨chunks, ⟨hsmall, n, hinp⟩, hfile⟩ := h.2 hr fun h' => hno (href.mpr h')
  refine ⟨b :: chunks, ⟨?_, n, ?_⟩, ?_⟩
  · intro a ha
    rcases List.mem_cons.mp ha with rfl | ha
    · exact hb ▸ word_lt m 4
    · exact hsmall a ha
  · rw [dataBytes_cons, hinp, hb, ← hdata, ← eq_msg hm]
    simp only [List.append_assoc]
  · rw [hfile, List.flatten_cons, List.append_assoc]

/-- Past a chunk, the stream goes on with what follows it. -/
theorem refused_chunk {m b t inp : List UInt8} {room : Option Nat} (hm : m.length = 8)
    (hdata : word m 0 = ID_DATA) (hle : word m 4 ≤ SYNC_DATA_MAX) (hi : inp = b ++ t)
    (hb : b.length = word m 4) : Refused room (m ++ inp) ↔
      (∀ n, room = some n → b.length ≤ n) ∧ Refused (room.map (· - b.length)) t := by
  rw [refused_cons hm, exists_append_iff hi hb]
  constructor
  · rintro (hstop | ⟨-, -, h⟩)
    · exact absurd hdata hstop.notData
    · exact h
  · exact fun h => .inr ⟨hdata, hle, h⟩

/-- A stream on which a round fails is not that of a refusal. -/
theorem ChunkFails.not_refused {m : List UInt8} {lfd : Sink} {c c' : Conn} (hm : m.length = 8)
    (hdata : word m 0 = ID_DATA) (h : ChunkFails m lfd c c') :
    ¬ Refused lfd.room (m ++ c.inp) := by
  have hmax : SYNC_DATA_MAX < 2 ^ 31 := by decide
  cases h with
  | long h | negative h =>
    rw [refused_cons hm]
    rintro (hstop | ⟨-, hle, -⟩)
    · exact hstop.notData hdata
    · omega
  | short hle h =>
    rw [refused_cons hm]
    rintro (hstop | ⟨-, -, b, t, hi, hb, -⟩)
    · exact hstop.notData hdata
    · rw [hi, List.length_append] at h
      omega
  | stuck b t hle hi hb h =>
    rw [refused_chunk hm hdata hle hi hb]
    rintro ⟨htakes, href⟩
    rcases h with hno | hshort
    · exact hno htakes
    · exact not_refused_short hshort href

theorem syncRecvLoop_spec {w : Nat} (hw : 32 ≤ w) (fuel : Nat) (m : List UInt8) (lfd : Sink)
    (c : Conn) (hm : m.length = 8) (hf : c.inp.length < fuel) :
    Ends (Refused lfd.room (m ++ c.inp)) (m ++ c.inp) lfd.out (syncRecvLoop w fuel m lfd c) := by
  induction fuel generalizing m lfd c with
  | zero => omega
  | succ fuel ih =>
    by_cases hdata : word m 0 = ID_DATA
    swap
    · have hcons := @refused_cons lfd.room m c.inp hm
      simp only [syncRecvLoop]
      by_cases hdone : word m 0 = ID_DONE
      · rw [if_pos hdone]
        have hno : ¬ Refused lfd.room (m ++ c.inp) := by
          rw [hcons]
          rintro (hstop | ⟨hid, -⟩)
          · exact hstop.notDone hdone
          · exact hdata hid
        refine ⟨fun h => absurd h hno, fun _ _ => ⟨[], ⟨by simp, word m 4, ?_⟩, by simp⟩⟩
        rw [dataBytes_nil, List.nil_append, ← hdone, ← eq_msg hm]
      · -- The server refuses, if the text of its failure is there.
        rw [if_neg hdone, if_pos hdata]
        obtain ⟨hfile, hret⟩ := remoteError_spec hw hm c hdata hdone
        have href : Refused lfd.room (m ++ c.inp) ↔ Stops m c.inp :=
          hcons.trans ⟨fun h => h.resolve_right fun h => hdata h.1, .inl⟩
        exact ⟨fun h => ⟨hret.mpr (href.mp h), hfile⟩,
          fun hr hno => absurd (href.mpr (hret.mp hr)) hno⟩
    rcases syncRecvLoop_data hw fuel lfd c hdata with
      ⟨hfails, hret⟩ | ⟨b, m', c', hle, hi, hb, htakes, hm', -, hloop⟩
    · exact Ends.failed (hfails.not_refused hm hdata) hret
    · have hlt : c'.inp.length < fuel := by
        rw [hi, List.length_append, List.length_append] at hf
        omega
      have hrest := ih m' ⟨lfd.out ++ b, lfd.room.map (· - b.length)⟩ c' hm' hlt
      have hgo := @refused_chunk m b _ c.inp lfd.room hm hdata hle hi hb
      rw [hloop]
      rw [hi] at hgo ⊢
      exact Ends.chunk hm hdata hb (hgo.trans (and_iff_right htakes)) hrest

/-- A reply of `do_recv` that is chunks and `DONE` is the remote file. -/
theorem Sent.whole {inp rest more : List UInt8} {chunks : List (List UInt8)} {dev : Device}
    {src : Source} (h : Sent inp chunks rest) (hinp : inp = recvReply dev src ++ more) :
    src.Whole ∧ chunks.flatten = src.content ∧ rest = more := by
  obtain ⟨hsmall, n, hs⟩ := h
  rcases recvReply_eq dev src with ⟨hwhole, hr⟩ | ⟨cs, k, text, hcs, hr⟩
  · have hsrc : ∀ b ∈ chunksRead src.reads, b.length < 2 ^ 32 := fun b hb =>
      Nat.lt_of_le_of_lt (chunksRead_small (fun b hb => (src.chunk b hb).2) b hb) (by decide)
    rw [hs, hr, List.append_assoc, List.append_assoc] at hinp
    obtain ⟨rfl, -, hrest⟩ := dataBytes_inj hsmall hsrc (by decide) (by decide) (by decide)
      (by decide) hinp
    exact ⟨hwhole, chunksRead_flatten hwhole.2, hrest⟩
  · rw [hs, hr, List.append_assoc, List.append_assoc] at hinp
    obtain ⟨-, hid, -⟩ := dataBytes_inj hsmall hcs (by decide) (by decide) (by decide)
      (by decide) hinp
    exact absurd hid (by decide)

/-- What `sync_recv` ends with once the request is sent. -/
theorem syncRecv_reply_ends {w : Nat} (hw : 32 ≤ w) (creat : Option (Option Nat)) (c : Conn) :
    Ends (StreamRefused creat c.inp) c.inp []
      (match c.readx (.msg 8) 8 with
      | (none, c) => (⟨-1, none, none, c⟩ : RecvResult)
      | (some m, c) =>
        if word m 0 = ID_DATA ∨ word m 0 = ID_DONE then
          match creat.map (Sink.mk []) with
          | none => ⟨-1, none, none, c⟩
          | some lfd => syncRecvLoop w (c.inp.length + 1) m lfd c
        else remoteError w m c) := by
  rcases readx_msg 8 c with ⟨hshort, c₁, hread, -⟩ | ⟨m, t, hi, hm, c₁, hread, -, hi₁⟩
  · simp only [hread]
    refine Ends.failed ?_ rfl
    rintro (⟨h, t, hi, hstop⟩ | ⟨room, -, hh⟩)
    · rw [hi, List.length_append, hstop.length] at hshort
      omega
    · exact not_refused_short hshort hh
  simp only [hread]
  have hinp : c.inp = m ++ c₁.inp := by rw [hi, hi₁]
  have hfirst : (∃ h t, c.inp = h ++ t ∧ Stops h t) ↔ Stops m c₁.inp := by
    constructor
    · rintro ⟨h, t, hht, hstop⟩
      rw [hinp] at hht
      obtain ⟨rfl, rfl⟩ := List.append_inj hht (hm.trans hstop.length.symm)
      exact hstop
    · exact fun h => ⟨m, _, hinp, h⟩
  unfold StreamRefused
  rw [hfirst, hinp]
  by_cases hid : word m 0 = ID_DATA ∨ word m 0 = ID_DONE
  · have hno : ¬ Stops m c₁.inp := fun h => hid.elim h.notData h.notDone
    rw [if_pos hid]
    cases creat with
    | none => exact Ends.failed (by simp [hno]) rfl
    | some room =>
      have hloop := syncRecvLoop_spec hw _ m ⟨[], room⟩ c₁ hm (Nat.lt_succ_self _)
      simpa [hno] using hloop
  · rw [if_neg hid]
    push Not at hid
    obtain ⟨hfile, hret⟩ := remoteError_spec hw hm c₁ hid.1 hid.2
    refine ⟨fun h => ?_, fun hr hno => absurd (.inl (hret.mp hr)) hno⟩
    have hstop : Stops m c₁.inp := by
      rcases h with h | ⟨room, -, hh⟩
      · exact h
      · exact ((refused_cons hm).mp hh).resolve_right fun h => hid.1 h.1
    exact ⟨hret.mpr hstop, hfile⟩

theorem syncRecv_ends {w : Nat} (hw : 32 ≤ w) (rpath : List UInt8) (creat : Option (Option Nat))
    (c : Conn) :
    Ends (rpath.length ≤ 1024 ∧ c.sink.Takes (8 + rpath.length) ∧ StreamRefused creat c.inp)
      c.inp [] (syncRecv w rpath (creat.map (Sink.mk [])) c) := by
  unfold syncRecv
  by_cases hlen : 1024 < rpath.length
  · rw [if_pos hlen]
    exact Ends.failed (by omega) rfl
  rw [if_neg hlen]
  obtain ⟨hno, c', -, -, h₁ | ⟨c₁, h₁, h₂⟩⟩ | ⟨htakes, c₁, c', h₁, h₂, hinp, -⟩ :=
    c.writex_request ID_RECV rpath
  · simp only [h₁]
    exact Ends.failed (fun h => hno h.2.1) rfl
  · simp only [h₁, h₂]
    exact Ends.failed (fun h => hno h.2.1) rfl
  · simp only [h₁, h₂, htakes, true_and, show rpath.length ≤ 1024 by omega]
    rw [← hinp]
    exact syncRecv_reply_ends hw creat c'

/-- A pull is honest: its reads are defined, and if it returns 0, the stream was chunks and `DONE`,
the local file has the content of the chunks, the connection is where the next message starts, and
if the stream is the reply of `do_recv`, the content is that of the remote file. -/
def PullHonest (w : Nat) (rpath : List UInt8) (creat : Option (Option Nat)) (c : Conn) : Prop :=
  let r := syncRecv w rpath (creat.map (Sink.mk [])) c
  r.conn.Safe ∧
  (r.ret = 0 → ∃ chunks, Sent c.inp chunks r.conn.inp ∧ r.file = some chunks.flatten ∧
    ∀ dev src more, c.inp = recvReply dev src ++ more →
      src.Whole ∧ r.file = some src.content ∧ r.conn.inp = more)

/-- **Pulling a file.** A pull is honest exactly when `sync_recv` does not get to a message that is
neither `DATA` nor `DONE`, nor to a length of `2 ^ 31` or more. -/
theorem pull_honest_iff (w : Nat) (hw : 32 ≤ w) (rpath : List UInt8) (creat : Option (Option Nat))
    (inp : List UInt8) (sink : Sink) :
    PullHonest w rpath creat ⟨inp, sink, []⟩ ↔
      ¬ (rpath.length ≤ 1024 ∧ sink.Takes (8 + rpath.length) ∧
        (StreamRefused creat inp ∨ RecvStreamHits (creat.map (Sink.mk [])) inp)) := by
  have hsafe := syncRecv_safe hw rpath (creat.map (Sink.mk [])) (c := ⟨inp, sink, []⟩) rfl
  have hends := syncRecv_ends hw rpath creat ⟨inp, sink, []⟩
  unfold PullHonest
  dsimp only
  rw [hsafe]
  constructor
  · rintro ⟨hno, hret⟩ ⟨hlen, htakes, href | hhits⟩
    · obtain ⟨hzero, hnone⟩ := hends.1 ⟨hlen, htakes, href⟩
      obtain ⟨chunks, -, hfile, -⟩ := hret hzero
      rw [hnone] at hfile
      cases hfile
    · exact hno ⟨hlen, htakes, hhits⟩
  · intro hno
    refine ⟨fun h => hno ⟨h.1, h.2.1, .inr h.2.2⟩, fun hzero => ?_⟩
    obtain ⟨chunks, hsent, hfile⟩ := hends.2 hzero fun h => hno ⟨h.1, h.2.1, .inl h.2.2⟩
    refine ⟨chunks, hsent, hfile, fun dev src more hinp => ?_⟩
    obtain ⟨hwhole, hcontent, hrest⟩ := hsent.whole hinp
    exact ⟨hwhole, by rw [hfile, ← hcontent]; rfl, hrest⟩

/-- Chunks of the right size, with `DONE` after them, are no refusal, and their lengths can be read. -/
theorem chunks_unrefused {chunks : List (List UInt8)}
    (h : ∀ b ∈ chunks, b.length ≤ SYNC_DATA_MAX) (room : Option Nat) (rest : List UInt8) :
    ¬ Refused room (dataBytes chunks ++ (msg ID_DONE 0 ++ rest)) ∧
      ¬ RecvHits room (dataBytes chunks ++ (msg ID_DONE 0 ++ rest)) := by
  have hmax : SYNC_DATA_MAX < 2 ^ 32 := by decide
  induction chunks generalizing room with
  | nil =>
    rw [dataBytes_nil, List.nil_append, refused_cons rfl, recvHits_cons rfl,
      word_msg_id (by decide : ID_DONE < 2 ^ 32)]
    constructor
    · rintro (hstop | ⟨hid, -⟩)
      · exact absurd hstop.notDone (by decide)
      · exact absurd hid (by decide)
    · rintro (⟨hid, -⟩ | ⟨hid, -⟩) <;> exact absurd hid (by decide)
  | cons b chunks ih =>
    have hb : b.length ≤ SYNC_DATA_MAX := h b List.mem_cons_self
    have hword : word (msg ID_DATA b.length) 4 = b.length := word_msg_len (by omega) _
    have hdata : word (msg ID_DATA b.length) 0 = ID_DATA := word_msg_id (by decide) _
    have hle : word (msg ID_DATA b.length) 4 ≤ SYNC_DATA_MAX := by
      rw [hword]
      exact hb
    obtain ⟨hno, hno'⟩ := ih (fun b' hb' => h b' (List.mem_cons_of_mem b hb'))
      (room.map (· - b.length))
    rw [dataBytes_cons, List.append_assoc, List.append_assoc]
    refine ⟨fun href => hno ?_, fun hhits => hno' ?_⟩
    · exact ((refused_chunk rfl hdata hle rfl hword.symm).mp href).2
    · exact ((recvHits_chunk rfl hdata hle rfl hword.symm).mp hhits).2

/-- A file of three bytes, in two chunks. -/
theorem pull_honest_twoChunks :
    PullHonest 64 [47] (some none)
      ⟨dataBytes [[1, 2], [3]] ++ (msg ID_DONE 0 ++ []), ⟨[], none⟩, []⟩ := by
  obtain ⟨hno, hno'⟩ := @chunks_unrefused [[1, 2], [3]] (by decide) none []
  refine (pull_honest_iff 64 (by decide) _ _ _ _).mpr ?_
  rintro ⟨-, -, (⟨h, t, hinp, hstop⟩ | ⟨room, hroom, href⟩) | (⟨-, hid, -⟩ | ⟨lfd, hlfd, hhits⟩)⟩
  · exact hno (hinp ▸ .here none h t hstop)
  · cases hroom
    exact hno href
  · exact absurd hid (by decide)
  · cases hlfd
    exact hno' hhits

/-- The server fails with a text of 257 bytes: `sync_recv` returns 0, there is no local file, and the
last byte of the text is still to be read. -/
theorem pull_dishonest :
    let c : Conn := ⟨msg ID_FAIL 257 ++ zeros 257, ⟨[], none⟩, []⟩
    ¬ PullHonest 64 [47] (some none) c ∧
      (syncRecv 64 [47] (some ⟨[], none⟩) c).conn.inp = [0] := by
  refine ⟨?_, by decide +kernel⟩
  rintro ⟨-, h⟩
  obtain ⟨chunks, -, hfile, -⟩ := h (by decide +kernel)
  have hnone : (syncRecv 64 [47] ((some none).map (Sink.mk []))
      ⟨msg ID_FAIL 257 ++ zeros 257, ⟨[], none⟩, []⟩).file = none := by decide +kernel
  rw [hnone] at hfile
  cases hfile

end Twm.Adb
