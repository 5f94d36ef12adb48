import DeviceTwm.Adb.SyncClient

/-!
# The reads of the sync client

Every length field of the server is stored to an `int`, compared with a limit and passed to
`readx` as a `size_t`. A length of `2 ^ 31` or more is negative as an `int`: it passes every limit
and asks for a huge size. This is the only way a read can ask for more than its buffer holds.

* `LsHits`, `RecvHits`, `ReplyHits`: the byte streams with such a length where the client gets to.
* `sync_reads_fit_iff`: the reads of `sync_ls`, `sync_recv` and the reply of `sync_send` fit their
  buffers exactly when the stream is none of these.
-/

open Lib

namespace Twm.Adb

/-- Complete entries of a listing, then an entry with a length of `2 ^ 31` or more. -/
inductive LsHits : List UInt8 → Prop
  | here (h t : List UInt8) : h.length = 20 → word h 0 = ID_DENT → 2 ^ 31 ≤ word h 16 →
    LsHits (h ++ t)
  | next (h name t : List UInt8) : h.length = 20 → word h 0 = ID_DENT → word h 16 ≤ 256 →
    name.length = word h 16 → LsHits t → LsHits (h ++ (name ++ t))

/-- Complete chunks of a file that the local file takes, then a chunk or a failure with a length of
`2 ^ 31` or more. `room` is what the local file takes. -/
inductive RecvHits : Option Nat → List UInt8 → Prop
  | here (room : Option Nat) (h t : List UInt8) : h.length = 8 →
    word h 0 = ID_DATA ∨ word h 0 = ID_FAIL → 2 ^ 31 ≤ word h 4 → RecvHits room (h ++ t)
  | next (room : Option Nat) (h b t : List UInt8) : h.length = 8 → word h 0 = ID_DATA →
    word h 4 ≤ SYNC_DATA_MAX → b.length = word h 4 → (∀ n, room = some n → b.length ≤ n) →
    RecvHits (room.map (· - b.length)) t → RecvHits room (h ++ (b ++ t))

/-- A failure with a length of `2 ^ 31` or more. -/
def ReplyHits (inp : List UInt8) : Prop :=
  8 ≤ inp.length ∧ word inp 0 = ID_FAIL ∧ 2 ^ 31 ≤ word inp 4

theorem word_append {h t : List UInt8} {off : Nat} (hl : off + 4 ≤ h.length) :
    word (h ++ t) off = word h off := by
  unfold word
  rw [List.drop_append_of_le_length (by omega)]
  generalize hd : h.drop off = d
  have hdl : 4 ≤ d.length := by
    rw [← hd, List.length_drop]
    omega
  match d, hdl with
  | b₀ :: b₁ :: b₂ :: b₃ :: d, _ => rfl

/-- A length within the limit of an `int` comparison is small, or has its top bit set. -/
theorem le_or_of_not_lt_int {n limit : Nat} (hlim : ¬ (limit : Int) < int n) :
    n ≤ limit ∨ 2 ^ 31 ≤ n := by
  unfold int at hlim
  split at hlim <;> omega

/-- A length above the limit of an `int` comparison is neither. -/
theorem bounds_of_lt_int (limit : Nat) {n : Nat} (hn : n < 2 ^ 32) (hlim : (limit : Int) < int n) :
    n < 2 ^ 31 ∧ limit < n := by
  unfold int at hlim
  split at hlim <;> omega

/-- The read of as many bytes as a length field says, once it passed its limit: it does not fit,
or the input ends, or it gets its bytes. -/
theorem readx_length (limit : Nat) (buf : Buf) (c : Conn) {w n : Nat} (hw : 32 ≤ w) (hn : n < 2 ^ 32)
    (hlim : ¬ (limit : Int) < int n) (hcap : limit ≤ buf.capacity)
    (hcap' : buf.capacity < 2 ^ 31) :
    (2 ^ 31 ≤ n ∧ ∃ c', c.readx buf (sizeT w (int n)) = (none, c') ∧ ¬ c'.Safe) ∨
    (n ≤ limit ∧ c.inp.length < n ∧
      ∃ c', c.readx buf (sizeT w (int n)) = (none, c') ∧ (c.Safe → c'.Safe)) ∨
    (n ≤ limit ∧ ∃ b t, c.inp = b ++ t ∧ b.length = n ∧ ∃ c',
      c.readx buf (sizeT w (int n)) = (some b, c') ∧ (c.Safe → c'.Safe) ∧ c'.inp = t) := by
  rcases le_or_of_not_lt_int hlim with hle | hbig
  · rw [sizeT_int_of_lt hw (by omega)]
    have hsafe : c.Safe → (c.readx buf n).2.Safe := (Conn.readx_safe (by omega)).mpr
    by_cases hlen : c.inp.length < n
    · exact .inr (.inl ⟨hle, hlen, _, Prod.ext (Conn.readx_short hlen) rfl, hsafe⟩)
    · have hi : c.inp = c.inp.take n ++ c.inp.drop n := (List.take_append_drop n _).symm
      have hl : (c.inp.take n).length = n := by simp; omega
      have hread := Conn.readx_append buf (by omega) hi
      rw [hl] at hread
      rw [hread] at hsafe ⊢
      exact .inr (.inr ⟨hle, _, _, hi, hl, _, rfl, hsafe, rfl⟩)
  · have hbig' := le_sizeT_int hw hbig hn
    have hnone : (c.readx buf (sizeT w (int n))).1 = none := by
      unfold Conn.readx
      rw [if_neg (by omega)]
    exact .inl ⟨hbig, _, Prod.ext hnone rfl, Conn.not_readx_safe (by omega)⟩

/-- The read of a message: the input ends, or it gets the message. -/
theorem readx_msg (n : Nat) (c : Conn) :
    (c.inp.length < n ∧ ∃ c', c.readx (.msg n) n = (none, c') ∧ (c.Safe → c'.Safe)) ∨
    ∃ h t, c.inp = h ++ t ∧ h.length = n ∧ ∃ c',
      c.readx (.msg n) n = (some h, c') ∧ (c.Safe → c'.Safe) ∧ c'.inp = t := by
  have hsafe : c.Safe → (c.readx (.msg n) n).2.Safe := (Conn.readx_safe (Nat.le_refl n)).mpr
  by_cases hlen : c.inp.length < n
  · exact .inl ⟨hlen, _, Prod.ext (Conn.readx_short hlen) rfl, hsafe⟩
  · have hi : c.inp = c.inp.take n ++ c.inp.drop n := (List.take_append_drop n _).symm
    have hl : (c.inp.take n).length = n := by simp; omega
    have hread := Conn.readx_append (.msg n) (by simp [Buf.capacity]) hi
    rw [hl] at hread
    rw [hread] at hsafe ⊢
    exact .inr ⟨_, _, hi, hl, _, rfl, hsafe, rfl⟩

/-! ## `sync_ls` -/

theorem lsHits_cons {h t : List UInt8} (hl : h.length = 20) : LsHits (h ++ t) ↔
    word h 0 = ID_DENT ∧ (2 ^ 31 ≤ word h 16 ∨ word h 16 ≤ 256 ∧
      ∃ name t', t = name ++ t' ∧ name.length = word h 16 ∧ LsHits t') := by
  constructor
  · intro hh
    generalize hs : h ++ t = s at hh
    cases hh with
    | here h' t' hl' hid hlen =>
      obtain ⟨rfl, rfl⟩ := List.append_inj hs (by omega)
      exact ⟨hid, .inl hlen⟩
    | next h' name t' hl' hid hlen hn ht =>
      obtain ⟨rfl, rfl⟩ := List.append_inj hs (by omega)
      exact ⟨hid, .inr ⟨hlen, name, t', rfl, hn, ht⟩⟩
  · rintro ⟨hid, hlen | ⟨hlen, name, t', rfl, hn, ht⟩⟩
    · exact .here h t hl hid hlen
    · exact .next h name t' hl hid hlen hn ht

theorem not_lsHits_short {s : List UInt8} (hs : s.length < 20) : ¬ LsHits s := by
  rintro (⟨h, t, hl⟩ | ⟨h, name, t, hl⟩) <;> simp at hs <;> omega

theorem syncLsLoop_safe {w : Nat} (hw : 32 ≤ w) (fuel : Nat) (c : Conn) (es : List Dent)
    (hf : c.inp.length < fuel) (hc : c.Safe) :
    (syncLsLoop w fuel c es).conn.Safe ↔ ¬ LsHits c.inp := by
  induction fuel generalizing c es with
  | zero => omega
  | succ fuel ih =>
    rcases readx_msg 20 c with ⟨hlen, c₁, hread, hsafe⟩ | ⟨h, t, hi, hl, c₁, hread, hsafe, hi₁⟩
    · simp [syncLsLoop, hread, hsafe hc, not_lsHits_short hlen]
    have hs₁ := hsafe hc
    simp only [syncLsLoop, hread]
    rw [hi, lsHits_cons hl]
    by_cases hdone : word h 0 = ID_DONE
    · have hne : word h 0 ≠ ID_DENT := by
        rw [hdone]
        decide
      rw [if_pos hdone]
      simp [hne, hs₁]
    rw [if_neg hdone]
    by_cases hdent : word h 0 = ID_DENT
    swap
    · simp [hdent, hs₁]
    rw [if_neg (not_not_intro hdent)]
    by_cases hlim : (256 : Int) < int (word h 16)
    · -- The length is rejected: it is neither small nor has its top bit set.
      have hb := bounds_of_lt_int 256 (word_lt h 16) hlim
      rw [if_pos hlim]
      refine iff_of_true hs₁ ?_
      rintro ⟨-, hbig | ⟨hle, -⟩⟩ <;> omega
    rw [if_neg hlim]
    rcases readx_length 256 .name c₁ hw (word_lt h 16) hlim (by decide)
      (by decide) with ⟨hbig, c₂, hread₂, hbad⟩ | ⟨hle, hshort, c₂, hread₂, hsafe₂⟩ |
        ⟨hle, b, t', hi₂, hb, c₂, hread₂, hsafe₂, hi₂'⟩
    · simp only [hread₂]
      exact iff_of_false hbad (not_not_intro ⟨hdent, .inl hbig⟩)
    · simp only [hread₂]
      refine iff_of_true (hsafe₂ hs₁) ?_
      rintro ⟨-, hbig | ⟨-, name, t', rfl, hn, -⟩⟩
      · omega
      · rw [hi₁, List.length_append] at hshort
        omega
    · have hlt : c₂.inp.length < fuel := by
        rw [hi, ← hi₁, hi₂] at hf
        simp only [List.length_append] at hf
        rw [hi₂']
        omega
      simp only [hread₂]
      rw [ih c₂ _ hlt (hsafe₂ hs₁), hi₂']
      rw [hi₁] at hi₂
      rw [exists_append_iff hi₂ hb]
      constructor
      · rintro hno ⟨-, hbig | ⟨-, hh⟩⟩
        · omega
        · exact hno hh
      · intro hno hh
        exact hno ⟨hdent, .inr ⟨hle, hh⟩⟩

/-! ## Failures -/

/-- The read of the text of a failure, with the length cut to 256. -/
theorem readx_message {w n : Nat} (hw : 32 ≤ w) (hn : n < 2 ^ 32) {c : Conn} (hc : c.Safe) :
    (c.readx .message (sizeT w (if 256 < int n then 256 else int n))).2.Safe ↔ n < 2 ^ 31 := by
  by_cases hlim : 256 < int n
  · have hb := bounds_of_lt_int 256 hn hlim
    have h256 : sizeT w 256 = 256 := sizeT_int_of_lt (n := 256) hw (by decide)
    rw [if_pos hlim, h256, Conn.readx_safe (by decide)]
    exact iff_of_true hc hb.1
  · rw [if_neg hlim]
    rcases readx_length 256 .message c hw hn hlim (by decide) (by decide) with
      ⟨hbig, c', hread, hbad⟩ | ⟨hle, -, c', hread, hsafe⟩ | ⟨hle, b, t, -, -, c', hread, hsafe, -⟩
    · rw [hread]
      exact iff_of_false hbad (by omega)
    · rw [hread]
      exact iff_of_true (hsafe hc) (by omega)
    · rw [hread]
      exact iff_of_true (hsafe hc) (by omega)

theorem remoteError_safe {w : Nat} (hw : 32 ≤ w) (m : List UInt8) {c : Conn} (hc : c.Safe) :
    (remoteError w m c).conn.Safe ↔ (word m 0 = ID_FAIL → word m 4 < 2 ^ 31) := by
  by_cases hfail : word m 0 = ID_FAIL
  · have hm := readx_message hw (word_lt m 4) hc
    unfold remoteError
    rw [if_pos hfail]
    simp only [hfail, forall_const]
    rw [← hm]
    obtain ⟨o, c'⟩ := c.readx .message (sizeT w (if 256 < int (word m 4) then 256
      else int (word m 4)))
    cases o with
    | none => exact Iff.rfl
    | some text => exact Iff.rfl
  · unfold remoteError
    rw [if_neg hfail]
    exact iff_of_true hc fun h => absurd h hfail

/-! ## `sync_recv` -/

theorem recvHits_cons {room : Option Nat} {h t : List UInt8} (hl : h.length = 8) :
    RecvHits room (h ++ t) ↔
      ((word h 0 = ID_DATA ∨ word h 0 = ID_FAIL) ∧ 2 ^ 31 ≤ word h 4) ∨
      (word h 0 = ID_DATA ∧ word h 4 ≤ SYNC_DATA_MAX ∧ ∃ b t', t = b ++ t' ∧
        b.length = word h 4 ∧ (∀ n, room = some n → b.length ≤ n) ∧
        RecvHits (room.map (· - b.length)) t') := by
  constructor
  · intro hh
    generalize hs : h ++ t = s at hh
    cases hh with
    | here _ h' t' hl' hid hlen =>
      obtain ⟨rfl, rfl⟩ := List.append_inj hs (by omega)
      exact .inl ⟨hid, hlen⟩
    | next _ h' b t' hl' hid hlen hb htakes ht =>
      obtain ⟨rfl, rfl⟩ := List.append_inj hs (by omega)
      exact .inr ⟨hid, hlen, b, t', rfl, hb, htakes, ht⟩
  · rintro (⟨hid, hlen⟩ | ⟨hid, hlen, b, t', rfl, hb, htakes, ht⟩)
    · exact .here room h t hl hid hlen
    · exact .next room h b t' hl hid hlen hb htakes ht

theorem not_recvHits_short {room : Option Nat} {s : List UInt8} (hs : s.length < 8) :
    ¬ RecvHits room s := by
  rintro (⟨h, t, hl⟩ | ⟨h, b, t, hl⟩) <;> simp at hs <;> omega

/-- How a round of the loop ends that returns -1, with a `DATA` message: the chunk is too long for
the buffer, its length is negative, it is cut off, it cannot be written, or nothing follows it. -/
inductive ChunkFails (m : List UInt8) (lfd : Sink) (c c' : Conn) : Prop
  | long (h : SYNC_DATA_MAX < word m 4) (hlt : word m 4 < 2 ^ 31) (hsafe : c.Safe → c'.Safe)
  | negative (h : 2 ^ 31 ≤ word m 4) (hbad : ¬ c'.Safe)
  | short (hle : word m 4 ≤ SYNC_DATA_MAX) (h : c.inp.length < word m 4)
    (hsafe : c.Safe → c'.Safe)
  | stuck (b t : List UInt8) (hle : word m 4 ≤ SYNC_DATA_MAX) (hi : c.inp = b ++ t)
    (hb : b.length = word m 4) (h : ¬ lfd.Takes b.length ∨ t.length < 8)
    (hsafe : c.Safe → c'.Safe)

/-- A round of the loop with a `DATA` message. -/
theorem syncRecvLoop_data {w : Nat} (hw : 32 ≤ w) (fuel : Nat) {m : List UInt8} (lfd : Sink)
    (c : Conn) (hdata : word m 0 = ID_DATA) :
    (ChunkFails m lfd c (syncRecvLoop w (fuel + 1) m lfd c).conn ∧
      (syncRecvLoop w (fuel + 1) m lfd c).ret = -1) ∨
    ∃ b m' c', word m 4 ≤ SYNC_DATA_MAX ∧ c.inp = b ++ (m' ++ c'.inp) ∧ b.length = word m 4 ∧
      lfd.Takes b.length ∧ m'.length = 8 ∧ (c.Safe → c'.Safe) ∧
      syncRecvLoop w (fuel + 1) m lfd c =
        syncRecvLoop w fuel m' ⟨lfd.out ++ b, lfd.room.map (· - b.length)⟩ c' := by
  have hdone : word m 0 ≠ ID_DONE := by
    rw [hdata]
    decide
  simp only [syncRecvLoop]
  rw [if_neg hdone, if_neg (not_not_intro hdata)]
  by_cases hlim : (SYNC_DATA_MAX : Int) < int (word m 4)
  · have hb := bounds_of_lt_int SYNC_DATA_MAX (word_lt m 4) hlim
    rw [if_pos hlim]
    exact .inl ⟨.long (by omega) (by omega) id, rfl⟩
  rw [if_neg hlim]
  rcases readx_length SYNC_DATA_MAX .data c hw (word_lt m 4) hlim (by decide) (by decide) with
    ⟨hbig, c₂, hread, hbad⟩ | ⟨hle, hshort, c₂, hread, hsafe⟩ |
      ⟨hle, b, t, hi, hb, c₂, hread, hsafe, hi₂⟩
  · simp only [hread]
    exact .inl ⟨.negative hbig hbad, trivial⟩
  · simp only [hread]
    exact .inl ⟨.short hle hshort hsafe, trivial⟩
  simp only [hread]
  by_cases htakes : lfd.Takes b.length
  swap
  · have hfst : (lfd.writex b).1 = false := by
      rw [Bool.eq_false_iff]
      exact fun h => htakes (Sink.writex_fst.mp h)
    rcases hwr : lfd.writex b with ⟨_ | _, lfd'⟩
    · exact .inl ⟨.stuck b t hle hi hb (.inl htakes) hsafe, rfl⟩
    · rw [hwr] at hfst
      cases hfst
  rw [Sink.writex_eq htakes]
  rcases readx_msg 8 c₂ with ⟨hshort, c₃, hread₃, hsafe₃⟩ |
    ⟨m', t', hi₃, hm', c₃, hread₃, hsafe₃, hi₃'⟩
  · simp only [hread₃]
    rw [hi₂] at hshort
    exact .inl ⟨.stuck b t hle hi hb (.inr hshort) (fun h => hsafe₃ (hsafe h)), trivial⟩
  · simp only [hread₃]
    refine .inr ⟨b, m', c₃, hle, ?_, hb, htakes, hm', fun h => hsafe₃ (hsafe h), rfl⟩
    rw [hi, hi₃', ← hi₃, hi₂]

/-- Past a chunk, the stream goes on with what follows it. -/
theorem recvHits_chunk {m b t inp : List UInt8} {room : Option Nat} (hm : m.length = 8)
    (hdata : word m 0 = ID_DATA) (hle : word m 4 ≤ SYNC_DATA_MAX) (hi : inp = b ++ t)
    (hb : b.length = word m 4) : RecvHits room (m ++ inp) ↔
      (∀ n, room = some n → b.length ≤ n) ∧ RecvHits (room.map (· - b.length)) t := by
  have hmax : SYNC_DATA_MAX < 2 ^ 31 := by decide
  rw [recvHits_cons hm, exists_append_iff hi hb]
  constructor
  · rintro (⟨-, hbig⟩ | ⟨-, -, h⟩)
    · omega
    · exact h
  · exact fun h => .inr ⟨hdata, hle, h⟩

theorem syncRecvLoop_safe {w : Nat} (hw : 32 ≤ w) (fuel : Nat) (m : List UInt8) (lfd : Sink)
    (c : Conn) (hm : m.length = 8) (hf : c.inp.length < fuel) (hc : c.Safe) :
    (syncRecvLoop w fuel m lfd c).conn.Safe ↔ ¬ RecvHits lfd.room (m ++ c.inp) := by
  induction fuel generalizing m lfd c with
  | zero => omega
  | succ fuel ih =>
    by_cases hdata : word m 0 = ID_DATA
    swap
    · -- the end of the stream, or a failure
      rw [recvHits_cons hm]
      simp only [syncRecvLoop]
      by_cases hdone : word m 0 = ID_DONE
      · have hfail : word m 0 ≠ ID_FAIL := by
          rw [hdone]
          decide
        rw [if_pos hdone]
        refine iff_of_true hc ?_
        rintro (⟨hid | hid, -⟩ | ⟨hid, -⟩)
        · exact hdata hid
        · exact hfail hid
        · exact hdata hid
      · rw [if_neg hdone, if_pos hdata, remoteError_safe hw m hc]
        constructor
        · rintro hlt (⟨hid | hid, hbig⟩ | ⟨hid, -⟩)
          · exact hdata hid
          · exact absurd (hlt hid) (by omega)
          · exact hdata hid
        · intro hno hid
          exact Nat.lt_of_not_le fun hbig => hno (.inl ⟨.inr hid, hbig⟩)
    have hmax : SYNC_DATA_MAX < 2 ^ 31 := by decide
    rcases syncRecvLoop_data hw fuel lfd c hdata with
      ⟨hfails, -⟩ | ⟨b, m', c', hle, hi, hb, htakes, hm', hsafe, hloop⟩
    · cases hfails with
      | long h hlt hsafe =>
        rw [recvHits_cons hm]
        refine iff_of_true (hsafe hc) ?_
        rintro (⟨-, hbig⟩ | ⟨-, hle, -⟩) <;> omega
      | negative h hbad =>
        rw [recvHits_cons hm]
        exact iff_of_false hbad (not_not_intro (.inl ⟨.inl hdata, h⟩))
      | short hle h hsafe =>
        rw [recvHits_cons hm]
        refine iff_of_true (hsafe hc) ?_
        rintro (⟨-, hbig⟩ | ⟨-, -, b, t, hi, hb, -⟩)
        · omega
        · rw [hi, List.length_append] at h
          omega
      | stuck b t hle hi hb h hsafe =>
        rw [recvHits_chunk hm hdata hle hi hb]
        refine iff_of_true (hsafe hc) ?_
        rintro ⟨htakes, hh⟩
        rcases h with hno | hshort
        · exact hno htakes
        · exact not_recvHits_short hshort hh
    · have hlt : c'.inp.length < fuel := by
        rw [hi, List.length_append, List.length_append] at hf
        omega
      rw [hloop, ih m' _ c' hm' hlt (hsafe hc), recvHits_chunk hm hdata hle hi hb]
      exact not_congr (and_iff_right htakes).symm

/-! ## The three functions -/

/-- A request with a path: both writes are taken, or one of them fails. -/
theorem Conn.writex_request (c : Conn) (id : Nat) (path : List UInt8) :
    (¬ c.sink.Takes (8 + path.length) ∧ ∃ c', c'.inp = c.inp ∧ c'.reads = c.reads ∧
      (c.writex (msg id path.length) = (false, c') ∨
        ∃ c₁, c.writex (msg id path.length) = (true, c₁) ∧ c₁.writex path = (false, c'))) ∨
    (c.sink.Takes (8 + path.length) ∧ ∃ c₁ c', c.writex (msg id path.length) = (true, c₁) ∧
      c₁.writex path = (true, c') ∧ c'.inp = c.inp ∧ c'.reads = c.reads) := by
  have htwo := Sink.writex_two (s := c.sink) (a := msg id path.length) (b := path)
  rw [length_msg] at htwo
  rw [← htwo]
  cases h₁ : (c.sink.writex (msg id path.length)).1 with
  | false => exact .inl ⟨by simp, (c.writex _).2, rfl, rfl, .inl (Prod.ext h₁ rfl)⟩
  | true =>
    cases h₂ : ((c.sink.writex (msg id path.length)).2.writex path).1 with
    | false =>
      exact .inl ⟨by simp, ((c.writex _).2.writex path).2, rfl, rfl,
        .inr ⟨_, Prod.ext h₁ rfl, Prod.ext h₂ rfl⟩⟩
    | true =>
      exact .inr ⟨⟨rfl, rfl⟩, _, ((c.writex _).2.writex path).2, Prod.ext h₁ rfl, Prod.ext h₂ rfl,
        rfl, rfl⟩

theorem syncLs_safe {w : Nat} (hw : 32 ≤ w) (path : List UInt8) {c : Conn} (hc : c.reads = []) :
    (syncLs w path c).conn.Safe ↔
      ¬ (path.length ≤ 1024 ∧ c.sink.Takes (8 + path.length) ∧ LsHits c.inp) := by
  have hs : ∀ c' : Conn, c'.reads = c.reads → c'.Safe := fun c' h => by simp [Conn.Safe, h, hc]
  unfold syncLs
  by_cases hlen : 1024 < path.length
  · rw [if_pos hlen]
    exact iff_of_true (hs c rfl) fun h => by omega
  rw [if_neg hlen]
  obtain ⟨hno, c', hinp, hreads, h₁ | ⟨c₁, h₁, h₂⟩⟩ | ⟨htakes, c₁, c', h₁, h₂, hinp, hreads⟩ :=
    c.writex_request ID_LIST path
  · simp only [h₁]
    exact iff_of_true (hs c' hreads) fun h => hno h.2.1
  · simp only [h₁, h₂]
    exact iff_of_true (hs c' hreads) fun h => hno h.2.1
  · simp only [h₁, h₂, htakes, true_and, show path.length ≤ 1024 by omega]
    rw [← hinp]
    exact syncLsLoop_safe hw _ c' [] (Nat.lt_succ_self _) (hs c' hreads)

/-- The streams on which a read of `sync_recv` does not fit. -/
def RecvStreamHits (creat : Option Sink) (inp : List UInt8) : Prop :=
  ReplyHits inp ∨ ∃ lfd, creat = some lfd ∧ RecvHits lfd.room inp

/-- `sync_recv` once the request is sent. -/
theorem syncRecv_reply_safe {w : Nat} (hw : 32 ≤ w) (creat : Option Sink) {c : Conn}
    (hs : c.Safe) :
    (match c.readx (.msg 8) 8 with
      | (none, c) => (⟨-1, none, none, c⟩ : RecvResult)
      | (some m, c) =>
        if word m 0 = ID_DATA ∨ word m 0 = ID_DONE then
          match creat with
          | none => ⟨-1, none, none, c⟩
          | some lfd => syncRecvLoop w (c.inp.length + 1) m lfd c
        else remoteError w m c).conn.Safe ↔ ¬ RecvStreamHits creat c.inp := by
  unfold RecvStreamHits ReplyHits
  rcases readx_msg 8 c with ⟨hshort, c₁, hread, hsafe⟩ | ⟨m, t, hi, hm, c₁, hread, hsafe, hi₁⟩
  · simp only [hread]
    refine iff_of_true (hsafe hs) ?_
    rintro (⟨hle, -⟩ | ⟨lfd, -, hh⟩)
    · omega
    · exact not_recvHits_short hshort hh
  have hs₁ := hsafe hs
  simp only [hread, hi, word_append (show 0 + 4 ≤ m.length by omega),
    word_append (show 4 + 4 ≤ m.length by omega)]
  by_cases hid : word m 0 = ID_DATA ∨ word m 0 = ID_DONE
  · have hnf : word m 0 ≠ ID_FAIL := by
      rcases hid with hid | hid <;> rw [hid] <;> decide
    rw [if_pos hid]
    cases creat with
    | none => exact iff_of_true hs₁ (by simp [hnf])
    | some lfd =>
      rw [← hi₁]
      refine (syncRecvLoop_safe hw _ m lfd c₁ hm (Nat.lt_succ_self _) hs₁).trans (not_congr ?_)
      simp [hnf]
  · rw [if_neg hid, remoteError_safe hw m hs₁]
    push Not at hid
    constructor
    · rintro hlt (⟨-, hf, hbig⟩ | ⟨lfd, -, hh⟩)
      · exact absurd (hlt hf) (by omega)
      · rw [recvHits_cons hm] at hh
        rcases hh with ⟨hd | hf, hbig⟩ | ⟨hd, -⟩
        · exact hid.1 hd
        · exact absurd (hlt hf) (by omega)
        · exact hid.1 hd
    · intro hno hf
      refine Nat.lt_of_not_le fun hbig => hno (.inl ⟨?_, hf, hbig⟩)
      rw [List.length_append]
      omega

theorem syncRecv_safe {w : Nat} (hw : 32 ≤ w) (rpath : List UInt8) (creat : Option Sink)
    {c : Conn} (hc : c.reads = []) : (syncRecv w rpath creat c).conn.Safe ↔
      ¬ (rpath.length ≤ 1024 ∧ c.sink.Takes (8 + rpath.length) ∧
        RecvStreamHits creat c.inp) := by
  have hs : ∀ c' : Conn, c'.reads = c.reads → c'.Safe := fun c' h => by simp [Conn.Safe, h, hc]
  unfold syncRecv
  by_cases hlen : 1024 < rpath.length
  · rw [if_pos hlen]
    exact iff_of_true (hs c rfl) fun h => by omega
  rw [if_neg hlen]
  obtain ⟨hno, c', hinp, hreads, h₁ | ⟨c₁, h₁, h₂⟩⟩ | ⟨htakes, c₁, c', h₁, h₂, hinp, hreads⟩ :=
    c.writex_request ID_RECV rpath
  · simp only [h₁]
    exact iff_of_true (hs c' hreads) fun h => hno h.2.1
  · simp only [h₁, h₂]
    exact iff_of_true (hs c' hreads) fun h => hno h.2.1
  · simp only [h₁, h₂, htakes, true_and, show rpath.length ≤ 1024 by omega]
    rw [← hinp]
    exact syncRecv_reply_safe hw creat (hs c' hreads)

theorem syncSendReply_safe {w : Nat} (hw : 32 ≤ w) {c : Conn} (hc : c.reads = []) :
    (syncSendReply w c).2.Safe ↔ ¬ ReplyHits c.inp := by
  have hs : c.Safe := by simp [Conn.Safe, hc]
  unfold syncSendReply ReplyHits
  rcases readx_msg 8 c with ⟨hshort, c₁, hread, hsafe⟩ | ⟨m, t, hi, hm, c₁, hread, hsafe, hi₁⟩
  · simp only [hread]
    exact iff_of_true (hsafe hs) fun h => by omega
  have hs₁ := hsafe hs
  have hlen : 8 ≤ c.inp.length := by
    rw [hi, List.length_append]
    omega
  rw [hi] at hlen
  simp only [hread, hi, word_append (show 0 + 4 ≤ m.length by omega),
    word_append (show 4 + 4 ≤ m.length by omega)]
  by_cases hok : word m 0 = ID_OKAY
  · have hnf : word m 0 ≠ ID_FAIL := by
      rw [hok]
      decide
    rw [if_neg (not_not_intro hok)]
    exact iff_of_true hs₁ fun h => hnf h.2.1
  rw [if_pos hok]
  by_cases hf : word m 0 = ID_FAIL
  · rw [if_pos hf, readx_message hw (word_lt m 4) hs₁]
    exact ⟨fun h h' => absurd h'.2.2 (by omega),
      fun h => Nat.lt_of_not_le fun hbig => h ⟨hlen, hf, hbig⟩⟩
  · rw [if_neg hf]
    exact iff_of_true hs₁ fun h => hf h.2.1

/-- **The reads of the sync client.** On a fresh connection, a read asks for more than its buffer
holds exactly when the client gets to a length of `2 ^ 31` or more. -/
theorem sync_reads_fit_iff (w : Nat) (hw : 32 ≤ w) (path : List UInt8) (creat : Option Sink)
    (c : Conn) (hc : c.reads = []) :
    ((syncLs w path c).conn.Safe ↔
      ¬ (path.length ≤ 1024 ∧ c.sink.Takes (8 + path.length) ∧ LsHits c.inp)) ∧
    ((syncRecv w path creat c).conn.Safe ↔
      ¬ (path.length ≤ 1024 ∧ c.sink.Takes (8 + path.length) ∧ RecvStreamHits creat c.inp)) ∧
    ((syncSendReply w c).2.Safe ↔ ¬ ReplyHits c.inp) :=
  ⟨syncLs_safe hw path hc, syncRecv_safe hw path creat hc, syncSendReply_safe hw hc⟩

/-- A server that sends the bytes `inp`. -/
def Conn.fresh (inp : List UInt8) : Conn := ⟨inp, ⟨[], none⟩, []⟩

theorem sync_reads_fit_okay :
    (syncSendReply 64 (Conn.fresh (msg ID_FAIL 3 ++ [110, 111, 33]))).2.Safe := by
  refine (sync_reads_fit_iff 64 (by decide) [] none (Conn.fresh (msg ID_FAIL 3 ++ [110, 111, 33]))
    rfl).2.2.mpr ?_
  rintro ⟨-, -, h⟩
  exact absurd h (by decide)

/-- An entry of a listing with the length `2 ^ 31`: the read into the name buffer asks for
`2 ^ 64 - 2 ^ 31` bytes. -/
theorem sync_ls_overruns : ¬ (syncLs 64 [47]
    (Conn.fresh (le32 ID_DENT ++ (zeros 12 ++ le32 (2 ^ 31))))).conn.Safe := by
  decide

end Twm.Adb
