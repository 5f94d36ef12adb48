import DeviceTwm.Adb.SyncService

/-!
# What `sync_send` sends

The bytes a sequence of writes puts on a connection (`Sends`): all of them if the connection takes
them, and otherwise the connection is broken and stays broken.

* `sendAll_attempts`: `sync_send` gets to the reply exactly when the connection takes the whole
  request, data and `DONE`, and this is then what was sent.
-/

open Lib

namespace Twm.Adb

/-- Writes that send `b`: all of it, or the connection breaks. -/
structure Sends (c : Conn) (b : List UInt8) (c' : Conn) : Prop where
  inp : c'.inp = c.inp
  reads : c'.reads = c.reads
  sent : c.sink.Takes b.length → c'.sink = ⟨c.sink.out ++ b, c.sink.room.map (· - b.length)⟩
  broken : ¬ c.sink.Takes b.length → c'.sink.room = some 0
  init : c'.sink.out <+: c.sink.out ++ b
  stuck : c.sink.room = some 0 → c'.sink.out = c.sink.out

namespace Sends

variable {c c₁ c₂ : Conn} {a b : List UInt8}

theorem nil (c : Conn) : Sends c [] c := by
  refine ⟨rfl, rfl, fun _ => ?_, fun h => absurd (fun k _ => Nat.zero_le k) h, by simp,
    fun _ => rfl⟩
  cases hr : c.sink.room with
  | none => simp [← hr]
  | some n => simp [← hr]

theorem writex (c : Conn) (b : List UInt8) : Sends c b (c.writex b).2 := by
  refine ⟨rfl, rfl, fun h => Sink.writex_snd h, fun h => ?_, ?_, fun h => ?_⟩
  · obtain ⟨n, hn, hlt⟩ : ∃ n, c.sink.room = some n ∧ n < b.length := by
      simpa [Sink.Takes] using h
    simp only [Conn.writex, Sink.writex, hn]
    congr 1
    omega
  · simp only [Conn.writex, Sink.writex]
    split
    · exact List.prefix_rfl
    · exact (List.prefix_append_right_inj _).mpr (List.take_prefix _ _)
  · simp [Conn.writex, Sink.writex, h]

theorem trans (h₁ : Sends c a c₁) (h₂ : Sends c₁ b c₂) : Sends c (a ++ b) c₂ := by
  refine ⟨h₂.inp.trans h₁.inp, h₂.reads.trans h₁.reads, fun h => ?_, fun h => ?_, ?_,
    fun h => ?_⟩
  · rw [List.length_append] at h
    have ha : c.sink.Takes a.length := fun k hk => by have := h k hk; omega
    have e₁ := h₁.sent ha
    have hb : c₁.sink.Takes b.length := by
      rw [e₁]
      intro k hk
      obtain ⟨k', hk', rfl⟩ := Option.map_eq_some_iff.mp hk
      have := h k' hk'
      omega
    rw [h₂.sent hb, e₁]
    simp only [List.append_assoc, List.length_append, Option.map_map, Sink.mk.injEq, true_and]
    congr 1
    funext n
    simp only [Function.comp_apply]
    omega
  · by_cases ha : c.sink.Takes a.length
    · refine h₂.broken fun hb => h fun k hk => ?_
      have := ha k hk
      have := hb (k - a.length) (by rw [h₁.sent ha]; simp [hk])
      rw [List.length_append]
      omega
    · -- The first writes broke the connection, so it takes nothing more.
      have h0 := h₁.broken ha
      by_cases hb : c₁.sink.Takes b.length
      · rw [h₂.sent hb, h0]
        simp
      · exact h₂.broken hb
  · by_cases ha : c.sink.Takes a.length
    · have := h₂.init
      rwa [h₁.sent ha, List.append_assoc] at this
    · rw [h₂.stuck (h₁.broken ha), ← List.append_assoc]
      exact h₁.init.trans (List.prefix_append _ _)
  · have h0 : c₁.sink.room = some 0 := by
      by_cases ha : c.sink.Takes a.length
      · rw [h₁.sent ha, h]
        simp
      · exact h₁.broken ha
    rw [h₂.stuck h0, h₁.stuck h]

/-- A connection that broke sends nothing more. -/
theorem append_of_broken (h : Sends c a c₁) (ha : ¬ c.sink.Takes a.length) (b : List UInt8) :
    Sends c (a ++ b) c₁ := by
  refine ⟨h.inp, h.reads, fun hab => absurd (fun k hk => ?_) ha, fun _ => h.broken ha, ?_,
    h.stuck⟩
  · have := hab k hk
    rw [List.length_append] at this
    omega
  · rw [← List.append_assoc]
    exact h.init.trans (List.prefix_append _ _)

end Sends

/-- A write breaks the connection, or sends its bytes. -/
theorem writex_cases (c : Conn) (b : List UInt8) :
    (∃ c', c.writex b = (false, c') ∧ ¬ c.sink.Takes b.length ∧ Sends c b c') ∨
    ∃ c', c.writex b = (true, c') ∧ c.sink.Takes b.length ∧ Sends c b c' := by
  have hs := Sends.writex c b
  have ht : (c.writex b).1 = true ↔ c.sink.Takes b.length := Sink.writex_fst
  rcases hw : c.writex b with ⟨_ | _, c'⟩
  · rw [hw] at ht hs
    exact .inl ⟨c', rfl, fun h => by simpa using ht.mpr h, hs⟩
  · rw [hw] at ht hs
    exact .inr ⟨c', rfl, ht.mp rfl, hs⟩

/-- Writes of `b` that report whether all was sent. -/
structure Attempts (c : Conn) (b : List UInt8) (r : Bool × Conn) : Prop where
  ok : r.1 = true ↔ c.sink.Takes b.length
  sends : Sends c b r.2

theorem Attempts.writex (c : Conn) (b : List UInt8) : Attempts c b (c.writex b) :=
  ⟨Sink.writex_fst, Sends.writex c b⟩

/-- Whether a connection takes more bytes after the first ones. -/
theorem Sends.takes {c c₁ : Conn} {a b : List UInt8} (h : Sends c a c₁)
    (ha : c.sink.Takes a.length) : c₁.sink.Takes b.length ↔ c.sink.Takes (a ++ b).length := by
  rw [h.sent ha]
  exact Sink.takes_append ha

/-- Writes that stop at the first one that fails. -/
theorem Attempts.andThen {c : Conn} {a b : List UInt8} {r : Bool × Conn}
    {f : Conn → Bool × Conn} (h : Attempts c a r) (hf : ∀ c₁, Attempts c₁ b (f c₁)) :
    Attempts c (a ++ b) (Conn.andThen r f) := by
  obtain ⟨_ | _, c₁⟩ := r
  · have ha : ¬ c.sink.Takes a.length := fun h' => by simpa using h.ok.mpr h'
    refine ⟨?_, h.sends.append_of_broken ha b⟩
    exact iff_of_false (by simp [Conn.andThen]) fun hab => ha (Sink.takes_left hab)
  · exact ⟨(hf c₁).ok.trans (h.sends.takes (h.ok.mp rfl)), h.sends.trans (hf c₁).sends⟩

/-- Chunks as `DATA` messages. -/
def dataBytes (chunks : List (List UInt8)) : List UInt8 :=
  chunks.flatMap fun b => msg ID_DATA b.length ++ b

@[simp] theorem dataBytes_nil : dataBytes [] = [] := by simp [dataBytes]

@[simp] theorem dataBytes_cons (b : List UInt8) (chunks : List (List UInt8)) :
    dataBytes (b :: chunks) = msg ID_DATA b.length ++ (b ++ dataBytes chunks) := by
  simp [dataBytes]

/-- The chunks that `write_data_file` reads: those before the first read that fails. -/
def chunksRead : List ReadResult → List (List UInt8)
  | [] => []
  | .eintr :: rs => chunksRead rs
  | .error :: _ => []
  | .data b :: rs => b :: chunksRead rs

/-- The chunks of `write_data_buffer`. -/
def pieces : Nat → List UInt8 → List (List UInt8)
  | 0, _ => []
  | fuel + 1, b =>
    if b = [] then [] else b.take SYNC_DATA_MAX :: pieces fuel (b.drop SYNC_DATA_MAX)

theorem writeDataReads_sends (rs : List ReadResult) (c : Conn) :
    Sends c (dataBytes (chunksRead rs)) (writeDataReads rs c).2 := by
  induction rs generalizing c with
  | nil => exact Sends.nil c
  | cons r rs ih =>
    cases r with
    | eintr => exact ih c
    | error => exact Sends.nil c
    | data b =>
      simp only [chunksRead, writeDataReads, dataBytes_cons]
      rw [← List.append_assoc]
      rcases writex_cases c (msg ID_DATA b.length ++ b) with ⟨c', hc, ht, hs⟩ | ⟨c', hc, -, hs⟩
      · rw [hc]
        exact hs.append_of_broken ht _
      · rw [hc]
        exact hs.trans (ih c')

theorem writeDataFile_sends (l : LocalFile) (c : Conn) :
    Sends c (dataBytes (if l.openOk then chunksRead l.reads else [])) (writeDataFile l c).2 := by
  unfold writeDataFile
  by_cases h : l.openOk = true
  · rw [if_neg (not_not_intro h), if_pos h]
    exact writeDataReads_sends l.reads c
  · rw [if_pos h, if_neg h]
    exact Sends.nil c

theorem writeDataBuffer_sends (fuel : Nat) (b : List UInt8) (c : Conn) :
    Sends c (dataBytes (pieces fuel b)) (writeDataBuffer fuel b c).2 := by
  induction fuel generalizing b c with
  | zero => exact Sends.nil c
  | succ fuel ih =>
    by_cases hb : b = []
    · simp only [pieces, writeDataBuffer, if_pos hb]
      exact Sends.nil c
    simp only [pieces, writeDataBuffer, if_neg hb, dataBytes_cons]
    rw [← List.append_assoc]
    rcases writex_cases c (msg ID_DATA (b.take SYNC_DATA_MAX).length ++ b.take SYNC_DATA_MAX) with
      ⟨c', hc, ht, hs⟩ | ⟨c', hc, -, hs⟩
    · rw [hc]
      exact hs.append_of_broken ht _
    · rw [hc]
      exact hs.trans (ih _ c')

/-- The chunk of `write_data_link`. -/
def linkChunks (l : LocalFile) : List (List UInt8) :=
  match l.link with
  | none => []
  | some target => [target ++ [0]]

theorem writeDataLink_sends (l : LocalFile) (c : Conn) :
    Sends c (dataBytes (linkChunks l)) (writeDataLink l c).2 := by
  unfold writeDataLink linkChunks
  cases l.link with
  | none => exact Sends.nil c
  | some target =>
    have hd : dataBytes [target ++ [0]] = msg ID_DATA (target.length + 1) ++ (target ++ [0]) := by
      simp [dataBytes]
    simp only [hd]
    rcases writex_cases c (msg ID_DATA (target.length + 1) ++ (target ++ [0])) with
      ⟨c', hc, -, hs⟩ | ⟨c', hc, -, hs⟩
    · rw [hc]
      exact hs
    · rw [hc]
      exact hs

/-- The chunks that `sync_send` sends; `none` where it goes to `fail`. -/
def chunksSent (haveSymlinks : Bool) (l : LocalFile) (mode : Nat) (apk : Option (List UInt8)) :
    Option (List (List UInt8)) :=
  match apk with
  | some b => some (pieces b.length b)
  | none =>
    if S_ISREG mode then some (if l.openOk then chunksRead l.reads else [])
    else if haveSymlinks ∧ S_ISLNK mode then some (linkChunks l)
    else none

theorem sendData_sends (haveSymlinks : Bool) (l : LocalFile) (mode : Nat)
    (apk : Option (List UInt8)) (c : Conn) :
    (chunksSent haveSymlinks l mode apk = none ∧ sendData haveSymlinks l mode apk c = none) ∨
    ∃ chunks c', chunksSent haveSymlinks l mode apk = some chunks ∧
      sendData haveSymlinks l mode apk c = some c' ∧ Sends c (dataBytes chunks) c' := by
  cases apk with
  | some b => exact .inr ⟨_, _, rfl, rfl, writeDataBuffer_sends b.length b c⟩
  | none =>
    simp only [chunksSent, sendData]
    by_cases hreg : S_ISREG mode
    · rw [if_pos hreg, if_pos hreg]
      exact .inr ⟨_, _, rfl, rfl, writeDataFile_sends l c⟩
    rw [if_neg hreg, if_neg hreg]
    by_cases hlnk : haveSymlinks = true ∧ S_ISLNK mode
    · rw [if_pos hlnk, if_pos hlnk]
      exact .inr ⟨_, _, rfl, rfl, writeDataLink_sends l c⟩
    · rw [if_neg hlnk, if_neg hlnk]
      exact .inl ⟨rfl, rfl⟩

/-- The name of the request: the path and the mode. -/
def sendName (rpath : List UInt8) (mode : Nat) : List UInt8 := rpath ++ 44 :: decimalInt mode

/-- The bytes of a whole transfer. -/
def transferBytes (rpath : List UInt8) (mtime mode : Nat) (chunks : List (List UInt8)) :
    List UInt8 :=
  msg ID_SEND (sendName rpath mode).length ++ (sendName rpath mode ++
    (dataBytes chunks ++ msg ID_DONE mtime))

theorem sendRequest_attempts (rpath : List UInt8) (mode : Nat) (c : Conn) :
    Attempts c (msg ID_SEND (sendName rpath mode).length ++ sendName rpath mode)
      (sendRequest rpath mode c) := by
  have hlen : (sendName rpath mode).length = rpath.length + (44 :: decimalInt mode).length := by
    simp [sendName]
  rw [hlen]
  refine (Attempts.writex c _).andThen fun c₁ => ?_
  exact (Attempts.writex c₁ rpath).andThen fun c₂ => Attempts.writex c₂ _

end Twm.Adb
