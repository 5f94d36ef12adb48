import DeviceTwm.Adb.FileSyncRuns

/-!
# One transfer

What `handle_send_file` makes of a whole transfer, on any file system: it reads the transfer up to its
`DONE` and sends one status.

* `Os.Files`: what is in the files that are open, and where the next write goes.
* `receiveLoop_none`, `receiveLoop_some`: the loop without and with an open file.
* `handleSendFile_opened`, `handleSendFile_failed`: `OKAY` when the file was opened and every chunk was
  written, and otherwise one `FAIL`.
* `oneStatus_iff`: the file then has the chunks and nothing else, unless the third `adb_open_mode` finds a
  longer one. It does not cut the file, and `do_send` has only tried to unlink it.
-/

open Lib

namespace Twm.Adb.FileSync

open Act
open PushDir (ID_STAT)

variable {φ δ : Type} {os : Os φ δ}

/-! ## Open files -/

/-- The bytes of a file after `b` is written at `pos`. -/
def overwrite (content : List UInt8) (pos : Nat) (b : List UInt8) : List UInt8 :=
  content.take pos ++ b ++ content.drop (pos + b.length)

/-- What the calls do to the files that are open. -/
structure Os.Files (os : Os φ δ) where
  content : δ → φ → List UInt8
  pos : δ → φ → Nat
  create : ∀ {path mode s d s'}, os.create path mode s = (.ok d, s') →
    content d s' = [] ∧ pos d s' = 0
  reopen : ∀ {path mode s d s'}, os.reopen path mode s = (.ok d, s') → pos d s' = 0
  writex : ∀ {d b s s'}, os.writex d b s = (none, s') →
    content d s' = overwrite (content d s) (pos d s) b ∧ pos d s' = pos d s + b.length
  close : ∀ d s, content d (os.close d s).2 = content d s
  utime : ∀ path t d s, content d (os.utime path t s) = content d s

/-- The calls of `writex` for the chunks, up to the first one that fails. -/
def writeChunks (os : Os φ δ) (d : δ) : List (List UInt8) → φ → Option Int × φ
  | [], fs => (none, fs)
  | b :: chunks, fs =>
    match os.writex d b fs with
    | (none, fs) => writeChunks os d chunks fs
    | (some e, fs) => (some e, fs)

/-- Chunks go over the old content one after the other. -/
theorem Os.Files.writeChunks_content (files : os.Files) {d : δ} (old : List UInt8)
    (chunks : List (List UInt8)) {s s' : φ} (done : List UInt8)
    (h : writeChunks os d chunks s = (none, s'))
    (hc : files.content d s = done ++ old.drop done.length) (hp : files.pos d s = done.length) :
    files.content d s' = done ++ chunks.flatten ++ old.drop (done ++ chunks.flatten).length := by
  induction chunks generalizing s done with
  | nil =>
    cases h
    simpa using hc
  | cons b chunks ih =>
    rcases hw : os.writex d b s with ⟨_ | e, s₁⟩
    · rw [writeChunks, hw] at h
      obtain ⟨hc₁, hp₁⟩ := files.writex hw
      have hc' : files.content d s₁ = (done ++ b) ++ old.drop (done ++ b).length := by
        rw [hc₁, hc, hp, overwrite, List.take_left, List.drop_append, List.drop_eq_nil_of_le (by omega),
          List.drop_drop, List.length_append, List.nil_append]
        congr 2
        omega
      have hp' : files.pos d s₁ = (done ++ b).length := by rw [hp₁, hp, List.length_append]
      have hrest := ih (done ++ b) h hc' hp'
      rwa [List.flatten_cons, ← List.append_assoc done]
    · rw [writeChunks, hw] at h
      cases h

/-! ## What is sent -/

/-- A `FAIL`. -/
def failBytes (text : List UInt8) : List UInt8 := msg ID_FAIL text.length ++ text

/-- A world in which the connection has taken `out`, and takes what comes. -/
def Sent (w : World φ) (out : List UInt8) : Prop := w.conn.sink = ⟨out, none⟩

theorem send_sent {w : World φ} {out : List UInt8} (h : Sent w out) (b : List UInt8) :
    ∃ w', send b w = (some (), w') ∧ w'.fs = w.fs ∧ w'.conn.inp = w.conn.inp ∧ Sent w' (out ++ b) := by
  have hw : w.conn.writex b = (true, { w.conn with sink := ⟨out ++ b, none⟩ }) := by
    rw [Conn.writex, show w.conn.sink = _ from h]
    rfl
  exact ⟨{ w with conn := { w.conn with sink := ⟨out ++ b, none⟩ } }, by rw [send, hw], rfl, rfl, rfl⟩

theorem failErrno_sent (os : Os φ δ) {w : World φ} {out : List UInt8} (h : Sent w out) (e : Int) :
    ∃ w', failErrno os e w = (some (), w') ∧ w'.fs = w.fs ∧ w'.conn.inp = w.conn.inp ∧
      Sent w' (out ++ failBytes (os.strerror e)) := by
  obtain ⟨w₁, h₁, hfs₁, hi₁, hs₁⟩ := send_sent h (msg ID_FAIL (os.strerror e).length)
  obtain ⟨w₂, h₂, hfs₂, hi₂, hs₂⟩ := send_sent hs₁ (os.strerror e)
  refine ⟨w₂, ?_, hfs₂.trans hfs₁, hi₂.trans hi₁, ?_⟩
  · rw [failErrno, failMessage, bind_some h₁, h₂]
  · rwa [failBytes, ← List.append_assoc]

/-! ## The loop -/

/-- The chunks, `DONE`, and what comes after the transfer. -/
structure Transfer (inp : List UInt8) (chunks : List (List UInt8)) (mtime : Nat) (rest : List UInt8) :
    Prop where
  bytes : inp = dataBytes chunks ++ (msg ID_DONE mtime ++ rest)
  small : ∀ b ∈ chunks, b.length ≤ SYNC_DATA_MAX

section Loop

variable (os : Os φ δ) (path : List UInt8) {mtime : Nat} {w : World φ} {b rest out : List UInt8}
  {chunks : List (List UInt8)}

/-- A round of the loop puts the chunk in the buffer. -/
theorem receiveLoop_data (fuel : Nat) (fd : Option δ)
    (h : Transfer w.conn.inp (b :: chunks) mtime rest) :
    ∃ v : World φ, v.fs = w.fs ∧ v.conn.sink = w.conn.sink ∧ Transfer v.conn.inp chunks mtime rest ∧
      v.conn.inp.length < w.conn.inp.length ∧ v.buffer.take b.length = b ∧
      receiveLoop os path (fuel + 1) fd w = (match fd with
        | none => receiveLoop os path fuel none
        | some d => do
          let b ← bufferBytes b.length
          match ← sys (os.writex d b) with
          | none => receiveLoop os path fuel (some d)
          | some e =>
            let e' ← sys (discard os (some d) path)
            failErrno os (e'.getD e)
            receiveLoop os path fuel none) v := by
  have hb := h.small b (by simp)
  have hmax : SYNC_DATA_MAX < 2 ^ 32 := by decide
  have hinp : w.conn.inp =
      msg ID_DATA b.length ++ (b ++ (dataBytes chunks ++ (msg ID_DONE mtime ++ rest))) := by
    rw [h.bytes, dataBytes_cons, List.append_assoc, List.append_assoc]
  have hid : word (msg ID_DATA b.length) 0 = ID_DATA := word_msg_id (by decide) _
  have hlen : word (msg ID_DATA b.length) 4 = b.length := word_msg_len (by omega) _
  obtain ⟨c, hc, hs, hrecv⟩ := recv_append (.msg 8) w (length_msg _ _) (Nat.le_refl 8) hinp
  obtain ⟨c', hc', hs', hrecv'⟩ := recv_append .data { w with conn := c } rfl hb hc
  refine ⟨{ w with conn := c', buffer := b ++ w.buffer.drop b.length }, rfl, hs'.trans hs, ⟨hc', ?_⟩, ?_, ?_,
    ?_⟩
  · exact fun x hx => h.small x (List.mem_cons_of_mem _ hx)
  · show c'.inp.length < _
    rw [hc', hinp]
    simp only [List.length_append, length_msg]
    omega
  · exact List.take_left
  · rw [receiveLoop, bind_some (onFail_some hrecv), if_neg (by simp [hid]), if_neg (by omega), hlen]
    have hbuf : recvBuffer b.length { w with conn := c } =
        (some (), { w with conn := c', buffer := b ++ w.buffer.drop b.length }) := by
      rw [recvBuffer, bind_some hrecv']
      rfl
    exact (bind_some (onFail_some hbuf)).trans (by cases fd <;> rfl)

/-- The round that gets to `DONE`. -/
theorem receiveLoop_done (fuel : Nat) (fd : Option δ) (h : Transfer w.conn.inp [] mtime rest) :
    ∃ v : World φ,
    receiveLoop os path (fuel + 1) fd w = (some (fd, mtime % 2 ^ 32), v) ∧ v.fs = w.fs ∧
      v.conn.inp = rest ∧ v.conn.sink = w.conn.sink := by
  have hinp : w.conn.inp = msg ID_DONE mtime ++ rest := by rw [h.bytes, dataBytes_nil, List.nil_append]
  have hid : word (msg ID_DONE mtime) 0 = ID_DONE := word_msg_id (by decide) _
  have htime : word (msg ID_DONE mtime) 4 = mtime % 2 ^ 32 := by
    have := ofLe32_le32 mtime []
    rwa [List.append_nil] at this
  obtain ⟨c, hc, hs, hrecv⟩ := recv_append (.msg 8) w (length_msg _ _) (Nat.le_refl 8) hinp
  refine ⟨{ w with conn := c }, ?_, rfl, hc, hs⟩
  rw [receiveLoop, bind_some (onFail_some hrecv), if_pos (by rw [hid]; decide), if_pos hid, htime]
  rfl

/-- Without an open file the loop drops the chunks. -/
theorem receiveLoop_none (chunks : List (List UInt8)) {fuel : Nat} {w : World φ}
    (h : Transfer w.conn.inp chunks mtime rest) (hf : w.conn.inp.length < fuel) : ∃ v : World φ,
    receiveLoop os path fuel none w = (some (none, mtime % 2 ^ 32), v) ∧ v.fs = w.fs ∧
      v.conn.inp = rest ∧ v.conn.sink = w.conn.sink := by
  induction chunks generalizing w fuel with
  | nil =>
    obtain _ | fuel := fuel
    · omega
    exact receiveLoop_done os path fuel none h
  | cons b chunks ih =>
    obtain _ | fuel := fuel
    · omega
    obtain ⟨v, hfs, hs, htrans, hlt, -, hround⟩ := receiveLoop_data os path fuel
      none h
    have hlt' : v.conn.inp.length < fuel := by omega
    obtain ⟨u, hu, hfs', hi', hs'⟩ := ih htrans hlt'
    exact ⟨u, hround.trans hu, hfs'.trans hfs, hi', hs'.trans hs⟩

/-- With an open file the loop writes the chunks. When a write fails the file is closed and unlinked, the
failure is reported, and the chunks that are left are dropped. -/
theorem receiveLoop_some (d : δ) (chunks : List (List UInt8)) {fuel : Nat} {w : World φ}
    (h : Transfer w.conn.inp chunks mtime rest) (hf : w.conn.inp.length < fuel) (hs : Sent w out) :
    ∃ v : World φ, v.conn.inp = rest ∧
      match writeChunks os d chunks w.fs with
      | (none, fs) => receiveLoop os path fuel (some d) w = (some (some d, mtime % 2 ^ 32), v) ∧
          v.fs = fs ∧ Sent v out
      | (some e, fs) => receiveLoop os path fuel (some d) w = (some (none, mtime % 2 ^ 32), v) ∧
          v.fs = (discard os (some d) path fs).2 ∧
          Sent v (out ++ failBytes (os.strerror ((discard os (some d) path fs).1.getD e))) := by
  induction chunks generalizing w fuel with
  | nil =>
    obtain _ | fuel := fuel
    · omega
    obtain ⟨v, hv, hfs, hi, hs'⟩ := receiveLoop_done os path fuel (some d) h
    exact ⟨v, hi, hv, hfs, hs'.trans hs⟩
  | cons b chunks ih =>
    obtain _ | fuel := fuel
    · omega
    obtain ⟨v, hfs, hs', htrans, hlt, hbuf, hround⟩ := receiveLoop_data os path fuel
      (some d) h
    have hlt' : v.conn.inp.length < fuel := by omega
    have hbytes : bufferBytes b.length v = (some b, v) := by
      show (some (v.buffer.take b.length), v) = (some b, v)
      rw [hbuf]
    rw [hround]
    rcases hw : os.writex d b w.fs with ⟨_ | e, fs⟩
    · -- the chunk is written
      have hsys : sys (os.writex d b) v = (some none, { v with fs := fs }) := by
        rw [sys, Act.lift, hfs, hw]
      obtain ⟨u, hi, hu⟩ := ih (w := { v with fs := fs }) htrans hlt' (hs'.trans hs)
      refine ⟨u, hi, ?_⟩
      simp only [writeChunks, hw, bind_some hbytes, bind_some hsys]
      exact hu
    · -- the write fails
      have hsys : sys (os.writex d b) v = (some (some e), { v with fs := fs }) := by
        rw [sys, Act.lift, hfs, hw]
      have hdiscard : sys (discard os (some d) path) { v with fs := fs } =
          (some (discard os (some d) path fs).1,
            { v with fs := (discard os (some d) path fs).2 }) := rfl
      obtain ⟨x, hx, hxfs, hxi, hxs⟩ := failErrno_sent os
        (w := { v with fs := (discard os (some d) path fs).2 }) (hs'.trans hs)
        ((discard os (some d) path fs).1.getD e)
      have hxtrans : Transfer x.conn.inp chunks mtime rest := by
        rw [hxi]
        exact htrans
      have hxlt : x.conn.inp.length < fuel := by rwa [hxi]
      obtain ⟨u, hu, hufs, hui, hus⟩ := receiveLoop_none os path chunks hxtrans hxlt
      refine ⟨u, hui, ?_⟩
      simp only [writeChunks, hw, bind_some hbytes, bind_some hsys, bind_some hdiscard, bind_some hx]
      exact ⟨hu, hufs.trans hxfs, hus.trans hxs⟩

end Loop

/-! ## Opening the file -/

section Open

variable {path : List UInt8} {mode : Nat} {fs s : φ} {d : δ}

/-- The calls of `adb_open_mode` with `O_EXCL`. -/
def openNew (os : Os φ δ) (path : List UInt8) (mode : Nat) (fs : φ) : Except Int δ × φ :=
  match os.create path mode fs with
  | (.error e, fs) => if e = ENOENT then os.create path mode (mkdirs os path fs) else (.error e, fs)
  | r => r

/-- There is a file, and the third call opens it. -/
def Reopens (os : Os φ δ) (path : List UInt8) (mode : Nat) (fs : φ) (d : δ) (s : φ) : Prop :=
  ∃ s₀, openNew os path mode fs = (.error EEXIST, s₀) ∧ os.reopen path mode s₀ = (.ok d, s)

theorem openFile_eq (os : Os φ δ) (path : List UInt8) (mode : Nat) (fs : φ) :
    openFile os path mode fs = match openNew os path mode fs with
      | (.error e, fs) => if e = EEXIST then os.reopen path mode fs else (.error e, fs)
      | r => r := rfl

theorem openFile_of_reopens (h : Reopens os path mode fs d s) :
    openFile os path mode fs = (.ok d, s) := by
  obtain ⟨s₀, hnew, hre⟩ := h
  rw [openFile_eq, hnew]
  exact (if_pos rfl).trans hre

/-- A file that is new is empty. -/
theorem openNew_ok (files : os.Files) (h : openNew os path mode fs = (.ok d, s)) :
    files.content d s = [] ∧ files.pos d s = 0 := by
  unfold openNew at h
  rcases hc : os.create path mode fs with ⟨e | d', s'⟩
  · rw [hc] at h
    dsimp only at h
    split at h
    · exact files.create h
    · cases h
  · rw [hc] at h
    cases h
    exact files.create hc

/-- A file that was opened is new, or was there. -/
theorem openFile_ok (files : os.Files) (h : openFile os path mode fs = (.ok d, s)) :
    files.pos d s = 0 ∧ (files.content d s = [] ∨ Reopens os path mode fs d s) := by
  rw [openFile_eq] at h
  rcases hn : openNew os path mode fs with ⟨e | d', s'⟩
  · rw [hn] at h
    dsimp only at h
    split at h
    · next he =>
      subst he
      exact ⟨files.reopen h, .inr ⟨s', hn, h⟩⟩
    · cases h
  · rw [hn] at h
    cases h
    exact ⟨(openNew_ok files hn).2, .inl (openNew_ok files hn).1⟩

end Open

/-! ## `handle_send_file` -/

section Send

variable {path : List UInt8} {mode mtime : Nat} {w : World φ} {rest out : List UInt8}
  {chunks : List (List UInt8)}

/-- The file is opened, and every chunk is written to it: it is `d`, after it was opened in `s`. -/
def Written (os : Os φ δ) (path : List UInt8) (mode : Nat) (chunks : List (List UInt8)) (fs : φ) (d : δ)
    (s s' : φ) : Prop :=
  openFile os path mode fs = (.ok d, s) ∧ writeChunks os d chunks s = (none, s')

/-- What `handle_send_file` does with a file that is open. -/
theorem handleSendFile_opened (h : Transfer w.conn.inp chunks mtime rest) (hs : Sent w out) {d : δ}
    {s : φ} (hopen : openFile os path mode w.fs = (.ok d, s)) : ∃ v : World φ,
      handleSendFile os path mode w = (some (), v) ∧ v.conn.inp = rest ∧
        match writeChunks os d chunks s with
        | (none, s') => v.fs = os.utime path (mtime % 2 ^ 32) (os.close d s').2 ∧
            Sent v (out ++ msg ID_OKAY 0)
        | (some _, _) => ∃ text, Sent v (out ++ failBytes text) := by
  have hremote : openRemote os path mode w = (some (some d), { w with fs := s }) := by
    have hsys : sys (openFile os path mode) w = (some (.ok d), { w with fs := s }) := by
      rw [sys, Act.lift, hopen]
    rw [openRemote, bind_some hsys]
    rfl
  obtain ⟨v, hi, hv⟩ := receiveLoop_some os path (w := { w with fs := s }) d chunks h
    (Nat.lt_succ_self w.conn.inp.length) hs
  rcases hwrite : writeChunks os d chunks s with ⟨_ | e, s'⟩
  · simp only [hwrite] at hv
    obtain ⟨hloop, hfs, hsent⟩ := hv
    obtain ⟨x, hx, hxfs, hxi, hxs⟩ := send_sent
      (w := { v with fs := os.utime path (mtime % 2 ^ 32) (os.close d v.fs).2 }) hsent (msg ID_OKAY 0)
    refine ⟨x, ?_, hxi.trans hi, ?_, hxs⟩
    · have hread : Act.reading (fun w => receiveLoop os path (w.conn.inp.length + 1) (some d))
          { w with fs := s } = (some (some d, mtime % 2 ^ 32), v) := hloop
      rw [handleSendFile, bind_some hremote, bind_some hread]
      exact hx
    · rw [hxfs, hfs]
  · simp only [hwrite] at hv
    obtain ⟨hloop, -, hsent⟩ := hv
    refine ⟨v, ?_, hi, _, hsent⟩
    have hread : Act.reading (fun w => receiveLoop os path (w.conn.inp.length + 1) (some d))
        { w with fs := s } = (some (none, mtime % 2 ^ 32), v) := hloop
    rw [handleSendFile, bind_some hremote, bind_some hread]
    rfl

/-- What it does without a file. -/
theorem handleSendFile_failed (h : Transfer w.conn.inp chunks mtime rest) (hs : Sent w out) {e : Int}
    {s : φ} (hopen : openFile os path mode w.fs = (.error e, s)) : ∃ v : World φ,
      handleSendFile os path mode w = (some (), v) ∧ v.conn.inp = rest ∧
        Sent v (out ++ failBytes (os.strerror e)) := by
  have hsys : sys (openFile os path mode) w = (some (.error e), { w with fs := s }) := by
    rw [sys, Act.lift, hopen]
  obtain ⟨x, hx, hxfs, hxi, hxs⟩ := failErrno_sent os (w := { w with fs := s }) hs e
  have hremote : openRemote os path mode w = (some none, x) := by
    rw [openRemote, bind_some hsys]
    exact (bind_some hx).trans rfl
  have htrans : Transfer x.conn.inp chunks mtime rest := by rwa [hxi]
  obtain ⟨v, hv, -, hi, hsink⟩ := receiveLoop_none os path chunks htrans
    (Nat.lt_succ_self _)
  have hread : Act.reading (fun w => receiveLoop os path (w.conn.inp.length + 1) none) x =
      (some (none, mtime % 2 ^ 32), v) := hv
  refine ⟨v, ?_, hi, hsink.trans hxs⟩
  rw [handleSendFile, bind_some hremote, bind_some hread]
  rfl

/-- The call reads the transfer and nothing after it, and sends one status: `OKAY`, and the file has the
chunks, when it was opened and every chunk was written; and otherwise a `FAIL`. -/
def OneStatus (files : os.Files) (path : List UInt8) (mode : Nat) (chunks : List (List UInt8))
    (rest : List UInt8) (w : World φ) : Prop :=
  ∃ v status, handleSendFile os path mode w = (some (), v) ∧ v.conn.inp = rest ∧
    v.conn.sink.out = w.conn.sink.out ++ status ∧
    ((∃ d s s', Written os path mode chunks w.fs d s s' ∧ status = msg ID_OKAY 0 ∧
        files.content d v.fs = chunks.flatten) ∨
      (¬ ∃ d s s', Written os path mode chunks w.fs d s s') ∧ ∃ text, status = failBytes text)

/-- `OKAY` is not a `FAIL`. -/
theorem okay_ne_fail (text : List UInt8) : msg ID_OKAY 0 ≠ failBytes text := by
  intro h
  have hok : word (msg ID_OKAY 0) 0 = ID_OKAY := word_msg_id (by decide) _
  have hfail : word (failBytes text) 0 = ID_FAIL := by
    rw [failBytes, word_append (by rw [length_msg]; omega)]
    exact word_msg_id (by decide) _
  rw [h, hfail] at hok
  exact absurd hok (by decide)

/-- **A transfer.** `handle_send_file` reads a transfer to its end and sends one status for it, in just
this case: when it opens a file that was there and writes every chunk to it, the file was no longer than
the chunks. -/
theorem oneStatus_iff (files : os.Files) (path : List UInt8) (mode : Nat)
    (h : Transfer w.conn.inp chunks mtime rest) (hroom : w.conn.sink.room = none) :
    OneStatus files path mode chunks rest w ↔ ∀ d s s', Reopens os path mode w.fs d s →
      writeChunks os d chunks s = (none, s') →
        (files.content d s).length ≤ chunks.flatten.length := by
  have hs : Sent w w.conn.sink.out := by
    unfold Sent
    rw [← hroom]
  -- the content, when every chunk was written
  have hcontent : ∀ {d s s' t}, openFile os path mode w.fs = (.ok d, s) →
      writeChunks os d chunks s = (none, s') → t = os.utime path (mtime % 2 ^ 32) (os.close d s').2 →
      files.content d t = chunks.flatten ++ (files.content d s).drop chunks.flatten.length := by
    rintro d s s' t hopen hwrite rfl
    have hend := files.writeChunks_content (files.content d s) chunks [] hwrite (by simp)
      (openFile_ok files hopen).1
    rw [files.utime, files.close, hend, List.nil_append]
  constructor
  · rintro ⟨v, status, hv, -, hout, hcase⟩ d s s' hre hwrite
    have hopen := openFile_of_reopens hre
    obtain ⟨v', hv', -, hafter⟩ := handleSendFile_opened h hs hopen
    simp only [hwrite] at hafter
    rw [hv] at hv'
    cases hv'
    rcases hcase with ⟨d', s₁, s₁', ⟨hopen', hwrite'⟩, -, hflat⟩ | ⟨hnone, -⟩
    · rw [hopen] at hopen'
      cases hopen'
      rw [hcontent hopen hwrite hafter.1] at hflat
      have hlen := congrArg List.length hflat
      rw [List.length_append, List.length_drop] at hlen
      omega
    · exact absurd ⟨d, s, s', hopen, hwrite⟩ hnone
  · intro hlong
    rcases hopen : openFile os path mode w.fs with ⟨e | d, s⟩
    · obtain ⟨v, hv, hi, hsent⟩ := handleSendFile_failed h hs hopen
      refine ⟨v, _, hv, hi, congrArg Sink.out hsent, .inr ⟨?_, _, rfl⟩⟩
      rintro ⟨d, s₁, s', hopen', -⟩
      rw [hopen] at hopen'
      cases hopen'
    · obtain ⟨v, hv, hi, hafter⟩ := handleSendFile_opened h hs hopen
      rcases hwrite : writeChunks os d chunks s with ⟨_ | e, s'⟩
      · simp only [hwrite] at hafter
        refine ⟨v, _, hv, hi, congrArg Sink.out hafter.2, .inl ⟨d, s, s', ⟨hopen, hwrite⟩, rfl, ?_⟩⟩
        rw [hcontent hopen hwrite hafter.1]
        have hle : (files.content d s).length ≤ chunks.flatten.length := by
          rcases (openFile_ok files hopen).2 with hnew | hre
          · rw [hnew]
            exact Nat.zero_le _
          · exact hlong d s s' hre hwrite
        rw [List.drop_eq_nil_of_le hle, List.append_nil]
      · simp only [hwrite] at hafter
        obtain ⟨text, hsent⟩ := hafter
        refine ⟨v, _, hv, hi, congrArg Sink.out hsent, .inr ⟨?_, text, rfl⟩⟩
        rintro ⟨d', s₁, s₁', hopen', hwrite'⟩
        rw [hopen] at hopen'
        cases hopen'
        rw [hwrite] at hwrite'
        cases hwrite'

end Send

/-! ## A file in a directory that cannot be changed -/

/-- One file, with the place of the next write. It cannot be unlinked. -/
def stuckOs : Os (List UInt8 × Nat) Unit where
  strerror _ := []
  lstat _ _ := none
  readdir _ _ := none
  mkdir _ fs := (some EEXIST, fs)
  unlink _ fs := (some 13, fs)
  create _ _ fs := (.error EEXIST, fs)
  reopen _ _ fs := (.ok (), (fs.1, 0))
  writex _ b fs := (none, (overwrite fs.1 fs.2 b, fs.2 + b.length))
  close _ fs := (none, fs)
  utime _ _ fs := fs
  symlink _ _ fs := (some EEXIST, fs)
  read fs _ := .ok [.data fs.1]

def stuckFiles : stuckOs.Files where
  content _ fs := fs.1
  pos _ fs := fs.2
  create h := by cases h
  reopen h := by
    cases h
    rfl
  writex h := by
    cases h
    exact ⟨rfl, rfl⟩
  close _ _ := rfl
  utime _ _ _ _ := rfl

/-- The file has `old`, a transfer of `ab` comes in, and then a `STAT`. -/
def overOld (old : List UInt8) : World (List UInt8 × Nat) :=
  ⟨(old, 0), [], [], ⟨dataBytes [[97, 98]] ++ (msg ID_DONE 7 ++ msg ID_STAT 0), ⟨[], none⟩, []⟩⟩

theorem oneStatus_overOld :
    Transfer (overOld [120]).conn.inp [[97, 98]] 7 (msg ID_STAT 0) ∧
    OneStatus stuckFiles [102] 0o644 [[97, 98]] (msg ID_STAT 0) (overOld [120]) := by
  have htrans : Transfer (overOld [120]).conn.inp [[97, 98]] 7 (msg ID_STAT 0) :=
    ⟨rfl, by simp [SYNC_DATA_MAX]⟩
  refine ⟨htrans, (oneStatus_iff stuckFiles [102] 0o644 htrans rfl).mpr ?_⟩
  rintro d s s' ⟨s₀, hnew, hre⟩ -
  cases hnew
  cases hre
  exact Nat.le_succ 1

/-- `OKAY` for a file with `abz`. -/
theorem oneStatus_leaves_tail :
    Transfer (overOld [120, 121, 122]).conn.inp [[97, 98]] 7 (msg ID_STAT 0) ∧
    (handleSendFile stuckOs [102] 0o644 (overOld [120, 121, 122])).2.fs.1 = [97, 98, 122] ∧
    (handleSendFile stuckOs [102] 0o644 (overOld [120, 121, 122])).2.conn.sink.out = msg ID_OKAY 0 ∧
    ¬ OneStatus stuckFiles [102] 0o644 [[97, 98]] (msg ID_STAT 0) (overOld [120, 121, 122]) := by
  have hfs : (handleSendFile stuckOs [102] 0o644 (overOld [120, 121, 122])).2.fs.1 = [97, 98, 122] := by
    decide +kernel
  have hout : (handleSendFile stuckOs [102] 0o644 (overOld [120, 121, 122])).2.conn.sink.out =
      msg ID_OKAY 0 := by decide +kernel
  refine ⟨⟨rfl, by simp [SYNC_DATA_MAX]⟩, hfs, hout, ?_⟩
  rintro ⟨v, status, hv, -, hsent, ⟨d, s, s', -, -, hflat⟩ | ⟨-, text, rfl⟩⟩
  · rw [hv] at hfs
    rw [show stuckFiles.content d v.fs = v.fs.1 from rfl, hfs] at hflat
    exact absurd hflat (by decide)
  · rw [hv] at hout
    rw [hout] at hsent
    exact okay_ne_fail text hsent

end Twm.Adb.FileSync
