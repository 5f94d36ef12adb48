import DeviceTwm.Adb.FileSync
import DeviceTwm.Adb.SyncReceive

/-!
# What a command does not depend on

Two runs of `file_sync_service` come to the same command with the same file system, but with what other
commands left in the buffer and in `name`. The command does the same to the file system and sends the same
bytes, whatever the calls to the file system do, in just this case: it does not make a link whose target
comes without a 0 (`independent_iff`). `symlink` then takes what follows in the buffer for the rest of the
target.
-/

open Lib

namespace Twm.Adb.FileSync

open Act

/-- The file system, what comes in and what goes out are the same; `a` and `a'` were sent before. -/
structure Alike {φ : Type} (a a' : List UInt8) (w w' : World φ) : Prop where
  fs : w.fs = w'.fs
  inp : w.conn.inp = w'.conn.inp
  room : w.conn.sink.room = w'.conn.sink.room
  out : ∃ b, w.conn.sink.out = a ++ b ∧ w'.conn.sink.out = a' ++ b

section Rules

variable {φ δ : Type} {a a' : List UInt8} (os : Os φ δ)

theorem recv_some {buf : Buf} {n : Nat} {w : World φ}
    (h : n ≤ buf.capacity ∧ n ≤ w.conn.inp.length) :
    recv buf n w = (some (w.conn.inp.take n), { w with conn :=
      { w.conn with inp := w.conn.inp.drop n, reads := ⟨buf, n⟩ :: w.conn.reads } }) := by
  have hread : w.conn.readx buf n = (some (w.conn.inp.take n),
      { w.conn with inp := w.conn.inp.drop n, reads := ⟨buf, n⟩ :: w.conn.reads }) := by
    rw [Conn.readx, if_pos h]
  rw [recv, hread]

theorem recv_none {buf : Buf} {n : Nat} {w : World φ}
    (h : ¬ (n ≤ buf.capacity ∧ n ≤ w.conn.inp.length)) :
    recv buf n w = (none, { w with conn :=
      { w.conn with inp := [], reads := ⟨buf, n⟩ :: w.conn.reads } }) := by
  have hread : w.conn.readx buf n =
      (none, { w.conn with inp := [], reads := ⟨buf, n⟩ :: w.conn.reads }) := by
    rw [Conn.readx, if_neg h]
  rw [recv, hread]

/-- A read takes the same bytes from what comes in. -/
theorem recv_agrees_inp (buf : Buf) (n : Nat) (x : List UInt8) :
    Agrees (fun w w' : World φ => Alike a a' w w' ∧ w.conn.inp = x) (recv buf n)
      (fun b w w' => Alike a a' w w' ∧ x = b ++ w.conn.inp ∧ b.length = n) (Alike a a') := by
  rintro w w' ⟨h, rfl⟩
  by_cases hle : n ≤ buf.capacity ∧ n ≤ w.conn.inp.length
  · have hle' : n ≤ buf.capacity ∧ n ≤ w'.conn.inp.length := h.inp ▸ hle
    have hsome' := recv_some hle'
    rw [← h.inp] at hsome'
    refine .of_some (recv_some hle) hsome' ⟨⟨h.fs, rfl, h.room, h.out⟩, ?_, ?_⟩
    · exact (List.take_append_drop n _).symm
    · exact List.length_take_of_le hle.2
  · have hle' : ¬ (n ≤ buf.capacity ∧ n ≤ w'.conn.inp.length) := h.inp ▸ hle
    exact .of_none (recv_none hle) (recv_none hle') ⟨h.fs, rfl, h.room, h.out⟩

theorem recv_agrees (buf : Buf) (n : Nat) :
    Agrees (Alike a a' : World φ → _) (recv buf n) (fun _ => Alike a a') (Alike a a') :=
  fun w w' h => ((recv_agrees_inp buf n w.conn.inp).post fun _ _ _ h => h.1) w w' ⟨h, rfl⟩

theorem send_eq (b : List UInt8) (w : World φ) :
    send b w = (if (w.conn.writex b).1 then some () else none, { w with conn := (w.conn.writex b).2 }) := by
  unfold send
  rcases w.conn.writex b with ⟨_ | _, c⟩ <;> rfl

/-- The same bytes are taken, as far as there is room. -/
theorem writex_agrees (b : List UInt8) {w w' : World φ} (h : Alike a a' w w') :
    (w.conn.writex b).1 = (w'.conn.writex b).1 ∧
      Alike a a' { w with conn := (w.conn.writex b).2 } { w' with conn := (w'.conn.writex b).2 } := by
  obtain ⟨out, hout, hout'⟩ := h.out
  have hroom := h.room
  unfold Conn.writex Sink.writex
  rw [← hroom]
  cases w.conn.sink.room with
  | none => exact ⟨rfl, h.fs, h.inp, rfl, out ++ b, by simp [hout], by simp [hout']⟩
  | some k => exact ⟨rfl, h.fs, h.inp, rfl, out ++ b.take k, by simp [hout], by simp [hout']⟩

theorem send_agrees (b : List UInt8) :
    Agrees (Alike a a' : World φ → _) (send b) (fun _ => Alike a a') (Alike a a') := by
  intro w w' h
  obtain ⟨hres, hafter⟩ := writex_agrees b h
  have hsend' := send_eq b w'
  rw [← hres] at hsend'
  cases hw : (w.conn.writex b).1 with
  | true =>
    rw [hw] at hsend'
    exact .of_some (by rw [send_eq, hw]; rfl) hsend' hafter
  | false =>
    rw [hw] at hsend'
    exact .of_none (by rw [send_eq, hw]; rfl) hsend' hafter

theorem sys_agrees {α : Type} (f : φ → α × φ) (E : World φ → World φ → Prop) :
    Agrees (Alike a a') (sys f) (fun _ => Alike a a') E := by
  refine .lift fun w w' h => ⟨by rw [h.fs], ?_⟩
  exact ⟨by rw [h.fs], h.inp, h.room, h.out⟩

theorem store_agrees (b : List UInt8) (E : World φ → World φ → Prop) :
    Agrees (Alike a a') (store b)
      (fun _ w w' => Alike a a' w w' ∧ w.buffer.take b.length = w'.buffer.take b.length) E :=
  .lift fun _ _ h => ⟨rfl, ⟨⟨h.fs, h.inp, h.room, h.out⟩, by simp⟩⟩

theorem recvBuffer_agrees (n : Nat) :
    Agrees (Alike a a' : World φ → _) (recvBuffer n)
      (fun _ w w' => Alike a a' w w' ∧ w.buffer.take n = w'.buffer.take n) (Alike a a') := by
  intro w w' h
  refine ((recv_agrees_inp .data n w.conn.inp).bind fun b => ?_) w w' ⟨h, rfl⟩
  rintro v v' ⟨hv, -, hb⟩
  rw [← hb]
  exact store_agrees b _ v v' hv

theorem bufferBytes_agrees (n : Nat) (E : World φ → World φ → Prop) :
    Agrees (fun w w' => Alike a a' w w' ∧ w.buffer.take n = w'.buffer.take n) (bufferBytes n)
      (fun _ => Alike a a') E :=
  .lift fun _ _ h => ⟨h.2, h.1⟩

theorem cstr_append_of_mem {b : List UInt8} (h : 0 ∈ b) (z : List UInt8) : cstr (b ++ z) = cstr b :=
  takeWhile_ne_append_of_mem h z

theorem cstr_append_of_notMem {b : List UInt8} (h : 0 ∉ b) (z : List UInt8) :
    cstr (b ++ z) = b ++ cstr z :=
  takeWhile_ne_append h z

/-- The C string of what is stored, when it has a 0. -/
theorem recvBuffer_agrees_string (n : Nat) (x : List UInt8)
    (h0 : ∀ data rest, x = data ++ rest → data.length = n → 0 ∈ data) :
    Agrees (fun w w' : World φ => Alike a a' w w' ∧ w.conn.inp = x) (recvBuffer n)
      (fun _ w w' => Alike a a' w w' ∧ cstr w.buffer = cstr w'.buffer) (Alike a a') := by
  refine (recv_agrees_inp .data n x).bind fun b => ?_
  refine .lift fun w w' ⟨h, hx, hb⟩ => ⟨rfl, ⟨h.fs, h.inp, h.room, h.out⟩, ?_⟩
  have hmem := h0 b w.conn.inp hx hb
  rw [cstr_append_of_mem hmem, cstr_append_of_mem hmem]

theorem bufferString_agrees (E : World φ → World φ → Prop) :
    Agrees (fun w w' => Alike a a' w w' ∧ cstr w.buffer = cstr w'.buffer) bufferString
      (fun _ => Alike a a') E :=
  .lift fun _ _ h => ⟨h.2, h.1⟩

theorem failMessage_agrees (text : List UInt8) :
    Agrees (Alike a a' : World φ → _) (failMessage text) (fun _ => Alike a a') (Alike a a') :=
  (send_agrees _).bind fun _ => send_agrees _

theorem refuse_agrees {α : Type} (text : String) (Q : α → World φ → World φ → Prop) :
    Agrees (Alike a a') (refuse text) Q (Alike a a') :=
  (failMessage_agrees _).bind fun _ => .fail fun _ _ h => h

/-! ## `STAT`, `LIST` and `RECV` -/

theorem doStat_agrees (path : List UInt8) :
    Agrees (Alike a a') (doStat os path) (fun _ => Alike a a') (Alike a a') := by
  refine .reading (fun w w' h => by rw [h.fs]) fun w => ?_
  split
  · exact send_agrees _
  · exact send_agrees _

theorem doList_agrees (path : List UInt8) :
    Agrees (Alike a a') (doList os path) (fun _ => Alike a a') (Alike a a') := by
  refine .reading (fun w w' h => by rw [h.fs]) fun w => ?_
  have hdone : Agrees (Alike a a' : World φ → _) (send (fields [ID_DONE, 0, 0, 0, 0]))
    (fun _ => Alike a a') (Alike a a') := send_agrees _
  split
  · exact hdone
  · refine Agrees.bind (.forM (fun name => ?_) _) fun _ => hdone
    split
    · exact .pure fun _ _ h => h
    · split
      · exact .pure fun _ _ h => h
      · exact (send_agrees _).bind fun _ => send_agrees _

theorem recvFile_agrees (rs : List ReadResult) :
    Agrees (Alike a a') (recvFile os rs) (fun _ => Alike a a') (Alike a a') := by
  induction rs with
  | nil => exact send_agrees _
  | cons r rs ih =>
    cases r with
    | data b =>
      -- what is sent was stored before
      have hsend : Agrees (fun w w' : World φ => Alike a a' w w' ∧
          w.buffer.take b.length = w'.buffer.take b.length) (send (msg ID_DATA b.length))
          (fun _ w w' => Alike a a' w w' ∧ w.buffer.take b.length = w'.buffer.take b.length)
          (Alike a a') := by
        rintro w w' ⟨h, hb⟩
        obtain ⟨hres, hret, hfail⟩ := send_agrees (msg ID_DATA b.length) w w' h
        have hkeep : ∀ v : World φ, (send (msg ID_DATA b.length) v).2.buffer = v.buffer := by
          intro v
          unfold send
          split <;> rfl
        refine ⟨hres, fun u hu => ⟨hret u hu, ?_⟩, hfail⟩
        rw [hkeep, hkeep, hb]
      refine (store_agrees b _).bind fun _ => hsend.bind fun _ => ?_
      exact (bufferBytes_agrees _ _).bind fun _ => (send_agrees _).bind fun _ => ih
    | eintr => exact ih
    | error e => exact failMessage_agrees _

theorem doRecv_agrees (path : List UInt8) :
    Agrees (Alike a a') (doRecv os path) (fun _ => Alike a a') (Alike a a') := by
  refine .reading (fun w w' h => by rw [h.fs]) fun w => ?_
  split
  · exact failMessage_agrees _
  · exact recvFile_agrees os _

/-! ## `SEND` -/

theorem abandon_agrees {α : Type} (fd : Option δ) (path : List UInt8)
    (Q : α → World φ → World φ → Prop) :
    Agrees (Alike a a') (abandon os fd path) Q (Alike a a') :=
  (sys_agrees _ _).bind fun _ => .fail fun _ _ h => h

theorem receiveLoop_agrees (path : List UInt8) (fuel : Nat) (fd : Option δ) :
    Agrees (Alike a a') (receiveLoop os path fuel fd) (fun _ => Alike a a') (Alike a a') := by
  induction fuel generalizing fd with
  | zero => exact abandon_agrees os fd path _
  | succ fuel ih =>
    have hfails : ∀ text, Agrees (Alike a a' : World φ → _) (do
        let _ ← (failMessage (reason text)).attempt
        (abandon os fd path : Act (World φ) (Option δ × Nat))) (fun _ => Alike a a') (Alike a a') :=
      fun _ => (failMessage_agrees _).attempt.bind fun _ => abandon_agrees os fd path _
    refine Agrees.bind ((recv_agrees _ _).onFail (abandon_agrees os fd path _)) fun m => ?_
    split
    · split
      · exact .pure fun _ _ h => h
      · exact hfails _
    · split
      · exact hfails _
      · refine Agrees.bind ((recvBuffer_agrees _).onFail (abandon_agrees os fd path _)) fun _ => ?_
        split
        · exact (ih none).pre fun _ _ h => h.1
        · refine (bufferBytes_agrees _ _).bind fun b => (sys_agrees _ _).bind fun r => ?_
          split
          · exact ih _
          · exact (sys_agrees _ _).bind fun _ => (failMessage_agrees _).bind fun _ => ih none

theorem handleSendFile_agrees (path : List UInt8) (mode : Nat) :
    Agrees (Alike a a') (handleSendFile os path mode) (fun _ => Alike a a') (Alike a a') := by
  have hopen : Agrees (Alike a a') (openRemote os path mode) (fun _ => Alike a a') (Alike a a') := by
    refine (sys_agrees _ _).bind fun r => ?_
    split
    · exact .pure fun _ _ h => h
    · exact (failMessage_agrees _).bind fun _ => .pure fun _ _ h => h
  have hloop : ∀ fd, Agrees (Alike a a')
      (.reading fun w => receiveLoop os path (w.conn.inp.length + 1) fd) (fun _ => Alike a a')
      (Alike a a') :=
    fun fd => .reading (fun w w' h => by rw [h.inp]) fun w => receiveLoop_agrees os path _ fd
  refine hopen.bind fun fd => (hloop fd).bind fun (fd, timestamp) => ?_
  dsimp only
  split
  · exact .pure fun _ _ h => h
  · exact (sys_agrees _ _).bind fun _ => (sys_agrees _ _).bind fun _ => send_agrees _

theorem finishLink_agrees (r : Option Int) :
    Agrees (Alike a a') (finishLink os r) (fun _ => Alike a a') (Alike a a') := by
  cases r with
  | some e => exact (failMessage_agrees _).bind fun _ => .fail fun _ _ h => h
  | none =>
    refine (recv_agrees _ _).bind fun m => ?_
    split
    · exact send_agrees _
    · exact refuse_agrees _ _

/-- A link is made alike when its target comes with a 0. -/
theorem handleSendLink_agrees (path x : List UInt8)
    (h0 : ∀ m data rest, x = m ++ (data ++ rest) → m.length = 8 → word m 0 = ID_DATA →
      word m 4 = data.length → data.length ≤ SYNC_DATA_MAX → 0 ∈ data) :
    Agrees (fun w w' => Alike a a' w w' ∧ w.conn.inp = x) (handleSendLink os path)
      (fun _ => Alike a a') (Alike a a') := by
  refine (recv_agrees_inp _ _ x).bind fun m => ?_
  split
  · exact (refuse_agrees _ _).pre fun _ _ h => h.1
  · next hid =>
    split
    · exact (refuse_agrees _ _).pre fun _ _ h => h.1
    · next hmax =>
      rintro w w' ⟨h, hx, hm⟩
      have hstring : ∀ data rest, w.conn.inp = data ++ rest → data.length = word m 4 → 0 ∈ data := by
        intro data rest hinp hlen
        refine h0 m data rest (by rw [hx, hinp]) hm (not_not.mp hid) hlen.symm ?_
        omega
      refine ((recvBuffer_agrees_string _ w.conn.inp hstring).bind fun _ => ?_) w w' ⟨h, rfl⟩
      exact (bufferString_agrees _).bind fun target =>
        (sys_agrees _ _).bind fun r => finishLink_agrees os r

/-! ## A round of the loop -/

/-- The bytes of a command that makes a link, up to the target, which is `data`. -/
def LinkTarget (haveSymlinks : Bool) (next data : List UInt8) : Prop :=
  ∃ m name m' rest, next = m ++ (name ++ (m' ++ (data ++ rest))) ∧
    (m.length = 8 ∧ word m 0 = ID_SEND ∧ word m 4 = name.length ∧ name.length ≤ 1024) ∧
    (sendTarget haveSymlinks (cstr name)).2 = true ∧
    m'.length = 8 ∧ word m' 0 = ID_DATA ∧ word m' 4 = data.length ∧ data.length ≤ SYNC_DATA_MAX

theorem doSend_agrees (haveSymlinks : Bool) (name x : List UInt8)
    (h0 : (sendTarget haveSymlinks name).2 = true → ∀ m data rest, x = m ++ (data ++ rest) →
      m.length = 8 → word m 0 = ID_DATA → word m 4 = data.length → data.length ≤ SYNC_DATA_MAX →
        0 ∈ data) :
    Agrees (fun w w' => Alike a a' w w' ∧ w.conn.inp = x) (doSend os haveSymlinks name)
      (fun _ => Alike a a') (Alike a a') := by
  have hlink : (sendArgs haveSymlinks name).2.2 = (sendTarget haveSymlinks name).2 := by
    rw [← sendArgs_target]
  rw [← hlink] at h0
  unfold doSend
  rcases hargs : sendArgs haveSymlinks name with ⟨path, mode, isLink⟩
  rw [hargs] at h0
  dsimp only at h0 ⊢
  have hsys : Agrees (fun w w' : World φ => Alike a a' w w' ∧ w.conn.inp = x) (sys (os.unlink path))
      (fun _ w w' => Alike a a' w w' ∧ w.conn.inp = x) (Alike a a') :=
    .lift fun w w' h => ⟨by rw [h.1.fs], ⟨by rw [h.1.fs], h.1.inp, h.1.room, h.1.out⟩, h.2⟩
  have hrest : Agrees (fun w w' => Alike a a' w w' ∧ w.conn.inp = x) (do
      let _ ← sys (os.unlink path)
      if isLink then handleSendLink os path else handleSendFile os path (copyBits mode))
      (fun _ => Alike a a') (Alike a a') := by
    refine hsys.bind fun _ => ?_
    split
    · next hl => exact handleSendLink_agrees os path x (h0 hl)
    · exact (handleSendFile_agrees os path _).pre fun _ _ h => h.1
  split
  · refine Agrees.bind (.lift fun w w' h => ⟨rfl, ?_⟩) fun _ => hrest
    exact ⟨⟨h.1.fs, h.1.inp, h.1.room, h.1.out⟩, h.2⟩
  · exact hrest

theorem cstr_name (b z : List UInt8) : cstr (b ++ 0 :: z) = cstr b := by
  by_cases h : 0 ∈ b
  · exact cstr_append_of_mem h _
  · exact (cstr_append h z).trans (takeWhile_ne_self h).symm

/-- `name` holds what was read, and nothing of what it held before. -/
theorem nameString_agrees (b x : List UInt8) (E : World φ → World φ → Prop) :
    Agrees (fun w w' => Alike a a' w w' ∧ w.conn.inp = x) (nameString b)
      (fun s w w' => (Alike a a' w w' ∧ w.conn.inp = x) ∧ s = cstr b) E := by
  intro w w' h
  refine .of_some rfl (congrArg (fun s => (some s, _)) ?_) ⟨⟨?_, h.2⟩, cstr_name b _⟩
  · exact (cstr_name b _).trans (cstr_name b _).symm
  · exact ⟨h.1.fs, h.1.inp, h.1.room, h.1.out⟩

theorem dispatch_agrees (haveSymlinks : Bool) (id : Nat) (name x : List UInt8)
    (h0 : id = ID_SEND → (sendTarget haveSymlinks name).2 = true → ∀ m data rest,
      x = m ++ (data ++ rest) → m.length = 8 → word m 0 = ID_DATA → word m 4 = data.length →
        data.length ≤ SYNC_DATA_MAX → 0 ∈ data) :
    Agrees (fun w w' => Alike a a' w w' ∧ w.conn.inp = x) (dispatch os haveSymlinks id name)
      (fun _ => Alike a a') (Alike a a') := by
  unfold dispatch
  split
  · exact (doStat_agrees os name).pre fun _ _ h => h.1
  · split
    · exact (doList_agrees os name).pre fun _ _ h => h.1
    · split
      · next hid => exact doSend_agrees os haveSymlinks name x (h0 hid)
      · split
        · exact (doRecv_agrees os name).pre fun _ _ h => h.1
        · split
          · exact .fail fun _ _ h => h.1
          · exact (refuse_agrees _ _).pre fun _ _ h => h.1

/-- A command does the same in two runs, if its target comes with a 0 when it makes a link. -/
theorem command_agrees (haveSymlinks : Bool) (next : List UInt8)
    (h0 : ∀ data, LinkTarget haveSymlinks next data → 0 ∈ data) :
    Agrees (fun w w' => Alike a a' w w' ∧ w.conn.inp = next) (command os haveSymlinks)
      (fun _ => Alike a a') (Alike a a') := by
  refine ((recv_agrees_inp _ _ next).onFail (failMessage_agrees _)).bind fun m => ?_
  split
  · exact (refuse_agrees _ _).pre fun _ _ h => h.1
  · next hmax =>
    rintro w w' ⟨h, hnext, hm⟩
    refine (((recv_agrees_inp _ _ w.conn.inp).onFail (failMessage_agrees _)).bind fun b => ?_) w w'
      ⟨h, rfl⟩
    rintro v v' ⟨hv, hinp, hb⟩
    refine ((nameString_agrees b v.conn.inp _).bind fun name => ?_) v v' ⟨hv, rfl⟩
    rintro u u' ⟨hu, rfl⟩
    refine dispatch_agrees os haveSymlinks _ _ v.conn.inp ?_ u u' hu
    intro hid hlink m' data rest hx hm' hid' hlen hle
    refine h0 data ⟨m, b, m', rest, ?_, ⟨hm, hid, hb.symm, by omega⟩, hlink, hm', hid', hlen, hle⟩
    rw [hnext, hinp, hx]

end Rules

/-! ## Histories -/

/-- The next command does the same and sends the same, whatever was done before: in any two sessions
that have come to it with the same file system and the same room for replies. -/
def Independent (haveSymlinks : Bool) (next : List UInt8) : Prop :=
  ∀ (φ δ : Type) (os : Os φ δ) (n n' : Nat) (v v' w w' : World φ),
    commands os haveSymlinks n v = (some (), w) → commands os haveSymlinks n' v' = (some (), w') →
    w.fs = w'.fs → w.conn.inp = next → w'.conn.inp = next →
    w.conn.sink.room = w'.conn.sink.room →
    (command os haveSymlinks w).1 = (command os haveSymlinks w').1 ∧
      Alike w.conn.sink.out w'.conn.sink.out (command os haveSymlinks w).2
        (command os haveSymlinks w').2

/-- A file system that makes links, and lets no file be written. -/
def linkOs : Os (List (List UInt8 × List UInt8)) Unit where
  strerror _ := []
  lstat _ _ := none
  readdir _ _ := none
  mkdir _ fs := (some EEXIST, fs)
  unlink _ fs := (none, fs)
  create _ _ fs := (.error 13, fs)
  reopen _ _ fs := (.error 13, fs)
  writex _ _ fs := (none, fs)
  close _ fs := (none, fs)
  utime _ _ fs := fs
  symlink target path fs := (none, fs ++ [(target, path)])
  read _ _ := .error 13

section Leak

variable {φ δ : Type} (os : Os φ δ) {haveSymlinks : Bool} {next data : List UInt8}

/-- A read of bytes that are there. -/
theorem recv_append (buf : Buf) (w : World φ) {b rest : List UInt8} {n : Nat} (hn : b.length = n)
    (hcap : n ≤ buf.capacity) (hinp : w.conn.inp = b ++ rest) : ∃ c : Conn,
      c.inp = rest ∧ c.sink = w.conn.sink ∧ recv buf n w = (some b, { w with conn := c }) := by
  subst hn
  have hread := Conn.readx_append buf hcap hinp
  exact ⟨{ w.conn with inp := rest, reads := ⟨buf, b.length⟩ :: w.conn.reads }, rfl, rfl,
    by rw [recv, hread]⟩

theorem nameString_eq (b : List UInt8) (w : World φ) :
    nameString b w = (some (cstr b), { w with name := b ++ 0 :: w.name.drop (b.length + 1) }) :=
  congrArg (fun s => (some s, _)) (cstr_name b _)

/-- A round of the loop gets to its `switch` with the name that is there. -/
theorem command_read (haveSymlinks : Bool) {m b rest : List UInt8} {w : World φ}
    (hinp : w.conn.inp = m ++ (b ++ rest)) (hm : m.length = 8) (hlen : word m 4 = b.length)
    (hmax : b.length ≤ 1024) : ∃ v : World φ,
      v.fs = w.fs ∧ v.buffer = w.buffer ∧ v.conn.inp = rest ∧ v.conn.sink = w.conn.sink ∧
        command os haveSymlinks w = dispatch os haveSymlinks (word m 0) (cstr b) v := by
  obtain ⟨c, hc, hs, hrecv⟩ := recv_append (.msg 8) w hm (Nat.le_refl 8) hinp
  obtain ⟨c', hc', hs', hrecv'⟩ := recv_append .path { w with conn := c } hlen.symm
    (by rw [hlen]; exact Nat.le_trans hmax (by decide)) hc
  refine ⟨{ w with conn := c', name := b ++ 0 :: w.name.drop (b.length + 1) }, rfl, rfl, hc',
    hs'.trans hs, ?_⟩
  rw [command, bind_some (onFail_some hrecv), if_neg (by omega), bind_some (onFail_some hrecv'),
    bind_some (nameString_eq _ _)]

/-- What `handle_send_link` does with a target that is there. -/
theorem handleSendLink_eq (path : List UInt8) {m rest : List UInt8} {w : World φ}
    (hinp : w.conn.inp = m ++ (data ++ rest)) (hm : m.length = 8) (hid : word m 0 = ID_DATA)
    (hlen : word m 4 = data.length) (hmax : data.length ≤ SYNC_DATA_MAX) :
    ∃ v : World φ, v.fs = w.fs ∧ handleSendLink os path w = (do
      let r ← sys (makeLink os (cstr (data ++ w.buffer.drop data.length)) path)
      finishLink os r) v := by
  obtain ⟨c, hc, -, hrecv⟩ := recv_append (.msg 8) w hm (Nat.le_refl 8) hinp
  obtain ⟨c', -, -, hrecv'⟩ := recv_append .data { w with conn := c } rfl hmax hc
  refine ⟨{ w with conn := c', buffer := data ++ w.buffer.drop data.length }, rfl, ?_⟩
  rw [handleSendLink, bind_some hrecv, if_neg (not_not.mpr hid), if_neg (by omega), hlen]
  rw [bind_some (a := ()) (by rw [recvBuffer, bind_some hrecv']; rfl)]
  rfl

theorem doSend_link {name : List UInt8} (h : (sendTarget haveSymlinks name).2 = true)
    (w : World φ) : ∃ path, ∃ v : World φ, v.fs = (os.unlink path w.fs).2 ∧ v.buffer = w.buffer ∧
      v.conn = w.conn ∧ doSend os haveSymlinks name w = handleSendLink os path v := by
  have hlink : (sendArgs haveSymlinks name).2.2 = true := by
    rw [← h, ← sendArgs_target]
  unfold doSend
  rcases hargs : sendArgs haveSymlinks name with ⟨path, mode, isLink⟩
  rw [hargs] at hlink
  obtain rfl : isLink = true := hlink
  refine ⟨path, ?_⟩
  dsimp only
  split
  · exact ⟨{ w with
      fs := (os.unlink path w.fs).2, name := path ++ 0 :: w.name.drop (path.length + 1) }, rfl, rfl,
      rfl, rfl⟩
  · exact ⟨{ w with fs := (os.unlink path w.fs).2 }, rfl, rfl, rfl, rfl⟩

/-- A link is made with the C string in the buffer. -/
theorem command_link (h : LinkTarget haveSymlinks next data) {w : World φ}
    (hnext : w.conn.inp = next) : ∃ path, ∃ v : World φ, v.fs = (os.unlink path w.fs).2 ∧
      command os haveSymlinks w = (do
        let r ← sys (makeLink os (cstr (data ++ w.buffer.drop data.length)) path)
        finishLink os r) v := by
  obtain ⟨m, name, m', rest, hinp, ⟨hm, hid, hlen, hmax⟩, hlink, hm', hid', hlen', hmax'⟩ := h
  obtain ⟨x, hxfs, hxbuf, hxinp, -, hread⟩ := command_read os haveSymlinks
    (hnext.trans hinp) hm hlen hmax
  obtain ⟨path, v, hfs, hbuf, hconn, hsend⟩ := doSend_link os hlink x
  obtain ⟨u, hu, hmake⟩ := handleSendLink_eq os path (w := v) (by rw [hconn, hxinp]) hm' hid' hlen' hmax'
  refine ⟨path, u, hu.trans (hfs.trans (by rw [hxfs])), ?_⟩
  rw [hread, dispatch, if_neg (by rw [hid]; decide), if_neg (by rw [hid]; decide), if_pos hid, hsend,
    hmake, hbuf, hxbuf]

theorem recv_fs (buf : Buf) (n : Nat) (w : World φ) : (recv buf n w).2.fs = w.fs := by
  unfold recv
  split <;> rfl

theorem send_fs (b : List UInt8) (w : World φ) : (send b w).2.fs = w.fs := by
  rw [send_eq]

/-- What comes after `symlink` leaves the file system as it is. -/
theorem bind_fs {α β : Type} {m : Act (World φ) α} {f : α → Act (World φ) β}
    (hm : ∀ w, (m w).2.fs = w.fs) (hf : ∀ a w, (f a w).2.fs = w.fs) (w : World φ) :
    ((m >>= f) w).2.fs = w.fs := by
  rcases hr : m w with ⟨_ | a, v⟩
  · rw [bind_none hr, ← hm w, hr]
  · rw [bind_some hr, hf, ← hm w, hr]

theorem failMessage_fs (text : List UInt8) (w : World φ) : (failMessage text w).2.fs = w.fs :=
  bind_fs (send_fs _) (fun _ => send_fs _) w

theorem finishLink_fs (r : Option Int) (w : World φ) : (finishLink os r w).2.fs = w.fs := by
  cases r with
  | some e => exact bind_fs (failMessage_fs _) (fun _ _ => rfl) w
  | none =>
    refine bind_fs (recv_fs _ _) (fun m v => ?_) w
    split
    · exact send_fs _ v
    · exact bind_fs (failMessage_fs _) (fun _ _ => rfl) v

/-- A file system that takes every link has the C string in the buffer for its target. -/
theorem command_linkOs (h : LinkTarget haveSymlinks next data) {w : World _}
    (hnext : w.conn.inp = next) : ∃ path, (command linkOs haveSymlinks w).2.fs =
      w.fs ++ [(cstr (data ++ w.buffer.drop data.length), path)] := by
  obtain ⟨path, v, hfs, hv⟩ := command_link linkOs h hnext
  refine ⟨path, ?_⟩
  have hmake : ∀ target, sys (makeLink linkOs target path) v =
      (some none, { v with fs := v.fs ++ [(target, path)] }) := fun _ => rfl
  rw [hv, bind_some (hmake _), finishLink_fs, hfs]
  rfl

end Leak

/-- **What a command depends on.** Its own bytes and the file system, if the target of a link, when it
makes one, comes with a 0. -/
theorem independent_iff (haveSymlinks : Bool) (next : List UInt8) :
    Independent haveSymlinks next ↔ ∀ data, LinkTarget haveSymlinks next data → 0 ∈ data := by
  constructor
  · intro h data hlink
    by_contra h0
    -- nothing was done before, and other bytes are in memory
    let world : UInt8 → World (List (List UInt8 × List UInt8)) := fun b =>
      ⟨[], List.replicate (SYNC_DATA_MAX + 1) b, [], ⟨next, ⟨[], none⟩, []⟩⟩
    obtain ⟨-, hsame⟩ := h _ _ linkOs 0 0 (world 0) (world 1) _ _ rfl rfl rfl rfl rfl rfl
    obtain ⟨path, hfs⟩ := command_linkOs hlink (w := world 0) rfl
    obtain ⟨path', hfs'⟩ := command_linkOs hlink (w := world 1) rfl
    have hmax : data.length ≤ SYNC_DATA_MAX := by
      obtain ⟨-, -, -, -, -, -, -, -, -, -, hle⟩ := hlink
      exact hle
    have htarget : ∀ b, cstr (data ++ (world b).buffer.drop data.length) =
        data ++ cstr (List.replicate (SYNC_DATA_MAX + 1 - data.length) b) := by
      intro b
      rw [cstr_append_of_notMem h0, List.drop_replicate]
    have hpos : SYNC_DATA_MAX + 1 - data.length = SYNC_DATA_MAX - data.length + 1 := by omega
    have heq := hfs.symm.trans (hsame.fs.trans hfs')
    rw [htarget, htarget, hpos, List.replicate_succ, List.replicate_succ] at heq
    simp [cstr, world] at heq
  · intro h φ δ os n n' v v' w w' hv hv' hfs hinp hinp' hroom
    have halike : Alike w.conn.sink.out w'.conn.sink.out w w' :=
      ⟨hfs, hinp.trans hinp'.symm, hroom, [], by simp, by simp⟩
    have hend := command_agrees os haveSymlinks next h w w' ⟨halike, hinp⟩
    refine ⟨hend.result, ?_⟩
    rcases hend.cases with ⟨a, t, t', ht, ht', hQ⟩ | ⟨t, t', ht, ht', hE⟩
    · rwa [ht, ht']
    · rwa [ht, ht']

/-- `SEND` of the link `l` to `t`, without a 0. -/
def sendLink : List UInt8 :=
  msg ID_SEND 7 ++ [108, 44, 52, 48, 57, 54, 48] ++ msg ID_DATA 1 ++ [116] ++ msg ID_DONE 0

/-- Before it, `SEND` of a file that cannot be written, with two bytes of data. Of the memory only the
first bytes are given. -/
def afterFile (b : UInt8) : World (List (List UInt8 × List UInt8)) :=
  ⟨[], [0, 0, 0, 0], [],
    ⟨msg ID_SEND 1 ++ [120] ++ msg ID_DATA 2 ++ [b, b] ++ msg ID_DONE 0 ++ sendLink, ⟨[], none⟩, []⟩⟩

/-- The link goes to `tA` or to `tB`: the second byte is what the file before it had. -/
theorem link_leaks :
    (∀ b ∈ ([65, 66] : List UInt8), (commands linkOs true 1 (afterFile b)).2.fs = [] ∧
      (commands linkOs true 2 (afterFile b)).2.fs = [([116, b], [108])]) ∧
    ¬ Independent true sendLink := by
  have hfile : ∀ b ∈ ([65, 66] : List UInt8), (commands linkOs true 1 (afterFile b)).1 = some () ∧
      (commands linkOs true 1 (afterFile b)).2.fs = [] ∧
      (commands linkOs true 1 (afterFile b)).2.conn.inp = sendLink ∧
      (commands linkOs true 1 (afterFile b)).2.conn.sink.room = none ∧
      (command linkOs true (commands linkOs true 1 (afterFile b)).2).2.fs = [([116, b], [108])] := by
    decide +kernel
  have htwo : ∀ b ∈ ([65, 66] : List UInt8),
      (commands linkOs true 2 (afterFile b)).2.fs = [([116, b], [108])] := by decide +kernel
  refine ⟨fun b hb => ⟨(hfile b hb).2.1, htwo b hb⟩, fun h => ?_⟩
  have hA := hfile 65 (by simp)
  have hB := hfile 66 (by simp)
  have hind := h _ _ linkOs 1 1 (afterFile 65) (afterFile 66)
  generalize commands linkOs true 1 (afterFile 65) = rA at hA hind
  generalize commands linkOs true 1 (afterFile 66) = rB at hB hind
  obtain ⟨oA, wA⟩ := rA
  obtain ⟨oB, wB⟩ := rB
  obtain ⟨rfl, hfsA, hinpA, hroomA, hlinkA⟩ := hA
  obtain ⟨rfl, hfsB, hinpB, hroomB, hlinkB⟩ := hB
  obtain ⟨-, hsame⟩ := hind wA wB rfl rfl (hfsA.trans hfsB.symm) hinpA hinpB
    (hroomA.trans hroomB.symm)
  have heq := hlinkA.symm.trans (hsame.fs.trans hlinkB)
  simp at heq

end Twm.Adb.FileSync
