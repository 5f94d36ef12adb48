import DeviceTwm.Adb.SyncListing
import DeviceTwm.Adb.SyncPush

/-!
# Requests for long paths

The requests that the client sends for a path, and what `file_sync_service` and `do_send` make of them.

* `sendArgs_sendName`: `do_send` takes the path and the mode apart at the last comma, which is the one of
  the mode.
* `Query.sent_eq`: the bytes of each call of the client. `sync_ls` and `sync_recv` look at the length of the
  path, `sync_send` too, before it adds the mode, and the calls for `STAT` do not look at it.
* `Query.agrees_iff`: the service takes what is sent, in just this case: the path with its mode, and the
  path of a `STAT`, have no more than 1024 bytes.
-/

open Lib

namespace Twm.Adb.FileSync

open PushDir (ID_STAT syncFinishReadtime syncStartReadtimes)

/-! ## The name of a `SEND` -/

/-- `do_send` gets back what `sync_send` put together, commas in the path or not. -/
theorem sendArgs_sendName (haveSymlinks : Bool) (path : List UInt8) {mode : Nat} (hm : mode < 2 ^ 32) :
    sendArgs haveSymlinks (sendName path mode) =
      (path, mode &&& 0o777, decide (haveSymlinks ∧ S_ISLNK mode)) := by
  have hcomma : (44 : UInt8) ∉ decimalInt mode := fun h => (decimalInt_bounds mode 44 h).1 rfl
  simp only [sendArgs, sendName, strrchr_append hcomma, strtoul_decimalInt hm]
  rfl

/-! ## The calls for `STAT` -/

/-- The request of the calls for `STAT`. -/
def statRequest (path : List UInt8) (c : Conn) : Bool × Conn :=
  Conn.andThen (c.writex (msg ID_STAT path.length)) fun c => c.writex path

/-- `sync_start_readtime`. -/
def syncStartReadtime (path : List UInt8) (c : Conn) : Bool × Conn := statRequest path c

/-- `sync_readtime`. -/
def syncReadtime (path : List UInt8) (c : Conn) : Option Nat × Conn :=
  match statRequest path c with
  | (false, c) => (none, c)
  | (true, c) =>
    match syncFinishReadtime c with
    | (none, c) => (none, c)
    | (some st, c) => (some st.mtime, c)

/-- `sync_readmode`. -/
def syncReadmode (path : List UInt8) (c : Conn) : Option Nat × Conn :=
  match statRequest path c with
  | (false, c) => (none, c)
  | (true, c) =>
    match syncFinishReadtime c with
    | (none, c) => (none, c)
    | (some st, c) => (some st.mode, c)

/-! ## What is sent -/

/-- A call of the client for a path. -/
inductive Query
  | ls
  | recv (creat : Option Sink)
  | send (haveSymlinks : Bool) (z : Zipfile) (l : LocalFile) (mtime : Nat) (mode : UInt32)
      (verifyApk : Bool)
  | readtime
  | readmode
  | startReadtime

/-- The connection after the call; `w` is the width of `size_t`. -/
def Query.run (w : Nat) (path : List UInt8) : Query → Conn → Conn
  | ls, c => (syncLs w path c).conn
  | recv creat, c => (syncRecv w path creat c).conn
  | send hs z l mtime mode verifyApk, c => (syncSend w hs z l path mtime mode.toNat verifyApk c).2
  | readtime, c => (syncReadtime path c).2
  | readmode, c => (syncReadmode path c).2
  | startReadtime, c => (syncStartReadtime path c).2

/-- What the call sends on a new connection; `inp` comes in. -/
def Query.sent (q : Query) (w : Nat) (path inp : List UInt8) : List UInt8 :=
  (q.run w path ⟨inp, ⟨[], none⟩, []⟩).sink.out

/-- What was loaded for `verifyApk`, or the code that is returned. -/
def loaded (z : Zipfile) (l : LocalFile) (verifyApk : Bool) : Except Int (Option (List UInt8)) :=
  if verifyApk then (loadApk z l).map some else .ok none

section Sinks

variable {w : Nat}

theorem syncLsLoop_sink (fuel : Nat) (c : Conn) (es : List Dent) :
    (syncLsLoop w fuel c es).conn.sink = c.sink := by
  induction fuel generalizing c es with
  | zero => rfl
  | succ fuel ih =>
    have h₁ := readx_sink c (.msg 20) 20
    rcases hr : c.readx (.msg 20) 20 with ⟨_ | m, c₁⟩
    · rw [hr] at h₁
      simp only [syncLsLoop, hr]
      exact h₁
    rw [hr] at h₁
    simp only [syncLsLoop, hr]
    split
    · exact h₁
    split
    · exact h₁
    split
    · exact h₁
    have h₂ := readx_sink c₁ .name (sizeT w (int (word m 16)))
    rcases hr₂ : c₁.readx .name (sizeT w (int (word m 16))) with ⟨_ | b, c₂⟩
    · rw [hr₂] at h₂
      exact h₂.trans h₁
    · rw [hr₂] at h₂
      exact (ih c₂ _).trans (h₂.trans h₁)

theorem remoteError_sink (m : List UInt8) (c : Conn) : (remoteError w m c).conn.sink = c.sink := by
  unfold remoteError
  split
  · dsimp only
    generalize (if (256 : Int) < int (word m 4) then (256 : Int) else int (word m 4)) = len
    have h := readx_sink c .message (sizeT w len)
    rcases hr : c.readx .message (sizeT w len) with ⟨_ | b, c₁⟩
    · rwa [hr] at h
    · rwa [hr] at h
  · rfl

theorem syncRecvLoop_sink (fuel : Nat) (m : List UInt8) (lfd : Sink) (c : Conn) :
    (syncRecvLoop w fuel m lfd c).conn.sink = c.sink := by
  induction fuel generalizing m lfd c with
  | zero => rfl
  | succ fuel ih =>
    simp only [syncRecvLoop]
    split
    · rfl
    split
    · exact remoteError_sink m c
    split
    · rfl
    have h₁ := readx_sink c .data (sizeT w (int (word m 4)))
    rcases hr : c.readx .data (sizeT w (int (word m 4))) with ⟨_ | b, c₁⟩
    · rwa [hr] at h₁
    rw [hr] at h₁
    dsimp only
    rcases lfd.writex b with ⟨_ | _, lfd'⟩
    · exact h₁
    dsimp only
    have h₂ := readx_sink c₁ (.msg 8) 8
    rcases hr₂ : c₁.readx (.msg 8) 8 with ⟨_ | m', c₂⟩
    · rw [hr₂] at h₂
      exact h₂.trans h₁
    · rw [hr₂] at h₂
      exact (ih m' lfd' c₂).trans (h₂.trans h₁)

theorem syncFinishReadtime_sink (c : Conn) : (syncFinishReadtime c).2.sink = c.sink := by
  have h := readx_sink c (.msg 16) 16
  unfold syncFinishReadtime
  rcases hr : c.readx (.msg 16) 16 with ⟨_ | m, c₁⟩
  · rwa [hr] at h
  · rw [hr] at h
    dsimp only
    split
    · exact h
    · exact h

end Sinks

/-- A connection that holds takes what is written. -/
theorem writex_open (inp out b : List UInt8) (rs : List ReadCall) :
    Conn.writex ⟨inp, ⟨out, none⟩, rs⟩ b = (true, ⟨inp, ⟨out ++ b, none⟩, rs⟩) := rfl

theorem syncLs_sent (w : Nat) {path : List UInt8} (h : path.length ≤ 1024) (inp : List UInt8) :
    Query.ls.sent w path inp = listRequest path := by
  show (syncLs w path ⟨inp, ⟨[], none⟩, []⟩).conn.sink.out = _
  rw [syncLs, if_neg (by omega), writex_open]
  dsimp only
  rw [writex_open]
  dsimp only
  rw [syncLsLoop_sink, listRequest, List.nil_append]

theorem syncRecv_sent (w : Nat) {path : List UInt8} (h : path.length ≤ 1024) (creat : Option Sink)
    (inp : List UInt8) : (Query.recv creat).sent w path inp = msg ID_RECV path.length ++ path := by
  show (syncRecv w path creat ⟨inp, ⟨[], none⟩, []⟩).conn.sink.out = _
  rw [syncRecv, if_neg (by omega), writex_open]
  dsimp only
  rw [writex_open]
  dsimp only
  rw [List.nil_append]
  have h₁ := readx_sink ⟨inp, ⟨msg ID_RECV path.length ++ path, none⟩, []⟩ (.msg 8) 8
  rcases hr : Conn.readx ⟨inp, ⟨msg ID_RECV path.length ++ path, none⟩, []⟩ (.msg 8) 8 with ⟨_ | m, c₁⟩
  · rw [hr] at h₁
    exact congrArg Sink.out h₁
  rw [hr] at h₁
  dsimp only at h₁ ⊢
  split
  · cases creat with
    | none => exact congrArg Sink.out h₁
    | some lfd =>
      dsimp only
      rw [syncRecvLoop_sink, h₁]
  · rw [remoteError_sink, h₁]

/-- The calls for `STAT` send the path, whatever its length. -/
theorem stat_sent (w : Nat) (path inp : List UInt8) {q : Query}
    (hq : q = .readtime ∨ q = .readmode ∨ q = .startReadtime) :
    q.sent w path inp = msg ID_STAT path.length ++ path := by
  generalize hb : msg ID_STAT path.length ++ path = b
  have hreq : statRequest path ⟨inp, ⟨[], none⟩, []⟩ = (true, ⟨inp, ⟨b, none⟩, []⟩) := by
    rw [← hb, statRequest, writex_open, Conn.andThen, writex_open, List.nil_append]
  have hread := syncFinishReadtime_sink ⟨inp, ⟨b, none⟩, []⟩
  unfold Query.sent
  rcases hq with rfl | rfl | rfl
  · simp only [Query.run, syncReadtime, hreq]
    rcases hr : syncFinishReadtime ⟨inp, ⟨b, none⟩, []⟩ with ⟨_ | st, c⟩
    · rw [hr] at hread
      exact congrArg Sink.out hread
    · rw [hr] at hread
      exact congrArg Sink.out hread
  · simp only [Query.run, syncReadmode, hreq]
    rcases hr : syncFinishReadtime ⟨inp, ⟨b, none⟩, []⟩ with ⟨_ | st, c⟩
    · rw [hr] at hread
      exact congrArg Sink.out hread
    · rw [hr] at hread
      exact congrArg Sink.out hread
  · simp only [Query.run, syncStartReadtime, hreq]

/-- `sync_send` sends its request when the path is short and the file is loaded. -/
theorem syncSend_sent (w : Nat) {path : List UInt8} (haveSymlinks : Bool) (z : Zipfile) (l : LocalFile)
    (mtime : Nat) (mode : UInt32) (verifyApk : Bool) (h : path.length ≤ 1024)
    {apk : Option (List UInt8)} (hload : loaded z l verifyApk = .ok apk) (inp : List UInt8) :
    ∃ rest, (Query.send haveSymlinks z l mtime mode verifyApk).sent w path inp =
      msg ID_SEND (sendName path mode.toNat).length ++ (sendName path mode.toNat ++ rest) := by
  have hreq := sendRequest_attempts path mode.toNat ⟨inp, ⟨[], none⟩, []⟩
  have htakes : ∀ n, Sink.Takes ⟨[], none⟩ n := fun n k hk => by cases hk
  obtain ⟨c, hc, hsink⟩ : ∃ c, sendRequest path mode.toNat ⟨inp, ⟨[], none⟩, []⟩ = (true, c) ∧
      c.sink = ⟨msg ID_SEND (sendName path mode.toNat).length ++ sendName path mode.toNat, none⟩ := by
    have hok := hreq.ok.mpr (htakes _)
    have hs := hreq.sends.sent (htakes _)
    rcases hr : sendRequest path mode.toNat ⟨inp, ⟨[], none⟩, []⟩ with ⟨_ | _, c⟩
    · rw [hr] at hok
      cases hok
    · rw [hr] at hs
      exact ⟨c, rfl, hs⟩
  -- the data and `DONE` come after the request
  have hall : ∃ rest, (sendAll haveSymlinks l path mtime mode.toNat apk ⟨inp, ⟨[], none⟩, []⟩).2.sink.out =
      (msg ID_SEND (sendName path mode.toNat).length ++ sendName path mode.toNat) ++ rest := by
    simp only [sendAll, hc, Conn.andThen]
    rcases sendData_sends haveSymlinks l mode.toNat apk c with ⟨-, hd⟩ | ⟨chunks, c', -, hd, hs⟩
    · rw [hd]
      exact ⟨[], by rw [hsink, List.append_nil]⟩
    · rw [hd]
      have htakes' : ∀ n, c.sink.Takes n := by
        rw [hsink]
        exact fun n k hk => by cases hk
      have hs' := hs.trans (Sends.writex c' (msg ID_DONE mtime))
      refine ⟨dataBytes chunks ++ msg ID_DONE mtime, ?_⟩
      have hend := congrArg Sink.out (hs'.sent (htakes' _))
      rwa [hsink] at hend
  have hrun : (Query.send haveSymlinks z l mtime mode verifyApk).sent w path inp =
      (sendAll haveSymlinks l path mtime mode.toNat apk ⟨inp, ⟨[], none⟩, []⟩).2.sink.out := by
    show (syncSend w haveSymlinks z l path mtime mode.toNat verifyApk ⟨inp, ⟨[], none⟩, []⟩).2.sink.out = _
    rw [syncSend, if_neg (by omega), ← loaded, hload]
    dsimp only
    rcases sendAll haveSymlinks l path mtime mode.toNat apk ⟨inp, ⟨[], none⟩, []⟩ with ⟨_ | _, c'⟩
    · rfl
    · exact congrArg Sink.out (syncSendReply_sink w c')
  obtain ⟨rest, hrest⟩ := hall
  exact ⟨rest, by rw [hrun, hrest, List.append_assoc]⟩

/-! ## What the service makes of it -/

/-- The request in what was sent: its length field is one that the service accepts. For a `SEND` the name
that comes is taken apart to the path, the permissions and the type. -/
def Accepted (haveSymlinks : Bool) (path : List UInt8) (q : Query) (sent : List UInt8) : Prop :=
  word sent 4 ≤ 1024 ∧
    match q with
    | .send _ _ _ _ mode _ => ∃ name rest, sent = msg ID_SEND name.length ++ (name ++ rest) ∧
        sendArgs haveSymlinks (cstr name) =
          (path, mode.toNat &&& 0o777, decide (haveSymlinks ∧ S_ISLNK mode.toNat))
    | _ => True

/-- When the call sends a request, the service accepts it. -/
def Query.Agrees (haveSymlinks : Bool) (w : Nat) (path : List UInt8) (q : Query) : Prop :=
  ∀ inp, q.sent w path inp ≠ [] → Accepted haveSymlinks path q (q.sent w path inp)

/-- The name is no longer than what the service takes. The length field of a `STAT` has 32 bits. -/
def Query.Fits (path : List UInt8) : Query → Prop
  | ls | recv _ => True
  | send _ z l _ mode verifyApk =>
    -- nothing is sent of a path that is too long, or of a file that is not loaded
    1024 < path.length ∨ (∃ e, loaded z l verifyApk = .error e) ∨
      (sendName path mode.toNat).length ≤ 1024
  | readtime | readmode | startReadtime => path.length % 2 ^ 32 ≤ 1024

/-- The length field of a request. -/
theorem word_request (id n : Nat) (rest : List UInt8) : word (msg id n ++ rest) 4 = n % 2 ^ 32 := by
  rw [word, msg, List.append_assoc, List.drop_append, List.drop_eq_nil_of_le (by rw [length_le32]),
    length_le32, Nat.sub_self, List.nil_append]
  exact ofLe32_le32 n rest

theorem request_ne_nil (id n : Nat) (rest : List UInt8) : msg id n ++ rest ≠ [] := by
  intro h
  have := congrArg List.length h
  rw [List.length_append, length_msg, List.length_nil] at this
  omega

section

variable {haveSymlinks : Bool} {w : Nat} {path : List UInt8}

theorem agrees_ls : Query.ls.Agrees haveSymlinks w path := by
  intro inp hne
  by_cases h : path.length ≤ 1024
  · rw [syncLs_sent w h]
    refine ⟨?_, trivial⟩
    rw [listRequest, word_request]
    exact Nat.le_trans (Nat.mod_le _ _) h
  · refine absurd ?_ hne
    show (syncLs w path ⟨inp, ⟨[], none⟩, []⟩).conn.sink.out = []
    rw [syncLs, if_pos (by omega)]

theorem agrees_recv (creat : Option Sink) : (Query.recv creat).Agrees haveSymlinks w path := by
  intro inp hne
  by_cases h : path.length ≤ 1024
  · rw [syncRecv_sent w h]
    refine ⟨?_, trivial⟩
    rw [word_request]
    exact Nat.le_trans (Nat.mod_le _ _) h
  · refine absurd ?_ hne
    show (syncRecv w path creat ⟨inp, ⟨[], none⟩, []⟩).conn.sink.out = []
    rw [syncRecv, if_pos (by omega)]

theorem agrees_stat {q : Query} (hq : q = .readtime ∨ q = .readmode ∨ q = .startReadtime) :
    q.Agrees haveSymlinks w path ↔ path.length % 2 ^ 32 ≤ 1024 := by
  constructor
  · intro h
    have hacc := (h [] (by rw [stat_sent w path [] hq]; exact request_ne_nil _ _ _)).1
    rwa [stat_sent w path [] hq, word_request] at hacc
  · intro h inp _
    rw [stat_sent w path inp hq]
    refine ⟨by rwa [word_request], ?_⟩
    rcases hq with rfl | rfl | rfl <;> trivial

theorem agrees_send (h0 : 0 ∉ path) (hs : Bool) (z : Zipfile) (l : LocalFile) (mtime : Nat)
    (mode : UInt32) (verifyApk : Bool) :
    (Query.send hs z l mtime mode verifyApk).Agrees haveSymlinks w path ↔
      (Query.send hs z l mtime mode verifyApk).Fits path := by
  by_cases hlong : 1024 < path.length
  · refine iff_of_true (fun inp hne => absurd ?_ hne) (.inl hlong)
    show (syncSend w hs z l path mtime mode.toNat verifyApk ⟨inp, ⟨[], none⟩, []⟩).2.sink.out = []
    rw [syncSend, if_pos hlong]
  rcases hload : loaded z l verifyApk with e | apk
  · refine iff_of_true (fun inp hne => absurd ?_ hne) (.inr (.inl ⟨e, hload⟩))
    show (syncSend w hs z l path mtime mode.toNat verifyApk ⟨inp, ⟨[], none⟩, []⟩).2.sink.out = []
    rw [syncSend, if_neg hlong, ← loaded, hload]
  have hmode : mode.toNat < 2 ^ 32 := mode.toNat_lt
  have hshort : (sendName path mode.toNat).length < 2 ^ 32 := by
    have := length_decimalInt_le hmode
    rw [sendName, List.length_append, List.length_cons]
    omega
  have hsent := syncSend_sent w hs z l mtime mode verifyApk (Nat.not_lt.mp hlong) hload
  have hfits : (Query.send hs z l mtime mode verifyApk).Fits path ↔
      (sendName path mode.toNat).length ≤ 1024 := by
    constructor
    · rintro (h | ⟨e, h⟩ | h)
      · exact absurd h hlong
      · rw [hload] at h
        cases h
      · exact h
    · exact fun h => .inr (.inr h)
  rw [hfits]
  constructor
  · intro h
    obtain ⟨rest, hrest⟩ := hsent []
    have hacc := (h [] (by rw [hrest]; exact request_ne_nil _ _ _)).1
    rwa [hrest, word_request, Nat.mod_eq_of_lt hshort] at hacc
  · intro h inp _
    obtain ⟨rest, hrest⟩ := hsent inp
    rw [hrest]
    refine ⟨?_, _, rest, rfl, ?_⟩
    · rw [word_request, Nat.mod_eq_of_lt hshort]
      exact h
    · rw [cstr_sendName h0, sendArgs_sendName _ _ hmode]

end

/-- **Path limits.** The service accepts what the client sends, in just this case: the path of a `SEND` and
the mode after it, and the path of a `STAT`, have no more than 1024 bytes. -/
theorem agrees_iff (haveSymlinks : Bool) (w : Nat) {path : List UInt8} (h0 : 0 ∉ path) (q : Query) :
    q.Agrees haveSymlinks w path ↔ q.Fits path := by
  cases q with
  | ls => exact iff_of_true agrees_ls trivial
  | recv creat => exact iff_of_true (agrees_recv creat) trivial
  | send hs z l mtime mode verifyApk => exact agrees_send h0 hs z l mtime mode verifyApk
  | readtime => exact agrees_stat (.inl rfl)
  | readmode => exact agrees_stat (.inr (.inl rfl))
  | startReadtime => exact agrees_stat (.inr (.inr rfl))

/-- `sync_send` of an empty regular file. -/
def sendEmpty : Query :=
  .send true ⟨fun _ => false, fun _ => false⟩
    ⟨true, [], none, some 0, true, true, 0, [], [], LocalFile.no_chunk, LocalFile.no_target,
      LocalFile.no_buffer⟩ 7 0o100644 false

/-- The path `a,b`. -/
theorem comma_agrees : sendEmpty.Agrees true 32 [97, 44, 98] := by
  refine (agrees_iff true 32 (by decide) sendEmpty).mpr (.inr (.inr ?_))
  have := length_decimalInt_le (n := (0o100644 : UInt32).toNat) (by decide)
  rw [sendName, List.length_append, List.length_cons]
  simp only [List.length_cons, List.length_nil]
  omega

/-- The length field of its request. -/
theorem sendEmpty_word {path : List UInt8} (h : path.length ≤ 1024) :
    word (sendEmpty.sent 32 path []) 4 = path.length + 6 := by
  obtain ⟨rest, hrest⟩ : ∃ rest, sendEmpty.sent 32 path [] =
      msg ID_SEND (sendName path 0o100644).length ++ (sendName path 0o100644 ++ rest) :=
    syncSend_sent 32 true _ _ 7 0o100644 false h rfl []
  have hdec : decimalInt 0o100644 = [51, 51, 49, 56, 56] := by simp [decimalInt, decimal]
  have hlen : (sendName path 0o100644).length = path.length + 6 := by
    rw [sendName, hdec, List.length_append]
    rfl
  rw [hrest, word_request, hlen]
  omega

/-- A path of 1019 bytes is sent with a length of 1025. -/
theorem long_path_refused : word (sendEmpty.sent 32 (List.replicate 1019 97) []) 4 = 1025 ∧
    ¬ sendEmpty.Agrees true 32 (List.replicate 1019 97) := by
  have hword : word (sendEmpty.sent 32 (List.replicate 1019 97) []) 4 = 1025 := by
    rw [sendEmpty_word (by rw [List.length_replicate]; omega), List.length_replicate]
  refine ⟨hword, fun h => ?_⟩
  have hne : sendEmpty.sent 32 (List.replicate 1019 97) [] ≠ [] := by
    intro hnil
    rw [hnil] at hword
    exact absurd hword (by decide)
  have hacc := (h [] hne).1
  omega

end Twm.Adb.FileSync
