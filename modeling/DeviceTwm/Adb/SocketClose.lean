import DeviceTwm.Adb.LocalSocket

/-!
# What is queued when a socket is closed

`local_socket_close_locked` puts a socket with queued packets on the closing list, and takes
`FDE_READ` from the events it wants. It is then destroyed when the last packet is written, or when a
write fails (`Settled`), unless one of these comes first (`Drops`).

* The event function is called for the socket with `FDE_READ` alone, and meets the end of the file.
  `fdevent_set` keeps a reported event when it is no longer wanted, and drops it when it is.
* A local peer fails to write what was just read, and closes the socket; the same call of the event
  function has met the end of the file, and closes it once more.
* A write to the descriptor returns 0.
-/

namespace Twm.Adb.LocalSocket

/-! ## The loops over the queue -/

theorem queued_dropWhile (q : List APacket) : queued (q.dropWhile (·.len = 0)) = queued q := by
  induction q with
  | nil => rfl
  | cons p q ih =>
    rw [List.dropWhile_cons]
    split
    · next h =>
      have hp : p.bytes = [] := APacket.bytes_of_len (by simpa using h)
      simp only [queued, List.flatMap_cons, hp, List.nil_append]
      exact ih
    · rfl

namespace Sock

/-- What is written and what is left is what was queued. -/
theorem drain_append (ws : List WriteResult) (q : List APacket) :
    (drain ws q).2.1 ++ queued (drain ws q).1 = queued q := by
  induction ws generalizing q with
  | nil =>
    rw [← queued_dropWhile q]
    unfold drain
    split
    · next h => rw [h]; rfl
    · next h => rw [h]; rfl
  | cons w ws ih =>
    rw [← queued_dropWhile q]
    unfold drain
    split
    · next h => rw [h]; rfl
    · next p q h =>
      rw [h]
      split
      · next p' hw =>
        have hp := drainWrite_more hw
        have hrest := ih (p' :: q)
        simp only [queued, List.flatMap_cons, List.append_assoc] at hrest ⊢
        rw [hrest, ← List.append_assoc, hp]
      · rfl
      · rfl

theorem drain_empty {ws : List WriteResult} {q : List APacket} (h : (drain ws q).2.2 = .empty) :
    (drain ws q).1 = [] := by
  induction ws generalizing q with
  | nil =>
    unfold drain at h ⊢
    split
    · rfl
    · next hq =>
      rw [hq] at h
      cases h
  | cons w ws ih =>
    unfold drain at h ⊢
    split
    · rfl
    · next p q hq =>
      simp only [hq] at h
      split
      · next p' hw =>
        rw [hw] at h
        exact ih h
      · next hw =>
        rw [hw] at h
        cases h
      · next hw =>
        rw [hw] at h
        cases h

theorem drainWrite_close {p : APacket} {w : WriteResult} (h : drainWrite p w = .close) :
    w = .wrote 0 ∨ w = .fail := by
  unfold drainWrite at h
  split at h <;> cases h
  · exact .inl rfl
  · exact .inr rfl

/-- Without an error, the loop fails only at a write that returns 0. -/
theorem drain_failed {ws : List WriteResult} {q : List APacket}
    (h : (drain ws q).2.2 = .failed false) : .wrote 0 ∈ ws := by
  induction ws generalizing q with
  | nil =>
    unfold drain at h
    split at h <;> cases h
  | cons w ws ih =>
    unfold drain at h
    split at h
    · cases h
    · split at h
      · exact List.mem_cons_of_mem _ (ih h)
      · cases h
      · next hw =>
        rcases drainWrite_close hw with rfl | rfl
        · exact List.mem_cons_self
        · cases h

/-! ## The closing list -/

/-- The socket is gone only after all that was owed was written, or a write failed. -/
def Settled (s : Sock) : Prop :=
  s.closing = true → s.status ≠ .live → s.failed = true ∨ s.written = s.owed

instance (s : Sock) : Decidable s.Settled := inferInstanceAs (Decidable (_ → _ → _ ∨ _))

/-- A socket that is on the closing list has no peer, and what is queued is still owed. -/
structure Kept (s : Sock) : Prop where
  service : s.kind ≠ .fd → s.queue = [] ∧ s.closing = false
  alone : s.closing = true → s.peer = .none
  left : s.closing = true → s.status = .live → s.owed = s.written ++ queued s.queue
  settled : s.Settled

/-- The call of the event function destroys the socket while packets are queued: only `FDE_READ` was
reported, and the file has ended. The socket is on the closing list, or gets there in this call. -/
def Drops (s : Sock) (rs : List FdRead) (e : Enqueue) : Prop :=
  s.fde.evRead = true ∧ s.fde.evWrite = false ∧ s.queue ≠ [] ∧ (fill rs []).2 = true ∧
    (s.closing = true ∨ s.peer = .other ∧ e = .closesUs ∧ (fill rs []).1 ≠ [])

instance (s : Sock) (rs : List FdRead) (e : Enqueue) : Decidable (s.Drops rs e) :=
  inferInstanceAs (Decidable (_ ∧ _))

/-- A write for a socket on the closing list returns 0. -/
def WritesNothing (s : Sock) (ws : List WriteResult) : Prop :=
  s.closing = true ∧ s.fde.evWrite = true ∧ .wrote 0 ∈ ws

instance (s : Sock) (ws : List WriteResult) : Decidable (s.WritesNothing ws) :=
  inferInstanceAs (Decidable (_ ∧ _))

/-- In use, and not on the closing list. A service has no queue. -/
structure Open (s : Sock) : Prop where
  live : s.status = .live
  notClosing : s.closing = false
  service : s.kind ≠ .fd → s.queue = []

variable {s : Sock}

theorem Kept.of_notClosing (hc : s.closing = false) (hs : s.kind ≠ .fd → s.queue = []) :
    s.Kept where
  service h := ⟨hs h, hc⟩
  alone h := by rw [hc] at h; cases h
  left h := by rw [hc] at h; cases h
  settled h := by rw [hc] at h; cases h

theorem Open.kept (h : s.Open) : s.Kept := .of_notClosing h.notClosing h.service

theorem Kept.isOpen (h : s.Kept) (hl : s.status = .live) (hc : s.closing = false) : s.Open :=
  ⟨hl, hc, fun hk => (h.service hk).1⟩

/-! ### Closing -/

/-- A socket that is not on the closing list is destroyed, or put there with all that is queued. -/
theorem closeLocked_kept (h : s.Open) : s.closeLocked.Kept := by
  simp only [closeLocked, closePeer_closing, closePeer_queue]
  split
  · exact .of_notClosing (by simpa using h.notClosing) (by simpa using h.service)
  · next hq =>
    have hfd : s.kind = .fd := by
      by_contra hk
      exact hq (.inr (h.service hk))
    exact ⟨fun hk => absurd hfd (by simpa using hk), fun _ => s.closePeer_peer,
      fun _ _ => by simp, fun _ hl => absurd h.live (by simpa using hl)⟩

theorem closeLocked_closing (hc : s.closing = true) (hp : s.peer = .none) :
    s.closeLocked = { s with status := .destroyed } := by
  have hcp : s.closePeer = s := by
    simp only [closePeer, hp]
    cases s
    cases hp
    rfl
  simp only [closeLocked, hcp, hc, true_or, if_true]

theorem close_kept (h : s.Open) : s.close.Kept := by
  unfold close
  split
  · exact closeLocked_kept ⟨h.live, h.notClosing, h.service⟩
  · exact .of_notClosing (by simpa using h.notClosing) (by simpa using h.service)

/-- On the closing list, the second close destroys. -/
theorem close_closing (h : s.Kept) (hc : s.closing = true) :
    s.close = { s with notify := false, status := .destroyed } := by
  have hk : s.kind = .fd := by
    by_contra hk
    rw [(h.service hk).2] at hc
    cases hc
  simp only [close, hk]
  exact closeLocked_closing hc (h.alone hc)

theorem peerCloses_kept (h : s.Open) : s.peerCloses.Kept :=
  close_kept ⟨h.live, h.notClosing, h.service⟩

/-- The queue is empty, so the socket is not put on the closing list. -/
theorem close_notClosing (hc : s.closing = false) (hq : s.queue = []) : s.close.closing = false := by
  unfold close
  split
  · simp [closeLocked, hq, hc]
  · simpa using hc

theorem peerCloses_notClosing (hc : s.closing = false) (hq : s.queue = []) :
    s.peerCloses.closing = false :=
  close_notClosing hc hq

/-! ### Calls on a socket that is not on the closing list -/

theorem enqueue_kept (h : s.Open) (data : List UInt8) (ws : List WriteResult) :
    (s.enqueue data ws).2.Kept := by
  unfold enqueue
  split
  · next hk =>
    split
    · split
      · exact h.kept
      · exact .of_notClosing h.notClosing fun hn => absurd hk hn
      · exact close_kept h
    · exact .of_notClosing h.notClosing fun hn => absurd hk hn
  · exact .of_notClosing (by simpa using h.notClosing) (by simpa using h.service)

/-- The socket writes at once only if nothing is queued. -/
theorem enqueue_notClosing (h : s.Open) (data : List UInt8) (ws : List WriteResult) :
    (s.enqueue data ws).2.closing = false := by
  unfold enqueue
  split
  · split
    · next hq =>
      split
      · exact h.notClosing
      · exact h.notClosing
      · exact close_notClosing h.notClosing hq
    · exact h.notClosing
  · simpa using h.notClosing

theorem ready_kept (h : s.Open) (list : List UInt8) : (s.ready list).Kept := by
  unfold ready
  split
  · exact .of_notClosing h.notClosing h.service
  · next hk => exact .of_notClosing h.notClosing fun _ => h.service (by simp [hk])
  · exact .of_notClosing (by simpa using h.notClosing) (by simpa using h.service)
  · next hk => exact .of_notClosing h.notClosing fun _ => h.service (by simp [hk])
  · exact h.kept

theorem handleOkay_kept (h : s.Open) (own : Bool) (list : List UInt8) :
    (s.handleOkay own list).Kept := by
  unfold handleOkay
  apply ready_kept
  split <;> split <;> exact ⟨h.live, h.notClosing, h.service⟩

theorem handleWrte_kept (h : s.Open) (data : List UInt8) (ws : List WriteResult) :
    (s.handleWrte data ws).Kept := by
  have hk := enqueue_kept h data ws
  simp only [handleWrte]
  split
  · exact ⟨hk.service, hk.alone, hk.left, hk.settled⟩
  · exact hk

/-! ### The event function -/

theorem endOfFile_kept (h : s.Kept) (hq : s.closing = true → s.queue = []) : s.endOfFile.Kept := by
  unfold endOfFile
  by_cases hc : s.closing = true
  · split
    · next hl =>
      have hleft := h.left hc hl
      rw [hq hc] at hleft
      have hall : s.written = s.owed := by simpa [queued] using hleft.symm
      rw [close_closing h hc]
      exact ⟨h.service, h.alone, fun _ hd => (nomatch hd), fun _ _ => .inr hall⟩
    · next hl => exact ⟨h.service, h.alone, fun _ hd => (nomatch hd), fun hc _ => h.settled hc hl⟩
  · have hc : s.closing = false := by simpa using hc
    split
    · next hl => exact close_kept (h.isOpen hl hc)
    · exact .of_notClosing hc fun hk => (h.service hk).1

/-- The packet is passed on. Only a local peer that fails puts the socket on the closing list. -/
theorem pass_kept {s' : Sock} {buf : List UInt8} {e : Enqueue} (h : s.Open)
    (hp : s.pass buf e = some s') :
    s'.Kept ∧ (s'.closing = true → s.queue ≠ [] ∧ s.peer = .other ∧ e = .closesUs) := by
  have hopen : ∀ s' : Sock, s'.closing = false → (s'.kind ≠ .fd → s'.queue = []) →
      s'.Kept ∧ (s'.closing = true → s.queue ≠ [] ∧ s.peer = .other ∧ e = .closesUs) :=
    fun s' hc hs => ⟨.of_notClosing hc hs, fun hc' => by rw [hc] at hc'; cases hc'⟩
  unfold pass at hp
  split at hp
  · cases hp
    exact hopen _ h.notClosing h.service
  · cases hp
    exact hopen _ h.notClosing h.service
  · cases hp
    exact hopen _ h.notClosing h.service
  · cases hp
    exact hopen _ h.notClosing h.service
  · next _ data ws _ =>
    cases hp
    have ho : Open { s with peer := .other, notify := false } := ⟨h.live, h.notClosing, h.service⟩
    have hk := enqueue_kept ho data ws
    exact hopen _ (enqueue_notClosing ho data ws) fun hn => (hk.service hn).1
  · cases hp
  · cases hp
  · cases hp
    exact hopen _ h.notClosing h.service
  · next hpeer =>
    cases hp
    have hk := peerCloses_kept h
    have hq : s.peerCloses.closing = true → s.queue ≠ [] := by
      intro hc hq
      rw [peerCloses_notClosing h.notClosing hq] at hc
      cases hc
    split
    · next hl =>
      exact ⟨⟨hk.service, hk.alone, hk.left, hk.settled⟩, fun hc => ⟨hq hc, hpeer, rfl⟩⟩
    · next hl =>
      exact ⟨⟨hk.service, hk.alone, fun _ hd => (nomatch hd), fun hc _ => hk.settled hc hl⟩,
        fun hc => ⟨hq hc, hpeer, rfl⟩⟩
  · cases hp
    exact hopen _ h.notClosing h.service

theorem readPart_kept {rs : List FdRead} {e : Enqueue} (h : s.Open)
    (hdrop : ¬ (s.queue ≠ [] ∧ (fill rs []).2 = true ∧ s.peer = .other ∧ e = .closesUs ∧
      (fill rs []).1 ≠ [])) : (s.readPart rs e).Kept := by
  simp only [readPart]
  split
  · exact peerCloses_kept h
  · next s' hs' =>
    by_cases hbuf : (fill rs []).1 = []
    · rw [if_pos hbuf] at hs'
      cases hs'
      split
      · exact endOfFile_kept h.kept fun hc => by rw [h.notClosing] at hc; cases hc
      · exact h.kept
    · rw [if_neg hbuf] at hs'
      obtain ⟨hk, hc⟩ := pass_kept h hs'
      split
      · next heof =>
        refine endOfFile_kept hk fun hcl => ?_
        obtain ⟨hq, hp, he⟩ := hc hcl
        exact absurd ⟨hq, heof, hp, he, hbuf⟩ hdrop
      · exact hk

/-- The `FDE_WRITE` part of a socket on the closing list writes what is owed, or destroys it. -/
theorem writePart_closing {ws : List WriteResult} (h : s.Kept) (hl : s.status = .live)
    (hc : s.closing = true) (hw : .wrote 0 ∉ ws) :
    (s.writePart ws).2.Kept ∧ (s.writePart ws).1 = false := by
  have hleft : s.owed = s.written ++ (drain ws s.queue).2.1 ++ queued (drain ws s.queue).1 := by
    rw [List.append_assoc, drain_append]
    exact h.left hc hl
  have hfd : s.kind = .fd := by
    by_contra hk
    rw [(h.service hk).2] at hc
    cases hc
  have hkept : ∀ failed, Kept { s with
      queue := (drain ws s.queue).1, written := s.written ++ (drain ws s.queue).2.1,
      failed := failed } :=
    fun _ => ⟨fun hk => absurd hfd hk, h.alone, fun _ _ => hleft, fun _ hd => absurd hl hd⟩
  simp only [writePart]
  split
  · exact ⟨hkept _, rfl⟩
  · next error hd =>
    have herr : error = true := by
      by_contra hne
      rw [Bool.not_eq_true] at hne
      exact hw (drain_failed (hne ▸ hd))
    refine ⟨?_, rfl⟩
    rw [close_closing (hkept error) hc]
    exact ⟨fun hk => absurd hfd hk, h.alone, fun _ hd => (nomatch hd), fun _ _ => .inl herr⟩
  · next hd =>
    rw [if_pos hc]
    refine ⟨?_, rfl⟩
    rw [drain_empty hd] at hleft
    rw [close_closing (hkept _) hc]
    exact ⟨fun hk => absurd hfd hk, h.alone, fun _ hd => (nomatch hd),
      fun _ _ => .inr (by simpa [queued] using hleft.symm)⟩

/-- Of any other socket it goes on with an empty queue, or the function returns. -/
theorem writePart_open (ws : List WriteResult) (h : s.Open) (hk : s.kind = .fd) :
    (s.writePart ws).2.Kept ∧
      ((s.writePart ws).1 = true → (s.writePart ws).2.Open ∧ (s.writePart ws).2.queue = []) := by
  have hfd : ∀ q : List APacket, s.kind ≠ .fd → q = [] := fun _ hn => absurd hk hn
  simp only [writePart]
  split
  · exact ⟨.of_notClosing h.notClosing (hfd _), fun hn => (nomatch hn)⟩
  · exact ⟨close_kept ⟨h.live, h.notClosing, hfd _⟩, fun hn => (nomatch hn)⟩
  · next hd =>
    rw [if_neg (by simp [h.notClosing])]
    split
    · exact ⟨.of_notClosing h.notClosing (hfd _), fun hn => (nomatch hn)⟩
    · exact ⟨.of_notClosing h.notClosing (hfd _),
        fun _ => ⟨⟨h.live, h.notClosing, hfd _⟩, drain_empty hd⟩⟩
    · exact ⟨.of_notClosing h.notClosing (hfd _),
        fun _ => ⟨⟨h.live, h.notClosing, hfd _⟩, drain_empty hd⟩⟩

/-- On the closing list the `FDE_READ` part only looks for the end of the file. -/
theorem readPart_closing {rs : List FdRead} {e : Enqueue} (h : s.Kept) (hc : s.closing = true)
    (hq : (fill rs []).2 = true → s.queue = []) : (s.readPart rs e).Kept := by
  have hpass : (if (fill rs []).1 = [] then some s else s.pass (fill rs []).1 e) = some s := by
    split
    · rfl
    · simp [pass, h.alone hc]
  simp only [readPart, hpass]
  split
  · next heof => exact endOfFile_kept h fun _ => hq heof
  · exact h

theorem eventFunc_kept {write read : Bool} {ws : List WriteResult} {rs : List FdRead} {e : Enqueue}
    (h : s.Kept) (hl : s.status = .live) (hk : s.kind = .fd)
    (hw : ¬ (s.closing = true ∧ write = true ∧ .wrote 0 ∈ ws))
    (hdrop : ¬ (read = true ∧ write = false ∧ s.queue ≠ [] ∧ (fill rs []).2 = true ∧
      (s.closing = true ∨ s.peer = .other ∧ e = .closesUs ∧ (fill rs []).1 ≠ []))) :
    (s.eventFunc write read ws rs e).Kept := by
  cases hcl : s.closing with
  | true =>
    cases write with
    | true =>
      obtain ⟨hkept, hret⟩ := writePart_closing h hl hcl fun h0 => hw ⟨hcl, rfl, h0⟩
      simpa [eventFunc, hret] using hkept
    | false =>
      cases read with
      | false => simpa [eventFunc] using h
      | true =>
        have hq : (fill rs []).2 = true → s.queue = [] := by
          intro heof
          by_contra hq
          exact hdrop ⟨rfl, rfl, hq, heof, .inl hcl⟩
        simpa [eventFunc] using readPart_closing h hcl hq
  | false =>
    have ho := h.isOpen hl hcl
    cases write with
    | true =>
      obtain ⟨hkept, hgo⟩ := writePart_open ws ho hk
      simp only [eventFunc, if_true]
      split
      · next hon =>
        obtain ⟨hopen, hq⟩ := hgo hon.1
        exact readPart_kept hopen fun hd => hd.1 hq
      · exact hkept
    | false =>
      cases read with
      | false => simpa [eventFunc] using h
      | true =>
        have hrd := readPart_kept ho
          fun hd => hdrop ⟨rfl, rfl, hd.1, hd.2.1, .inr ⟨hd.2.2.1, hd.2.2.2.1, hd.2.2.2.2⟩⟩
        simpa [eventFunc] using hrd

end Sock

/-! ## Runs -/

/-- The steps in which the event function does not drop what is queued. -/
def KeepsQueue (s : Sock) : Step → Prop
  | .dispatch ws rs e => ¬ s.Drops rs e ∧ ¬ s.WritesNothing ws
  | _ => True

instance (s : Sock) : ∀ l, Decidable (KeepsQueue s l)
  | .dispatch .. => inferInstanceAs (Decidable (¬ _ ∧ ¬ _))
  | .select .. | .okay .. | .wrte .. | .clse | .peerCloses | .peerEnqueue .. | .peerReady
  | .closeAll | .listUpdated .. => .isTrue trivial

theorem step_kept (s : Sock) (l : Step) (s' : Sock) (h : s.Kept) (hok : KeepsQueue s l)
    (hs : step s l = some s') : s'.Kept := by
  cases l with
  | select read write =>
    obtain ⟨-, rfl⟩ := step_stepsTo hs
    exact ⟨h.service, h.alone, h.left, h.settled⟩
  | dispatch ws rs e =>
    obtain ⟨⟨hl, hk, -⟩, rfl⟩ := step_stepsTo hs
    have hd : Sock.Kept { s with fde := s.fde.dequeue } :=
      ⟨h.service, h.alone, h.left, h.settled⟩
    exact Sock.eventFunc_kept hd hl hk hok.2 hok.1
  | okay own list =>
    obtain ⟨hl, rfl⟩ := step_stepsTo hs
    exact Sock.handleOkay_kept (h.isOpen hl.1 hl.2) own list
  | wrte data ws =>
    obtain ⟨hl, rfl⟩ := step_stepsTo hs
    exact Sock.handleWrte_kept (h.isOpen hl.1 hl.2) data ws
  | clse =>
    obtain ⟨hl, rfl⟩ := step_stepsTo hs
    exact Sock.close_kept (h.isOpen hl.1 hl.2)
  | peerCloses =>
    obtain ⟨⟨hl, -⟩, rfl⟩ := step_stepsTo hs
    exact Sock.peerCloses_kept (h.isOpen hl.1 hl.2)
  | peerEnqueue data ws =>
    obtain ⟨⟨hl, -⟩, rfl⟩ := step_stepsTo hs
    exact Sock.enqueue_kept (h.isOpen hl.1 hl.2) data ws
  | peerReady =>
    obtain ⟨⟨hl, -⟩, rfl⟩ := step_stepsTo hs
    exact Sock.ready_kept (h.isOpen hl.1 hl.2) []
  | closeAll =>
    obtain ⟨hl, rfl⟩ := step_stepsTo hs
    exact Sock.closeLocked_kept (h.isOpen hl.1 hl.2)
  | listUpdated list =>
    obtain ⟨-, rfl⟩ := step_stepsTo hs
    exact ⟨h.service, h.alone, h.left, h.settled⟩

theorem init_kept (start : Start) : (Sock.init start).Kept := by
  cases start <;> exact .of_notClosing rfl fun _ => rfl

/-- In a run in which the event function does not drop what is queued, a socket that was put on the
closing list is gone only after all of it was written, or a write failed. -/
theorem closing_settled (start : Start) (ls : List Step) (s : Sock)
    (hok : Lib.RunOk step KeepsQueue (Sock.init start) ls)
    (hrun : Lib.run step (Sock.init start) ls = some s) : s.Settled :=
  (Lib.run_invariant step_kept (init_kept start) hok hrun).settled

/-- A packet is queued, the other side closes the stream, and the packet is written. -/
theorem closing_settled_written : ∃ s, Lib.run step (Sock.init .service)
    [.wrte [1] [.again], .clse, .select false true, .dispatch [.wrote 1] [] .takes] = some s ∧
    s.closing = true ∧ s.status = .destroyed ∧ s.Settled :=
  ⟨_, rfl, rfl, rfl, closing_settled .service
    [.wrte [1] [.again], .clse, .select false true, .dispatch [.wrote 1] [] .takes] _
    (by decide +kernel) rfl⟩

/-- The service has ended, and its socket is both readable and writable in one round of `select`;
before its event function is called, the other side closes the stream. -/
theorem closing_dropped : ∃ s, Lib.run step (Sock.init .service)
    [.wrte [1] [.again], .select true true, .clse, .dispatch [] [.got []] .takes] = some s ∧
    s.closing = true ∧ s.status = .destroyed ∧ s.failed = false ∧ s.owed = [1] ∧ s.written = [] ∧
    ¬ s.Settled :=
  ⟨_, rfl, rfl, rfl, rfl, rfl, rfl, by decide +kernel⟩

end Twm.Adb.LocalSocket
