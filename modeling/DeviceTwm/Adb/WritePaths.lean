import Mathlib.Data.List.DropRight
import DeviceTwm.Adb.LocalSocket

/-!
# The two ways to write a packet

A packet for a socket with a descriptor is written by `local_socket_enqueue`, as far as that goes, and
the rest is left to the `FDE_WRITE` part of `local_socket_event_func`; or, when something is queued
already, all of it is left to that. `throughEnqueue` and `throughQueue` are the two ways, for the same
results of `adb_write` one after the other.

They do not always end alike: an interrupted write closes the socket on the first way and is tried
again on the second, and a socket that fails on the second way still has the packet in its queue, so it
goes to the list of closing sockets and the packet is tried again. `Alike` says for which results this
makes no difference (`throughEnqueue_iff`).
-/

namespace Twm.Adb.LocalSocket

open Sock

/-! ## One result after the other -/

/-- The loop of `local_socket_enqueue`: what is written, and the results that are left. -/
def pushOut : List WriteResult → APacket → List UInt8 × List WriteResult
  | [], _ => ([], [])
  | w :: ws, p =>
    if p.len = 0 then ([], w :: ws)
    else
      match fastWrite p w with
      | .more p' => (sent p w ++ (pushOut ws p').1, (pushOut ws p').2)
      | _ => ([], ws)

/-- The results that a call of `local_socket_event_func` leaves. -/
def drainLeft : List WriteResult → List APacket → List WriteResult
  | [], _ => []
  | w :: ws, q =>
    match q.dropWhile (·.len = 0) with
    | [] => w :: ws
    | p :: q =>
      match drainWrite p w with
      | .more p' => drainLeft ws (p' :: q)
      | _ => ws

/-- The `FDE_WRITE` part of `local_socket_event_func` is called as long as there is something in the
queue, here once for each result; with the bytes that are written. A call that goes on with the next
result does the same (`drainAll_call`). -/
def drainAll : List WriteResult → Sock → Sock × List UInt8
  | [], s => if s.status = .live ∧ s.queue ≠ [] then ((s.writePart []).2, []) else (s, [])
  | w :: ws, s =>
    if s.status = .live ∧ s.queue ≠ [] then
      let r := drainAll ws (s.writePart [w]).2
      (r.1, (drain [w] s.queue).2.1 ++ r.2)
    else (s, [])

namespace Sock

variable (s : Sock)

/-- The packet is given to `local_socket_enqueue`, and the rest of it is drained. -/
def throughEnqueue (data : List UInt8) (ws : List WriteResult) : Sock × List UInt8 :=
  let out := if s.queue = [] then pushOut ws (.full data) else ([], ws)
  let r := drainAll out.2 (s.enqueue data ws).2
  (r.1, out.1 ++ r.2)

/-- The packet is put in the queue, and drained. -/
def throughQueue (data : List UInt8) (ws : List WriteResult) : Sock × List UInt8 :=
  drainAll ws (s.queueTail (.full data))

end Sock

/-- The same bytes are written, and the socket is open after both or after none. -/
def Agree (a b : Sock × List UInt8) : Prop := a.2 = b.2 ∧ (a.1.Listed ↔ b.1.Listed)

instance (a b : Sock × List UInt8) : Decidable (Agree a b) := inferInstanceAs (Decidable (_ ∧ _))

/-! ## The results that do not tell the ways apart -/

/-- Nothing is written before a write fails, if one does. -/
def Silent : List WriteResult → Prop
  | [] | .wrote 0 :: _ | .fail :: _ => True
  | .wrote (_ + 1) :: _ => False
  | .again :: ws | .intr :: ws => Silent ws

/-- A write fails before anything is written, and after that nothing is written before the next
failure. -/
def SilentFail : List WriteResult → Prop
  | [] => False
  | .wrote 0 :: ws | .fail :: ws => Silent ws
  | .wrote (_ + 1) :: _ => False
  | .again :: ws | .intr :: ws => SilentFail ws

/-- For a packet with `len` bytes to go: before it is written whole or a write would block, no write
is interrupted or fails, or what follows is silent. When it is written whole there is a peer to be told. -/
def Alike (peer : Peer) : Nat → List WriteResult → Prop
  | 0, _ => peer ≠ .none
  | _ + 1, [] | _ + 1, .again :: _ => True
  | _ + 1, .wrote 0 :: ws | _ + 1, .fail :: ws => Silent ws
  | len + 1, .wrote (n + 1) :: ws => Alike peer (len - n) ws
  | _ + 1, .intr :: ws => SilentFail ws

/-! ## A call of the event function

Where one call of the `FDE_WRITE` part ends and the next begins does not matter. -/

/-- What the `FDE_WRITE` part makes of the socket, once its loops have ended like this. -/
def Sock.afterDrain (s : Sock) (t : List APacket × List UInt8 × Drained) : Sock :=
  let s := { s with queue := t.1, written := s.written ++ t.2.1 }
  match t.2.2 with
  | .blocked => s
  | .failed error => { s with failed := error }.close
  | .empty =>
    if s.closing then s.close
    else
      let s := { s with fde := s.fde.delWrite }
      match s.peer with
      | .none => { s with status := .crashed }
      | .remote => s.note .sentOkay
      | _ => s

theorem writePart_eq (s : Sock) (ws : List WriteResult) :
    (s.writePart ws).2 = s.afterDrain (drain ws s.queue) := by
  unfold writePart afterDrain
  generalize drain ws s.queue = t
  obtain ⟨q, out, d⟩ := t
  cases d with
  | blocked => rfl
  | failed error => rfl
  | empty =>
    dsimp only
    split
    · rfl
    · cases s.peer <;> rfl

/-- A part of the loops, and then the rest of them. -/
theorem afterDrain_trans (s : Sock) (q q' : List APacket) (out out' : List UInt8) (d : Drained) :
    (s.afterDrain (q, out, .blocked)).afterDrain (q', out', d) =
      s.afterDrain (q', out ++ out', d) := by
  simp only [afterDrain, List.append_assoc]

/-- Packets that are written whole are passed over. -/
theorem drain_dropWhile (ws : List WriteResult) (q : List APacket) :
    drain ws (q.dropWhile (·.len = 0)) = drain ws q ∧
      drainLeft ws (q.dropWhile (·.len = 0)) = drainLeft ws q := by
  have hidem := List.dropWhile_idempotent (fun p : APacket => decide (p.len = 0)) q
  cases ws with
  | nil => exact ⟨by simp only [drain, hidem], rfl⟩
  | cons w ws => exact ⟨by simp only [drain, hidem], by simp only [drainLeft, hidem]⟩

/-- With nothing more to come, the packets that are left are those with something to write. -/
theorem drain_nil (q : List APacket) :
    drain [] q = (q.dropWhile (·.len = 0), [],
      if q.dropWhile (·.len = 0) = [] then .empty else .blocked) := by
  rw [drain]
  split <;> simp_all

/-- Once the loops have come to the end of the queue, nothing more is written. -/
theorem drainAll_empty (s : Sock) (out : List UInt8) (ws : List WriteResult) :
    drainAll ws (s.afterDrain ([], out, .empty)) = (s.afterDrain ([], out, .empty), []) := by
  have hstop : ¬ ((s.afterDrain ([], out, .empty)).status = .live ∧
      (s.afterDrain ([], out, .empty)).queue ≠ []) := by
    unfold afterDrain
    dsimp only
    split
    · unfold close closeLocked
      split <;> simp
    · split <;> simp [note]
  cases ws <;> simp only [drainAll, if_neg hstop]

/-- With nothing in the queue to write, the loops end at once and use no result. -/
theorem drain_of_trim {q : List APacket} (h : q.dropWhile (·.len = 0) = [])
    (ws : List WriteResult) : drain ws q = ([], [], .empty) ∧ drainLeft ws q = ws := by
  cases ws <;> simp [drain, drainLeft, h]

/-- A call of the event function that goes on with the next result, and the calls after it. -/
theorem drainAll_call (ws : List WriteResult) (s : Sock) (hlive : s.status = .live)
    (hq : s.queue ≠ []) :
    drainAll ws s = ((drainAll (drainLeft ws s.queue) (s.writePart ws).2).1,
      (drain ws s.queue).2.1 ++ (drainAll (drainLeft ws s.queue) (s.writePart ws).2).2) := by
  induction ws generalizing s with
  | nil =>
    rw [drainAll, if_pos ⟨hlive, hq⟩]
    cases hd : s.queue.dropWhile (·.len = 0) with
    | nil =>
      obtain ⟨hdrain, hleft⟩ := drain_of_trim hd []
      rw [writePart_eq, hdrain, hleft, drainAll_empty]
      rfl
    | cons p r =>
      have hblock : drain [] s.queue = (p :: r, [], .blocked) := by simp [drain_nil, hd]
      have hagain : drain [] (p :: r) = (p :: r, [], .blocked) := by
        rw [← hd, (drain_dropWhile [] s.queue).1, hblock, hd]
      have hs : (s.afterDrain (p :: r, [], .blocked)).status = .live := hlive
      rw [writePart_eq, hblock, drainLeft, drainAll, if_pos ⟨hs, List.cons_ne_nil p r⟩, writePart_eq]
      rw [show (s.afterDrain (p :: r, [], .blocked)).queue = p :: r from rfl, hagain,
        afterDrain_trans]
      rfl
  | cons w ws ih =>
    rw [drainAll, if_pos ⟨hlive, hq⟩, writePart_eq, writePart_eq]
    cases hd : s.queue.dropWhile (·.len = 0) with
    | nil =>
      rw [(drain_of_trim hd [w]).1, (drain_of_trim hd (w :: ws)).1, (drain_of_trim hd (w :: ws)).2,
        drainAll_empty, drainAll_empty]
    | cons p r =>
      cases hw : drainWrite p w with
      | block => simp [drain, drainLeft, hd, hw]
      | close => simp [drain, drainLeft, hd, hw]
      | more p' =>
        have hone : drain [w] s.queue = ((p' :: r).dropWhile (·.len = 0), sent p w,
            if (p' :: r).dropWhile (·.len = 0) = [] then .empty else .blocked) := by
          rw [drain]
          simp only [hd, hw, drain_nil, List.append_nil]
        have hall : drain (w :: ws) s.queue = ((drain ws (p' :: r)).1,
            sent p w ++ (drain ws (p' :: r)).2.1, (drain ws (p' :: r)).2.2) := by
          rw [drain]
          simp only [hd, hw]
        have hleft : drainLeft (w :: ws) s.queue = drainLeft ws (p' :: r) := by
          rw [drainLeft]
          simp only [hd, hw]
        rw [hone, hall, hleft]
        cases ht : (p' :: r).dropWhile (·.len = 0) with
        | nil =>
          rw [(drain_of_trim ht ws).1, (drain_of_trim ht ws).2]
          simp only [if_true, List.append_nil]
        | cons p₁ r₁ =>
          -- the call goes on where the shorter one stopped
          have hgo := drain_dropWhile ws (p' :: r)
          rw [ht] at hgo
          rw [if_neg (List.cons_ne_nil p₁ r₁),
            ih (s.afterDrain (p₁ :: r₁, sent p w, .blocked)) hlive (List.cons_ne_nil p₁ r₁),
            writePart_eq]
          rw [show (s.afterDrain (p₁ :: r₁, sent p w, .blocked)).queue = p₁ :: r₁ from rfl,
            hgo.1, hgo.2, afterDrain_trans]
          simp only [List.append_assoc]

/-! ## What can be seen -/

/-- The bytes, and whether the socket is still open. -/
def seen (r : Sock × List UInt8) : List UInt8 × Bool := (r.2, decide r.1.Listed)

theorem agree_iff_seen (a b : Sock × List UInt8) : Agree a b ↔ seen a = seen b := by
  simp [Agree, seen, Prod.ext_iff]

/-- What is seen of the queue with the packet `p`, which has something to write. -/
def drained (peer : Peer) : List WriteResult → Bool → APacket → List UInt8 × Bool
  | [], closing, _ => ([], !closing)
  | .wrote 0 :: ws, closing, p | .fail :: ws, closing, p =>
    if closing then ([], false) else drained peer ws true p
  | .wrote (n + 1) :: ws, closing, p =>
    if p.len ≤ n + 1 then (p.bytes.take (n + 1), !closing && decide (peer ≠ .none))
    else
      (p.bytes.take (n + 1) ++ (drained peer ws closing (p.advance (n + 1))).1,
        (drained peer ws closing (p.advance (n + 1))).2)
  | .again :: ws, closing, p | .intr :: ws, closing, p => drained peer ws closing p

/-- What is seen of `local_socket_enqueue` and the calls after it. -/
def pushed (peer : Peer) : List WriteResult → APacket → List UInt8 × Bool
  | [], _ => ([], true)
  | .wrote 0 :: _, p | .fail :: _, p | .intr :: _, p => ([], decide (p.len = 0))
  | .wrote (n + 1) :: ws, p =>
    if p.len = 0 then ([], true)
    else
      (p.bytes.take (n + 1) ++ (pushed peer ws (p.advance (n + 1))).1,
        (pushed peer ws (p.advance (n + 1))).2)
  | .again :: ws, p => if p.len = 0 then ([], true) else drained peer ws false p

/-- A packet that is written whole. -/
theorem pushed_whole (peer : Peer) (ws : List WriteResult) {p : APacket} (hp : p.len = 0) :
    pushed peer ws p = ([], true) := by
  unfold pushed
  split <;> simp [hp]

/-- The socket has the packet `p` to write, and nothing else. -/
structure Holding (s : Sock) (closing : Bool) (p : APacket) : Prop where
  fd : s.kind = .fd
  live : s.status = .live
  closing : s.closing = closing
  queue : s.queue = [p]
  len : p.len ≠ 0

namespace Holding

variable {s : Sock} {closing : Bool} {p : APacket}

/-- One call, with one result that does not finish the packet. -/
theorem keep (h : Holding s closing p) {w : WriteResult} {p' : APacket} (hlen : p'.len ≠ 0)
    (hw : drain [w] [p] = ([p'], sent p w, .blocked)) :
    Holding (s.writePart [w]).2 closing p' ∧ (s.writePart [w]).2.peer = s.peer := by
  rw [writePart_eq, h.queue, hw]
  exact ⟨⟨h.fd, h.live, h.closing, rfl, hlen⟩, rfl⟩

/-- A write that fails: the socket goes to the closing list, or is gone when it was there. -/
theorem fail (h : Holding s closing p) {w : WriteResult} {error : Bool}
    (hw : drain [w] [p] = ([p], [], .failed error)) :
    if closing then (s.writePart [w]).2.status = .destroyed
    else Holding (s.writePart [w]).2 true p := by
  rw [writePart_eq, h.queue, hw]
  cases closing with
  | true => simp [afterDrain, close, closeLocked, h.fd, h.closing]
  | false =>
    have hc := h.closing
    simp only [Bool.false_eq_true, if_false]
    refine ⟨?_, ?_, ?_, ?_, h.len⟩ <;>
      simp [afterDrain, close, closeLocked, h.fd, h.closing, h.live]

/-- The write that finishes the packet. -/
theorem finish (h : Holding s closing p) {w : WriteResult}
    (hw : drain [w] [p] = ([], sent p w, .empty)) :
    (s.writePart [w]).2.queue = [] ∧
      decide (s.writePart [w]).2.Listed = (!closing && decide (s.peer ≠ .none)) := by
  rw [writePart_eq, h.queue, hw]
  cases closing with
  | true => simp [afterDrain, close, closeLocked, h.fd, h.closing, Sock.Listed]
  | false =>
    have hlive := h.live
    have hclosing := h.closing
    cases hp : s.peer <;> simp [afterDrain, hp, note, Sock.Listed, hlive, hclosing]

end Holding

/-- A socket that is gone, or has nothing to write, is left as it is. -/
theorem drainAll_stop {s : Sock} (h : s.status ≠ .live ∨ s.queue = []) (ws : List WriteResult) :
    drainAll ws s = (s, []) := by
  have hstop : ¬ (s.status = .live ∧ s.queue ≠ []) := by grind
  cases ws <;> simp only [drainAll, if_neg hstop]

/-- A call with one result, for a packet that has something to write. -/
theorem drain_single {p : APacket} (hp : p.len ≠ 0) (w : WriteResult) :
    drain [w] [p] = match drainWrite p w with
      | .more p' => if p'.len = 0 then ([], sent p w, .empty) else ([p'], sent p w, .blocked)
      | .block => ([p], [], .blocked)
      | .close => ([p], [], .failed (w = .fail)) := by
  have hd : [p].dropWhile (·.len = 0) = [p] := by simp [hp]
  rw [drain]
  simp only [hd]
  cases drainWrite p w with
  | block => rfl
  | close => rfl
  | more p' =>
    by_cases hp' : p'.len = 0 <;> simp [drain, hp']

/-- What is seen of a socket that has a packet to write depends on the packet, and on whether there is
a peer. -/
theorem drainAll_seen (ws : List WriteResult) {s : Sock} {closing : Bool} {p : APacket}
    (h : Holding s closing p) (peer : Peer) (hpeer : closing = false → s.peer = peer) :
    seen (drainAll ws s) = drained peer ws closing p := by
  induction ws generalizing s closing p with
  | nil =>
    have hblock : drain [] [p] = ([p], [], .blocked) := by
      simp [drain, h.len]
    have hopen : (s.afterDrain ([p], [], .blocked)).Listed ↔ closing = false := by
      simp [afterDrain, Sock.Listed, h.live, h.closing]
    rw [drainAll, if_pos ⟨h.live, by simp [h.queue]⟩, writePart_eq, h.queue, hblock, drained, seen]
    simp [hopen]
  | cons w ws ih =>
    have hd := drain_single h.len w
    rw [drainAll, if_pos ⟨h.live, by simp [h.queue]⟩]
    -- a result that leaves the packet as it is
    have hsame : drain [w] [p] = ([p], [], .blocked) → sent p w = [] →
        seen ((drainAll ws (s.writePart [w]).2).1, (drain [w] s.queue).2.1 ++
          (drainAll ws (s.writePart [w]).2).2) = drained peer ws closing p := by
      intro hw hsent
      obtain ⟨hnext, hp⟩ := h.keep h.len (w := w) (by rw [hw, hsent])
      rw [← ih hnext (fun hc => hp.trans (hpeer hc)), h.queue, hw]
      rfl
    have hfail : ∀ error, drain [w] [p] = ([p], [], .failed error) →
        seen ((drainAll ws (s.writePart [w]).2).1, (drain [w] s.queue).2.1 ++
          (drainAll ws (s.writePart [w]).2).2) =
            if closing then ([], false) else drained peer ws true p := by
      intro error hw
      have hnext := h.fail hw
      rw [h.queue, hw]
      cases closing with
      | true =>
        have hgone : (s.writePart [w]).2.status = .destroyed := hnext
        rw [drainAll_stop (.inl (by simp [hgone]))]
        simp [seen, Sock.Listed, hgone]
      | false => exact ih hnext (fun hc => nomatch hc)
    match w with
    | .again => exact hsame hd rfl
    | .intr => exact hsame (by simpa [drainWrite, h.len, sent] using hd) rfl
    | .fail => exact hfail _ hd
    | .wrote 0 => exact hfail _ hd
    | .wrote (n + 1) =>
      simp only [drainWrite, APacket.advance] at hd
      by_cases hn : p.len ≤ n + 1
      · rw [if_pos (by omega)] at hd
        obtain ⟨hempty, hopen⟩ := h.finish hd
        rw [drainAll_stop (.inr hempty), h.queue, hd, drained, if_pos hn, seen]
        simp only [hopen, sent, List.append_nil]
        cases closing with
        | true => rfl
        | false => rw [hpeer rfl]
      · rw [if_neg (by omega)] at hd
        have hlen : (p.advance (n + 1)).len ≠ 0 := by
          simp only [APacket.advance]
          omega
        obtain ⟨hnext, hp⟩ := h.keep hlen hd
        rw [drained, if_neg hn, ← ih hnext (fun hc => hp.trans (hpeer hc)), h.queue, hd]
        rfl

/-- What `local_socket_enqueue` makes of the socket, once its loop has ended like this. -/
def Sock.afterPush (s : Sock) : Pushed → Sock
  | .done => s
  | .backlog p => s.queueTail p
  | .failed => s.close

theorem enqueue_eq {s : Sock} (hk : s.kind = .fd) (hq : s.queue = []) (data : List UInt8)
    (ws : List WriteResult) : (s.enqueue data ws).2 = s.afterPush (push ws (.full data)) := by
  unfold enqueue
  rw [hk, if_pos hq]
  cases push ws (.full data) <;> rfl

theorem holding_queueTail {s : Sock} (hk : s.kind = .fd) (hopen : s.Listed) (hq : s.queue = [])
    {p : APacket} (hp : p.len ≠ 0) : Holding (s.queueTail p) false p :=
  ⟨hk, hopen.1, hopen.2, by simp [queueTail, hq], hp⟩

/-- What is seen of a packet that goes through `local_socket_enqueue`. -/
theorem pushed_seen (ws : List WriteResult) {s : Sock} (hk : s.kind = .fd) (hopen : s.Listed)
    (hq : s.queue = []) (p : APacket) :
    seen ((drainAll (pushOut ws p).2 (s.afterPush (push ws p))).1, (pushOut ws p).1 ++
      (drainAll (pushOut ws p).2 (s.afterPush (push ws p))).2) = pushed s.peer ws p := by
  have hstay : ∀ vs, drainAll vs s = (s, []) := drainAll_stop (.inr hq)
  have hgone : s.close.status = .destroyed := by simp [close, closeLocked, hk, hq]
  have hclosed : ∀ vs, seen (drainAll vs s.close) = ([], false) := by
    intro vs
    rw [drainAll_stop (.inl (by simp [hgone]))]
    simp [seen, Sock.Listed, hgone]
  induction ws generalizing p with
  | nil =>
    rw [push, pushOut, pushed]
    split
    · rw [afterPush, hstay]
      simp [seen, hopen]
    · rename_i hp
      exact drainAll_seen [] (holding_queueTail hk hopen hq hp) s.peer (fun _ => rfl)
  | cons w ws ih =>
    rw [push, pushOut]
    by_cases hp : p.len = 0
    · simp only [if_pos hp, afterPush, hstay, pushed_whole _ _ hp]
      simp [seen, hopen]
    · simp only [if_neg hp]
      match w with
      | .wrote 0 | .fail | .intr =>
        rw [pushed, decide_eq_false hp]
        exact hclosed ws
      | .again =>
        rw [pushed, if_neg hp]
        exact drainAll_seen ws (holding_queueTail hk hopen hq hp) s.peer (fun _ => rfl)
      | .wrote (n + 1) =>
        rw [pushed, if_neg hp, ← ih (p.advance (n + 1))]
        simp only [fastWrite, seen, sent, List.append_assoc]

/-! ## When the two ways agree -/

/-- All of the bytes that are left are there. -/
def Whole (p : APacket) : Prop := p.ptr + p.len = p.data.length

theorem take_ne_nil {p : APacket} (h : Whole p) (hp : p.len ≠ 0) (n : Nat) :
    p.bytes.take (n + 1) ≠ [] := by
  have hlen : (p.bytes.take (n + 1)).length ≠ 0 := by
    simp only [APacket.bytes, List.length_take, List.length_drop]
    unfold Whole at h
    omega
  intro hnil
  exact hlen (by rw [hnil]; rfl)

theorem whole_advance {p : APacket} (h : Whole p) {n : Nat} (hn : n ≤ p.len) :
    Whole (p.advance n) := by
  unfold Whole APacket.advance at *
  dsimp only
  omega

theorem drained_closing_iff (peer : Peer) (ws : List WriteResult) {p : APacket}
    (h : Whole p) (hp : p.len ≠ 0) : drained peer ws true p = ([], false) ↔ Silent ws := by
  induction ws with
  | nil => simp [drained, Silent]
  | cons w ws ih =>
    match w with
    | .wrote 0 | .fail => simp [drained, Silent]
    | .again | .intr => exact ih
    | .wrote (n + 1) =>
      have hne := take_ne_nil h hp n
      rw [drained, Silent]
      split <;> simp [hne]

theorem drained_open_iff (peer : Peer) (ws : List WriteResult) {p : APacket}
    (h : Whole p) (hp : p.len ≠ 0) :
    drained peer ws false p = ([], false) ↔ SilentFail ws := by
  induction ws with
  | nil => simp [drained, SilentFail]
  | cons w ws ih =>
    match w with
    | .wrote 0 | .fail => exact drained_closing_iff peer ws h hp
    | .again | .intr => exact ih
    | .wrote (n + 1) =>
      have hne := take_ne_nil h hp n
      rw [drained, SilentFail]
      split <;> simp [hne]

/-- What is seen on the two ways is the same for just these results. -/
theorem pushed_eq_iff (peer : Peer) (ws : List WriteResult) {p : APacket} (h : Whole p)
    (hp : p.len ≠ 0) : pushed peer ws p = drained peer ws false p ↔ Alike peer p.len ws := by
  induction ws generalizing p with
  | nil =>
    obtain ⟨len, hlen⟩ := Nat.exists_eq_succ_of_ne_zero hp
    simp [pushed, drained, hlen, Alike]
  | cons w ws ih =>
    obtain ⟨len, hlen⟩ := Nat.exists_eq_succ_of_ne_zero hp
    match w with
    | .again => simp [pushed, drained, hlen, Alike]
    | .wrote 0 | .fail =>
      rw [pushed, decide_eq_false hp, hlen]
      exact eq_comm.trans (drained_closing_iff peer ws h hp)
    | .intr =>
      rw [pushed, decide_eq_false hp, hlen]
      exact eq_comm.trans (drained_open_iff peer ws h hp)
    | .wrote (n + 1) =>
      have hadv : (p.advance (n + 1)).len = len - n := by
        simp only [APacket.advance]
        omega
      rw [pushed, if_neg hp, drained, hlen, Alike]
      by_cases hn : len + 1 ≤ n + 1
      · have hzero : len - n = 0 := by omega
        rw [if_pos hn, pushed_whole peer ws (hadv.trans hzero), hzero, Alike.eq_1]
        simp only [List.append_nil, Prod.mk.injEq, true_and, Bool.not_false, Bool.true_and]
        exact eq_comm.trans decide_eq_true_iff
      · have hnext := ih (whole_advance h (n := n + 1) (by omega)) (by omega)
        rw [if_neg hn, ← hadv, ← hnext]
        simp [Prod.ext_iff]

/-- A packet with nothing to write is passed over by the first call. -/
theorem throughQueue_nil {s : Sock} (hopen : s.Listed) (hq : s.queue = [])
    (ws : List WriteResult) : seen (s.throughQueue [] ws) = ([], decide (s.peer ≠ .none)) := by
  have hqueue : (s.queueTail (.full [])).queue = [.full []] := by simp [queueTail, hq]
  have htrim : (s.queueTail (.full [])).queue.dropWhile (·.len = 0) = [] := by
    rw [hqueue]
    rfl
  obtain ⟨hdrain, hleft⟩ := drain_of_trim htrim ws
  obtain ⟨hlive, hclosing⟩ := hopen
  rw [throughQueue, drainAll_call ws (s.queueTail (.full [])) hlive (by simp [hqueue]), writePart_eq,
    hdrain, hleft, drainAll_empty, seen]
  cases hp : s.peer <;> simp [afterDrain, queueTail, note, Sock.Listed, hlive, hclosing, hp]

/-- For an open socket with a descriptor, a packet that goes through `local_socket_enqueue` ends like
one that goes through the queue exactly when there is something in the queue already, or the results of
the writes are `Alike`. -/
theorem throughEnqueue_iff {s : Sock} (hk : s.kind = .fd) (hopen : s.Listed) (data : List UInt8)
    (ws : List WriteResult) :
    Agree (s.throughEnqueue data ws) (s.throughQueue data ws) ↔
      s.queue ≠ [] ∨ Alike s.peer data.length ws := by
  rw [agree_iff_seen]
  by_cases hq : s.queue = []
  · have hfast : seen (s.throughEnqueue data ws) = pushed s.peer ws (.full data) := by
      simp only [throughEnqueue, if_pos hq, enqueue_eq hk hq]
      exact pushed_seen ws hk hopen hq (.full data)
    have hwhole : Whole (.full data) := Nat.zero_add _
    have hlen : (APacket.full data).len = data.length := rfl
    rw [hfast, or_iff_right (by simp [hq])]
    by_cases hp : data.length = 0
    · obtain rfl := List.length_eq_zero_iff.mp hp
      rw [throughQueue_nil hopen hq, pushed_whole s.peer ws hlen, List.length_nil, Alike.eq_1]
      simp only [Prod.mk.injEq, true_and]
      exact eq_comm.trans decide_eq_true_iff
    · have hslow : seen (s.throughQueue data ws) = drained s.peer ws false (.full data) :=
        drainAll_seen ws (holding_queueTail hk hopen hq hp) s.peer (fun _ => rfl)
      rw [hslow]
      exact pushed_eq_iff s.peer ws hwhole hp
  · have hsame : s.throughEnqueue data ws = s.throughQueue data ws := by
      simp only [throughEnqueue, throughQueue, if_neg hq, enqueue, hk, List.nil_append]
    simp [hsame, hq]

theorem throughEnqueue_short :
    Agree ((Sock.init .service).throughEnqueue [1, 2, 3] [.wrote 1, .again, .intr, .wrote 2])
      ((Sock.init .service).throughQueue [1, 2, 3] [.wrote 1, .again, .intr, .wrote 2]) :=
  (throughEnqueue_iff rfl (by decide) _ _).mpr (.inr trivial)

/-- One interrupted write: the byte is lost and the socket is closed, or it is written. -/
theorem throughEnqueue_interrupted :
    ¬ Agree ((Sock.init .service).throughEnqueue [1] [.intr, .wrote 1])
      ((Sock.init .service).throughQueue [1] [.intr, .wrote 1]) := by
  decide

end Twm.Adb.LocalSocket
