import DeviceTwm.Adb.Stream

/-!
# Stream integrity

The bytes read from one descriptor are those written to the other one, followed by those on the way:
in the queue of the destination, in the packet that is being written, in flight, and in the packet
that is being read (`stream_integrity`).

* `Flow s d b`: this, with the bytes `b` in hand for the socket `d`, between the queue and what is in
  flight. One lemma for each thing that moves bytes.
* `Wired`: which thread is where, and what the packets in flight are.
-/

open Lib

namespace Twm.Adb.Stream

/-- The bytes that a thread is writing to a socket, without the queue. -/
def Pc.pushing (pc : Pc) (j : Side) : List UInt8 :=
  match pc with
  | .push d p _ => if d = j then p.bytes else []
  | _ => []

/-- The bytes that a thread has read from a socket and not passed on. -/
def Pc.filling (pc : Pc) (i : Side) : List UInt8 :=
  match pc with
  | .fill k buf => if k = i then buf else []
  | _ => []

/-- A socket without its flags. -/
def Sock.core (k : Sock) : Sock := { k with wantRead := false, wantWrite := false }

namespace Pair

variable (s : Pair)

/-- What the thread of a socket is writing to it. -/
def pushing (j : Side) : List UInt8 := (s.pc (s.thread j)).pushing j

/-- What the thread of a socket has read from it. -/
def filling (i : Side) : List UInt8 := (s.pc (s.thread i)).filling i

def queued (j : Side) : List UInt8 := (s.sock j).queue.flatMap APacket.bytes

/-- What the socket `i` has sent and the other has not handled yet. -/
def inFlight (i : Side) : List UInt8 := (s.chan i).flatMap Msg.payload

/-- The bytes for `j` that were read and are not written yet, the oldest first; `hand` is what is in
hand for it. -/
def onTheWay (j : Side) (hand : List UInt8) : List UInt8 :=
  s.queued j ++ s.pushing j ++ hand ++ s.inFlight (!j) ++ s.filling (!j)

/-- Nothing is lost, duplicated or reordered, with the bytes `b` in hand for `d`. -/
def Flow (d : Side) (b : List UInt8) : Prop :=
  ∀ j, (s.sock !j).read = (s.sock j).written ++ s.onTheWay j (if j = d then b else [])

variable {s}

@[simp] theorem sock_setPc (t : Side) (pc : Pc) (j : Side) :
    (s.setPc t pc).sock j = s.sock j := rfl

@[simp] theorem queued_setPc (t : Side) (pc : Pc) (j : Side) :
    (s.setPc t pc).queued j = s.queued j := rfl

@[simp] theorem inFlight_setPc (t : Side) (pc : Pc) (j : Side) :
    (s.setPc t pc).inFlight j = s.inFlight j := rfl

@[simp] theorem thread_setPc (t : Side) (pc : Pc) (j : Side) :
    (s.setPc t pc).thread j = s.thread j := rfl

@[simp] theorem sock_setSock (i : Side) (k : Sock) (j : Side) :
    (s.setSock i k).sock j = if j = i then k else s.sock j := by
  simp [setSock, Function.update_apply]

@[simp] theorem queued_setSock (i : Side) (k : Sock) (j : Side) :
    (s.setSock i k).queued j = if j = i then k.queue.flatMap APacket.bytes else s.queued j := by
  by_cases h : j = i <;> simp [queued, h]

@[simp] theorem pushing_setSock (i : Side) (k : Sock) (j : Side) :
    (s.setSock i k).pushing j = s.pushing j := rfl

@[simp] theorem filling_setSock (i : Side) (k : Sock) (j : Side) :
    (s.setSock i k).filling j = s.filling j := rfl

@[simp] theorem inFlight_setSock (i : Side) (k : Sock) (j : Side) :
    (s.setSock i k).inFlight j = s.inFlight j := rfl

@[simp] theorem thread_setSock (i : Side) (k : Sock) (j : Side) :
    (s.setSock i k).thread j = s.thread j := rfl

@[simp] theorem sock_send (i : Side) (m : Msg) (j : Side) : (s.send i m).sock j = s.sock j := rfl

@[simp] theorem queued_send (i : Side) (m : Msg) (j : Side) :
    (s.send i m).queued j = s.queued j := rfl

@[simp] theorem pushing_send (i : Side) (m : Msg) (j : Side) :
    (s.send i m).pushing j = s.pushing j := rfl

@[simp] theorem filling_send (i : Side) (m : Msg) (j : Side) :
    (s.send i m).filling j = s.filling j := rfl

@[simp] theorem inFlight_send (i : Side) (m : Msg) (j : Side) :
    (s.send i m).inFlight j = if j = i then s.inFlight j ++ m.payload else s.inFlight j := by
  by_cases h : j = i <;> simp [inFlight, send, h]

@[simp] theorem thread_send (i : Side) (m : Msg) (j : Side) :
    (s.send i m).thread j = s.thread j := rfl

@[simp] theorem pushing_setPc (t : Side) (pc : Pc) (j : Side) :
    (s.setPc t pc).pushing j = if s.thread j = t then pc.pushing j else s.pushing j := by
  by_cases h : s.thread j = t
  · simp [pushing, setPc, thread, ← h]
  · simp [pushing, setPc, thread] at h ⊢
    simp [h]

@[simp] theorem filling_setPc (t : Side) (pc : Pc) (i : Side) :
    (s.setPc t pc).filling i = if s.thread i = t then pc.filling i else s.filling i := by
  by_cases h : s.thread i = t
  · simp [filling, setPc, thread, ← h]
  · simp [filling, setPc, thread] at h ⊢
    simp [h]

theorem pushing_eq {t j : Side} {pc : Pc} (hpc : s.pc t = pc) (ht : s.thread j = t) :
    s.pushing j = pc.pushing j := by
  rw [pushing, ht, hpc]

theorem filling_eq {t i : Side} {pc : Pc} (hpc : s.pc t = pc) (ht : s.thread i = t) :
    s.filling i = pc.filling i := by
  rw [filling, ht, hpc]

/-- What a thread is writing stays when its place changes. -/
theorem pushing_setPc_of {t : Side} {pc : Pc} (hpc : s.pc t = pc) (pc' : Pc) (j : Side)
    (h : pc'.pushing j = pc.pushing j) : (s.setPc t pc').pushing j = s.pushing j := by
  rw [pushing_setPc]
  split
  · rw [pushing_eq hpc ‹_›, h]
  · rfl

theorem filling_setPc_of {t : Side} {pc : Pc} (hpc : s.pc t = pc) (pc' : Pc) (i : Side)
    (h : pc'.filling i = pc.filling i) : (s.setPc t pc').filling i = s.filling i := by
  rw [filling_setPc]
  split
  · rw [filling_eq hpc ‹_›, h]
  · rfl

end Pair

/-- There are two sockets. -/
theorem eq_or_eq_not : ∀ j d : Side, j = d ∨ j = !d := by decide

namespace Pair.Flow

variable {s s' : Pair} {t d i : Side} {b : List UInt8} {p : APacket} {caller : Caller}

theorem init (topology : Topology) (id : Side → Nat) (d : Side) :
    (Pair.init topology id).Flow d [] := by
  intro j
  simp [Pair.init, onTheWay, queued, pushing, inFlight, filling, Pc.pushing, Pc.filling]

/-- With nothing in hand it does not matter for whom. -/
theorem other (h : s.Flow d []) (d' : Side) : s.Flow d' [] := by
  intro j
  simpa using h j

/-- The flags of the sockets are not part of the stream. -/
theorem congr (h : s.Flow d b) (htop : s'.topology = s.topology) (hpc : s'.pc = s.pc)
    (hchan : s'.chan = s.chan) (hsock : ∀ i, (s'.sock i).core = (s.sock i).core) :
    s'.Flow d b := by
  intro j
  have hread : (s'.sock !j).core.read = (s.sock !j).core.read := by rw [hsock]
  have hwritten : (s'.sock j).core.written = (s.sock j).core.written := by rw [hsock]
  have hqueue : (s'.sock j).core.queue = (s.sock j).core.queue := by rw [hsock]
  simp only [Sock.core] at hread hwritten hqueue
  have hj := h j
  simp only [onTheWay, queued, pushing, inFlight, filling, thread, htop, hpc, hchan, hread,
    hwritten, hqueue] at hj ⊢
  exact hj

/-- A thread goes on with what it has. -/
theorem setPc (h : s.Flow d b) {pc : Pc}
    (hpc : ∀ j, pc.pushing j = (s.pc t).pushing j ∧ pc.filling j = (s.pc t).filling j) :
    (s.setPc t pc).Flow d b := by
  intro j
  have hj := h j
  rw [onTheWay, ← pushing_setPc_of rfl pc j (hpc j).1,
    ← filling_setPc_of rfl pc (!j) (hpc !j).2] at hj
  exact hj

/-- The packet of the fast path is taken in hand. -/
theorem grab (h : s.Flow d []) (hpc : s.pc t = .push d p caller) (ht : s.thread d = t) :
    (s.setPc t .idle).Flow d p.bytes := by
  intro j
  have hj := h j
  have hfill := filling_setPc_of hpc .idle (!j) rfl
  by_cases hjd : j = d
  · subst hjd
    simp only [onTheWay, if_true, pushing_eq hpc ht, hfill, pushing_setPc, ht] at hj ⊢
    simpa [Pc.pushing] using hj
  · have hpush := pushing_setPc_of hpc .idle j (by simp [Pc.pushing, Ne.symm hjd])
    simp only [onTheWay, if_neg hjd, hpush, hfill] at hj ⊢
    exact hj

/-- The packet in hand becomes the packet of the fast path. -/
theorem put (h : s.Flow d p.bytes) (hpc : s.pc t = .idle) (ht : s.thread d = t) :
    (s.setPc t (.push d p caller)).Flow d [] := by
  intro j
  have hj := h j
  have hfill := filling_setPc_of hpc (.push d p caller) (!j) rfl
  by_cases hjd : j = d
  · subst hjd
    simp only [onTheWay, if_true, pushing_eq hpc ht, hfill, pushing_setPc, ht] at hj ⊢
    simpa [Pc.pushing] using hj
  · have hpush := pushing_setPc_of hpc (.push d p caller) j
      (by simp [Pc.pushing, Ne.symm hjd])
    simp only [onTheWay, if_neg hjd, hpush, hfill] at hj ⊢
    exact hj

/-- The bytes that were read are taken in hand, when nothing is in flight before them. -/
theorem grabRead (h : s.Flow (!i) []) (hpc : s.pc t = .fill i b) (ht : s.thread i = t)
    (hchan : s.inFlight i = []) : (s.setPc t .idle).Flow (!i) b := by
  intro j
  have hj := h j
  have hpush := pushing_setPc_of hpc .idle j rfl
  by_cases hji : j = !i
  · subst hji
    simp only [onTheWay, if_true, Bool.not_not, filling_eq hpc ht, hpush, filling_setPc, ht,
      inFlight_setPc, hchan] at hj ⊢
    simpa [Pc.filling] using hj
  · have hij : i ≠ !j := by
      rintro rfl
      simp at hji
    have hfill := filling_setPc_of hpc .idle (!j) (by simp [Pc.filling, hij])
    simp only [onTheWay, if_neg hji, hpush, hfill] at hj ⊢
    exact hj

/-- More bytes are read. -/
theorem read (h : s.Flow d []) {buf : List UInt8} (hpc : s.pc t = .fill i buf)
    (ht : s.thread i = t) :
    ((s.setSock i { s.sock i with read := (s.sock i).read ++ b }).setPc t
      (.fill i (buf ++ b))).Flow d [] := by
  intro j
  have hj := h j
  let s₁ := s.setSock i { s.sock i with read := (s.sock i).read ++ b }
  have hpush : (s₁.setPc t (.fill i (buf ++ b))).pushing j = s.pushing j :=
    pushing_setPc_of (s := s₁) hpc _ j rfl
  rcases eq_or_eq_not j i with rfl | rfl
  · have hfill : (s₁.setPc t (.fill j (buf ++ b))).filling (!j) = s.filling (!j) :=
      filling_setPc_of (s := s₁) hpc _ (!j) (by simp [Pc.filling])
    rw [onTheWay, hpush, hfill]
    simpa [onTheWay, queued, s₁] using hj
  · simp only [Bool.not_not, onTheWay, filling_eq hpc ht, ite_self] at hj
    rw [onTheWay, hpush]
    simp [ht, hj, Pc.filling]

/-- A packet without payload is sent. -/
theorem sendOkay (h : s.Flow d b) (i : Side) (arg0 arg1 : Nat) :
    (s.send i (.okay arg0 arg1)).Flow d b := by
  intro j
  have hj := h j
  simpa [onTheWay, Msg.payload] using hj

/-- What was read is sent. -/
theorem sendWrte (h : s.Flow d []) (hpc : s.pc t = .fill i b) (ht : s.thread i = t)
    (arg0 arg1 : Nat) : ((s.send i (.wrte arg0 arg1 b)).setPc t .idle).Flow d [] := by
  intro j
  have hj := h j
  let s₁ := s.send i (.wrte arg0 arg1 b)
  have hpush : (s₁.setPc t .idle).pushing j = s.pushing j :=
    pushing_setPc_of (s := s₁) hpc _ j rfl
  rcases eq_or_eq_not j i with rfl | rfl
  · have hfill : (s₁.setPc t .idle).filling (!j) = s.filling (!j) :=
      filling_setPc_of (s := s₁) hpc _ (!j) (by simp [Pc.filling])
    rw [onTheWay, hpush, hfill]
    simpa [onTheWay, s₁] using hj
  · simp only [Bool.not_not, onTheWay, filling_eq hpc ht, ite_self] at hj
    rw [onTheWay, hpush]
    simp [ht, hj, Pc.filling, Msg.payload]

/-- A packet arrives, and its payload is in hand. -/
theorem pop (h : s.Flow i []) {m : Msg} {rest : List Msg} (hchan : s.chan (!i) = m :: rest) :
    ({ s with chan := Function.update s.chan (!i) rest } : Pair).Flow i m.payload := by
  intro j
  have hj := h j
  rcases eq_or_eq_not j i with rfl | rfl
  · simp only [onTheWay, inFlight, hchan, if_true] at hj
    simpa [onTheWay, queued, pushing, filling, inFlight, thread] using hj
  · simpa [onTheWay, queued, pushing, filling, inFlight, thread] using hj

/-- The packet in hand goes to the tail of the queue. -/
theorem queueTail (h : s.Flow d p.bytes) (hpush : s.pushing d = []) :
    (s.queueTail d p).Flow d [] := by
  intro j
  have hj := h j
  rcases eq_or_eq_not j d with rfl | rfl
  · simpa [onTheWay, Pair.queueTail, setQueue, wantWrite, hpush, queued] using hj
  · simpa [onTheWay, Pair.queueTail, setQueue, wantWrite] using hj

/-- Some of the bytes in hand are written. -/
theorem write {a : List UInt8} (h : s.Flow d (a ++ b)) (hqueue : (s.sock d).queue = [])
    (hpush : s.pushing d = []) : (s.write d a).Flow d b := by
  intro j
  have hj := h j
  rcases eq_or_eq_not j d with rfl | rfl
  · simpa [onTheWay, Pair.write, hpush, queued, hqueue] using hj
  · simpa [onTheWay, Pair.write] using hj

/-- The queue begins with other packets, and some bytes before them are written. -/
theorem drain {a : List UInt8} {q : List APacket} (h : s.Flow d [])
    (hq : s.queued d = a ++ q.flatMap APacket.bytes) : ((s.write d a).setQueue d q).Flow d [] := by
  intro j
  have hj := h j
  rcases eq_or_eq_not j d with rfl | rfl
  · simpa [onTheWay, Pair.write, setQueue, hq] using hj
  · simpa [onTheWay, Pair.write, setQueue] using hj

end Pair.Flow

/-! ## Threads and packets -/

/-- The socket that a thread works on. -/
def Pc.socket : Pc → Option Side
  | .idle => none
  | .drain i _ | .fill i _ => some i
  | .push d _ _ => some d

namespace Pair

structure Wired (s : Pair) : Prop where
  /-- The fast path is taken with an empty queue. -/
  empty : ∀ t d p caller, s.pc t = .push d p caller → (s.sock d).queue = []
  threads : ∀ t i, (s.pc t).socket = some i → s.thread i = t
  packets : ∀ t d p rid, s.pc t = .push d p (.packet rid) → s.topology = .remote
  direct : s.topology = .direct → ∀ i, s.chan i = []
  ids : ∀ i, (s.sock i).remoteId = (s.sock !i).id
  chan : ∀ i arg0 arg1 data, .wrte arg0 arg1 data ∈ s.chan i → arg1 = (s.sock !i).id

namespace Wired

variable {s : Pair} {t d i : Side}

theorem setPc (h : Wired s) {pc : Pc} (hsocket : ∀ i, pc.socket = some i → s.thread i = t)
    (hempty : ∀ d p caller, pc = .push d p caller → (s.sock d).queue = [])
    (hpacket : ∀ d p rid, pc = .push d p (.packet rid) → s.topology = .remote) :
    Wired (s.setPc t pc) := by
  refine ⟨fun u d p caller hu => ?_, fun u i hu => ?_, fun u d p rid hu => ?_, h.direct, h.ids,
    h.chan⟩
  · by_cases hut : u = t
    · subst hut
      simp only [Pair.setPc, Function.update_self] at hu
      exact hempty d p caller hu
    · simp only [Pair.setPc, Function.update_of_ne hut] at hu
      exact h.empty u d p caller hu
  · by_cases hut : u = t
    · subst hut
      simp only [Pair.setPc, Function.update_self] at hu
      exact hsocket i hu
    · simp only [Pair.setPc, Function.update_of_ne hut] at hu
      exact h.threads u i hu
  · by_cases hut : u = t
    · subst hut
      simp only [Pair.setPc, Function.update_self] at hu
      exact hpacket d p rid hu
    · simp only [Pair.setPc, Function.update_of_ne hut] at hu
      exact h.packets u d p rid hu

/-- A thread that is not in the fast path. -/
theorem setPc_plain (h : Wired s) {pc : Pc} (hpc : pc.socket = none ∨ pc.socket = some i)
    (ht : s.thread i = t) (hpush : ∀ d p caller, pc ≠ .push d p caller) :
    Wired (s.setPc t pc) := by
  refine h.setPc (fun j hj => ?_) (fun d p caller he => absurd he (hpush d p caller))
    fun d p rid he => absurd he (hpush d p _)
  rcases hpc with hn | hs
  · rw [hn] at hj
    cases hj
  · rw [hs] at hj
    cases hj
    exact ht

/-- A socket changes, and its queue only while no thread is in the fast path to it. -/
theorem setSock (h : Wired s) {k : Sock} (hid : k.id = (s.sock i).id)
    (hrid : k.remoteId = (s.sock i).remoteId)
    (hq : k.queue = (s.sock i).queue ∨ ∀ p caller, s.pc (s.thread i) ≠ .push i p caller) :
    Wired (s.setSock i k) := by
  have hids : ∀ j, ((s.setSock i k).sock j).id = (s.sock j).id ∧
      ((s.setSock i k).sock j).remoteId = (s.sock j).remoteId := by
    intro j
    by_cases hj : j = i <;> simp [hj, hid, hrid]
  refine ⟨fun u d p caller hu => ?_, h.threads, h.packets, h.direct, fun j => ?_,
    fun j arg0 arg1 data hm => ?_⟩
  · have hd := h.empty u d p caller hu
    by_cases hdi : d = i
    · subst hdi
      have hthread : s.thread d = u := by
        refine h.threads u d ?_
        rw [show s.pc u = _ from hu]
        rfl
      rcases hq with hq | hq
      · simpa [hq] using hd
      · rw [hthread] at hq
        exact absurd hu (hq p caller)
    · simpa [hdi] using hd
  · rw [(hids j).2, (hids !j).1]
    exact h.ids j
  · rw [(hids !j).1]
    exact h.chan j arg0 arg1 data hm

theorem send (h : Wired s) (htop : s.topology = .remote) {m : Msg}
    (hm : ∀ arg0 arg1 data, m = .wrte arg0 arg1 data → arg1 = (s.sock !i).id) :
    Wired (s.send i m) := by
  refine ⟨h.empty, h.threads, h.packets, fun hd => ?_, h.ids, fun j arg0 arg1 data hj => ?_⟩
  · rw [show s.topology = _ from hd] at htop
    cases htop
  · by_cases hji : j = i
    · subst hji
      simp only [Pair.send, Function.update_self, List.mem_append, List.mem_singleton] at hj
      rcases hj with hj | hj
      · exact h.chan j arg0 arg1 data hj
      · exact hm arg0 arg1 data hj.symm
    · simp only [Pair.send, Function.update_of_ne hji] at hj
      exact h.chan j arg0 arg1 data hj

theorem pop (h : Wired s) {m : Msg} {rest : List Msg} (hchan : s.chan i = m :: rest) :
    Wired { s with chan := Function.update s.chan i rest } := by
  have hsub : ∀ j m', m' ∈ Function.update s.chan i rest j → m' ∈ s.chan j := by
    intro j m' hm
    by_cases hji : j = i
    · subst hji
      rw [Function.update_self] at hm
      rw [hchan]
      exact List.mem_cons_of_mem _ hm
    · rwa [Function.update_of_ne hji] at hm
  refine ⟨h.empty, h.threads, h.packets, fun hd j => ?_, h.ids, fun j arg0 arg1 data hj => ?_⟩
  · refine List.eq_nil_iff_forall_not_mem.mpr fun m' hm => ?_
    have := hsub j m' hm
    rw [h.direct hd j] at this
    cases this
  · exact h.chan j arg0 arg1 data (hsub j _ hj)

theorem queueTail (h : Wired s) (p : APacket)
    (hpc : ∀ p caller, s.pc (s.thread d) ≠ .push d p caller) : Wired (s.queueTail d p) := by
  refine setSock ?_ rfl rfl (.inr hpc)
  exact setSock h rfl rfl (.inr hpc)

end Wired

/-! ## Steps -/

structure Inv (s : Pair) : Prop extends Wired s where
  flow : ∀ d, s.Flow d []

theorem setPc_setPc (s : Pair) (t : Side) (pc pc' : Pc) :
    (s.setPc t pc).setPc t pc' = s.setPc t pc' := by
  simp [setPc]

theorem write_nil (s : Pair) (i : Side) : s.write i [] = s := by
  simp [write, setSock]

namespace Inv

variable {s s' : Pair} {t d i : Side} {p : APacket} {caller : Caller}

theorem init (topology : Topology) (id : Side → Nat) : Inv (Pair.init topology id) where
  empty := by simp [Pair.init]
  threads := by simp [Pair.init, Pc.socket]
  packets := by simp [Pair.init]
  direct := by simp [Pair.init]
  ids := by simp [Pair.init]
  chan := by simp [Pair.init]
  flow := Flow.init topology id

/-- A thread that keeps what it has, outside the fast path. -/
theorem setPc (h : Inv s) {pc : Pc} (hpc : pc.socket = none ∨ pc.socket = some i)
    (ht : s.thread i = t) (hpush : ∀ d p caller, pc ≠ .push d p caller)
    (hkeep : ∀ j, pc.pushing j = (s.pc t).pushing j ∧ pc.filling j = (s.pc t).filling j) :
    Inv (s.setPc t pc) :=
  ⟨h.toWired.setPc_plain hpc ht hpush, fun d => (h.flow d).setPc hkeep⟩

/-- The flags of a socket. -/
theorem flags (h : Inv s) (i : Side) (r w : Bool) :
    Inv (s.setSock i { s.sock i with wantRead := r, wantWrite := w }) := by
  refine ⟨h.toWired.setSock rfl rfl (.inl rfl), fun d => (h.flow d).congr rfl rfl rfl fun j => ?_⟩
  by_cases hj : j = i <;> simp [hj, Sock.core]

theorem sendOkay (h : Inv s) (htop : s.topology = .remote) (i : Side) (arg0 arg1 : Nat) :
    Inv (s.send i (.okay arg0 arg1)) :=
  ⟨h.toWired.send htop (fun _ _ _ he => nomatch he), fun d => (h.flow d).sendOkay i arg0 arg1⟩

/-- The caller of `enqueue` goes on. -/
theorem enqueued (h : Inv (s.setPc t .idle)) (backlog : Bool)
    (hcaller : ∀ rid, caller = .packet rid → s.topology = .remote)
    (hopen : (s.enqueued t d backlog caller).closed = false) :
    Inv (s.enqueued t d backlog caller) := by
  cases caller with
  | event i eof =>
    cases eof with
    | true => simp [Pair.enqueued, close] at hopen
    | false =>
      cases backlog with
      | false => exact h
      | true => exact h.flags i false ((s.sock i).wantWrite)
  | packet rid =>
    cases backlog with
    | true => exact h
    | false => exact h.sendOkay (hcaller rid rfl) d (s.sock d).id rid

/-- `enqueue` with a packet in hand, after which the thread has nothing left. -/
theorem enqueue {data : List UInt8} (hw : Wired (s.setPc t .idle))
    (hflow : (s.setPc t .idle).Flow d data) (ht : s.thread d = t)
    (hcaller : ∀ rid, caller = .packet rid → s.topology = .remote)
    (hopen : (s.enqueue t d data caller).closed = false) :
    Inv (s.enqueue t d data caller) := by
  have hidle : (s.setPc t .idle).pc t = .idle := by simp [Pair.setPc]
  unfold Pair.enqueue at hopen ⊢
  split at hopen
  · rename_i hq
    rw [if_pos hq, ← setPc_setPc s t .idle]
    refine ⟨hw.setPc ?_ ?_ ?_, fun d' => ?_⟩
    · rintro j ⟨⟩
      exact ht
    · rintro d p caller ⟨⟩
      exact hq
    · rintro d p rid ⟨⟩
      exact hcaller rid rfl
    · refine Flow.other (d := d) (Flow.put ?_ hidle ht) d'
      rw [APacket.bytes_full]
      exact hflow
  · rename_i hq
    rw [if_neg hq]
    refine enqueued ?_ true hcaller hopen
    have hpush : (s.setPc t .idle).pushing d = [] := pushing_eq hidle ht
    have hflow' : (s.setPc t .idle).Flow d (APacket.full data).bytes := by
      rw [APacket.bytes_full]
      exact hflow
    refine ⟨hw.queueTail _ fun p caller hp => ?_, fun d' => (hflow'.queueTail hpush).other d'⟩
    rw [thread_setPc, ht, hidle] at hp
    cases hp

/-- A round of the fast path. -/
theorem pushStep (h : Inv s) (hpc : s.pc t = .push d p caller) (w : WriteResult)
    (hopen : (s.pushStep t d p caller w).closed = false) : Inv (s.pushStep t d p caller w) := by
  have ht : s.thread d = t := h.threads t d (by rw [hpc]; rfl)
  have hq : (s.sock d).queue = [] := h.empty t d p caller hpc
  have hcaller : ∀ rid, caller = .packet rid → s.topology = .remote := by
    rintro rid rfl
    exact h.packets t d p rid hpc
  have hidle : (s.setPc t .idle).pc t = .idle := by simp [Pair.setPc]
  have hpush : (s.setPc t .idle).pushing d = [] := pushing_eq hidle ht
  -- The packet is taken in hand.
  have hw : Wired (s.setPc t .idle) :=
    h.toWired.setPc_plain (.inl rfl) ht fun _ _ _ he => nomatch he
  have hflow : (s.setPc t .idle).Flow d p.bytes := (h.flow d).grab hpc ht
  unfold Pair.pushStep at hopen ⊢
  split at hopen
  · rename_i hlen
    rw [if_pos hlen]
    rw [APacket.bytes_of_len hlen] at hflow
    exact enqueued ⟨hw, fun d' => hflow.other d'⟩ false hcaller hopen
  rename_i hlen
  rw [if_neg hlen]
  dsimp only at hopen ⊢
  split at hopen
  · rename_i p' hv
    rw [← setPc_setPc _ t .idle]
    have hw' : Wired ((s.setPc t .idle).write d (sent p w)) := hw.setSock rfl rfl (.inl rfl)
    rw [← fastWrite_more hv] at hflow
    have hflow' := hflow.write hq hpush
    refine ⟨hw'.setPc ?_ ?_ ?_, fun d' => (hflow'.put hidle ht).other d'⟩
    · rintro j ⟨⟩
      exact ht
    · rintro d p caller ⟨⟩
      simpa [Pair.write] using hq
    · rintro d p rid ⟨⟩
      exact hcaller rid rfl
  · rename_i hv
    rw [fastWrite_block hv, write_nil] at hopen ⊢
    refine enqueued (s := s.queueTail d p) ?_ true hcaller hopen
    refine ⟨hw.queueTail p fun p caller hp => ?_, fun d' => (hflow.queueTail hpush).other d'⟩
    rw [thread_setPc, ht, hidle] at hp
    cases hp
  · simp [close] at hopen

/-- The socket of a thread that is not in the fast path may change its queue. -/
theorem setQueue (h : Inv s) {a : List UInt8} {q : List APacket}
    (hpc : ∀ p caller, s.pc (s.thread i) ≠ .push i p caller)
    (hq : s.queued i = a ++ q.flatMap APacket.bytes) : Inv ((s.write i a).setQueue i q) := by
  refine ⟨?_, fun d => ((h.flow i).drain hq).other d⟩
  have hw : Wired (s.write i a) := h.toWired.setSock rfl rfl (.inl rfl)
  exact hw.setSock rfl rfl (.inr hpc)

/-- A round of the `FDE_WRITE` part. -/
theorem drainStep (h : Inv s) {read : Bool} (hpc : s.pc t = .drain i read) (w : WriteResult)
    (hopen : (s.drainStep t i read w).closed = false) : Inv (s.drainStep t i read w) := by
  have ht : s.thread i = t := h.threads t i (by rw [hpc]; rfl)
  have hno : ∀ p caller, s.pc (s.thread i) ≠ .push i p caller := by
    rw [ht, hpc]
    exact fun _ _ he => nomatch he
  have hidle : ∀ j, Pc.idle.pushing j = (s.pc t).pushing j ∧
      Pc.idle.filling j = (s.pc t).filling j := by
    rw [hpc]
    exact fun j => ⟨rfl, rfl⟩
  unfold Pair.drainStep at hopen ⊢
  split at hopen
  · have h₁ : Inv ((s.wantWrite i false).peerReady i) := by
      have hf : Inv (s.wantWrite i false) := h.flags i (s.sock i).wantRead false
      unfold peerReady
      split
      · exact hf.flags (!i) true _
      · exact hf.sendOkay ‹_› i _ _
    have hpc₁ : ((s.wantWrite i false).peerReady i).pc = s.pc ∧
        ((s.wantWrite i false).peerReady i).thread i = s.thread i := by
      unfold peerReady
      split <;> exact ⟨rfl, rfl⟩
    cases read with
    | false =>
      refine h₁.setPc (.inl rfl) (hpc₁.2.trans ht) (fun _ _ _ he => nomatch he) ?_
      rw [hpc₁.1]
      exact hidle
    | true =>
      refine h₁.setPc (.inr rfl) (hpc₁.2.trans ht) (fun _ _ _ he => nomatch he) ?_
      rw [hpc₁.1, hpc]
      exact fun j => ⟨rfl, by simp [Pc.filling]⟩
  rename_i p q hq
  split at hopen
  · rename_i hlen
    have h₁ := h.setQueue (a := []) (q := q) hno
      (by simp [queued, hq, APacket.bytes_of_len hlen])
    rw [write_nil] at h₁
    rwa [if_pos hlen]
  rename_i hlen
  rw [if_neg hlen]
  dsimp only at hopen ⊢
  split at hopen
  · rename_i p' hv
    refine h.setQueue hno ?_
    simp [queued, hq, ← drainWrite_more hv]
  · rename_i hv
    rw [drainWrite_block hv, write_nil]
    exact h.setPc (.inl rfl) ht (fun _ _ _ he => nomatch he) hidle
  · simp [close] at hopen

/-- The packet that was read goes to the peer. -/
theorem readDone (h : Inv s) {buf : List UInt8} (hpc : s.pc t = .fill i buf) (eof : Bool)
    (hopen : (s.readDone t i buf eof).closed = false) : Inv (s.readDone t i buf eof) := by
  have ht : s.thread i = t := h.threads t i (by rw [hpc]; rfl)
  have hw : Wired (s.setPc t .idle) :=
    h.toWired.setPc_plain (.inl rfl) ht fun _ _ _ he => nomatch he
  unfold Pair.readDone at hopen ⊢
  split at hopen
  · rename_i hbuf
    split at hopen
    · simp [close] at hopen
    · rename_i heof
      rw [if_pos hbuf, if_neg heof]
      refine h.setPc (.inl rfl) ht (fun _ _ _ he => nomatch he) fun j => ?_
      rw [hpc, hbuf]
      exact ⟨rfl, by simp [Pc.filling]⟩
  rename_i hbuf
  rw [if_neg hbuf]
  split at hopen
  · rename_i htop
    have hthread : s.thread (!i) = t := by
      rw [← ht]
      simp [thread, htop]
    have hflow : (s.setPc t .idle).Flow (!i) buf :=
      (h.flow (!i)).grabRead hpc ht (by simp [inFlight, h.direct htop i])
    exact enqueue hw hflow hthread (fun _ he => nomatch he) hopen
  · rename_i htop
    refine enqueued ⟨?_, fun d => (h.flow d).sendWrte hpc ht _ _⟩ true (fun _ he => nomatch he) hopen
    refine hw.send htop ?_
    rintro arg0 arg1 data ⟨⟩
    exact h.ids i

/-- A round of the loop over `adb_read`. -/
theorem fillStep (h : Inv s) {buf : List UInt8} (hpc : s.pc t = .fill i buf) {r : FdRead}
    (hs : s.fillStep t i buf r = some s') (hopen : s'.closed = false) : Inv s' := by
  have ht : s.thread i = t := h.threads t i (by rw [hpc]; rfl)
  unfold Pair.fillStep at hs
  split at hs
  · cases hs
    exact h.readDone hpc false hopen
  split at hs
  · cases hs
    exact h.readDone hpc true hopen
  · cases hs
    exact h.readDone hpc true hopen
  · split at hs
    swap
    · cases hs
    cases hs
    refine ⟨?_, fun d => (h.flow d).read hpc ht⟩
    refine Wired.setPc_plain ?_ (.inr rfl) ht fun _ _ _ he => nomatch he
    exact h.toWired.setSock rfl rfl (.inl rfl)
  · cases hs
    exact h.readDone hpc false hopen
  · cases hs
    exact h

/-- `handle_packet`. -/
theorem handle (h : Inv s) (htop : s.topology = .remote) (hpc : s.pc i = .idle)
    (hs : s.handle i = some s') (hopen : s'.closed = false) : Inv s' := by
  unfold Pair.handle at hs
  split at hs
  · cases hs
  rename_i m rest hchan
  have hw := h.toWired.pop hchan
  have hflow := (h.flow i).pop hchan
  generalize hs₁ : ({ s with chan := Function.update s.chan (!i) rest } : Pair) = s₁ at *
  have hpc₁ : s₁.pc i = .idle := by
    rw [← hs₁]
    exact hpc
  have htop₁ : s₁.topology = .remote := by
    rw [← hs₁]
    exact htop
  have hself : s₁.setPc i .idle = s₁ := by
    simp [Pair.setPc, ← hpc₁]
  cases m with
  | okay arg0 arg1 =>
    cases hs
    have h₁ : Inv s₁ := ⟨hw, fun d => hflow.other d⟩
    split
    · exact h₁.flags i true _
    · exact h₁
  | wrte arg0 arg1 data =>
    cases hs
    have harg : arg1 = (s₁.sock i).id := by
      have := h.chan (!i) arg0 arg1 data (by rw [hchan]; exact List.mem_cons_self)
      rw [this, Bool.not_not, ← hs₁]
    rw [if_pos harg] at hopen ⊢
    refine enqueue (hself.symm ▸ hw) (hself.symm ▸ hflow) ?_ (fun _ _ => htop₁) hopen
    simp [thread, htop₁]

/-- Every step keeps the invariant, as long as neither side is closed. -/
theorem step {l : SStep} (h : Inv s) (hs : sstep s l = some s') (hopen : s'.closed = false) :
    Inv s' := by
  unfold sstep at hs
  split at hs
  · cases hs
  cases l with
  | event i write read =>
    dsimp only at hs
    split at hs
    swap
    · cases hs
    rename_i hpc
    cases hs
    refine h.setPc (i := i) ?_ rfl ?_ fun j => ?_
    · cases write <;> cases read <;> simp [Pc.socket]
    · cases write <;> cases read <;> simp
    · rw [hpc]
      cases write <;> cases read <;> simp [Pc.pushing, Pc.filling]
  | handle i =>
    dsimp only at hs
    split at hs
    · rename_i hg
      exact h.handle hg.1 hg.2 hs hopen
    · cases hs
  | thread t w r =>
    dsimp only at hs
    split at hs
    · cases hs
    · rename_i hpc
      split at hs
      · cases hs
        exact h.drainStep hpc w hopen
      · cases hs
    · rename_i hpc
      exact h.fillStep hpc hs hopen
    · rename_i hpc
      split at hs
      · cases hs
        exact h.pushStep hpc w hopen
      · cases hs
  | close =>
    cases hs
    cases hopen

end Inv

end Pair

/-- In every run between two sockets that are connected, directly or over a transport: as long as
neither is closed, the bytes read from one are those written to the other, followed by those in the
queue of the other, in the packet that is being handled, in flight, and in the packet that is being
read. -/
theorem stream_integrity (topology : Topology) (id : Side → Nat) (ls : List SStep) (s : Pair)
    (hrun : run sstep (Pair.init topology id) ls = some s) (hopen : s.closed = false) (i : Side) :
    (s.sock !i).written <+: (s.sock i).read ∧
      (s.sock i).read = (s.sock !i).written ++
        (s.queued (!i) ++ s.pushing (!i) ++ s.inFlight i ++ s.filling i) := by
  have hstep : ∀ s l s', (s.closed = false → s.Inv) → sstep s l = some s' →
      s'.closed = false → s'.Inv := by
    intro s l s' h hs hopen'
    have hclosed : s.closed = false := by
      by_contra hc
      simp [sstep, hc] at hs
    exact (h hclosed).step hs hopen'
  have hinv : s.Inv := run_keeps hstep (fun _ => .init topology id) hrun hopen
  have hflow := hinv.flow i (!i)
  rw [Bool.not_not] at hflow
  have heq : (s.sock i).read = (s.sock !i).written ++
      (s.queued (!i) ++ s.pushing (!i) ++ s.inFlight i ++ s.filling i) := by
    simpa [Pair.onTheWay] using hflow
  exact ⟨⟨_, heq.symm⟩, heq⟩

/-- Three bytes go over a transport, and the write of the last one would block. Then another byte is
read. -/
def shortWrite : List SStep :=
  [.event false false true, .thread false .again (.got [1, 2, 3]), .thread false .again .again,
    .handle true, .thread true (.wrote 2) .again, .thread true .again .again,
    .event false false true, .thread false .again (.got [4])]

theorem stream_integrity_shortWrite :
    ∃ s, run sstep (Pair.init .remote fun _ => 1) shortWrite = some s ∧ s.closed = false ∧
      (s.sock true).written = [1, 2] ∧ (s.sock false).read = [1, 2, 3, 4] ∧
      (s.sock false).read = (s.sock true).written ++
        (s.queued true ++ s.pushing true ++ s.inFlight false ++ s.filling false) :=
  ⟨_, rfl, rfl, rfl, rfl, (stream_integrity .remote (fun _ => 1) shortWrite _ rfl rfl false).2⟩

end Twm.Adb.Stream
