import DeviceTwm.Adb.TransportList
import DeviceTwm.Adb.TransportRefs

/-!
# The descriptors of a transport

A transport with threads owns both ends of a socket pair: `transport_socket`, which the main
thread polls, and `fd`, which its threads read and write. A socket transport also owns `sfd`, the
connection to the other side. `kick`, `close` and the removal on the main thread share the work of
closing them.

* `closings`, `closed`: the descriptors that a step closes, and those that a run does.
* `Owed`: what the count of references says of `close` and of the removal message, in every run.
* `transportSocket_closed_once`, `two_le_count_fd`: what is closed in a run that frees the transport.
  The `remote_close` of a socket transport closes `fd`, and the removal closes it again.
* `closedOnce_iff`: so it is the USB transports whose descriptors are closed once, and only if both
  threads have left their loops when the removal is handled; `usb_closedOnce`: they have, where the
  transport is never unregistered.
-/

open Lib

namespace Twm.Adb

open Transports

/-- The descriptors of a transport. -/
inductive TransportFd
  | transportSocket
  | fd
  | sfd
  deriving DecidableEq

namespace TransportFd

/-- The descriptors that a transport owns. A USB transport has a handle in the place of `sfd`. -/
def owned (usb : Bool) : List TransportFd :=
  if usb then [.transportSocket, .fd] else [.transportSocket, .fd, .sfd]

/-- `remote_kick`: of `transport_usb.c` and of `transport_local.c`. -/
def remoteKick (usb : Bool) : List TransportFd := if usb then [] else [.sfd]

/-- `remote_close`: of `transport_usb.c` and of `transport_local.c`. -/
def remoteClose (usb : Bool) : List TransportFd := if usb then [] else [.fd]

/-- Action 0 of `transport_registration_func`: `fdevent_remove`, then `adb_close(t->fd)`. -/
def removal : List TransportFd := [.transportSocket, .fd]

/-- The step handles the removal of `t`. -/
def Removes (t : Nat) (s : Transports) (l : TStep) : Prop :=
  l = .handle ∧ s.main = none ∧ s.queue.head? = some (.remove t)

instance (t : Nat) (s : Transports) (l : TStep) : Decidable (Removes t s l) :=
  inferInstanceAs (Decidable (_ ∧ _ ∧ _))

/-- The descriptors of `t` that a step closes: by its calls of `kick` and of `close`, and as the
removal of `t`. -/
def closings (usb : Bool) (t : Nat) (s : Transports) (l : TStep) : List TransportFd :=
  match tstep s l with
  | none => []
  | some s' =>
    (List.replicate ((s'.tr t).kicks - (s.tr t).kicks) (remoteKick usb)).flatten ++
    (List.replicate ((s'.tr t).closes - (s.tr t).closes) (remoteClose usb)).flatten ++
    if Removes t s l then removal else []

/-- The descriptors of `t` that a run closes. -/
def closed (usb : Bool) (t : Nat) (s : Transports) : List TStep → List TransportFd
  | [] => []
  | l :: ls => closings usb t s l ++
    match tstep s l with
    | none => []
    | some s' => closed usb t s' ls

/-- A thread of the transport is in its loop, where it reads and writes `fd` and `sfd`. -/
def InLoop (t : Nat) (s : Transports) : Prop := s.pc t .input = .loop ∨ s.pc t .output = .loop

instance (t : Nat) (s : Transports) : Decidable (InLoop t s) :=
  inferInstanceAs (Decidable (_ ∨ _))

/-- The step closes no descriptor that a thread of the transport reads or writes. -/
def Undisturbed (usb : Bool) (t : Nat) (s : Transports) (l : TStep) : Prop :=
  (.fd ∈ closings usb t s l ∨ .sfd ∈ closings usb t s l) → ¬ InLoop t s

/-- Each descriptor is closed once in the run, and none while a thread uses it. -/
def ClosedOnce (usb : Bool) (t : Nat) (ls : List TStep) : Prop :=
  (∀ d ∈ owned usb, (closed usb t Transports.init ls).count d = 1) ∧
  RunOk tstep (Undisturbed usb t) Transports.init ls

/-- When the removal of `t` is handled, its threads have left their loops. -/
def LeftLoops (t : Nat) (s : Transports) (l : TStep) : Prop := Removes t s l → ¬ InLoop t s

instance (t : Nat) (s : Transports) (l : TStep) : Decidable (LeftLoops t s l) :=
  inferInstanceAs (Decidable (_ → _))

/-! ## Steps -/

/-- Steps at which no transport and no message changes. -/
def Moves : TStep → Prop
  | .leave .. | .kick .. | .unregister _ | .unregistered | .unregisterUsb _ => True
  | _ => False

section Steps

variable {s s' : Transports} {l : TStep}

theorem move_eq (hs : tstep s l = some s') (hl : Moves l) :
    s'.tr = s.tr ∧ s'.queue = s.queue := by
  cases l with
  | register | handle | agent | unregisterAll => cases hl
  | leave | kick | unregister | unregisterUsb =>
    obtain ⟨-, rfl⟩ := tstep_stepsTo hs
    exact ⟨rfl, rfl⟩
  | unregistered =>
    obtain ⟨u, -, -, rfl⟩ := tstep_stepsTo hs
    exact ⟨rfl, rfl⟩

end Steps

/-! ## References and the removal message -/

/-- The count of references, `close` and the removal message, in any run: also one that
unregisters the transport. -/
structure Owed (t : Nat) (s : Transports) : Prop where
  idle : ¬ (s.tr t).Threaded → (s.tr t).refCount ≤ 0 ∧ (s.tr t).closes = 0 ∧
    s.queue.count (.remove t) = 0 ∧ (s.tr t).phase ≠ .freed
  threads : (s.tr t).Threaded →
    (s.tr t).closes = (if (s.tr t).refCount ≤ 0 then 1 else 0) ∧
    s.queue.count (.remove t) + (if (s.tr t).phase = .freed then 1 else 0) = (s.tr t).closes
  queued : s.queue.count (.register t) = if (s.tr t).phase = .registered then 1 else 0

namespace Owed

variable {t : Nat} {s s' : Transports}

theorem init : Owed t Transports.init := by
  constructor <;> simp [Transports.init, Transport.Threaded]

/-- Steps that leave the references of `t` and its messages alone. -/
theorem frame (h : Owed t s) (hph : (s'.tr t).phase = (s.tr t).phase)
    (hno : (s'.tr t).noperm = (s.tr t).noperm) (hrc : (s'.tr t).refCount = (s.tr t).refCount)
    (hcl : (s'.tr t).closes = (s.tr t).closes)
    (hq : s'.queue.count (.register t) = s.queue.count (.register t))
    (hr : s'.queue.count (.remove t) = s.queue.count (.remove t)) : Owed t s' := by
  have hth : (s'.tr t).Threaded ↔ (s.tr t).Threaded := by
    simp only [Transport.Threaded, hph, hno]
  constructor
  · rw [hth, hrc, hcl, hr, hph]
    exact h.idle
  · rw [hth, hrc, hcl, hr, hph]
    exact h.threads
  · rw [hq, hph]
    exact h.queued

/-- Only the transports and the messages matter. -/
theorem congr (h : Owed t s) (htr : s'.tr = s.tr) (hq : s'.queue = s.queue) : Owed t s' :=
  h.frame (by rw [htr]) (by rw [htr]) (by rw [htr]) (by rw [htr]) (by rw [hq]) (by rw [hq])

/-- A kick does not touch the references. -/
theorem setTr_kick (h : Owed t s) (u : Nat) (k : Bool) (n : Nat) :
    Owed t (s.setTr u { s.tr u with kicked := k, kicks := n }) := by
  by_cases hu : t = u
  · subst hu
    refine h.frame ?_ ?_ ?_ ?_ rfl rfl <;> simp [setTr]
  · refine h.frame ?_ ?_ ?_ ?_ rfl rfl <;> simp [setTr, hu]

/-- Dropping a reference: the last of a transport with threads closes it and asks for its
removal. -/
theorem unref (h : Owed t s) (u : Nat) : Owed t (s.unref u) := by
  have hreg : (s.unref u).queue.count (.register t) = s.queue.count (.register t) := by
    simp only [Transports.unref, unrefMsgs, List.count_append]
    split <;> simp
  by_cases hu : u = t
  swap
  · have htr : (s.unref u).tr t = s.tr t := by simp [Transports.unref, setTr, Ne.symm hu]
    refine h.frame (by rw [htr]) (by rw [htr]) (by rw [htr]) (by rw [htr]) hreg ?_
    simp only [Transports.unref, unrefMsgs, List.count_append]
    split <;> simp [hu]
  subst hu
  obtain ⟨eph, eno, erc, ecl, -⟩ := unrefLocked_eq (s.tr u)
  have htr : (s.unref u).tr u = unrefLocked (s.tr u) := by simp [Transports.unref, setTr]
  have hth : ((s.unref u).tr u).Threaded ↔ (s.tr u).Threaded := by
    simp only [Transport.Threaded, htr, eph, eno]
  have hrem : (s.unref u).queue.count (.remove u) =
      s.queue.count (.remove u) + if (s.tr u).refCount - 1 = 0 then 1 else 0 := by
    simp only [Transports.unref, unrefMsgs, List.count_append]
    split <;> simp
  constructor
  · intro hn
    obtain ⟨hrc, hcl, hmsg, hph⟩ := h.idle (mt hth.mpr hn)
    have hlast : ¬ (s.tr u).refCount - 1 = 0 := by omega
    rw [htr, erc, ecl, eph, hrem, if_neg hlast, hcl, hmsg]
    exact ⟨by omega, rfl, rfl, hph⟩
  · intro ht
    obtain ⟨hcl, hmsg⟩ := h.threads (hth.mp ht)
    rw [htr, erc, ecl, eph, hrem]
    by_cases hlast : (s.tr u).refCount - 1 = 0
    · rw [if_neg (show ¬ (s.tr u).refCount ≤ 0 by omega)] at hcl
      rw [if_pos hlast, if_pos (by omega)]
      exact ⟨by omega, by omega⟩
    · have hsign : (s.tr u).refCount - 1 ≤ 0 ↔ (s.tr u).refCount ≤ 0 := by omega
      rw [if_neg hlast, Nat.add_zero, Nat.add_zero]
      simp only [hsign]
      exact ⟨hcl, hmsg⟩
  · rw [hreg, htr, eph]
    exact h.queued

theorem register (h : Owed t s) {u : Nat} {tcp noperm : Bool}
    (hs : tstep s (.register u tcp noperm) = some s') : Owed t s' := by
  obtain ⟨hf, rfl⟩ := tstep_stepsTo hs
  by_cases hu : u = t
  · subst hu
    have hnt : ¬ (s.tr u).Threaded := by simp [Transport.Threaded, hf]
    obtain ⟨hrc, hcl, hmsg, -⟩ := h.idle hnt
    have hq := h.queued
    rw [hf, if_neg (by decide)] at hq
    constructor
    · intro _
      simp [setTr, List.count_append, hrc, hcl, hmsg]
    · intro ht
      simp [setTr, Transport.Threaded] at ht
    · simp [setTr, hq]
  · refine h.frame ?_ ?_ ?_ ?_ ?_ ?_ <;> simp [setTr, Ne.symm hu, hu, List.count_append]

theorem start (h : Owed t s) {u : Nat} {q : List TMsg} (hq : s.queue = .register u :: q) :
    Owed t (Transports.start { s with queue := q } u) := by
  have hrem : q.count (.remove t) = s.queue.count (.remove t) := by
    rw [hq, List.count_cons_of_ne]
    simp
  unfold Transports.start
  by_cases hu : u = t
  · subst hu
    obtain ⟨hph, hreg⟩ := registered_of_head h.queued hq
    obtain ⟨hrc, hcl, hmsg, -⟩ := h.idle (by simp [Transport.Threaded, hph])
    by_cases hno : (s.tr u).noperm = true
    · constructor <;> simp [setTr, Transport.Threaded, hno, hrc, hcl, hrem, hmsg, hreg]
    · constructor <;> simp [setTr, setPc, Transport.Threaded, hno, hcl, hrem, hmsg, hreg]
  · have hreg : q.count (.register t) = s.queue.count (.register t) := by
      rw [hq, List.count_cons_of_ne]
      simpa using hu
    by_cases hno : (s.tr u).noperm = true
    · refine h.frame ?_ ?_ ?_ ?_ ?_ ?_ <;> simp [setTr, hno, Ne.symm hu, hreg, hrem]
    · refine h.frame ?_ ?_ ?_ ?_ ?_ ?_ <;> simp [setTr, setPc, hno, Ne.symm hu, hreg, hrem]

/-- The next message is the removal of `t`: it has its threads, is closed, and is not freed yet. -/
theorem head_remove (h : Owed t s) {q : List TMsg} (hq : s.queue = .remove t :: q) :
    (s.tr t).Threaded ∧ (s.tr t).phase ≠ .freed ∧ (s.tr t).closes = 1 ∧
      q.count (.remove t) = 0 := by
  have hcount : s.queue.count (.remove t) = q.count (.remove t) + 1 := by
    rw [hq, List.count_cons_self]
  have ht : (s.tr t).Threaded := by
    by_contra hn
    obtain ⟨-, -, hmsg, -⟩ := h.idle hn
    omega
  obtain ⟨hcl, hmsg⟩ := h.threads ht
  have hle : (s.tr t).closes ≤ 1 := by
    rw [hcl]
    split <;> omega
  refine ⟨ht, ?_, by omega, by omega⟩
  intro hf
  rw [if_pos hf] at hmsg
  omega

theorem remove (h : Owed t s) {u : Nat} {q : List TMsg} (hq : s.queue = .remove u :: q) :
    Owed t (Transports.remove { s with queue := q } u) := by
  have hreg : q.count (.register t) = s.queue.count (.register t) := by
    rw [hq, List.count_cons_of_ne]
    simp
  by_cases hu : u = t
  · subst hu
    obtain ⟨ht, hnf, hcl, hmsg⟩ := h.head_remove hq
    have hnr : (s.tr u).phase ≠ .registered := by
      rcases ht.1 with hp | hp <;> rw [hp] <;> decide
    have hrc := (h.threads ht).1
    have hqd := h.queued
    rw [← hreg, if_neg hnr] at hqd
    constructor
    · intro hn
      exact absurd ⟨.inr (by simp [Transports.remove, setTr]),
        by simpa [Transports.remove, setTr, unlink] using ht.2⟩ hn
    · intro _
      simpa [Transports.remove, setTr, unlink, hmsg, hcl] using hrc
    · simpa [Transports.remove, setTr, unlink] using hqd
  · have hrem : q.count (.remove t) = s.queue.count (.remove t) := by
      rw [hq, List.count_cons_of_ne]
      simpa using hu
    refine h.frame ?_ ?_ ?_ ?_ hreg hrem <;>
      simp [Transports.remove, setTr, unlink, Ne.symm hu]

theorem agentStep (h : Owed t s) {u : Nat} {a : Agent} (hs : s.agentStep u a = some s') :
    Owed t s' := by
  have hmove : ∀ {s : Transports} (pc : Pc), Owed t s → Owed t (s.setPc u a pc) :=
    fun _ h => h.congr rfl rfl
  simp only [Transports.agentStep] at hs
  split at hs
  · cases hs
    exact hmove _ h
  · split at hs
    · cases hs
      exact hmove _ h
    · cases hs
      exact hmove _ (h.setTr_kick u true _)
  · cases hs
    exact hmove _ (h.setTr_kick u _ _)
  · cases hs
    exact hmove _ (h.unref u)
  · cases hs

theorem dropTcp (h : Owed t s) (u : Nat) : Owed t (s.dropTcp u) := by
  refine Owed.unref ?_ u
  by_cases hk : (s.tr u).kicked = true
  · rw [if_pos hk]
    exact h.setTr_kick u _ _
  · rw [if_neg hk]
    exact h.setTr_kick u true _

theorem foldl_dropTcp (h : Owed t s) (ts : List Nat) :
    Owed t (ts.foldl Transports.dropTcp s) := by
  induction ts generalizing s with
  | nil => exact h
  | cons u ts ih => exact ih (h.dropTcp u)

/-- Every step keeps the account. -/
theorem step {l : TStep} (h : Owed t s) (hs : tstep s l = some s') : Owed t s' := by
  cases l with
  | register u tcp noperm => exact h.register hs
  | handle =>
    obtain ⟨-, u, q, ⟨hq, rfl⟩ | ⟨hq, rfl⟩⟩ := tstep_stepsTo hs
    · exact h.start hq
    · exact h.remove hq
  | agent u a => exact h.agentStep hs
  | unregisterAll fuel =>
    obtain ⟨-, ts, links, -, rfl⟩ := tstep_stepsTo hs
    have h₁ : Owed t { s with links := links } := h.congr rfl rfl
    exact h₁.foldl_dropTcp ts
  | leave | kick | unregister | unregistered | unregisterUsb =>
    obtain ⟨htr, hq⟩ := move_eq hs trivial
    exact h.congr htr hq

end Owed

/-! ## What a step closes -/

section Closings

variable {usb : Bool} {t : Nat} {d : TransportFd} {s s' : Transports} {l : TStep}

/-- A transport is freed by the step that removes it, and by no other. -/
theorem freed_step (h : Owed t s) (hs : tstep s l = some s') :
    (if (s'.tr t).phase = .freed then 1 else 0) =
      (if (s.tr t).phase = .freed then 1 else 0) + if Removes t s l then 1 else 0 := by
  have hkeep (hr : ¬ Removes t s l) (hph : (s'.tr t).phase = (s.tr t).phase) :
      (if (s'.tr t).phase = .freed then 1 else 0) =
        (if (s.tr t).phase = .freed then 1 else 0) + if Removes t s l then 1 else 0 := by
    rw [hph, if_neg hr, Nat.add_zero]
  have hother (hl : l ≠ .handle) : ¬ Removes t s l := fun hr => hl hr.1
  cases l with
  | register u tcp noperm =>
    obtain ⟨hf, rfl⟩ := tstep_stepsTo hs
    by_cases hu : t = u
    · subst hu
      rw [if_neg (hother (by simp))]
      simp [setTr, hf]
    · exact hkeep (hother (by simp)) (by simp [setTr, hu])
  | handle =>
    obtain ⟨hm, u, q, ⟨hq, rfl⟩ | ⟨hq, rfl⟩⟩ := tstep_stepsTo hs
    · have hr : ¬ Removes t s .handle := by simp [Removes, hq]
      have hph := start_phase { s with queue := q } u t
      by_cases hu : t = u
      · subst hu
        rw [if_pos rfl] at hph
        rw [if_neg hr, hph, (registered_of_head h.queued hq).1, if_neg (by decide), if_neg (by decide)]
      · rw [if_neg hu] at hph
        exact hkeep hr hph
    · by_cases hu : t = u
      · subst hu
        obtain ⟨-, hnf, -⟩ := h.head_remove hq
        have hr : Removes t s .handle := ⟨rfl, hm, by rw [hq]; rfl⟩
        rw [if_neg hnf, if_pos hr]
        simp [remove, setTr]
      · have hr : ¬ Removes t s .handle := by simp [Removes, hq, Ne.symm hu]
        exact hkeep hr (by simp [remove, setTr, unlink, hu])
  | agent u a => exact hkeep (hother (by simp)) ((Quiet.agentStep hs).phase t)
  | unregisterAll fuel =>
    obtain ⟨-, ts, links, -, rfl⟩ := tstep_stepsTo hs
    exact hkeep (hother (by simp)) ((Quiet.foldl_dropTcp ts).phase t)
  | leave | kick | unregister | unregistered | unregisterUsb =>
    obtain ⟨htr, -⟩ := move_eq hs trivial
    exact hkeep (hother (by simp)) (by rw [htr])

theorem count_closings (hs : tstep s l = some s') :
    (closings usb t s l).count d =
      ((s'.tr t).kicks - (s.tr t).kicks) * (remoteKick usb).count d +
      ((s'.tr t).closes - (s.tr t).closes) * (remoteClose usb).count d +
      if Removes t s l then removal.count d else 0 := by
  have hif : (if Removes t s l then removal else []).count d =
      if Removes t s l then removal.count d else 0 := by
    split <;> rfl
  simp only [closings, hs, List.count_append, List.count_flatten, List.map_replicate,
    List.sum_replicate_nat, hif]

/-- The socket that the main thread polls is closed by the removal. -/
theorem count_transportSocket (hs : tstep s l = some s') :
    (closings usb t s l).count .transportSocket = if Removes t s l then 1 else 0 := by
  rw [count_closings hs]
  cases usb <;> simp [remoteKick, remoteClose, removal]

/-- A USB transport closes both ends of its socket pair by the removal alone. -/
theorem closings_usb : closings true t s l = if Removes t s l then removal else [] := by
  unfold closings
  cases hs : tstep s l with
  | none =>
    have hr : ¬ Removes t s l := by
      rintro ⟨rfl, hm, hq⟩
      obtain ⟨q, hq⟩ : ∃ q, s.queue = .remove t :: q := by
        cases hsq : s.queue with
        | nil => simp [hsq] at hq
        | cons m q => simp_all
      simp [tstep, hm, handle, hq] at hs
    rw [if_neg hr]
  | some s' => simp [remoteKick, remoteClose]

theorem undisturbed_usb : Undisturbed true t s l ↔ LeftLoops t s l := by
  have hmem : (.fd ∈ closings true t s l ∨ .sfd ∈ closings true t s l) ↔ Removes t s l := by
    rw [closings_usb]
    by_cases hr : Removes t s l <;> simp [hr, removal]
  rw [Undisturbed, LeftLoops, hmem]

/-- A socket transport closes it by `remote_close` too. -/
theorem count_fd_socket (hs : tstep s l = some s') :
    (closings false t s l).count .fd =
      ((s'.tr t).closes - (s.tr t).closes) + if Removes t s l then 1 else 0 := by
  rw [count_closings hs]
  simp [remoteKick, remoteClose, removal]

end Closings

/-! ## What a run closes -/

section Runs

variable {usb : Bool} {t : Nat} {d : TransportFd} {s s' : Transports} {ls : List TStep}

/-- What a run closes is what its steps close, one after the other. -/
theorem count_closed_rec {P : Transports → Nat → Prop} (hnil : P s' 0)
    (hcons : ∀ s l s₁ n, Owed t s → tstep s l = some s₁ → P s₁ n →
      P s ((closings usb t s l).count d + n))
    (h : Owed t s) (hrun : run tstep s ls = some s') : P s ((closed usb t s ls).count d) := by
  induction ls generalizing s with
  | nil =>
    cases hrun
    exact hnil
  | cons l ls ih =>
    obtain ⟨s₁, h₁, h₂⟩ := Option.bind_eq_some_iff.mp hrun
    simp only [closed, h₁, List.count_append]
    exact hcons s l s₁ _ h h₁ (ih (h.step h₁) h₂)

/-- What each removal of `t` closes once, and no other step closes, is closed as often as the
transport is freed. -/
theorem count_closed (hd : ∀ s l s', tstep s l = some s' →
      (closings usb t s l).count d = if Removes t s l then 1 else 0)
    (h : Owed t s) (hrun : run tstep s ls = some s') :
    (if (s'.tr t).phase = .freed then 1 else 0) =
      (if (s.tr t).phase = .freed then 1 else 0) + (closed usb t s ls).count d := by
  refine count_closed_rec (P := fun s n => (if (s'.tr t).phase = .freed then 1 else 0) =
    (if (s.tr t).phase = .freed then 1 else 0) + n) rfl (fun s l s₁ n h h₁ hrest => ?_) h hrun
  have hstep := freed_step h h₁
  rw [hd s l s₁ h₁]
  omega

theorem count_closed_init (hd : ∀ s l s', tstep s l = some s' →
      (closings usb t s l).count d = if Removes t s l then 1 else 0)
    (hrun : run tstep Transports.init ls = some s') (hfreed : (s'.tr t).phase = .freed) :
    (closed usb t Transports.init ls).count d = 1 := by
  have hlife := count_closed hd .init hrun
  rw [if_pos hfreed] at hlife
  simpa [Transports.init] using hlife.symm

/-- A socket transport closes `fd` as often as `close` is called, and once more when it is freed. -/
theorem closes_add_freed_le (h : Owed t s) (hrun : run tstep s ls = some s') :
    (s'.tr t).closes + (if (s'.tr t).phase = .freed then 1 else 0) ≤
      (s.tr t).closes + (if (s.tr t).phase = .freed then 1 else 0) +
        (closed false t s ls).count .fd := by
  refine count_closed_rec (P := fun s n =>
    (s'.tr t).closes + (if (s'.tr t).phase = .freed then 1 else 0) ≤
      (s.tr t).closes + (if (s.tr t).phase = .freed then 1 else 0) + n)
    (Nat.le_refl _) (fun s l s₁ n h h₁ hrest => ?_) h hrun
  have hstep := freed_step h h₁
  rw [count_fd_socket h₁]
  omega

/-- Whatever the transport, the socket that the main thread polls is closed once in its life. -/
theorem transportSocket_closed_once (usb : Bool) (hrun : run tstep Transports.init ls = some s)
    (hfreed : (s.tr t).phase = .freed) :
    (closed usb t Transports.init ls).count .transportSocket = 1 :=
  count_closed_init (fun _ _ _ => count_transportSocket) hrun hfreed

/-- A socket transport closes `fd` twice in its life at least. -/
theorem two_le_count_fd (hrun : run tstep Transports.init ls = some s)
    (hfreed : (s.tr t).phase = .freed) (hno : (s.tr t).noperm = false) :
    2 ≤ (closed false t Transports.init ls).count .fd := by
  have hle := closes_add_freed_le (t := t) .init hrun
  have howed : Owed t s := run_keeps (fun _ _ _ h hs => h.step hs) Owed.init hrun
  obtain ⟨-, hmsg⟩ := howed.threads ⟨.inr hfreed, hno⟩
  have hinit : (Transports.init.tr t).closes = 0 ∧ (Transports.init.tr t).phase ≠ .freed :=
    ⟨rfl, by simp [Transports.init]⟩
  rw [if_pos hfreed] at hle hmsg
  rw [hinit.1, if_neg hinit.2] at hle
  omega

theorem closedOnce_usb (hrun : run tstep Transports.init ls = some s)
    (hfreed : (s.tr t).phase = .freed) (hok : RunOk tstep (LeftLoops t) Transports.init ls) :
    ClosedOnce true t ls := by
  refine ⟨fun d hd => ?_, hok.imp fun _ _ => undisturbed_usb.mpr⟩
  simp only [owned, if_true, List.mem_cons, List.not_mem_nil, or_false] at hd
  rcases hd with rfl | rfl
  · exact transportSocket_closed_once true hrun hfreed
  · have hstep : ∀ s l s', tstep s l = some s' →
        (closings true t s l).count .fd = if Removes t s l then 1 else 0 := by
      intro s l s' _
      rw [closings_usb]
      split <;> rfl
    exact count_closed_init hstep hrun hfreed

/-- The descriptors of a transport are closed once in its life, and not under its threads, if and
only if it is a USB transport whose threads have left their loops when its removal is handled. -/
theorem closedOnce_iff (usb : Bool) (hrun : run tstep Transports.init ls = some s)
    (hfreed : (s.tr t).phase = .freed) (hno : (s.tr t).noperm = false) :
    ClosedOnce usb t ls ↔ usb = true ∧ RunOk tstep (LeftLoops t) Transports.init ls := by
  constructor
  · rintro ⟨hcount, hok⟩
    cases usb with
    | false =>
      have hone := hcount .fd (by decide)
      have htwo := two_le_count_fd hrun hfreed hno
      omega
    | true => exact ⟨rfl, hok.imp fun _ _ => undisturbed_usb.mp⟩
  · rintro ⟨rfl, hok⟩
    exact closedOnce_usb hrun hfreed hok

/-- In a run that never unregisters `t`, the removal comes after both threads. -/
theorem leftLoops_of_allowed (hok : RunOk tstep (Allowed t) Transports.init ls) :
    RunOk tstep (LeftLoops t) Transports.init ls := by
  refine hok.imp_of_invariant (I := fun s => RefInv t s ∧ Owed t s)
    (fun _ _ _ h hl hs => ⟨h.1.step hl hs, h.2.step hs⟩) ?_ ⟨.init, .init⟩
  rintro s l ⟨href, howed⟩ - ⟨-, -, hq⟩
  obtain ⟨q, hq⟩ := List.head?_eq_some_iff.mp hq
  obtain ⟨hth, -, hcl, -⟩ := howed.head_remove hq
  obtain ⟨hin, hout⟩ := (href.counted hth).closed_iff.mp hcl
  rw [InLoop, hin, hout]
  decide

/-- So a USB transport that is never unregistered closes its descriptors once, whatever the order in
which its threads leave and others kick it. -/
theorem usb_closedOnce (hok : RunOk tstep (Allowed t) Transports.init ls)
    (hrun : run tstep Transports.init ls = some s) (hfreed : (s.tr t).phase = .freed) :
    ClosedOnce true t ls :=
  closedOnce_usb hrun hfreed (leftLoops_of_allowed hok)

end Runs

/-- The life of a USB transport, in the same steps as `bothExit`. -/
def usbExit : List TStep := .register 0 false false :: bothExit.tail

theorem closedOnce_iff_usbExit : ∃ s, run tstep Transports.init usbExit = some s ∧
    ClosedOnce true 0 usbExit :=
  ⟨_, rfl, (closedOnce_iff true rfl rfl rfl).mpr ⟨rfl, by decide⟩⟩

/-- The socket transport of `bothExit` closes `fd` in `remote_close`, and its removal closes it
again. -/
theorem socket_closed_twice : ∃ s, run tstep Transports.init bothExit = some s ∧
    (s.tr 0).Threaded ∧ (s.tr 0).phase = .freed ∧
    (closed false 0 Transports.init bothExit).count .fd = 2 ∧ ¬ ClosedOnce false 0 bothExit := by
  have htwo : (closed false 0 Transports.init bothExit).count .fd = 2 := by decide
  refine ⟨_, rfl, ⟨.inr rfl, rfl⟩, rfl, htwo, ?_⟩
  rintro ⟨hcount, -⟩
  have hone := hcount .fd (by decide)
  omega

/-- `unregister_transport` of a USB transport, whose input thread then ends first: the removal closes
`fd` while the output thread still writes it. -/
theorem usb_removed_under_thread : ∃ s,
    run tstep Transports.init (.register 0 false false :: disconnect.tail) = some s ∧
    Removes 0 s .handle ∧ s.pc 0 .output = .loop ∧ .fd ∈ closings true 0 s .handle :=
  ⟨_, rfl, by decide, rfl, by decide⟩

end TransportFd

end Twm.Adb
