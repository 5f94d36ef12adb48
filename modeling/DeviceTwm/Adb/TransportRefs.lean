import DeviceTwm.Adb.Transport

/-!
# Transport references

The count starts at two, for the two threads, and each thread drops one on its way out. The two
`unregister` functions drop a third one: after `unregister_transport` the first thread that leaves
closes and removes the transport under the other one (`unref_under_thread`).

* `Allowed t`: no step of the run drops a reference of `t` for an `unregister` function.
* `RefInv`: then the count is the number of threads that have not dropped theirs.
* `unref_closes_once`: so the transport is closed and removed once, after both threads are done.
-/

open Lib

namespace Twm.Adb

open Transports

/-- What the count is for: `close` and `remove_transport` are called once, when both threads are
done with the transport, and the count is never negative. -/
structure Counted (s : Transports) (t : Nat) : Prop where
  nonneg : 0 ≤ (s.tr t).refCount
  removes : (s.tr t).removes = (s.tr t).closes
  once : (s.tr t).closes ≤ 1
  closed_iff : (s.tr t).closes = 1 ↔ s.pc t .input = .done ∧ s.pc t .output = .done

/-- The TCP transports that `unregister_all_tcp_transports` finds on the list. -/
def Transports.swept (s : Transports) (fuel : Nat) : List Nat :=
  ((s.sweep fuel s.links (s.links.next none)).map Prod.fst).getD []

/-- The steps that do not unregister `t`: no `unregister_transport` of `t`, and no
`unregister_all_tcp_transports` that finds `t`. -/
def Allowed (t : Nat) (s : Transports) : TStep → Prop
  | .unregister u => u ≠ t
  | .unregisterAll fuel => t ∉ s.swept fuel
  | _ => True

instance (t : Nat) (s : Transports) : (l : TStep) → Decidable (Allowed t s l)
  | .unregister u => inferInstanceAs (Decidable (u ≠ t))
  | .unregisterAll fuel => inferInstanceAs (Decidable (t ∉ s.swept fuel))
  | .register .. | .handle | .leave .. | .kick .. | .agent .. | .unregistered
  | .unregisterUsb .. => .isTrue trivial

/-- The reference that a thread holds. -/
def held (pc : Pc) : Int := if pc = .done then 0 else 1

/-- The transport has its threads. -/
def Transport.Threaded (tr : Transport) : Prop :=
  (tr.phase = .started ∨ tr.phase = .freed) ∧ tr.noperm = false

structure RefInv (t : Nat) (s : Transports) : Prop where
  /-- Without threads there is nobody at work, and no reference. -/
  idle : ¬ (s.tr t).Threaded → s.pc t .input = .away ∧ s.pc t .output = .away ∧
    (s.tr t).closes = 0 ∧ (s.tr t).removes = 0
  threads : (s.tr t).Threaded → s.pc t .input ≠ .away ∧ s.pc t .output ≠ .away ∧
    (s.tr t).refCount = held (s.pc t .input) + held (s.pc t .output) ∧
    (s.tr t).removes = (s.tr t).closes ∧
    (s.tr t).closes = if (s.tr t).refCount = 0 then 1 else 0
  unregister : s.pc t .unregister = .away
  /-- Other threads only kick. -/
  kickers : ∀ n, s.pc t (.kicker n) ≠ .unref
  queued : s.queue.count (.register t) = if (s.tr t).phase = .registered then 1 else 0
  removing : .remove t ∈ s.queue → (s.tr t).Threaded

/-- What dropping a reference does to a transport. -/
theorem unrefLocked_eq (tr : Transport) :
    (unrefLocked tr).phase = tr.phase ∧ (unrefLocked tr).noperm = tr.noperm ∧
    (unrefLocked tr).refCount = tr.refCount - 1 ∧
    (unrefLocked tr).closes = tr.closes + (if tr.refCount - 1 = 0 then 1 else 0) ∧
    (unrefLocked tr).removes = tr.removes + (if tr.refCount - 1 = 0 then 1 else 0) := by
  unfold unrefLocked
  by_cases h : tr.refCount - 1 = 0
  · by_cases hk : tr.kicked = true <;> simp [h, hk]
  · simp [h]

/-- The next message is the registration of `t`, and the messages are counted. -/
theorem registered_of_head {t : Nat} {s : Transports} {q : List TMsg}
    (hqueued : s.queue.count (.register t) = if (s.tr t).phase = .registered then 1 else 0)
    (hq : s.queue = .register t :: q) :
    (s.tr t).phase = .registered ∧ q.count (.register t) = 0 := by
  rw [hq, List.count_cons_self] at hqueued
  by_cases hph : (s.tr t).phase = .registered
  · rw [if_pos hph] at hqueued
    exact ⟨hph, by omega⟩
  · rw [if_neg hph] at hqueued
    omega

namespace RefInv

variable {t : Nat} {s s' : Transports}

theorem init : RefInv t Transports.init := by
  constructor <;> simp [Transports.init, Transport.Threaded]

/-- The invariant says that the references are counted. -/
theorem counted (h : RefInv t s) (ht : (s.tr t).Threaded) : Counted s t := by
  obtain ⟨-, -, hc, hr, hcl⟩ := h.threads ht
  unfold held at hc
  refine ⟨?_, hr, ?_, ?_⟩
  · split at hc <;> split at hc <;> omega
  · rw [hcl]
    split <;> omega
  · rw [hcl, hc]
    by_cases h₁ : s.pc t .input = .done <;> by_cases h₂ : s.pc t .output = .done <;>
      simp [h₁, h₂]

/-- Steps on other transports. -/
theorem frame (h : RefInv t s) (htr : s'.tr t = s.tr t) (hpc : s'.pc t = s.pc t)
    (hq : s'.queue.count (.register t) = s.queue.count (.register t))
    (hr : .remove t ∈ s'.queue → .remove t ∈ s.queue) : RefInv t s' := by
  constructor
  · rw [htr, hpc]
    exact h.idle
  · rw [htr, hpc]
    exact h.threads
  · rw [hpc]
    exact h.unregister
  · rw [hpc]
    exact h.kickers
  · rw [hq, htr]
    exact h.queued
  · intro hm
    rw [htr]
    exact h.removing (hr hm)

/-- An agent of another transport moves. -/
theorem setPc_ne (h : RefInv t s) {u : Nat} (hu : u ≠ t) (a : Agent) (pc : Pc) :
    RefInv t (s.setPc u a pc) :=
  h.frame rfl (by simp [setPc, Ne.symm hu]) rfl id

/-! ## Steps -/

theorem register (h : RefInv t s) {u : Nat} {tcp noperm : Bool}
    (hs : tstep s (.register u tcp noperm) = some s') : RefInv t s' := by
  obtain ⟨hf, rfl⟩ := tstep_stepsTo hs
  by_cases hu : u = t
  · subst hu
    have hnt : ¬ (s.tr u).Threaded := by simp [Transport.Threaded, hf]
    have hq := h.queued
    rw [hf, if_neg (by decide)] at hq
    constructor
    · intro _
      simpa [setTr] using h.idle hnt
    · intro ht
      simp [setTr, Transport.Threaded] at ht
    · exact h.unregister
    · exact h.kickers
    · simp [setTr, hq]
    · intro hm
      have : .remove u ∈ s.queue := by simpa [setTr] using hm
      exact absurd (h.removing this) hnt
  · refine h.frame (by simp [setTr, Ne.symm hu]) rfl ?_ ?_
    · simp [List.count_append, hu]
    · simp

theorem start (h : RefInv t s) {u : Nat} {q : List TMsg} (hq : s.queue = .register u :: q) :
    RefInv t (Transports.start { s with queue := q } u) := by
  by_cases hu : u = t
  · subst hu
    obtain ⟨hph, hcount⟩ := registered_of_head h.queued hq
    have hnt : ¬ (s.tr u).Threaded := by simp [Transport.Threaded, hph]
    obtain ⟨hi, ho, hc, hr⟩ := h.idle hnt
    have hrem : .remove u ∉ q := fun hm => hnt (h.removing (by simp [hq, hm]))
    unfold Transports.start
    by_cases hno : (s.tr u).noperm = true
    · constructor <;> simp [setTr, Transport.Threaded, hno, hi, ho, hc, hr, h.unregister, h.kickers,
        hcount, hrem]
    · constructor <;> simp [setTr, setPc, Transport.Threaded, hno, hc, hr, h.unregister, h.kickers,
        hcount, hrem, held]
  · have hq' : q.count (.register t) = s.queue.count (.register t) := by
      rw [hq, List.count_cons_of_ne]
      simpa using hu
    unfold Transports.start
    by_cases hno : (s.tr u).noperm = true
    · refine h.frame ?_ ?_ ?_ ?_ <;> simp [setTr, hno, Ne.symm hu, hq', hq]
    · refine h.frame ?_ ?_ ?_ ?_ <;> simp [setTr, setPc, hno, Ne.symm hu, hq', hq]

theorem remove (h : RefInv t s) {u : Nat} {q : List TMsg} (hq : s.queue = .remove u :: q) :
    RefInv t (Transports.remove { s with queue := q } u) := by
  have hq' : q.count (.register t) = s.queue.count (.register t) := by
    rw [hq, List.count_cons_of_ne]
    simp
  by_cases hu : u = t
  · subst hu
    have ht := h.removing (by simp [hq])
    have hne : (s.tr u).phase ≠ .registered := by
      rcases ht.1 with hp | hp <;> rw [hp] <;> decide
    have hth := h.threads ht
    have hqd := h.queued
    rw [← hq', if_neg hne] at hqd
    constructor
    · intro hn
      exact absurd ⟨.inr (by simp [Transports.remove, setTr]),
        by simpa [Transports.remove, setTr, unlink] using ht.2⟩ hn
    · intro _
      simpa [Transports.remove, setTr, unlink] using hth
    · exact h.unregister
    · exact h.kickers
    · simpa [Transports.remove, setTr, unlink] using hqd
    · intro _
      exact ⟨.inr (by simp [Transports.remove, setTr]),
        by simpa [Transports.remove, setTr, unlink] using ht.2⟩
  · refine h.frame ?_ rfl hq' ?_
    · simp [Transports.remove, setTr, unlink, Ne.symm hu]
    · intro hm
      rw [hq]
      exact List.mem_cons_of_mem _ hm

/-- A thread goes from one place to another, neither of them its last. -/
theorem setPc_thread (h : RefInv t s) {u : Nat} {a : Agent} {pc : Pc}
    (ha : a = .input ∨ a = .output) (h₁ : s.pc u a ≠ .away) (h₂ : s.pc u a ≠ .done)
    (hpc : pc ≠ .away) (hpc' : pc ≠ .done) : RefInv t (s.setPc u a pc) := by
  by_cases hu : u = t
  swap
  · exact h.setPc_ne hu a pc
  subst hu
  have ht : (s.tr u).Threaded := by
    by_contra hn
    obtain ⟨hi, ho, -⟩ := h.idle hn
    rcases ha with rfl | rfl
    · exact h₁ hi
    · exact h₁ ho
  obtain ⟨hi, ho, hc, hr, hcl⟩ := h.threads ht
  have hu := h.unregister
  have hk := h.kickers
  rcases ha with rfl | rfl
  · refine ⟨fun hn => absurd ht hn, fun _ => ?_, ?_, ?_, h.queued, h.removing⟩
    · simp_all [setPc, held]
    · simpa [setPc] using hu
    · simpa [setPc] using hk
  · refine ⟨fun hn => absurd ht hn, fun _ => ?_, ?_, ?_, h.queued, h.removing⟩
    · simp_all [setPc, held]
    · simpa [setPc] using hu
    · simpa [setPc] using hk

/-- Another thread that only kicks. -/
theorem setPc_kicker (h : RefInv t s) (u n : Nat) {pc : Pc} (hpc : pc ≠ .unref) :
    RefInv t (s.setPc u (.kicker n) pc) := by
  by_cases hu : u = t
  swap
  · exact h.setPc_ne hu _ _
  subst hu
  have hi : (s.setPc u (.kicker n) pc).pc u .input = s.pc u .input := by simp [setPc]
  have ho : (s.setPc u (.kicker n) pc).pc u .output = s.pc u .output := by simp [setPc]
  constructor
  · rw [hi, ho]
    exact h.idle
  · rw [hi, ho]
    exact h.threads
  · simpa [setPc] using h.unregister
  · intro m
    by_cases hm : m = n
    · simpa [setPc, hm] using hpc
    · simpa [setPc, hm] using h.kickers m
  · exact h.queued
  · exact h.removing

/-- A kick does not touch the references. -/
theorem setTr_kick (h : RefInv t s) (u : Nat) (k : Bool) (n : Nat) :
    RefInv t (s.setTr u { s.tr u with kicked := k, kicks := n }) := by
  by_cases hu : u = t
  swap
  · exact h.frame (by simp [setTr, Ne.symm hu]) rfl rfl id
  subst hu
  constructor
  · simpa [setTr, Transport.Threaded] using h.idle
  · simpa [setTr, Transport.Threaded] using h.threads
  · exact h.unregister
  · exact h.kickers
  · simpa [setTr] using h.queued
  · simpa [setTr, Transport.Threaded] using h.removing

/-- Dropping a reference of another transport. -/
theorem unref_ne (h : RefInv t s) {u : Nat} (hu : u ≠ t) : RefInv t (s.unref u) := by
  refine h.frame (by simp [Transports.unref, setTr, Ne.symm hu]) rfl ?_ ?_
  · simp only [Transports.unref, unrefMsgs, List.count_append]
    split <;> simp
  · simp only [Transports.unref, unrefMsgs, List.mem_append]
    split
    · simp [Ne.symm hu]
    · simp

/-- A thread drops its reference and is done. -/
theorem unref_thread (h : RefInv t s) {u : Nat} {a : Agent} (ha : a = .input ∨ a = .output)
    (hpc : s.pc u a = .unref) : RefInv t ((s.unref u).setPc u a .done) := by
  by_cases hu : u = t
  swap
  · exact (h.unref_ne hu).setPc_ne hu a .done
  subst hu
  have ht : (s.tr u).Threaded := by
    by_contra hn
    obtain ⟨hi, ho, -⟩ := h.idle hn
    rcases ha with rfl | rfl
    · rw [hi] at hpc
      cases hpc
    · rw [ho] at hpc
      cases hpc
  obtain ⟨hi, ho, hc, hr, hcl⟩ := h.threads ht
  obtain ⟨eph, eno, erc, ecl, erm⟩ := unrefLocked_eq (s.tr u)
  -- The other thread, and what it holds.
  obtain ⟨b, hb, hab, hheld⟩ : ∃ b, (b = .input ∨ b = .output) ∧ b ≠ a ∧
      (s.tr u).refCount - 1 = held (s.pc u b) := by
    rcases ha with rfl | rfl
    · refine ⟨.output, .inr rfl, by decide, ?_⟩
      rw [hc, hpc, held, if_neg (by decide)]
      omega
    · refine ⟨.input, .inl rfl, by decide, ?_⟩
      rw [hc, hpc, held, held, if_neg (show Pc.unref ≠ .done by decide)]
      omega
  have hpos : (s.tr u).refCount ≠ 0 := by
    unfold held at hheld
    split at hheld <;> omega
  rw [if_neg hpos] at hcl
  have htr : ((s.unref u).setPc u a .done).tr u = unrefLocked (s.tr u) := by
    simp [Transports.unref, setPc, setTr]
  have hpcs : ((s.unref u).setPc u a .done).pc u = Function.update (s.pc u) a .done := by
    simp [Transports.unref, setPc, setTr]
  have ht' : (((s.unref u).setPc u a .done).tr u).Threaded := by
    rw [htr]
    exact ⟨by rw [eph]; exact ht.1, by rw [eno]; exact ht.2⟩
  have hne : Agent.unregister ≠ a ∧ ∀ n, Agent.kicker n ≠ a := by
    rcases ha with rfl | rfl <;> simp
  refine ⟨fun hn => absurd ht' hn, fun _ => ?_, ?_, fun n => ?_, ?_, fun _ => ht'⟩
  · rw [htr, hpcs, erc, ecl, erm, hheld]
    have hdone : held .done = 0 := rfl
    rcases ha with rfl | rfl <;> rcases hb with rfl | rfl
    · exact absurd rfl hab
    · simp [ho, hdone, hcl, hr]
    · simp [hi, hdone, hcl, hr]
    · exact absurd rfl hab
  · rw [hpcs, Function.update_of_ne hne.1]
    exact h.unregister
  · rw [hpcs, Function.update_of_ne (hne.2 n)]
    exact h.kickers n
  · rw [htr, eph, ← h.queued]
    simp only [setPc, Transports.unref, unrefMsgs, List.count_append]
    split <;> simp

/-- The next step of a thread. -/
theorem agent_thread (h : RefInv t s) {u : Nat} {a : Agent} (ha : a = .input ∨ a = .output)
    (hs : s.agentStep u a = some s') : RefInv t s' := by
  have hafter : afterKick a = .unref := by
    rcases ha with rfl | rfl <;> rfl
  have hmove : ∀ {s : Transports} {pc : Pc}, RefInv t s → s.pc u a ≠ .away → s.pc u a ≠ .done →
      pc ≠ .away → pc ≠ .done → RefInv t (s.setPc u a pc) :=
    fun h h₁ h₂ h₃ h₄ => h.setPc_thread ha h₁ h₂ h₃ h₄
  simp only [agentStep, hafter] at hs
  split at hs
  · rename_i hpc
    cases hs
    refine hmove h (by simp [hpc]) (by simp [hpc]) ?_ ?_ <;> split <;> decide
  · rename_i hpc
    split at hs
    · cases hs
      exact hmove h (by simp [hpc]) (by simp [hpc]) (by decide) (by decide)
    · cases hs
      exact hmove (h.setTr_kick u true _) (by simp [setTr, hpc]) (by simp [setTr, hpc])
        (by decide) (by decide)
  · rename_i hpc
    cases hs
    exact hmove (h.setTr_kick u _ _) (by simp [setTr, hpc]) (by simp [setTr, hpc])
      (by decide) (by decide)
  · rename_i hpc
    cases hs
    exact h.unref_thread ha hpc
  · cases hs

theorem agent_kicker (h : RefInv t s) {u n : Nat} (hs : s.agentStep u (.kicker n) = some s') :
    RefInv t s' := by
  simp only [agentStep, afterKick] at hs
  split at hs
  · cases hs
    exact h.setPc_kicker u n (by split <;> decide)
  · split at hs
    · cases hs
      exact h.setPc_kicker u n (by decide)
    · cases hs
      exact (h.setTr_kick u true _).setPc_kicker u n (by decide)
  · cases hs
    exact (h.setTr_kick u _ _).setPc_kicker u n (by decide)
  · rename_i hpc
    cases hs
    by_cases hu : u = t
    · subst hu
      exact absurd hpc (h.kickers n)
    · exact (h.unref_ne hu).setPc_ne hu _ _
  · cases hs

/-- The main thread in `unregister_transport` works on another transport. -/
theorem agent_unregister (h : RefInv t s) {u : Nat} (hs : s.agentStep u .unregister = some s') :
    RefInv t s' := by
  by_cases hu : u = t
  · subst hu
    simp [agentStep, h.unregister] at hs
  simp only [agentStep] at hs
  split at hs
  · cases hs
    exact h.setPc_ne hu _ _
  · split at hs
    · cases hs
      exact h.setPc_ne hu _ _
    · cases hs
      exact (h.setTr_kick u true _).setPc_ne hu _ _
  · cases hs
    exact (h.setTr_kick u _ _).setPc_ne hu _ _
  · cases hs
    exact (h.unref_ne hu).setPc_ne hu _ _
  · cases hs

theorem foldl_dropTcp (h : RefInv t s) {ts : List Nat} (hts : t ∉ ts) :
    RefInv t (ts.foldl dropTcp s) := by
  -- The loop drops the references of one transport after the other.
  induction ts generalizing s with
  | nil => exact h
  | cons u ts ih =>
    have hu : t ≠ u := List.ne_of_not_mem_cons hts
    have h₂ : RefInv t (s.setTr u (if (s.tr u).kicked then s.tr u
        else { s.tr u with kicked := true, kicks := (s.tr u).kicks + 1 })) :=
      h.frame (by simp [setTr, hu]) rfl rfl id
    exact ih (h₂.unref_ne (Ne.symm hu)) (List.not_mem_of_not_mem_cons hts)

/-- Every allowed step keeps the references counted. -/
theorem step {l : TStep} (h : RefInv t s) (hok : Allowed t s l) (hs : tstep s l = some s') :
    RefInv t s' := by
  cases l with
  | register u tcp noperm => exact h.register hs
  | handle =>
    obtain ⟨-, u, q, ⟨hq, rfl⟩ | ⟨hq, rfl⟩⟩ := tstep_stepsTo hs
    · exact h.start hq
    · exact h.remove hq
  | leave u a =>
    obtain ⟨⟨ha, hpc⟩, rfl⟩ := tstep_stepsTo hs
    refine h.setPc_thread ha ?_ ?_ (by decide) (by decide) <;> rw [hpc] <;> decide
  | kick u n =>
    obtain ⟨-, rfl⟩ := tstep_stepsTo hs
    exact h.setPc_kicker u n (by decide)
  | agent u a =>
    cases a with
    | input => exact h.agent_thread (.inl rfl) hs
    | output => exact h.agent_thread (.inr rfl) hs
    | unregister => exact h.agent_unregister hs
    | kicker n => exact h.agent_kicker hs
  | unregister u =>
    obtain ⟨-, rfl⟩ := tstep_stepsTo hs
    exact (h.setPc_ne hok .unregister .kickTest).frame rfl rfl rfl id
  | unregistered =>
    obtain ⟨u, -, -, rfl⟩ := tstep_stepsTo hs
    exact h.frame rfl rfl rfl id
  | unregisterAll fuel =>
    obtain ⟨-, ts, links, hsweep, rfl⟩ := tstep_stepsTo hs
    have hts : t ∉ ts := by simpa [Allowed, swept, hsweep] using hok
    have h₁ : RefInv t { s with links := links } := h.frame rfl rfl rfl id
    exact h₁.foldl_dropTcp hts
  | unregisterUsb u =>
    obtain ⟨-, rfl⟩ := tstep_stepsTo hs
    exact h.frame rfl rfl rfl id

end RefInv

/-! ## Runs -/

/-- In every run that does not unregister `t`, the transport is closed and removed once, after both
of its threads have dropped their references. -/
theorem unref_closes_once (ls : List TStep) (s : Transports) (t : Nat)
    (hok : RunOk tstep (Allowed t) Transports.init ls)
    (hrun : run tstep Transports.init ls = some s) (ht : (s.tr t).Threaded) : Counted s t :=
  (run_invariant (fun _ _ _ h hl hs => h.step hl hs) RefInv.init hok hrun).counted ht

/-- A TCP transport is registered, its output thread ends, somebody else kicks it, and its input
thread ends. -/
def bothExit : List TStep :=
  [.register 0 true false, .handle, .leave 0 .output, .agent 0 .output, .kick 0 0,
    .agent 0 (.kicker 0), .agent 0 (.kicker 0), .agent 0 (.kicker 0), .agent 0 .output,
    .agent 0 .output, .leave 0 .input, .agent 0 .input, .agent 0 .input, .handle]

theorem unref_closes_once_bothExit :
    ∃ s, run tstep Transports.init bothExit = some s ∧ (s.tr 0).closes = 1 ∧ Counted s 0 :=
  ⟨_, rfl, rfl, unref_closes_once bothExit _ 0 (by decide) rfl ⟨.inr rfl, rfl⟩⟩

/-- `adb disconnect` of a TCP transport, whose input thread then ends first. -/
def disconnect : List TStep :=
  [.register 0 true false, .handle, .unregister 0, .agent 0 .unregister, .agent 0 .unregister,
    .agent 0 .unregister, .agent 0 .unregister, .unregistered, .leave 0 .input, .agent 0 .input,
    .agent 0 .input]

/-- The transport is closed and removed while its output thread still uses it. -/
theorem unref_under_thread :
    ∃ s, run tstep Transports.init disconnect = some s ∧ (s.tr 0).Threaded ∧
      (s.tr 0).closes = 1 ∧ s.pc 0 .output = .loop ∧ ¬ Counted s 0 := by
  refine ⟨_, rfl, ⟨.inl rfl, rfl⟩, rfl, rfl, fun h => ?_⟩
  exact absurd (h.closed_iff.mp rfl).2 (by decide)

end Twm.Adb
