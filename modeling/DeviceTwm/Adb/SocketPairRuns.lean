import DeviceTwm.Adb.SocketPair

/-!
# Runs of calls on socket pairs

* `Live`: the ends of a pair are slots of the table, there are as many as are counted, and each
  direction is a queue between what has been sent and what has been received.
* `Inv`: every slot of the class is an end of a pair that is alive. `Inv.flow`, `Inv.other`, `Inv.leave` and
  `Inv.create` are what the calls do; `step_inv` keeps it.
* `socketpairs_good`: what has been read at one end is a beginning of what was written at the other end of
  the same pair, whatever calls were made on whatever descriptors. `adb_socketpair` without two free slots
  is the only call that crashes: it closes a handle that it did not get.
-/

open Lib

namespace Twm.Adb.Win32

/-- One, if there is such an end. -/
def one (e : Option Nat) : Nat := if e.isSome then 1 else 0

/-- The pair at `p`, with the end B at `b`. -/
structure Live (w : World) (p : Nat) (pair : SocketPair) (b : Option Nat) : Prop where
  slot : ∀ i, pair.aFd = some i ∨ b = some i →
    w.sys.fhs[i]? = some ⟨some .socketpair, true, some p⟩
  apart : ∀ i, pair.aFd = some i → b ≠ some i
  used : pair.used = one pair.aFd + one b
  pos : 0 < pair.used
  flow : ∀ d, ∃ q, Holds (pair.bip d) q ∧ w.sent p d = w.got p d ++ q

/-- `B` has the ends B. -/
structure Inv (w : World) (B : Nat → Option Nat) : Prop where
  table : Table w.sys
  ends : ∀ (i : Nat) (f : FHRec), w.sys.fhs[i]? = some f → f.clazz = some .socketpair →
    ∃ p pair, f.pair = some p ∧ w.sys.heap[p]? = some (some pair) ∧
      (pair.aFd = some i ∨ B p = some i)
  live : ∀ (p : Nat) (pair : SocketPair), w.sys.heap[p]? = some (some pair) → Live w p pair (B p)
  unborn : ∀ p d, w.sys.heap.length ≤ p → w.sent p d = [] ∧ w.got p d = []
  inOrder : ∀ p d, w.got p d <+: w.sent p d

theorem init_inv : Inv World.init fun _ => none where
  table := by
    refine ⟨List.length_replicate, Nat.zero_le _, fun i f _ hf => ?_, fun i f hf => ?_⟩
    · rw [List.eq_of_mem_replicate (List.mem_of_getElem? hf)]
    · rw [List.eq_of_mem_replicate (List.mem_of_getElem? hf)]
      rfl
  ends i f hf hc := by
    rw [List.eq_of_mem_replicate (List.mem_of_getElem? hf)] at hc
    cases hc
  live p pair hp := by
    rw [World.init, List.getElem?_nil] at hp
    cases hp
  unborn _ _ _ := ⟨rfl, rfl⟩
  inOrder _ _ := List.nil_prefix

theorem extend_self (log : Nat → Bool → List UInt8) (p : Nat) (d : Bool) (bytes : List UInt8) :
    extend log p d bytes p d = log p d ++ bytes := if_pos ⟨rfl, rfl⟩

theorem extend_other (log : Nat → Bool → List UInt8) {p p' : Nat} {d d' : Bool} (bytes : List UInt8)
    (h : ¬ (p' = p ∧ d' = d)) : extend log p d bytes p' d' = log p' d' := if_neg h

theorem bip_setBip (pair : SocketPair) (d d' : Bool) (bip : BipBuffer) :
    (pair.setBip d bip).bip d' = if d' = d then bip else pair.bip d' := by
  cases d <;> cases d' <;> rfl

theorem aFd_setBip (pair : SocketPair) (d : Bool) (bip : BipBuffer) :
    (pair.setBip d bip).aFd = pair.aFd := by
  cases d <;> rfl

theorem used_setBip (pair : SocketPair) (d : Bool) (bip : BipBuffer) :
    (pair.setBip d bip).used = pair.used := by
  cases d <;> rfl

variable {w w' : World} {B : Nat → Option Nat} {p i : Nat} {pair : SocketPair}

namespace Inv

/-- Bytes go into one direction of a pair, or come out of it. -/
theorem flow (h : Inv w B) (hp : w.sys.heap[p]? = some (some pair)) {d : Bool} {bip : BipBuffer}
    {q : List UInt8} (hq : Holds bip q)
    (hsys : w'.sys = w.sys.setPair p (some (pair.setBip d bip)))
    (hlog : w'.sent p d = w'.got p d ++ q)
    (hother : ∀ p' d', ¬ (p' = p ∧ d' = d) →
      w'.sent p' d' = w.sent p' d' ∧ w'.got p' d' = w.got p' d') : Inv w' B := by
  have hfhs : w'.sys.fhs = w.sys.fhs := by rw [hsys]; rfl
  have hcount : w'.sys.count = w.sys.count := by rw [hsys]; rfl
  have hheap : w'.sys.heap = w.sys.heap.set p (some (pair.setBip d bip)) := by rw [hsys]; rfl
  have hlt : p < w.sys.heap.length := getElem?_lt hp
  have hat : w'.sys.heap[p]? = some (some (pair.setBip d bip)) := by
    rw [hheap, List.getElem?_set_self hlt]
  have hne {p' : Nat} (hpp : p' ≠ p) : w'.sys.heap[p']? = w.sys.heap[p']? := by
    rw [hheap, List.getElem?_set_ne (Ne.symm hpp)]
  refine ⟨⟨?_, ?_, ?_, ?_⟩, ?_, ?_, ?_, ?_⟩
  · rw [hfhs]; exact h.table.size
  · rw [hcount]; exact h.table.count
  · rw [hfhs, hcount]; exact h.table.fresh
  · rw [hfhs]; exact h.table.used
  · intro i f hf hc
    rw [hfhs] at hf
    obtain ⟨p', pair', hfp, hp', hend⟩ := h.ends i f hf hc
    by_cases hpp : p' = p
    · subst hpp
      cases hp.symm.trans hp'
      exact ⟨p', _, hfp, hat, by rwa [aFd_setBip]⟩
    · exact ⟨p', pair', hfp, (hne hpp).trans hp', hend⟩
  · intro p' pair' hp'
    by_cases hpp : p' = p
    · subst hpp
      cases hat.symm.trans hp'
      obtain ⟨h₁, h₂, h₃, h₄, h₅⟩ := h.live p' pair hp
      refine ⟨?_, ?_, ?_, ?_, fun d' => ?_⟩
      · rw [hfhs, aFd_setBip]; exact h₁
      · rw [aFd_setBip]; exact h₂
      · rw [used_setBip, aFd_setBip]; exact h₃
      · rw [used_setBip]; exact h₄
      · rw [bip_setBip]
        by_cases hd : d' = d
        · rw [if_pos hd, hd]
          exact ⟨q, hq, hlog⟩
        · obtain ⟨hs, hg⟩ := hother p' d' fun hpd => hd hpd.2
          rw [if_neg hd, hs, hg]
          exact h₅ d'
    · rw [hne hpp] at hp'
      obtain ⟨h₁, h₂, h₃, h₄, h₅⟩ := h.live p' pair' hp'
      refine ⟨by rw [hfhs]; exact h₁, h₂, h₃, h₄, fun d' => ?_⟩
      obtain ⟨hs, hg⟩ := hother p' d' fun hpd => hpp hpd.1
      rw [hs, hg]
      exact h₅ d'
  · intro p' d' hp'
    rw [hheap, List.length_set] at hp'
    obtain ⟨hs, hg⟩ := hother p' d' fun hpd => by omega
    rw [hs, hg]
    exact h.unborn p' d' hp'
  · intro p' d'
    by_cases hpd : p' = p ∧ d' = d
    · obtain ⟨rfl, rfl⟩ := hpd
      exact ⟨q, hlog.symm⟩
    · obtain ⟨hs, hg⟩ := hother p' d' hpd
      rw [hs, hg]
      exact h.inOrder p' d'

/-- Slots that are no ends, before and after. -/
theorem other (h : Inv w B)
    (hfhs : ∀ j : Nat, w'.sys.fhs[j]? = w.sys.fhs[j]? ∨
      ∃ f f' : FHRec, w.sys.fhs[j]? = some f ∧ f.clazz ≠ some .socketpair ∧ w'.sys.fhs[j]? = some f' ∧
        f'.clazz ≠ some .socketpair)
    (hheap : w'.sys.heap = w.sys.heap) (htable : Table w'.sys) (hsent : w'.sent = w.sent)
    (hgot : w'.got = w.got) : Inv w' B := by
  refine ⟨htable, ?_, ?_, ?_, ?_⟩
  · intro j g hg hc
    rw [hheap]
    rcases hfhs j with heq | ⟨f, f', -, -, hf', hne⟩
    · exact h.ends j g (heq ▸ hg) hc
    · cases hg.symm.trans hf'
      exact absurd hc hne
  · intro p pair hp
    rw [hheap] at hp
    obtain ⟨h₁, h₂, h₃, h₄, h₅⟩ := h.live p pair hp
    refine ⟨fun j hj => ?_, h₂, h₃, h₄, ?_⟩
    · rcases hfhs j with heq | ⟨f, f', hf, hne, -, -⟩
      · rw [heq]
        exact h₁ j hj
      · cases hf.symm.trans (h₁ j hj)
        exact absurd rfl hne
    · rw [hsent, hgot]
      exact h₅
  · rw [hheap, hsent, hgot]
    exact h.unborn
  · rw [hsent, hgot]
    exact h.inOrder

/-- A pair is made, with the ends `a` and `b`. -/
theorem create (h : Inv w B) {a b : Nat} {m₁ m₂ : List UInt8} (hab : a ≠ b)
    (ha : ∃ f, w.sys.fhs[a]? = some f ∧ f.clazz = none)
    (hb : ∃ f, w.sys.fhs[b]? = some f ∧ f.clazz = none)
    (hm₁ : m₁.length = BIP_BUFFER_SIZE) (hm₂ : m₂.length = BIP_BUFFER_SIZE)
    (hfhs : ∀ j, w'.sys.fhs[j]? = if j = a ∨ j = b then
      some ⟨some .socketpair, true, some w.sys.heap.length⟩ else w.sys.fhs[j]?)
    (hheap : w'.sys.heap =
      w.sys.heap ++ [some ⟨bipBufferInit m₁, bipBufferInit m₂, some a, 2⟩])
    (htable : Table w'.sys) (hsent : w'.sent = w.sent) (hgot : w'.got = w.got) :
    Inv w' fun p => if p = w.sys.heap.length then some b else B p := by
  have hold {p : Nat} (hp : p < w.sys.heap.length) : w'.sys.heap[p]? = w.sys.heap[p]? := by
    rw [hheap, List.getElem?_append_left hp]
  have hnew : w'.sys.heap[w.sys.heap.length]? =
      some (some ⟨bipBufferInit m₁, bipBufferInit m₂, some a, 2⟩) := by
    rw [hheap, List.getElem?_concat_length]
  refine ⟨htable, ?_, ?_, ?_, ?_⟩
  · intro j g hg hc
    rw [hfhs] at hg
    split at hg
    · rename_i hj
      cases hg
      refine ⟨_, _, rfl, hnew, ?_⟩
      rw [if_pos rfl]
      exact hj.imp (fun hj => by rw [hj]) (fun hj => by rw [hj])
    · obtain ⟨p, pair, hfp, hp, hend⟩ := h.ends j g hg hc
      have hlt := getElem?_lt hp
      refine ⟨p, pair, hfp, (hold hlt).trans hp, ?_⟩
      rwa [if_neg (Nat.ne_of_lt hlt)]
  · intro p pair hp
    by_cases hpl : p = w.sys.heap.length
    · rw [hpl, hnew] at hp
      cases hp
      obtain ⟨hs, hg⟩ : (∀ d, w.sent p d = []) ∧ ∀ d, w.got p d = [] :=
        ⟨fun d => (h.unborn p d (by omega)).1, fun d => (h.unborn p d (by omega)).2⟩
      rw [if_pos hpl]
      refine ⟨fun j hj => ?_, fun j hj hj' => ?_, rfl, Nat.succ_pos _, fun d => ⟨[], ?_, ?_⟩⟩
      · have hj' : j = a ∨ j = b := hj.imp (fun e => (Option.some.inj e).symm)
          (fun e => (Option.some.inj e).symm)
        rw [hfhs, if_pos hj', hpl]
      · exact hab ((Option.some.inj hj).trans (Option.some.inj hj').symm)
      · cases d
        · exact bipBufferInit_holds hm₂
        · exact bipBufferInit_holds hm₁
      · rw [hsent, hgot, hs, hg]
        rfl
    · have hlt : p < w.sys.heap.length := by
        have hlen := getElem?_lt hp
        rw [hheap, List.length_append, List.length_singleton] at hlen
        omega
      rw [hold hlt] at hp
      rw [if_neg hpl]
      obtain ⟨h₁, h₂, h₃, h₄, h₅⟩ := h.live p pair hp
      refine ⟨fun j hj => ?_, h₂, h₃, h₄, by rw [hsent, hgot]; exact h₅⟩
      have hslot := h₁ j hj
      have hfree : ¬ (j = a ∨ j = b) := by
        rintro (rfl | rfl)
        · obtain ⟨f, hf, hnone⟩ := ha
          cases hf.symm.trans hslot
          cases hnone
        · obtain ⟨f, hf, hnone⟩ := hb
          cases hf.symm.trans hslot
          cases hnone
      rw [hfhs, if_neg hfree]
      exact hslot
  · intro p d hp
    rw [hheap, List.length_append] at hp
    rw [hsent, hgot]
    exact h.unborn p d (by omega)
  · rw [hsent, hgot]
    exact h.inOrder

end Inv

theorem bip_leave (pair : SocketPair) (i : Nat) (d : Bool) :
    (pair.leave i).bip d = bipBufferClose (pair.bip d) := by
  cases d <;> rfl

/-- What is left of a pair when its end `i` leaves. -/
theorem leave_used {b : Option Nat} (h : Live w p pair b) (hi : pair.aFd = some i ∨ b = some i) :
    (pair.leave i).used = one (pair.leave i).aFd + one (if b = some i then none else b) := by
  have hused := h.used
  have hleave : (pair.leave i).used = pair.used - 1 := rfl
  have haFd : (pair.leave i).aFd = if pair.aFd = some i then none else pair.aFd := rfl
  rw [hleave, haFd]
  rcases hi with ha | hb
  · have hb := h.apart i ha
    have hone : one pair.aFd = 1 := by rw [ha]; rfl
    have hzero : one none = 0 := rfl
    rw [if_pos ha, if_neg hb, hzero]
    omega
  · have ha : pair.aFd ≠ some i := fun ha => h.apart i ha hb
    have hone : one b = 1 := by rw [hb]; rfl
    have hzero : one none = 0 := rfl
    rw [if_neg ha, if_pos hb, hzero]
    omega

/-- Another end is still there. -/
theorem leave_used_pos {b : Option Nat} {j : Nat} (h : Live w p pair b)
    (hi : pair.aFd = some i ∨ b = some i) (hj : pair.aFd = some j ∨ b = some j) (hij : j ≠ i) :
    (pair.leave i).used ≠ 0 := by
  have hused := h.used
  have hleave : (pair.leave i).used = pair.used - 1 := rfl
  have hboth : one pair.aFd = 1 ∧ one b = 1 := by
    rcases hi with hi | hi <;> rcases hj with hj | hj
    · exact absurd (Option.some.inj (hj.symm.trans hi)) hij
    · exact ⟨by rw [hi]; rfl, by rw [hj]; rfl⟩
    · exact ⟨by rw [hj]; rfl, by rw [hi]; rfl⟩
    · exact absurd (Option.some.inj (hj.symm.trans hi)) hij
  omega

namespace Inv

/-- An end leaves its pair, which is freed with the last one. -/
theorem leave (h : Inv w B) (hp : w.sys.heap[p]? = some (some pair))
    (hi : pair.aFd = some i ∨ B p = some i)
    (hfhs : w'.sys.fhs = w.sys.fhs.set i ⟨none, false, none⟩)
    (hcount : w'.sys.count = w.sys.count)
    (hheap : w'.sys.heap =
      w.sys.heap.set p (if (pair.leave i).used = 0 then none else some (pair.leave i)))
    (hsent : w'.sent = w.sent) (hgot : w'.got = w.got) :
    Inv w' fun p' => if p' = p ∧ B p = some i then none else B p' := by
  have hlive := h.live p pair hp
  have hslot := hlive.slot i hi
  have hlt : p < w.sys.heap.length := getElem?_lt hp
  have hat : w'.sys.heap[p]? =
      some (if (pair.leave i).used = 0 then none else some (pair.leave i)) := by
    rw [hheap, List.getElem?_set_self hlt]
  have hne {p' : Nat} (hpp : p' ≠ p) : w'.sys.heap[p']? = w.sys.heap[p']? := by
    rw [hheap, List.getElem?_set_ne (Ne.symm hpp)]
  have hstay {j : Nat} (hj : j ≠ i) : w'.sys.fhs[j]? = w.sys.fhs[j]? := by
    rw [hfhs, List.getElem?_set_ne (Ne.symm hj)]
  have hgone : w'.sys.fhs[i]? = some ⟨none, false, none⟩ := by
    rw [hfhs, List.getElem?_set_self (getElem?_lt hslot)]
  have htable := h.table.set hfhs (by omega) (by rw [hcount]; exact h.table.count) rfl fun _ => rfl
  refine ⟨htable, ?_, ?_, ?_, ?_⟩
  · intro j g hg hc
    by_cases hj : j = i
    · subst hj
      cases hgone.symm.trans hg
      cases hc
    · rw [hstay hj] at hg
      obtain ⟨p', pair', hfp, hp', hend⟩ := h.ends j g hg hc
      by_cases hpp : p' = p
      · subst hpp
        cases hp.symm.trans hp'
        rw [if_neg (leave_used_pos hlive hi hend hj)] at hat
        refine ⟨p', _, hfp, hat, hend.imp (fun ha => ?_) (fun hb => ?_)⟩
        · show (if pair.aFd = some i then none else pair.aFd) = some j
          rw [if_neg fun ha' => hj (Option.some.inj (ha.symm.trans ha')), ha]
        · rw [if_neg fun hb' => hj (Option.some.inj (hb.symm.trans hb'.2)), hb]
      · refine ⟨p', pair', hfp, (hne hpp).trans hp', ?_⟩
        rwa [if_neg fun hpb => hpp hpb.1]
  · intro p' pair' hp'
    by_cases hpp : p' = p
    · subst hpp
      rw [hat] at hp'
      split at hp'
      · cases hp'
      rename_i hpos
      cases hp'
      have hB : (if p' = p' ∧ B p' = some i then none else B p') =
          if B p' = some i then none else B p' := by simp
      rw [hB]
      refine ⟨fun j hj => ?_, fun j hj hj' => ?_, leave_used hlive hi, by omega, fun d => ?_⟩
      · have hend : j ≠ i ∧ (pair.aFd = some j ∨ B p' = some j) := by
          rcases hj with ha | hb
          · have ha' : (if pair.aFd = some i then none else pair.aFd) = some j := ha
            split at ha'
            · cases ha'
            · rename_i hai
              exact ⟨fun hji => hai (hji ▸ ha'), .inl ha'⟩
          · split at hb
            · cases hb
            · rename_i hbi
              exact ⟨fun hji => hbi (hji ▸ hb), .inr hb⟩
        rw [hstay hend.1]
        exact hlive.slot j hend.2
      · have ha' : (if pair.aFd = some i then none else pair.aFd) = some j := hj
        split at ha'
        · cases ha'
        · split at hj'
          · cases hj'
          · exact hlive.apart j ha' hj'
      · obtain ⟨q, hq, hlog⟩ := hlive.flow d
        rw [bip_leave, hsent, hgot]
        exact ⟨q, hq.close, hlog⟩
    · rw [hne hpp] at hp'
      rw [if_neg fun hpb => hpp hpb.1]
      obtain ⟨h₁, h₂, h₃, h₄, h₅⟩ := h.live p' pair' hp'
      refine ⟨fun j hj => ?_, h₂, h₃, h₄, by rw [hsent, hgot]; exact h₅⟩
      have hslot' := h₁ j hj
      have hji : j ≠ i := by
        rintro rfl
        have heq := Option.some.inj (hslot.symm.trans hslot')
        exact hpp (Option.some.inj (congrArg FHRec.pair heq)).symm
      rw [hstay hji]
      exact hslot'
  · intro p' d hp'
    rw [hheap, List.length_set] at hp'
    rw [hsent, hgot]
    exact h.unborn p' d hp'
  · rw [hsent, hgot]
    exact h.inOrder

end Inv

/-! ## Calls -/

/-- What a call that finds the slot `i` of a pair finds there. -/
theorem pair_of_slot (h : Inv w B) (hc : classOf w.sys i = some .socketpair) :
    ∃ p pair, w.sys.fhs[i]? = some ⟨some .socketpair, true, some p⟩ ∧
      w.sys.heap[p]? = some (some pair) ∧ (pair.aFd = some i ∨ B p = some i) := by
  obtain ⟨f, hf, hclass⟩ := Option.bind_eq_some_iff.mp hc
  obtain ⟨p, pair, -, hp, hend⟩ := h.ends i f hf hclass
  exact ⟨p, pair, (h.live p pair hp).slot i hend, hp, hend⟩

theorem withPair_eq {k : Nat → SocketPair → Bool → Option World}
    (hi : w.sys.fhs[i]? = some ⟨some .socketpair, true, some p⟩)
    (hp : w.sys.heap[p]? = some (some pair)) :
    withPair w i k = k p pair (decide (pair.aFd = some i)) := by
  simp only [withPair, hi, hp]

theorem write_inv (h : Inv w B) (hc : classOf w.sys i = some .socketpair) (src : List UInt8) :
    ∃ w', fhSocketpairWrite w i src = some w' ∧ Inv w' B := by
  obtain ⟨p, pair, hi, hp, -⟩ := pair_of_slot h hc
  rw [fhSocketpairWrite, withPair_eq hi hp]
  generalize decide (pair.aFd = some i) = d
  obtain ⟨q, hq, hlog⟩ := (h.live p pair hp).flow d
  have hdone (n : Nat) (bip : BipBuffer) (hbip : Holds bip (q ++ src.take n)) :
      Inv { w with sys := w.sys.setPair p (some (pair.setBip d bip))
                   sent := extend w.sent p d (src.take n) } B := by
    refine h.flow hp hbip rfl ?_ fun p' d' hpd => ⟨extend_other _ _ hpd, rfl⟩
    dsimp only
    rw [extend_self, hlog, List.append_assoc]
  by_cases hsrc : src = []
  · subst hsrc
    have hzero : bipBufferWrite (pair.bip d) [] = .done 0 (pair.bip d) := rfl
    rw [hzero]
    exact ⟨_, rfl, hdone 0 _ (by rwa [List.take_nil, List.append_nil])⟩
  obtain ⟨hfull, hroom⟩ := bipBufferWrite_holds hq hsrc
  rcases Nat.lt_or_ge q.length BIP_BUFFER_SIZE with hlt | hge
  · obtain ⟨bip, hres, hbip, -⟩ := hroom hlt
    rw [hres]
    have htake : src.take (BIP_BUFFER_SIZE - q.length) =
        src.take (min src.length (BIP_BUFFER_SIZE - q.length)) := by
      rw [Nat.min_comm, ← List.take_take, List.take_length]
    exact ⟨_, rfl, hdone _ bip (htake ▸ hbip)⟩
  · rw [hfull (Nat.le_antisymm hq.length_le hge)]
    split
    · rename_i hcrash
      split at hcrash <;> cases hcrash
    · exact ⟨w, rfl, h⟩
    · exact ⟨w, rfl, h⟩
    · rename_i hdone
      split at hdone <;> cases hdone

theorem read_inv (h : Inv w B) (hc : classOf w.sys i = some .socketpair) (len : Nat) :
    ∃ w', fhSocketpairRead w i len = some w' ∧ Inv w' B := by
  obtain ⟨p, pair, hi, hp, -⟩ := pair_of_slot h hc
  rw [fhSocketpairRead, withPair_eq hi hp]
  generalize (!decide (pair.aFd = some i)) = d
  obtain ⟨q, hq, hlog⟩ := (h.live p pair hp).flow d
  have hdone (n : Nat) (bip : BipBuffer) (hbip : Holds bip (q.drop n)) :
      Inv { w with sys := w.sys.setPair p (some (pair.setBip d bip))
                   got := extend w.got p d (q.take n) } B := by
    refine h.flow hp hbip rfl ?_ fun p' d' hpd => ⟨rfl, extend_other _ _ hpd⟩
    dsimp only
    rw [extend_self, List.append_assoc, List.take_append_drop]
    exact hlog
  rcases Nat.eq_zero_or_pos len with hlen | hlen
  · subst hlen
    have hzero : bipBufferRead (pair.bip d) 0 = .done [] (pair.bip d) := rfl
    rw [hzero]
    exact ⟨_, rfl, hdone 0 _ hq⟩
  obtain ⟨hempty, hsome⟩ := bipBufferRead_holds hq hlen
  by_cases hnil : q = []
  · rw [hempty hnil]
    split
    · rename_i hcrash
      split at hcrash <;> cases hcrash
    · exact ⟨w, rfl, h⟩
    · exact ⟨w, rfl, h⟩
    · rename_i hdone
      split at hdone <;> cases hdone
  · obtain ⟨bip, hres, hbip, -⟩ := hsome hnil
    rw [hres]
    exact ⟨_, rfl, hdone len bip hbip⟩

theorem fhFromInt_some {s : Sys} {fd : Int} (h : fhFromInt s fd = some i) :
    ∃ f, s.fhs[i]? = some f ∧ f.used = true := by
  unfold fhFromInt at h
  dsimp only at h
  split at h
  · cases h
  · split at h
    · cases h
    · rename_i f hf
      split at h
      · rename_i hu
        cases h
        exact ⟨f, hf, hu⟩
      · cases h

theorem close_inv (h : Inv w B) {f : FHRec} (hf : w.sys.fhs[i]? = some f) (hu : f.used = true) :
    ∃ s', fhClose w.sys (some i) = some s' ∧ ∃ B', Inv { w with sys := s' } B' := by
  have hsome := h.table.used i f hf
  rw [hu] at hsome
  have hother (hc : f.clazz ≠ some .socketpair) :
      Inv { w with sys := w.sys.setFh i ⟨none, false, f.pair⟩ } B := by
    have htable := Table.set (t := w.sys.setFh i ⟨none, false, f.pair⟩) h.table rfl (Nat.le_refl _)
      h.table.count rfl fun _ => rfl
    refine h.other (fun j => ?_) rfl htable rfl rfl
    by_cases hj : i = j
    · subst hj
      exact .inr ⟨f, _, hf, hc, List.getElem?_set_self (getElem?_lt hf), nofun⟩
    · exact .inl (List.getElem?_set_ne hj)
  rw [fhClose]
  simp only [hf, hu, if_true]
  cases hc : f.clazz with
  | none =>
    rw [hc] at hsome
    cases hsome
  | some c =>
    cases c with
    | file => exact ⟨_, rfl, B, hother (by rw [hc]; nofun)⟩
    | socket => exact ⟨_, rfl, B, hother (by rw [hc]; nofun)⟩
    | socketpair =>
      obtain ⟨p, pair, hfp, hp, hend⟩ := h.ends i f hf hc
      simp only [fhSocketpairClose, hfp, hp, Option.map_some]
      exact ⟨_, rfl, _, h.leave hp hend (List.set_set _) rfl rfl rfl rfl⟩

/-- Two slots are handed out. -/
theorem two_slots {s : Sys} (ht : Table s) (hfree : 2 ≤ freeSlots s) :
    ∃ a b s₁ s₂, fhAlloc s .socketpair = (some a, s₁) ∧ fhAlloc s₁ .socketpair = (some b, s₂) ∧
      Allocated s .socketpair a s₁ ∧ Allocated s₁ .socketpair b s₂ ∧ a ≠ b := by
  obtain ⟨a, s₁, h₁, ha⟩ := fhAlloc_some ht .socketpair (by omega)
  have hleft := ha.freeSlots
  obtain ⟨b, s₂, h₂, hb⟩ := fhAlloc_some (ha.table ht) .socketpair (by omega)
  refine ⟨a, b, s₁, s₂, h₁, h₂, ha, hb, ?_⟩
  rintro rfl
  obtain ⟨f, hf, hnone⟩ := hb.free
  obtain ⟨g, hg, -⟩ := ha.free
  rw [ha.fhs, List.getElem?_set_self (getElem?_lt hg)] at hf
  cases hf
  cases hnone

/-- The slots after both have been handed out and written to. -/
theorem two_slots_get {s s₁ s₂ : Sys} {a b : Nat} {x : FHRec} (ha : Allocated s .socketpair a s₁)
    (hb : Allocated s₁ .socketpair b s₂) (j : Nat) :
    ((s₂.fhs.set a x).set b x)[j]? = if j = a ∨ j = b then some x else s.fhs[j]? := by
  have hla : a < s.fhs.length := by
    obtain ⟨f, hf, -⟩ := ha.free
    exact getElem?_lt hf
  have hlb : b < s.fhs.length := by
    obtain ⟨f, hf, -⟩ := hb.free
    have hlt := getElem?_lt hf
    rwa [ha.fhs, List.length_set] at hlt
  rw [hb.fhs, ha.fhs]
  by_cases hjb : j = b
  · rw [if_pos (.inr hjb), hjb, List.getElem?_set_self (by simpa using hlb)]
  · rw [List.getElem?_set_ne (Ne.symm hjb)]
    by_cases hja : j = a
    · rw [if_pos (.inl hja), hja, List.getElem?_set_self (by simpa using hla)]
    · rw [if_neg (not_or.mpr ⟨hja, hjb⟩), List.getElem?_set_ne (Ne.symm hja),
        List.getElem?_set_ne (Ne.symm hjb), List.getElem?_set_ne (Ne.symm hja)]

/-- A slot that no pair has been put into is closed. -/
theorem fhClose_unpaired {s : Sys} (h : s.fhs[i]? = some ⟨some .socketpair, true, none⟩) :
    fhClose s (some i) = some (s.setFh i ⟨none, false, none⟩) := by
  simp only [fhClose, h, if_true, fhSocketpairClose, Option.map_some]

theorem socketpair_inv (h : Inv w B) (hfree : 2 ≤ freeSlots w.sys) {m₁ m₂ : List UInt8} (malloc : Bool)
    (hm₁ : m₁.length = BIP_BUFFER_SIZE) (hm₂ : m₂.length = BIP_BUFFER_SIZE) :
    ∃ r, adbSocketpair w.sys malloc m₁ m₂ = some r ∧ ∃ B', Inv { w with sys := r.2 } B' := by
  obtain ⟨a, b, s₁, s₂, h₁, h₂, ha, hb, hab⟩ := two_slots h.table hfree
  have htable₁ := ha.table h.table
  have htable₂ := hb.table htable₁
  have hfa := ha.free
  have hfb : ∃ f, w.sys.fhs[b]? = some f ∧ f.clazz = none := by
    obtain ⟨f, hf, hnone⟩ := hb.free
    rw [ha.fhs, List.getElem?_set_ne hab] at hf
    exact ⟨f, hf, hnone⟩
  have hget := two_slots_get (x := ⟨none, false, none⟩) ha hb
  have hb₂ : s₂.fhs[b]? = some ⟨some .socketpair, true, none⟩ := by
    obtain ⟨f, hf, -⟩ := hb.free
    rw [hb.fhs, List.getElem?_set_self (getElem?_lt hf)]
  have ha₂ : s₂.fhs[a]? = some ⟨some .socketpair, true, none⟩ := by
    obtain ⟨f, hf, -⟩ := hfa
    rw [hb.fhs, List.getElem?_set_ne (Ne.symm hab), ha.fhs, List.getElem?_set_self (getElem?_lt hf)]
  simp only [adbSocketpair, h₁, h₂]
  by_cases hmalloc : malloc = false
  · -- both slots are closed again
    have hclose : socketpairFail s₂ (some a) (some b) =
        some (none, (s₂.setFh b ⟨none, false, none⟩).setFh a ⟨none, false, none⟩) := by
      have ha₃ : (s₂.setFh b ⟨none, false, none⟩).fhs[a]? = some ⟨some .socketpair, true, none⟩ :=
        (List.getElem?_set_ne (Ne.symm hab)).trans ha₂
      rw [socketpairFail, fhClose_unpaired hb₂, Option.bind_some, fhClose_unpaired ha₃]
      rfl
    rw [if_pos hmalloc, hclose]
    have htable₃ := Table.set (t := s₂.setFh b ⟨none, false, none⟩) htable₂ rfl (Nat.le_refl _)
      htable₂.count rfl fun _ => rfl
    have htable₄ := Table.set (t := (s₂.setFh b ⟨none, false, none⟩).setFh a ⟨none, false, none⟩) htable₃
      rfl (Nat.le_refl _) htable₂.count rfl fun _ => rfl
    refine ⟨_, rfl, B, h.other (fun j => ?_) (hb.heap.trans ha.heap) htable₄ rfl rfl⟩
    have hj : ((s₂.setFh b ⟨none, false, none⟩).setFh a ⟨none, false, none⟩).fhs[j]? =
        if j = a ∨ j = b then some ⟨none, false, none⟩ else w.sys.fhs[j]? := by
      rw [← hget j, List.set_comm _ _ hab]
      rfl
    dsimp only
    rw [hj]
    split
    case isTrue hends =>
      rcases hends with rfl | rfl
      · obtain ⟨f, hf, hnone⟩ := hfa
        exact .inr ⟨f, _, hf, by rw [hnone]; nofun, rfl, nofun⟩
      · obtain ⟨f, hf, hnone⟩ := hfb
        exact .inr ⟨f, _, hf, by rw [hnone]; nofun, rfl, nofun⟩
    case isFalse => exact .inl rfl
  · rw [if_neg hmalloc]
    have hheap : s₂.heap = w.sys.heap := hb.heap.trans ha.heap
    have hlt : a < s₂.count ∧ b < s₂.count := ⟨Nat.lt_of_lt_of_le ha.lt hb.le, hb.lt⟩
    refine ⟨_, rfl, _, h.create hab hfa hfb hm₁ hm₂ (fun j => ?_) ?_ ?_ rfl rfl⟩
    · rw [hheap]
      exact two_slots_get ha hb j
    · dsimp only [Sys.setFh]
      rw [hheap]
    · have htable₃ := Table.set (t := ({ s₂ with heap := s₂.heap ++
          [some ⟨bipBufferInit m₁, bipBufferInit m₂, some a, 2⟩] } : Sys).setFh a
          ⟨some .socketpair, true, some s₂.heap.length⟩) htable₂ rfl (Nat.le_refl _) htable₂.count rfl
        fun hle => absurd hlt.1 (Nat.not_lt.mpr hle)
      exact htable₃.set rfl (Nat.le_refl _) htable₂.count rfl fun hle => absurd hlt.2 (Nat.not_lt.mpr hle)

/-- **No call breaks a pair**: every call that is allowed returns or waits. -/
theorem step_inv (h : Inv w B) {l : Call} (hok : CallOk w l) :
    ∃ w', step w l = some w' ∧ ∃ B', Inv w' B' := by
  cases l with
  | socketpair malloc m₁ m₂ =>
    obtain ⟨hfree, hm₁, hm₂⟩ := hok
    obtain ⟨r, hr, B', hinv⟩ := socketpair_inv h hfree malloc hm₁ hm₂
    exact ⟨_, by rw [step, hr]; rfl, B', hinv⟩
  | openOther clazz =>
    refine ⟨_, rfl, B, ?_⟩
    rcases Nat.eq_zero_or_pos (freeSlots w.sys) with hzero | hpos
    · rw [fhAlloc_none h.table clazz hzero]
      exact h
    · obtain ⟨i, s', hs', ha⟩ := fhAlloc_some h.table clazz hpos
      rw [hs']
      obtain ⟨f, hf, hnone⟩ := ha.free
      refine h.other (fun j => ?_) ha.heap (ha.table h.table) rfl rfl
      dsimp only
      rw [ha.fhs]
      by_cases hj : i = j
      · subst hj
        exact .inr ⟨f, _, hf, by rw [hnone]; nofun, List.getElem?_set_self (getElem?_lt hf),
          fun hc => hok (Option.some.inj hc)⟩
      · exact .inl (List.getElem?_set_ne hj)
  | write fd src =>
    rw [step]
    split
    · exact ⟨w, rfl, B, h⟩
    · split
      · rename_i i _ hc
        obtain ⟨w', hw', hinv⟩ := write_inv h hc src
        exact ⟨w', hw', B, hinv⟩
      · exact ⟨w, rfl, B, h⟩
  | read fd len =>
    rw [step]
    split
    · exact ⟨w, rfl, B, h⟩
    · split
      · rename_i i _ hc
        obtain ⟨w', hw', hinv⟩ := read_inv h hc len
        exact ⟨w', hw', B, hinv⟩
      · exact ⟨w, rfl, B, h⟩
  | close fd =>
    rw [step]
    split
    · exact ⟨w, rfl, B, h⟩
    · rename_i i hi
      obtain ⟨f, hf, hu⟩ := fhFromInt_some hi
      obtain ⟨s', hs', B', hinv⟩ := close_inv h hf hu
      exact ⟨_, by rw [hs']; rfl, B', hinv⟩

/-- Without two free slots `adb_socketpair` closes a handle that is a null pointer. -/
theorem socketpair_crash {s : Sys} (ht : Table s) (hfree : freeSlots s < 2) (malloc : Bool)
    (m₁ m₂ : List UInt8) : adbSocketpair s malloc m₁ m₂ = none := by
  rcases (by omega : freeSlots s = 0 ∨ freeSlots s = 1) with h | h
  · have h₁ := fhAlloc_none ht .socketpair h
    simp only [adbSocketpair, h₁]
    rfl
  · obtain ⟨a, s₁, h₁, ha⟩ := fhAlloc_some ht .socketpair (by omega)
    have hleft := ha.freeSlots
    have h₂ := fhAlloc_none (ha.table ht) .socketpair (by omega)
    simp only [adbSocketpair, h₁, h₂]
    rfl

/-- What the callers of the pairs rely on. -/
structure Good (w : World) : Prop where
  /-- What has come out of a direction is a beginning of what has gone into it. -/
  inOrder : ∀ p d, w.got p d <+: w.sent p d
  bounded : ∀ (p : Nat) (pair : SocketPair) (d : Bool), w.sys.heap[p]? = some (some pair) →
    (w.sent p d).length ≤ (w.got p d).length + BIP_BUFFER_SIZE
  /-- An end belongs to a pair that has not been freed. -/
  alive : ∀ i, classOf w.sys i = some .socketpair →
    ∃ p pair, w.sys.fhs[i]? = some ⟨some .socketpair, true, some p⟩ ∧
      w.sys.heap[p]? = some (some pair)
  /-- Of two ends of a pair one is A, and the other is not. -/
  opposite : ∀ (i j p : Nat) (pair : SocketPair), i ≠ j →
    w.sys.fhs[i]? = some ⟨some .socketpair, true, some p⟩ →
    w.sys.fhs[j]? = some ⟨some .socketpair, true, some p⟩ →
    w.sys.heap[p]? = some (some pair) → (pair.aFd = some i ↔ pair.aFd ≠ some j)

theorem Inv.good (h : Inv w B) : Good w where
  inOrder := h.inOrder
  bounded p pair d hp := by
    obtain ⟨q, hq, hlog⟩ := (h.live p pair hp).flow d
    have := hq.length_le
    rw [hlog, List.length_append]
    omega
  alive i hc := by
    obtain ⟨p, pair, hi, hp, -⟩ := pair_of_slot h hc
    exact ⟨p, pair, hi, hp⟩
  opposite i j p pair hij hi hj hp := by
    have hend {k : Nat} (hk : w.sys.fhs[k]? = some ⟨some .socketpair, true, some p⟩) :
        pair.aFd = some k ∨ B p = some k := by
      obtain ⟨p', pair', hfp, hp', hend⟩ := h.ends k _ hk rfl
      cases hfp
      cases hp.symm.trans hp'
      exact hend
    constructor
    · intro ha haj
      exact hij (Option.some.inj (ha.symm.trans haj))
    · intro haj
      rcases hend hi with ha | hb
      · exact ha
      · have hbj := (hend hj).resolve_left haj
        exact absurd (Option.some.inj (hb.symm.trans hbj)) hij

/-- **Socket pairs**: after whatever calls, on whatever descriptors, what one end has read is a beginning
of what was written at the other end of its pair, no end has lost its pair, and the two ends of a pair
read what the other one writes. The only call that crashes is `adb_socketpair` without two free slots. -/
theorem socketpairs_good (ls : List Call) (hok : RunOk step CallOk World.init ls) :
    ∃ w, run step World.init ls = some w ∧ Good w ∧ ∀ malloc m₁ m₂,
      m₁.length = BIP_BUFFER_SIZE → m₂.length = BIP_BUFFER_SIZE →
        (step w (.socketpair malloc m₁ m₂) = none ↔ freeSlots w.sys < 2) := by
  obtain ⟨w, hrun, B, hinv⟩ := run_exists (I := fun w => ∃ B, Inv w B)
    (fun w l ⟨B, h⟩ hl => step_inv h hl) ⟨_, init_inv⟩ hok
  refine ⟨w, hrun, hinv.good, fun malloc m₁ m₂ hm₁ hm₂ => ⟨fun hcrash => ?_, fun hfree => ?_⟩⟩
  · by_contra hfree
    obtain ⟨w', hw', -⟩ := step_inv hinv (l := .socketpair malloc m₁ m₂) ⟨by omega, hm₁, hm₂⟩
    rw [hcrash] at hw'
    cases hw'
  · rw [step, socketpair_crash hinv.table hfree]
    rfl

instance (w : World) : (l : Call) → Decidable (CallOk w l)
  | .socketpair _ m₁ m₂ => (inferInstance : Decidable
      (2 ≤ freeSlots w.sys ∧ m₁.length = BIP_BUFFER_SIZE ∧ m₂.length = BIP_BUFFER_SIZE))
  | .openOther clazz => (inferInstance : Decidable (clazz ≠ .socketpair))
  | .write _ _ => isTrue trivial
  | .read _ _ => isTrue trivial
  | .close _ => isTrue trivial

/-- Three bytes in one direction, of which two are read before an end is closed. -/
theorem socketpairs_good_three : ∃ w, run step World.init
    [.socketpair true (zeros 4096) (zeros 4096), .write 100 [1, 2, 3], .read 101 2, .close 100] =
      some w ∧ Good w := by
  obtain ⟨w, hrun, hgood, -⟩ := socketpairs_good
    [.socketpair true (zeros 4096) (zeros 4096), .write 100 [1, 2, 3], .read 101 2, .close 100]
    (by decide +kernel)
  exact ⟨w, hrun, hgood⟩

end Twm.Adb.Win32
