import DeviceTwm.Adb.UsbHandles
import Mathlib.Tactic.Tauto

/-!
# Runs of the USB handles

What every step of the scan and of the transports keeps of the handles of `usb_linux.c`, and with that
what is true of them after every run.

* `Listed.add`, `Listed.close`: a handle comes into the list, or leaves it.
* `Stepped`: what a step does to the handles that it does not close.
* `handles_good`: the handles after every run.
* `readonly_stays`: a handle that is only read is kicked, but never closed, and its device is not found
  again.
-/

open Lib

namespace Twm.Adb.UsbHandles

open UsbScan (Registered)

variable {s s' : Usb} {w : World} {u : UsbHandle} {h : Nat} {devName : Name} {l : List Nat}

/-! ## What a step keeps -/

theorem Listed.lt (hs : Listed s) {k : Nat} (hk : (s.heap k).isSome = true) : k < s.count := by
  by_contra hle
  rw [hs.fresh k (Nat.not_lt.mp hle)] at hk
  cases hk

section

variable {n : Name} {r : Registered} {a : Answers} {fd : Nat} {b : Bool}

theorem addHandle_self : (s.addHandle n r a fd b).heap s.count =
    some ⟨n, fd, r.epIn, r.epOut, r.zeroMask, b, false, true⟩ := Function.update_self _ _ _

theorem addHandle_of_ne {k : Nat} (hk : k ≠ s.count) :
    (s.addHandle n r a fd b).heap k = s.heap k := Function.update_of_ne hk _ _

end

/-- A new handle, under a name that is not there and with a descriptor that was not open. -/
theorem Listed.add (hs : Listed s) (hname : ∀ h u, s.heap h = some u → u.fname ≠ devName)
    {fd : Nat} (hfd : fd ∉ s.fds) (r : Registered) (a : Answers) (writeable : Bool) :
    Listed (s.addHandle devName r a fd writeable) := by
  have hnone := hs.fresh s.count (Nat.le_refl _)
  have hnot : s.count ∉ s.list := fun hm => by
    have hsome := (hs.live _).mp hm
    rw [hnone] at hsome
    cases hsome
  refine ⟨?_, fun k => ?_, fun k hk => ?_, fun j k u v hu hv he => ?_, ?_, ?_, fun q hq => ?_,
    fun q hq hro => ?_⟩
  · exact hs.nodup.append (List.nodup_singleton _) (List.disjoint_singleton.mpr hnot)
  · rw [Usb.addHandle, List.mem_append, List.mem_singleton, hs.live]
    rcases eq_or_ne k s.count with rfl | hk
    · rw [← Usb.addHandle, addHandle_self]
      simp
    · rw [← Usb.addHandle, addHandle_of_ne hk]
      simp [hk]
  · have hlt : s.count < k := hk
    rw [addHandle_of_ne (by omega)]
    exact hs.fresh k (by omega)
  · rcases eq_or_ne j s.count with rfl | hj <;> rcases eq_or_ne k s.count with rfl | hk
    · rfl
    · rw [addHandle_self] at hu
      rw [addHandle_of_ne hk] at hv
      cases hu
      exact absurd he.symm (hname k v hv)
    · rw [addHandle_self] at hv
      rw [addHandle_of_ne hj] at hu
      cases hv
      exact absurd he (hname j u hu)
    · rw [addHandle_of_ne hj] at hu
      rw [addHandle_of_ne hk] at hv
      exact hs.names j k u v hu hv he
  · have hdescs : (s.addHandle devName r a fd writeable).descs = s.descs ++ [fd] := by
      rw [Usb.descs, Usb.descs, Usb.addHandle, List.filterMap_append, ← Usb.addHandle]
      congr 1
      · refine List.filterMap_congr fun k hk => ?_
        rw [addHandle_of_ne fun he => hnot (he ▸ hk)]
      · rw [List.filterMap_cons, addHandle_self]
        rfl
    rw [hdescs]
    exact (List.perm_append_singleton fd _).trans (hs.descs.cons fd)
  · exact List.nodup_cons.mpr ⟨hfd, hs.distinct⟩
  · rcases List.mem_append.mp hq with hq | hq
    · obtain ⟨hlt, hreg⟩ := hs.registered q hq
      refine ⟨Nat.lt_succ_of_lt hlt, fun u hu => hreg u ?_⟩
      rwa [addHandle_of_ne (Nat.ne_of_lt hlt)] at hu
    · cases List.mem_singleton.mp hq
      refine ⟨Nat.lt_succ_self _, fun u hu => ?_⟩
      rw [addHandle_self] at hu
      cases hu
      exact ⟨rfl, rfl⟩
  · rcases List.mem_append.mp hq with hq | hq
    · rw [addHandle_of_ne (Nat.ne_of_lt (hs.registered q hq).1)]
      exact hs.stays q hq hro
    · cases List.mem_singleton.mp hq
      rw [addHandle_self]
      rfl

/-- A handle that is not only read is closed. -/
theorem Listed.close (hs : Listed s) (hu : s.heap h = some u) (hw : u.writeable = true) :
    ∃ s', s.usbClose h = some s' ∧ Listed s' ∧ s'.heap = Function.update s.heap h none ∧
      s'.count = s.count ∧ s'.poll = s.poll ∧ s'.unregistered = s.unregistered ∧
      s'.registered = s.registered := by
  rw [Usb.usbClose, hu]
  refine ⟨_, rfl, ?_, rfl, rfl, rfl, rfl, rfl⟩
  have hmem : h ∈ s.list := (hs.live h).mpr (by rw [hu]; rfl)
  have hget {k : Nat} {v : UsbHandle} (hv : Function.update s.heap h none k = some v) :
      k ≠ h ∧ s.heap k = some v := by
    rcases eq_or_ne k h with rfl | hk
    · rw [Function.update_self] at hv
      cases hv
    · rw [Function.update_of_ne hk] at hv
      exact ⟨hk, hv⟩
  refine ⟨hs.nodup.erase h, fun k => ?_, fun k hk => ?_, fun j k a b ha hb he => ?_, ?_,
    hs.distinct.erase _, fun q hq => ?_, fun q hq hro => ?_⟩
  · dsimp only
    rw [hs.nodup.mem_erase_iff, hs.live]
    rcases eq_or_ne k h with rfl | hk
    · simp
    · simp [hk]
  · dsimp only
    rw [Function.update_apply]
    split
    · rfl
    · exact hs.fresh k hk
  · exact hs.names j k a b (hget ha).2 (hget hb).2 he
  · have hperm := (List.perm_cons_erase hmem).filterMap fun k => (s.heap k).map UsbHandle.desc
    rw [List.filterMap_cons, hu] at hperm
    have hcons := (List.cons_perm_iff_perm_erase.mp (hperm.symm.trans hs.descs)).2
    refine List.Perm.trans (.of_eq (List.filterMap_congr fun k hk => ?_)) hcons
    dsimp only at hk ⊢
    rw [Function.update_of_ne (hs.nodup.mem_erase_iff.mp hk).1]
  · obtain ⟨hlt, hreg⟩ := hs.registered q hq
    exact ⟨hlt, fun v hv => hreg v (hget hv).2⟩
  · have hsome := hs.stays q hq hro
    have hne : q.usb ≠ h := fun he => by
      have := ((hs.registered q hq).2 u (he ▸ hu)).2
      rw [hw, hro] at this
      cases this
    dsimp only
    rwa [Function.update_of_ne hne]

/-- In a place where nothing is allocated nothing was abandoned. -/
theorem not_abandoned (hnone : s.heap h = none) : ¬ ∃ u ∈ s.heap h, u.Abandoned := by
  rw [hnone]
  nofun

theorem init_inv : Inv World.init where
  listed := ⟨List.nodup_nil, fun _ => ⟨nofun, nofun⟩, fun _ _ => rfl, nofun, .refl _, List.nodup_nil,
    nofun, nofun⟩
  mark := nofun
  dead := nofun
  past := nofun
  found := nofun
  opening := nofun
  unregistered _ := by rw [if_neg (not_abandoned rfl)]; rfl

/-- What a step does to a handle that it does not close, and whose transports it registers. -/
structure Stepped (w w' : World) : Prop where
  keeps : ∀ h u, w.usb.heap h = some u → u.writeable = false → ∃ v, w'.usb.heap h = some v ∧
    v.device = u.device ∧ (u.dead = true → v.dead = true)
  registers : ∃ new, w'.usb.registered = w.usb.registered ++ new ∧
    ∀ q ∈ new, ∀ h u, w.usb.heap h = some u → u.fname ≠ q.fname

theorem Same.stepped {w' : World} (hs : Same w.usb w'.usb) : Stepped w w' where
  keeps h u hu _ := by
    have hd := hs.device h
    rw [hu, Option.map_some] at hd
    obtain ⟨v, hv, he⟩ := Option.map_eq_some_iff.mp hd
    refine ⟨v, hv, he, fun hdead => ?_⟩
    have := hs.dead h
    rw [hu, hv] at this
    exact this hdead
  registers := ⟨[], by rw [hs.registered, List.append_nil], nofun⟩

/-- A step that changes nothing but where the thread is. -/
theorem stepped_poll {w' : World} (hheap : w'.usb.heap = w.usb.heap)
    (hreg : w'.usb.registered = w.usb.registered) : Stepped w w' :=
  ⟨fun h u hu _ => ⟨u, hheap ▸ hu, rfl, id⟩, [], by rw [hreg, List.append_nil], nofun⟩

theorem inv_entry (hi : Inv w) (hp : w.usb.poll = .scanning) (devName : Name)
    (found : Option Registered) : ∃ w', step w (.entry devName found) = some w' ∧ Inv w' ∧ Stepped w w' := by
  rw [step.eq_def]
  dsimp only
  rw [if_pos hp]
  rcases knownDevice_cases hi.listed devName with ⟨hk, hall⟩ | ⟨h, u, hu, rfl, hk⟩
  · rw [hk]
    refine ⟨_, rfl, ⟨⟨hi.listed.nodup, hi.listed.live, hi.listed.fresh, hi.listed.names,
      hi.listed.descs, hi.listed.distinct, hi.listed.registered, hi.listed.stays⟩,
      fun h u hu => ?_, hi.dead, hi.past, fun n r hf => ?_, fun n r ho => ?_, hi.unregistered⟩,
      stepped_poll rfl rfl⟩
    · rw [List.mem_cons, or_iff_right (hall h u hu)]
      exact hi.mark h u hu
    · cases found with
      | none => cases hf
      | some r =>
        cases hf
        exact List.mem_cons_self
    · cases found <;> cases ho
  · rw [hk]
    have hsame := same_setHandle hu (v := { u with mark := true }) rfl id
    have hpoll : (w.usb.setHandle h { u with mark := true }).poll = .scanning := hsame.poll.trans hp
    refine ⟨_, rfl, ⟨hi.listed.same hsame, fun k v hv => ?_, fun k v hv => ?_, hi.past,
      fun n r hf => absurd (hpoll.symm.trans hf) nofun,
      fun n r ho => absurd (hpoll.symm.trans ho) nofun, fun k => ?_⟩, hsame.stepped⟩
    · change Function.update w.usb.heap h _ k = _ at hv
      rcases eq_or_ne k h with rfl | hne
      · rw [Function.update_self] at hv
        cases hv
        simp
      · rw [Function.update_of_ne hne] at hv
        have hname : v.fname ≠ u.fname := fun he => hne (hi.listed.names k h v u hv hu he)
        rw [List.mem_cons, or_iff_right hname]
        exact hi.mark k v hv
    · change Function.update w.usb.heap h _ k = _ at hv
      rcases eq_or_ne k h with rfl | hne
      · rw [Function.update_self] at hv
        cases hv
        exact hi.dead k u hu
      · rw [Function.update_of_ne hne] at hv
        exact hi.dead k v hv
    · refine (hi.unregistered k).trans ?_
      change _ = if ∃ v ∈ Function.update w.usb.heap h (some { u with mark := true }) k, v.Abandoned
        then 1 else 0
      rcases eq_or_ne k h with rfl | hne
      · rw [Function.update_self, hu]
        simp [UsbHandle.Abandoned]
      · rw [Function.update_of_ne hne]

theorem inv_search (hi : Inv w) (hp : w.usb.poll.isFound = true) :
    ∃ w', step w .search = some w' ∧ Inv w' ∧ Stepped w w' := by
  rw [step]
  cases hf : w.usb.poll with
  | scanning => rw [hf] at hp; cases hp
  | opening n r => rw [hf] at hp; cases hp
  | found n r =>
    dsimp only
    have hl : ∀ p : Poll, Listed { w.usb with poll := p } := fun p =>
      ⟨hi.listed.nodup, hi.listed.live, hi.listed.fresh, hi.listed.names, hi.listed.descs,
        hi.listed.distinct, hi.listed.registered, hi.listed.stays⟩
    rcases findName_cases n fun h hh => (hi.listed.live h).mp hh with
      ⟨he, hall⟩ | ⟨h, u, hu, hn, he⟩
    · rw [he]
      refine ⟨_, rfl, ⟨hl _, hi.mark, hi.dead, hi.past, nofun, fun n' r' ho => ?_,
        hi.unregistered⟩, stepped_poll rfl rfl⟩
      cases ho
      exact ⟨hi.found n r hf, fun h u hu =>
        hall h ((hi.listed.live h).mpr (by rw [hu]; rfl)) u hu⟩
    · rw [he]
      exact ⟨_, rfl, ⟨hl _, hi.mark, hi.dead, hi.past, nofun, nofun, hi.unregistered⟩,
        stepped_poll rfl rfl⟩

/-- The handle that `register_device` adds is marked, and nothing has happened to it. -/
theorem Inv.add (hi : Inv w) {n : Name} {r : Registered} (ho : w.usb.poll = .opening n r)
    {fd : Nat} (hfd : fd ∉ w.usb.fds) (a : Answers) (writeable : Bool) :
    Inv { w with usb := w.usb.addHandle n r a fd writeable } := by
  obtain ⟨hn, hname⟩ := hi.opening n r ho
  have hnone := hi.listed.fresh w.usb.count (Nat.le_refl _)
  refine ⟨hi.listed.add hname hfd r a writeable, fun k v hv => ?_, fun k v hv => ?_,
    fun k hk => Nat.lt_succ_of_lt (hi.past k hk), nofun, nofun, fun k => ?_⟩
  · change (w.usb.addHandle n r a fd writeable).heap k = some v at hv
    rcases eq_or_ne k w.usb.count with rfl | hk
    · rw [addHandle_self] at hv
      cases hv
      exact iff_of_true rfl hn
    · rw [addHandle_of_ne hk] at hv
      exact hi.mark k v hv
  · change (w.usb.addHandle n r a fd writeable).heap k = some v at hv
    rcases eq_or_ne k w.usb.count with rfl | hk
    · rw [addHandle_self] at hv
      cases hv
      exact iff_of_false nofun fun hk => Nat.lt_irrefl _ (hi.past _ hk)
    · rw [addHandle_of_ne hk] at hv
      exact hi.dead k v hv
  · refine (hi.unregistered k).trans ?_
    change _ = if ∃ v ∈ (w.usb.addHandle n r a fd writeable).heap k, v.Abandoned then 1 else 0
    rcases eq_or_ne k w.usb.count with rfl | hk
    · rw [addHandle_self, hnone]
      simp [UsbHandle.Abandoned]
    · rw [addHandle_of_ne hk]

theorem stepped_add {n : Name} {r : Registered} (hi : Inv w) (ho : w.usb.poll = .opening n r)
    (a : Answers) (fd : Nat) (b : Bool) :
    Stepped w { w with usb := w.usb.addHandle n r a fd b } where
  keeps h u hu _ := by
    have hlt := hi.listed.lt (k := h) (by rw [hu]; rfl)
    exact ⟨u, (addHandle_of_ne (Nat.ne_of_lt hlt)).trans hu, rfl, id⟩
  registers := ⟨_, rfl, fun q hq => by
    cases List.mem_singleton.mp hq
    exact (hi.opening n r ho).2⟩

theorem inv_openDevice (hi : Inv w) {a : Answers} (hok : CallOk w (.openDevice a)) :
    ∃ w', step w (.openDevice a) = some w' ∧ Inv w' ∧ Stepped w w' := by
  obtain ⟨hp, hrdwr, hrdonly⟩ := hok
  rw [step]
  cases ho : w.usb.poll with
  | scanning => rw [ho] at hp; cases hp
  | found n r => rw [ho] at hp; cases hp
  | opening n r =>
    refine ⟨_, rfl, ?_⟩
    have hfail : Inv { w with usb := { w.usb with poll := .scanning } } :=
      ⟨⟨hi.listed.nodup, hi.listed.live, hi.listed.fresh, hi.listed.names, hi.listed.descs,
        hi.listed.distinct, hi.listed.registered, hi.listed.stays⟩, hi.mark, hi.dead, hi.past, nofun,
        nofun, hi.unregistered⟩
    unfold Usb.openDevice
    cases hw : a.rdwr with
    | some fd =>
      dsimp only
      split
      · exact ⟨hi.add ho (hrdwr fd hw) a true, stepped_add hi ho a fd true⟩
      · exact ⟨hfail, stepped_poll rfl rfl⟩
    | none =>
      cases hr : a.rdonly with
      | some fd => exact ⟨hi.add ho (hrdonly fd hr) a false, stepped_add hi ho a fd false⟩
      | none => exact ⟨hfail, stepped_poll rfl rfl⟩

theorem swept_mark (u : UsbHandle) : u.swept.mark = false := by
  rw [UsbHandle.swept]
  split
  · assumption
  · rfl

theorem swept_dead (u : UsbHandle) : u.swept.dead = true ↔ u.mark = false ∨ u.dead = true := by
  rw [UsbHandle.swept]
  split
  case isTrue hm => exact iff_of_true rfl (.inl hm)
  case isFalse hm => exact (or_iff_right hm).symm

theorem swept_writeable (u : UsbHandle) : u.swept.writeable = u.writeable := by
  rw [UsbHandle.swept]
  split <;> rfl

theorem swept_abandoned (u : UsbHandle) : u.swept.Abandoned ↔ u.Unregisters ∨ u.Abandoned := by
  rw [UsbHandle.Abandoned, UsbHandle.Abandoned, UsbHandle.Unregisters, swept_dead, swept_writeable]
  cases u.mark <;> cases u.dead <;> cases u.writeable <;> decide

theorem inv_kickDisconnected (hi : Inv w) (hp : w.usb.poll = .scanning) :
    ∃ w', step w .kickDisconnected = some w' ∧ Inv w' ∧ Stepped w w' := by
  obtain ⟨s', hs', hsw⟩ := kickLoop_spec (s := w.usb) hi.listed.nodup fun h hh =>
    (hi.listed.live h).mp hh
  have hpoll : s'.poll = .scanning := hsw.same.poll.trans hp
  have hheap : ∀ h, s'.heap h = (w.usb.heap h).map UsbHandle.swept := fun h => by
    rw [hsw.heap]
    split
    · rfl
    case isFalse hh =>
      have hnone : w.usb.heap h = none :=
        Option.not_isSome_iff_eq_none.mp fun hsome => hh ((hi.listed.live h).mpr hsome)
      rw [hnone, Option.map_none]
  have hget {h : Nat} {v : UsbHandle} (hv : s'.heap h = some v) :
      ∃ u, w.usb.heap h = some u ∧ h ∈ w.usb.list ∧ u.swept = v := by
    rw [hheap] at hv
    obtain ⟨u, hu, he⟩ := Option.map_eq_some_iff.mp hv
    exact ⟨u, hu, (hi.listed.live h).mpr (by rw [hu]; rfl), he⟩
  rw [step, if_pos hp, Usb.kickDisconnectedDevices, hs']
  refine ⟨_, rfl, ⟨hi.listed.same hsw.same, fun h v hv => ?_, fun h v hv => ?_, fun h hh => ?_,
    fun n r hf => absurd (hpoll.symm.trans hf) nofun,
    fun n r ho => absurd (hpoll.symm.trans ho) nofun, fun h => ?_⟩, hsw.same.stepped⟩
  · obtain ⟨u, -, -, rfl⟩ := hget hv
    rw [swept_mark]
    exact iff_of_false nofun List.not_mem_nil
  · obtain ⟨u, hu, hmem, rfl⟩ := hget hv
    have hmark : u.mark = false ↔ ∀ n ∈ w.visited, n ≠ u.fname := by
      rw [← Bool.not_eq_true, hi.mark h u hu]
      exact List.forall_mem_ne'.symm
    rw [swept_dead, hi.dead h u hu, hmark]
    simp only [List.mem_append, List.mem_filter, hmem, hu, Option.any_some, decide_eq_true_eq, true_and]
    tauto
  · change h ∈ w.missed ++ _ ∨ h ∈ w.kicked at hh
    rw [hsw.same.count]
    rw [List.mem_append, List.mem_filter] at hh
    rcases hh with (hm | ⟨hm, -⟩) | hk
    · exact hi.past h (.inl hm)
    · exact hi.listed.lt ((hi.listed.live h).mp hm)
    · exact hi.past h (.inr hk)
  · change s'.unregistered.count h = if ∃ v ∈ s'.heap h, v.Abandoned then 1 else 0
    rw [hsw.unregistered, hi.unregistered, hheap]
    cases hu : w.usb.heap h with
    | none => simp
    | some u =>
      have hmem : h ∈ w.usb.list := (hi.listed.live h).mpr (by rw [hu]; rfl)
      have hboth : u.Unregisters → ¬ u.Abandoned := fun hun hab =>
        absurd (hun.2.1.symm.trans hab.1) nofun
      simp only [Option.mem_def, Option.map_some, Option.some.injEq, exists_eq_left', hmem, true_and,
        swept_abandoned]
      by_cases hun : u.Unregisters
      · rw [if_neg (hboth hun), if_pos hun, if_pos (.inl hun)]
      · simp only [hun, false_or, if_false, Nat.add_zero]

theorem inv_usbKick (hi : Inv w) {h : Nat} (hok : (w.usb.heap h).isSome = true) :
    ∃ w', step w (.usbKick h) = some w' ∧ Inv w' ∧ Stepped w w' := by
  obtain ⟨u, hu⟩ := Option.isSome_iff_exists.mp hok
  obtain ⟨s', hs', hk⟩ := usbKick_spec hu
  have hlt := hi.listed.lt hok
  rw [step, hs']
  refine ⟨_, rfl, ⟨hi.listed.same hk.same, fun k v hv => ?_, fun k v hv => ?_, fun k hk' => ?_,
    fun n r hf => hi.found n r (hk.same.poll ▸ hf), fun n r ho => ?_, fun k => ?_⟩, hk.same.stepped⟩
  · change s'.heap k = _ at hv
    rw [hk.heap] at hv
    rcases eq_or_ne k h with rfl | hne
    · rw [Function.update_self] at hv
      cases hv
      exact hi.mark k u hu
    · rw [Function.update_of_ne hne] at hv
      exact hi.mark k v hv
  · change s'.heap k = _ at hv
    rw [hk.heap] at hv
    rw [List.mem_append, List.mem_singleton]
    rcases eq_or_ne k h with rfl | hne
    · rw [Function.update_self] at hv
      cases hv
      exact iff_of_true rfl (.inr (.inr rfl))
    · rw [Function.update_of_ne hne] at hv
      rw [or_iff_left hne]
      exact hi.dead k v hv
  · change k ∈ w.missed ∨ k ∈ w.kicked ++ [h] at hk'
    rw [hk.same.count]
    rw [List.mem_append, List.mem_singleton] at hk'
    rcases hk' with hm | hm | rfl
    · exact hi.past k (.inl hm)
    · exact hi.past k (.inr hm)
    · exact hlt
  · obtain ⟨hn, hname⟩ := hi.opening n r (hk.same.poll ▸ ho)
    refine ⟨hn, fun k v hv => ?_⟩
    obtain ⟨u', hu', he, -⟩ := hk.same.get hv
    rw [← he]
    exact hname k u' hu'
  · change s'.unregistered.count k = if ∃ v ∈ s'.heap k, v.Abandoned then 1 else 0
    rw [hk.unregistered, hk.heap, List.count_append, hi.unregistered]
    rcases eq_or_ne k h with rfl | hne
    · rw [Function.update_self, hu]
      simp only [Option.mem_def, Option.some.injEq, exists_eq_left', UsbHandle.Abandoned]
      cases u.dead <;> cases u.writeable <;> simp
    · rw [Function.update_of_ne hne, count_ite_of_ne hne, Nat.add_zero]

theorem inv_usbClose (hi : Inv w) {h : Nat}
    (hok : (w.usb.heap h).any UsbHandle.writeable = true) :
    ∃ w', step w (.usbClose h) = some w' ∧ Inv w' ∧ Stepped w w' := by
  obtain ⟨u, hu⟩ := Option.isSome_iff_exists.mp (Option.isSome_of_any hok)
  have hw : u.writeable = true := by rwa [hu] at hok
  obtain ⟨s', hs', hlist, hheap, hcount, hpoll, hun, hreg⟩ := hi.listed.close hu hw
  have hget {k : Nat} {v : UsbHandle} (hv : s'.heap k = some v) : w.usb.heap k = some v := by
    rw [hheap, Function.update_apply] at hv
    split at hv
    · cases hv
    · exact hv
  rw [step, hs']
  refine ⟨_, rfl, ⟨hlist, fun k v hv => hi.mark k v (hget hv), fun k v hv => hi.dead k v (hget hv),
    fun k hk => hcount ▸ hi.past k hk, fun n r hf => hi.found n r (hpoll ▸ hf), fun n r ho => ?_,
    fun k => ?_⟩, fun k v hv hro => ⟨v, ?_, rfl, id⟩, [], ?_, nofun⟩
  · obtain ⟨hn, hname⟩ := hi.opening n r (hpoll ▸ ho)
    exact ⟨hn, fun k v hv => hname k v (hget hv)⟩
  · change s'.unregistered.count k = if ∃ v ∈ s'.heap k, v.Abandoned then 1 else 0
    rw [hun, hi.unregistered, hheap]
    rcases eq_or_ne k h with rfl | hne
    · rw [Function.update_self, hu]
      simp [UsbHandle.Abandoned, hw]
    · rw [Function.update_of_ne hne]
  · have hne : k ≠ h := fun he => by
      rw [he, hu] at hv
      cases hv
      exact absurd (hw.symm.trans hro) nofun
    change s'.heap k = some v
    rw [hheap, Function.update_of_ne hne, hv]
  · rw [List.append_nil]
    exact hreg

theorem step_inv (hi : Inv w) {c : Call} (hok : CallOk w c) :
    ∃ w', step w c = some w' ∧ Inv w' ∧ Stepped w w' := by
  cases c with
  | entry n f => exact inv_entry hi hok n f
  | search => exact inv_search hi hok
  | openDevice a => exact inv_openDevice hi hok
  | kickDisconnected => exact inv_kickDisconnected hi hok
  | usbKick h => exact inv_usbKick hi hok
  | usbClose h => exact inv_usbClose hi hok

/-- What is true of the handles after every run. -/
structure Good (w : World) : Prop where
  /-- A handle that is in the list was not freed, and the other way round. -/
  live : ∀ h, h ∈ w.usb.list ↔ (w.usb.heap h).isSome = true
  names : ∀ h k u v, w.usb.heap h = some u → w.usb.heap k = some v → u.fname = v.fname → h = k
  /-- A handle is dead if a whole scan did not come to its name, or a transport has kicked it, and
  otherwise never. -/
  dead : ∀ h u, w.usb.heap h = some u → (u.dead = true ↔ h ∈ w.missed ∨ h ∈ w.kicked)
  /-- The transport of a handle that is only read was unregistered once, when the handle died; no other
  one was. -/
  unregistered : ∀ h, w.usb.unregistered.count h =
    if ∃ u ∈ w.usb.heap h, u.dead = true ∧ u.writeable = false then 1 else 0
  /-- Each open descriptor is the one of one handle in the list. -/
  descs : w.usb.descs.Perm w.usb.fds ∧ w.usb.descs.Nodup

theorem Inv.good (hi : Inv w) : Good w where
  live := hi.listed.live
  names := hi.listed.names
  dead := hi.dead
  unregistered := hi.unregistered
  descs := ⟨hi.listed.descs, hi.listed.descs.nodup_iff.mpr hi.listed.distinct⟩

/-- **The handles after every run** of scans and of what the transports do in between: no call uses a
handle that was freed, and the handles are as they should be. -/
theorem handles_good (cs : List Call) (hok : RunOk step CallOk World.init cs) :
    ∃ w, run step World.init cs = some w ∧ Good w := by
  obtain ⟨w, hrun, hi⟩ := run_exists (I := Inv)
    (fun w c hi hc => (step_inv hi hc).imp fun _ h => ⟨h.1, h.2.1⟩) init_inv hok
  exact ⟨w, hrun, hi.good⟩

instance (w : World) : (c : Call) → Decidable (CallOk w c)
  | .entry _ _ => (inferInstance : Decidable (w.usb.poll = .scanning))
  | .search => (inferInstance : Decidable (w.usb.poll.isFound = true))
  | .openDevice a => (inferInstance : Decidable (w.usb.poll.isOpening = true ∧
      (∀ fd ∈ a.rdwr, fd ∉ w.usb.fds) ∧ ∀ fd ∈ a.rdonly, fd ∉ w.usb.fds))
  | .kickDisconnected => (inferInstance : Decidable (w.usb.poll = .scanning))
  | .usbKick h => (inferInstance : Decidable ((w.usb.heap h).isSome = true))
  | .usbClose h => (inferInstance : Decidable ((w.usb.heap h).any UsbHandle.writeable = true))

/-- A request that fails. -/
def noControl : Control := ⟨-1, List.replicate 128 0, List.length_replicate, by decide⟩

/-- The interface of a device without a serial number. -/
def plainDevice : Registered := ⟨0x81, 1, 0, 0, 0⟩

/-- Two devices are found, the first one is missed by a scan and closed. -/
def twoDevices : List Call :=
  [.entry [49] (some plainDevice), .search,
    .openDevice ⟨some 5, true, none, noControl, fun _ _ => noControl⟩,
    .entry [50] (some plainDevice), .search,
    .openDevice ⟨none, false, some 6, noControl, fun _ _ => noControl⟩, .kickDisconnected, .entry [50] none, .kickDisconnected, .usbClose 0]

theorem handles_good_two : ∃ w, run step World.init twoDevices = some w ∧ Good w :=
  handles_good twoDevices (by decide +kernel)

/-! ## Handles that are only read -/

/-- The handle `h`, which was `u`, is still there, and since `old` nothing was registered under its
name. -/
structure Stale (h : Nat) (u : UsbHandle) (old : List Registration) (w : World) : Prop where
  there : ∃ v, w.usb.heap h = some v ∧ v.device = u.device ∧ v.Abandoned
  none : ∃ new, w.usb.registered = old ++ new ∧ ∀ q ∈ new, q.fname ≠ u.fname

theorem Stale.step {h : Nat} {u : UsbHandle} {old : List Registration} {w w' : World}
    (hst : Stale h u old w) (hs : Stepped w w') : Stale h u old w' where
  there := by
    obtain ⟨v, hv, hdev, hdead, hro⟩ := hst.there
    obtain ⟨v', hv', hdev', hdead'⟩ := hs.keeps h v hv hro
    exact ⟨v', hv', hdev'.trans hdev, hdead' hdead, (congrArg (·.2.2) hdev').trans hro⟩
  none := by
    obtain ⟨v, hv, hdev, -⟩ := hst.there
    obtain ⟨new, hold, hnew⟩ := hst.none
    obtain ⟨new', hreg, hnew'⟩ := hs.registers
    refine ⟨new ++ new', by rw [hreg, hold, List.append_assoc], fun q hq => ?_⟩
    rcases List.mem_append.mp hq with hq | hq
    · exact hnew q hq
    · have hname : v.fname = u.fname := congrArg (·.1) hdev
      rw [← hname]
      exact Ne.symm (hnew' q hq h v hv)

/-- **A handle that is only read stays**: once its device was unplugged or its transport kicked, it is in
the list after every longer run, its descriptor is open, and no device under its name is registered
again. -/
theorem readonly_stays (cs ds : List Call) (hok : RunOk step CallOk World.init (cs ++ ds)) {w : World}
    (hrun : run step World.init cs = some w) {h : Nat} {u : UsbHandle} (hu : w.usb.heap h = some u)
    (hdead : u.dead = true) (hro : u.writeable = false) :
    ∃ w', run step w ds = some w' ∧ h ∈ w'.usb.list ∧ u.desc ∈ w'.usb.fds ∧
      ∃ new, w'.usb.registered = w.usb.registered ++ new ∧ ∀ q ∈ new, q.fname ≠ u.fname := by
  have hi : Inv w := run_invariant (I := Inv) (fun w c w' hi hc hs => by
    obtain ⟨w₁, hs₁, hi₁, -⟩ := step_inv hi hc
    rw [hs₁] at hs
    cases hs
    exact hi₁) init_inv hok.of_append hrun
  obtain ⟨w', hrun', hi', hst⟩ := run_exists (I := fun w' => Inv w' ∧ Stale h u w.usb.registered w')
    (fun w₁ c hI hc => by
      obtain ⟨w₂, hs, hi₂, hstep⟩ := step_inv hI.1 hc
      exact ⟨w₂, hs, hi₂, hI.2.step hstep⟩)
    ⟨hi, ⟨u, hu, rfl, hdead, hro⟩, [], (List.append_nil _).symm, nofun⟩ (hok.of_append_right hrun)
  obtain ⟨v, hv, hdev, -⟩ := hst.there
  have hmem : h ∈ w'.usb.list := (hi'.listed.live h).mpr (by rw [hv]; rfl)
  refine ⟨w', hrun', hmem, ?_, hst.none⟩
  rw [← hi'.listed.descs.mem_iff]
  refine List.mem_filterMap.mpr ⟨h, hmem, ?_⟩
  rw [hv, Option.map_some]
  exact congrArg some (congrArg (·.2.1) hdev)

/-- A device that can only be read is unplugged, and another one comes back under its name. -/
theorem readonly_stays_one : ∃ w w', run step World.init
    [.entry [49] (some plainDevice), .search,
      .openDevice ⟨none, false, some 5, noControl, fun _ _ => noControl⟩, .kickDisconnected,
      .kickDisconnected] = some w ∧
    run step w [.entry [49] (some plainDevice), .kickDisconnected] = some w' ∧ 0 ∈ w'.usb.list ∧
      5 ∈ w'.usb.fds := by
  obtain ⟨w', hrun, hlist, hfds, -⟩ := readonly_stays
    [.entry [49] (some plainDevice), .search,
      .openDevice ⟨none, false, some 5, noControl, fun _ _ => noControl⟩, .kickDisconnected,
      .kickDisconnected]
    [.entry [49] (some plainDevice), .kickDisconnected] (by decide +kernel) rfl (h := 0)
    (u := ⟨[49], 5, 0x81, 1, 0, false, true, false⟩) rfl rfl rfl
  exact ⟨_, w', rfl, hrun, hlist, hfds⟩

end Twm.Adb.UsbHandles
