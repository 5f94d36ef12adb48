import DeviceTwm.Lib.LockOrder
import Mathlib.Logic.Function.Basic

/-!
# The locks of the USB devices (`usb_linux.c` and `transport.c` of `adb`)

`usb_lock` is for the list of handles, each handle has a lock of its own, and `transport_lock` is for the
list of transports, their references and `kicked`. They are taken inside each other:

* `kick_disconnected_devices` holds `usb_lock` and takes the lock of a handle (`usb_kick`), and under both
  `transport_lock`, if the handle can only be read (`unregister_usb_transport`);
* the last `transport_unref` holds `transport_lock` and takes `usb_lock` (`usb_close`). There is one only
  for a transport with threads, so for a handle that can be written.

`deadlock_iff`: threads come to wait for each other in some run if and only if there are devices of both
kinds.
-/

open Lib

namespace Twm.Adb.UsbLocks

inductive Lock
  | usb
  | transport
  | handle (h : Nat)
  deriving DecidableEq

inductive Thread
  /-- `device_poll_thread`. -/
  | poll
  /-- The two threads of the transport of a device. -/
  | io (h : Nat) (input : Bool)
  /-- The main thread, and those that kick transports. -/
  | other (n : Nat)
  deriving DecidableEq

/-- What is read and written between the locks; a transport is named by its device. -/
structure Data where
  /-- `handle_list`. -/
  list : List Nat
  mark : Nat → Bool
  dead : Nat → Bool
  kicked : Nat → Bool
  refCount : Nat → Int
  /-- The transport has its threads. -/
  started : Nat → Bool
  /-- The variable `kicked` of `kick_transport`, of each thread. -/
  wasKicked : Thread → Bool
  /-- The thread has ended. -/
  ended : Thread → Bool

/-- What happens between taking and giving back locks. -/
inductive Act
  /-- Something that has nothing to do with these locks. -/
  | skip
  | mark (h : Nat)
  | append (h : Nat)
  | sweep
  | sweepOne (h : Nat)
  | kick (h : Nat)
  | close (h : Nat)
  | start (h : Nat)
  | testKicked (t : Thread) (h : Nat)
  | setKicked (t : Thread) (h : Nat)
  | kickUnless (t : Thread) (h : Nat)
  | unref (h : Nat)
  | finish (t : Thread)
  deriving DecidableEq

abbrev Op := LockOp Lock Act

/-! ## The functions -/

/-- `known_device`, for the name of the device `h`. -/
def knownDevice (h : Nat) : List Op := [.lock .usb, .act (.mark h), .unlock .usb]

/-- `register_device`: the search, and the handle that is put at the end of the list. -/
def registerDevice (h : Nat) : List Op :=
  [.lock .usb, .act .skip, .unlock .usb, .lock .usb, .act (.append h), .unlock .usb]

/-- `unregister_usb_transport`. -/
def unregisterUsbTransport : List Op := [.lock .transport, .act .skip, .unlock .transport]

/-- `usb_kick`. -/
def usbKick (h : Nat) : List Op := [.lock (.handle h), .act (.kick h), .unlock (.handle h)]

/-- `usb_close`. -/
def usbClose (h : Nat) : List Op := [.lock .usb, .act (.close h), .unlock .usb]

def kickDisconnectedDevices : List Op := [.lock .usb, .act .sweep, .unlock .usb]

/-- `usb_bulk_write` or `usb_bulk_read`, which give the lock back `n` times while they wait. -/
def usbBulk (h : Nat) : Nat → List Op
  | 0 => [.lock (.handle h), .act .skip, .unlock (.handle h)]
  | n + 1 => .lock (.handle h) :: .act .skip :: .unlock (.handle h) :: usbBulk h n

/-- The section of `kick_transport`, and what follows it. -/
def kickSection (t : Thread) (h : Nat) : List Op :=
  [.lock .transport, .act (.setKicked t h), .unlock .transport, .act (.kickUnless t h)]

/-- `kick_transport`, called by `t`. -/
def kickTransport (t : Thread) (h : Nat) : List Op := [.act (.testKicked t h)]

/-- `transport_unref`. -/
def transportUnref (h : Nat) : List Op := [.lock .transport, .act (.unref h), .unlock .transport]

/-- How a thread of a transport ends. -/
def leaveThread (t : Thread) (h : Nat) : List Op :=
  kickTransport t h ++ transportUnref h ++ [.act (.finish t)]

/-- `transport_registration_func` for a new transport. -/
def registration (h : Nat) : List Op :=
  [.act (.start h), .lock .transport, .act .skip, .unlock .transport]

/-- The functions that go through the list of transports. -/
def transportSection : List Op := [.lock .transport, .act .skip, .unlock .transport]

/-- `unregister_transport`, called by `t`. -/
def unregisterTransport (t : Thread) (h : Nat) : List Op :=
  transportSection ++ kickTransport t h ++ transportUnref h

/-- What an action does, and what is run next. -/
def exec (writeable : Nat → Bool) (d : Data) : Act → Data × List Op
  | .skip => (d, [])
  | .mark h => (if h ∈ d.list then { d with mark := Function.update d.mark h true } else d, [])
  | .append h =>
    (if h ∈ d.list then d
    else { d with list := d.list ++ [h], mark := Function.update d.mark h true }, [])
  | .sweep => (d, d.list.map fun h => .act (.sweepOne h))
  | .sweepOne h =>
    if d.mark h = false then (d, usbKick h)
    else ({ d with mark := Function.update d.mark h false }, [])
  | .kick h =>
    if d.dead h then (d, [])
    else
      ({ d with dead := Function.update d.dead h true },
        if writeable h then [] else unregisterUsbTransport)
  | .close h => ({ d with list := d.list.erase h }, [])
  | .start h =>
    (if writeable h then { d with
        refCount := Function.update d.refCount h 2, started := Function.update d.started h true }
    else d, [])
  | .testKicked t h => (d, if d.kicked h then [] else kickSection t h)
  | .setKicked t h =>
    ({ d with
        wasKicked := Function.update d.wasKicked t (d.kicked h)
        kicked := Function.update d.kicked h true }, [])
  | .kickUnless t h => (d, if d.wasKicked t then [] else usbKick h)
  | .unref h =>
    if d.refCount h - 1 = 0 then
      ({ d with
          refCount := Function.update d.refCount h 0
          kicked := Function.update d.kicked h true },
        (if d.kicked h then [] else usbKick h) ++ usbClose h)
    else ({ d with refCount := Function.update d.refCount h (d.refCount h - 1) }, [])
  | .finish t => ({ d with ended := Function.update d.ended t true }, [])

abbrev State := Machine Thread Lock Act Data

/-- No device has been found. -/
def init : State where
  data := ⟨[], fun _ => false, fun _ => false, fun _ => false, fun _ => 0, fun _ => false,
    fun _ => false, fun _ => false⟩
  owner := fun _ => none
  prog := fun _ => []

/-- What the threads run. The threads of a transport are there once it was started, until they leave. -/
inductive Calls (d : Data) : Thread → List Op → Prop
  | known (h : Nat) : Calls d .poll (knownDevice h)
  | register (h : Nat) : Calls d .poll (registerDevice h)
  | disconnected : Calls d .poll kickDisconnectedDevices
  | bulk (h : Nat) (input : Bool) (n : Nat) : d.started h = true → d.ended (.io h input) = false →
      Calls d (.io h input) (usbBulk h n)
  | leave (h : Nat) (input : Bool) : d.started h = true → d.ended (.io h input) = false →
      Calls d (.io h input) (leaveThread (.io h input) h)
  | registered (n h : Nat) : h ∈ d.list → d.started h = false → Calls d (.other n) (registration h)
  | kick (n h : Nat) : Calls d (.other n) (kickTransport (.other n) h)
  | transports (n : Nat) : Calls d (.other n) transportSection
  | unregister (n h : Nat) : Calls d (.other n) (unregisterTransport (.other n) h)

/-- A call is one of those; a thread that has a program goes on with it. -/
def StepOk (m : State) : MachineStep Thread Lock Act → Prop
  | .call t p => Calls m.data t p
  | .run _ => True

/-! ## Without a deadlock -/

variable {writeable : Nat → Bool} {rank : Lock → Nat}

/-- The device `h` may be kicked with these locks. -/
def KickFits (writeable : Nat → Bool) (rank : Lock → Nat) (h : Nat) (held : List Lock) : Prop :=
  (∀ k ∈ held, rank k < rank (.handle h)) ∧
    (writeable h = true ∨ ∀ k ∈ .handle h :: held, rank k < rank .transport)

/-- Where an action may stand: what it leads to takes its locks in order. -/
def Fits (writeable : Nat → Bool) (rank : Lock → Nat) : Act → List Lock → Prop
  | .sweep, held => ∀ h, KickFits writeable rank h held
  | .sweepOne h, held => KickFits writeable rank h held
  | .kick h, held => writeable h = true ∨ ∀ k ∈ held, rank k < rank .transport
  | .testKicked _ h, held => held = [] ∧ KickFits writeable rank h []
  | .kickUnless _ h, held => held = [] ∧ KickFits writeable rank h []
  | .unref h, held => writeable h = true →
      KickFits writeable rank h held ∧ ∀ k ∈ held, rank k < rank .usb
  | _, _ => True

theorem ordered_usbKick {h : Nat} {held : List Lock} {ops : List Op}
    (hk : KickFits writeable rank h held) (ho : Ordered rank (Fits writeable rank) held ops) :
    Ordered rank (Fits writeable rank) held (usbKick h ++ ops) :=
  ordered_section hk.1 hk.2 ho

theorem ordered_sweep {held : List Lock} {ops : List Op} (hk : ∀ h, KickFits writeable rank h held)
    (ho : Ordered rank (Fits writeable rank) held ops) (l : List Nat) :
    Ordered rank (Fits writeable rank) held ((l.map fun h => .act (.sweepOne h)) ++ ops) := by
  induction l with
  | nil => exact ho
  | cons h l ih => exact ⟨hk h, ih⟩

/-- Only the transports of devices that can be written get threads, and references. -/
def DataOk (writeable : Nat → Bool) (d : Data) : Prop :=
  ∀ h, writeable h = false → d.started h = false ∧ d.refCount h ≤ 0

theorem exec_dataOk {d : Data} (hd : DataOk writeable d) (a : Act) :
    DataOk writeable (exec writeable d a).1 := by
  cases a with
  | start k =>
    rw [exec]
    dsimp only
    split
    case isTrue hw =>
      intro h hr
      have hne : h ≠ k := fun he => absurd (hr.symm.trans (he ▸ hw)) (by decide)
      dsimp only
      rw [Function.update_of_ne hne, Function.update_of_ne hne]
      exact hd h hr
    · exact hd
  | unref k =>
    intro h hr
    rw [exec]
    rcases eq_or_ne h k with rfl | hne
    · obtain ⟨hs, hc⟩ := hd h hr
      rw [if_neg (by omega)]
      refine ⟨hs, ?_⟩
      dsimp only
      rw [Function.update_self]
      omega
    · split <;> (dsimp only; rw [Function.update_of_ne hne]; exact hd h hr)
  | mark k | append k | sweepOne k | kick k =>
    simp only [exec]
    split <;> exact hd
  | skip | sweep | close | testKicked | setKicked | kickUnless | finish => exact hd

/-- What the actions lead to is in order, where they fit. -/
theorem leads : Machine.Leads (exec writeable) (DataOk writeable) rank (Fits writeable rank) := by
  refine fun d a hd => ⟨exec_dataOk hd a, fun held ops hf ho => ?_⟩
  cases a with
  | sweep => exact ordered_sweep hf ho d.list
  | sweepOne h =>
    rw [exec]
    split
    · exact ordered_usbKick hf ho
    · exact ho
  | kick h =>
    rw [exec]
    split
    · exact ho
    · dsimp only
      split
      · exact ho
      case isFalse hw => exact ordered_section (hf.resolve_left hw) trivial ho
  | testKicked t h =>
    obtain ⟨rfl, hk⟩ := hf
    rw [exec]
    dsimp only
    split
    · exact ho
    · exact ordered_section nofun trivial ⟨⟨rfl, hk⟩, ho⟩
  | kickUnless t h =>
    obtain ⟨rfl, hk⟩ := hf
    rw [exec]
    dsimp only
    split
    · exact ho
    · exact ordered_usbKick hk ho
  | unref h =>
    rw [exec]
    split
    case isTrue hlast =>
      -- a device that can only be read has no last reference
      have hw : writeable h = true := by
        by_contra hr
        have := (hd h (Bool.eq_false_iff.mpr hr)).2
        omega
      obtain ⟨hkick, husb⟩ := hf hw
      have hclose := ordered_section (a := .close h) husb trivial ho
      dsimp only
      rw [List.append_assoc]
      split
      · exact hclose
      · exact ordered_usbKick hkick hclose
    · exact ho
  | start h => rw [exec]; exact ho
  | skip | mark | append | close | setKicked | finish => exact ho

/-- An order of the locks in which the scan may kick devices, and a reference may be dropped. -/
structure Order (writeable : Nat → Bool) (rank : Lock → Nat) : Prop where
  kick : ∀ h held, (∀ k ∈ held, k = .usb) → KickFits writeable rank h held
  unref : ∀ h, Fits writeable rank (.unref h) [.transport]

theorem ordered_bulk (h n : Nat) : Ordered rank (Fits writeable rank) [] (usbBulk h n) := by
  induction n with
  | zero => exact ordered_section nofun trivial rfl
  | succ n ih => exact ordered_section nofun trivial ih

/-- Everything that is called takes its locks in order. -/
theorem ordered_of_calls (ho : Order writeable rank) {d : Data} {t : Thread} {p : List Op}
    (hc : Calls d t p) : Ordered rank (Fits writeable rank) [] p := by
  cases hc with
  | known h => exact ordered_section nofun trivial rfl
  | register h => exact ordered_section nofun trivial (ordered_section nofun trivial rfl)
  | disconnected =>
    exact ordered_section nofun (fun h => ho.kick h _ fun k hk => List.mem_singleton.mp hk) rfl
  | bulk h input n => exact ordered_bulk h n
  | leave h input =>
    exact ⟨⟨rfl, ho.kick h _ nofun⟩, ordered_section nofun (ho.unref h) ⟨trivial, rfl⟩⟩
  | registered n h => exact ⟨trivial, ordered_section nofun trivial rfl⟩
  | kick n h => exact ⟨⟨rfl, ho.kick h _ nofun⟩, rfl⟩
  | transports n => exact ordered_section nofun trivial rfl
  | unregister n h =>
    exact ordered_section nofun trivial
      ⟨⟨rfl, ho.kick h _ nofun⟩, ordered_section nofun (ho.unref h) rfl⟩

theorem init_inv : Machine.Inv (DataOk writeable) rank (Fits writeable rank) init where
  data _ _ := ⟨rfl, Int.le_refl 0⟩
  ordered _ := ⟨[], List.nodup_nil, fun _ => ⟨nofun, nofun⟩, rfl⟩

/-- With an order of the locks no run comes to a deadlock. -/
theorem no_deadlock (ho : Order writeable rank) {n : Nat} (hn : ∀ l, rank l ≤ n)
    {ss : List (MachineStep Thread Lock Act)} {m : State}
    (hok : RunOk (Machine.step (exec writeable)) StepOk init ss)
    (hrun : run (Machine.step (exec writeable)) init ss = some m) (S : Set Thread) :
    ¬ Deadlock m.owner m.wants S := by
  refine Machine.no_deadlock leads hn init_inv (hok.imp fun m s hs => ?_) hrun S
  cases s with
  | call t p => exact ordered_of_calls ho hs
  | run t => trivial

/-- All devices can be written: `transport_lock` comes first. -/
def writeOrder : Lock → Nat
  | .transport => 0
  | .usb => 1
  | .handle _ => 2

/-- None can be written: `transport_lock` comes last. -/
def readOrder : Lock → Nat
  | .usb => 0
  | .handle _ => 1
  | .transport => 2

theorem writeOrder_le : ∀ l, writeOrder l ≤ 2
  | .transport | .usb | .handle _ => by rw [writeOrder] <;> decide

theorem readOrder_le : ∀ l, readOrder l ≤ 2
  | .transport | .usb | .handle _ => by rw [readOrder] <;> decide

theorem order_write (hw : ∀ h, writeable h = true) : Order writeable writeOrder where
  kick h held hk := ⟨fun k hm => by rw [hk k hm]; exact Nat.lt_succ_self 1, .inl (hw h)⟩
  unref h _ := by
    refine ⟨⟨fun k hm => ?_, .inl (hw h)⟩, fun k hm => ?_⟩ <;> rw [List.mem_singleton.mp hm]
    · exact Nat.zero_lt_two
    · exact Nat.zero_lt_one

theorem order_read (hr : ∀ h, writeable h = false) : Order writeable readOrder where
  kick h held hk := by
    refine ⟨fun k hm => by rw [hk k hm]; exact Nat.zero_lt_one, .inr fun k hm => ?_⟩
    rcases List.mem_cons.mp hm with rfl | hm
    · exact Nat.lt_succ_self 1
    · rw [hk k hm]
      exact Nat.zero_lt_two
  unref h hw := absurd (hw.symm.trans (hr h)) nofun

/-! ## With a deadlock -/

/-- A run of allowed steps leads from `m` to `m'`. -/
def Reaches (writeable : Nat → Bool) (m m' : State) : Prop :=
  ∃ ss, RunOk (Machine.step (exec writeable)) StepOk m ss ∧
    run (Machine.step (exec writeable)) m ss = some m'

theorem Reaches.trans {m₁ m₂ m₃ : State} (h : Reaches writeable m₁ m₂)
    (h' : Reaches writeable m₂ m₃) : Reaches writeable m₁ m₃ := by
  obtain ⟨ss, hok, hrun⟩ := h
  obtain ⟨ss', hok', hrun'⟩ := h'
  refine ⟨ss ++ ss', hok.append fun m hm => ?_, by rw [run_append, hrun]; exact hrun'⟩
  cases hrun.symm.trans hm
  exact hok'

/-- One step of a thread that has a program. -/
theorem reaches_run {m m' : State} (t : Thread)
    (hs : m.step (exec writeable) (.run t) = some m') : Reaches writeable m m' := by
  refine ⟨[.run t], ⟨trivial, ?_⟩, by rw [run, hs]; rfl⟩
  rw [hs]
  trivial

/-- A thread without a program calls a function. -/
theorem reaches_call {m : State} {t : Thread} {p : List Op} (ht : m.prog t = [])
    (hc : Calls m.data t p) :
    Reaches writeable m { m with prog := Function.update m.prog t p } := by
  have hs : m.step (exec writeable) (.call t p) =
      some { m with prog := Function.update m.prog t p } := by
    rw [Machine.step, ht]
  refine ⟨[.call t p], ⟨hc, ?_⟩, by rw [run, hs]; rfl⟩
  rw [hs]
  trivial

/-- Nobody runs anything. -/
def idle (d : Data) : State := ⟨d, fun _ => none, fun _ => []⟩

section

variable (d : Data) (o : Lock → Option Thread) (f : Thread → List Op) (t : Thread)

/-- The thread `t` is before `p`, the others where `f` says. -/
def running (p : List Op) : State := ⟨d, o, Function.update f t p⟩

theorem running_nil : running d (fun _ => none) (fun _ => []) t [] = idle d := by
  rw [running, idle, Function.update_eq_self_iff.mpr rfl]

theorem running_lock {l : Lock} (hl : o l = none) (rest : List Op) :
    Reaches writeable (running d o f t (.lock l :: rest))
      (running d (Function.update o l (some t)) f t rest) := by
  refine reaches_run t ?_
  simp only [Machine.step, running, Function.update_self, Function.update_idem, hl]

variable (writeable) in
theorem running_act (a : Act) (rest : List Op) :
    Reaches writeable (running d o f t (.act a :: rest))
      (running (exec writeable d a).1 o f t ((exec writeable d a).2 ++ rest)) := by
  refine reaches_run t ?_
  simp only [Machine.step, running, Function.update_self, Function.update_idem]

theorem running_unlock {l : Lock} (hl : o l = none) (rest : List Op) :
    Reaches writeable (running d (Function.update o l (some t)) f t (.unlock l :: rest))
      (running d o f t rest) := by
  have hown : Function.update o l none = o := Function.update_eq_self_iff.mpr hl.symm
  refine reaches_run t ?_
  simp only [Machine.step, running, Function.update_self, Function.update_idem, hown]

end

section

variable {d d' : Data} {o : Lock → Option Thread} {f : Thread → List Op} {t : Thread} {r w : Nat}

/-- A section whose action leads to nothing. -/
theorem reaches_section {l : Lock} {a : Act} (ha : exec writeable d a = (d', [])) (hl : o l = none)
    (rest : List Op) :
    Reaches writeable (running d o f t (.lock l :: .act a :: .unlock l :: rest))
      (running d' o f t rest) := by
  have hact := running_act writeable d (Function.update o l (some t)) f t a
    (.unlock l :: rest)
  rw [ha] at hact
  exact (running_lock d o f t hl _).trans (hact.trans (running_unlock d' o f t hl rest))

/-- A thread without a program calls a function. -/
theorem reaches_idle {p : List Op} (hc : Calls d t p) :
    Reaches writeable (idle d) (running d (fun _ => none) (fun _ => []) t p) := reaches_call rfl hc

/-- A device is found. -/
theorem reaches_registered {h : Nat} (hh : h ∉ d.list) :
    Reaches writeable (idle d) (idle { d with
      list := d.list ++ [h], mark := Function.update d.mark h true }) := by
  refine (reaches_idle (.register h)).trans ((reaches_section rfl rfl _).trans ?_)
  rw [← running_nil _ .poll]
  exact reaches_section (by rw [exec, if_neg hh]) rfl _

/-- The transport of a device that can be written gets its threads. -/
theorem reaches_started (hw : writeable w = true) (hm : w ∈ d.list) (hs : d.started w = false) :
    Reaches writeable (idle d) (idle { d with
      refCount := Function.update d.refCount w 2, started := Function.update d.started w true }) := by
  have hact := running_act writeable d (fun _ => none) (fun _ => []) (.other 0) (.start w)
    transportSection
  rw [exec, if_pos hw, List.nil_append] at hact
  refine (reaches_idle (.registered 0 w hm hs)).trans (hact.trans ?_)
  rw [← running_nil _ (.other 0)]
  exact reaches_section rfl rfl _

/-- The first thread of a transport leaves. -/
theorem reaches_left (hw : writeable w = true) (hs : d.started w = true)
    (he : d.ended (.io w true) = false) (hk : d.kicked w = false) (hd : d.dead w = false)
    (hc : d.refCount w = 2) :
    Reaches writeable (idle d) (idle { d with
      kicked := Function.update d.kicked w true
      dead := Function.update d.dead w true
      refCount := Function.update d.refCount w 1
      wasKicked := Function.update d.wasKicked (.io w true) false
      ended := Function.update d.ended (.io w true) true }) := by
  refine (reaches_idle (.leave w true hs he)).trans ?_
  have htest := running_act writeable d (fun _ => none) (fun _ => []) (.io w true)
    (.testKicked (.io w true) w) (transportUnref w ++ [.act (.finish (.io w true))])
  rw [exec, hk] at htest
  refine htest.trans ((reaches_section rfl rfl _).trans ?_)
  rw [hk]
  refine (running_act _ _ _ _ _ _ _).trans ?_
  simp only [exec, Function.update_self, Bool.false_eq_true, if_false]
  refine (reaches_section (by rw [exec, hd, hw]; rfl) rfl _).trans ?_
  refine (reaches_section (by
    rw [exec, if_neg (by dsimp only; rw [hc]; decide)]) rfl _).trans ?_
  rw [← running_nil _ (.io w true)]
  refine Eq.subst (motive := fun x => Reaches writeable _ x) ?_ (running_act _ _ _ _ _ _ _)
  simp only [exec, hc]
  rfl

theorem exec_sweep (hl : d.list = [r, w]) :
    exec writeable d .sweep = (d, [.act (.sweepOne r), .act (.sweepOne w)]) := by
  rw [exec, hl]
  rfl

/-- A scan has come to both devices. -/
theorem reaches_swept (hne : w ≠ r) (hl : d.list = [r, w]) (hr : d.mark r = true)
    (hw : d.mark w = true) :
    Reaches writeable (idle d) (idle { d with
      mark := Function.update (Function.update d.mark r false) w false }) := by
  refine (reaches_idle .disconnected).trans ((running_lock _ _ _ _ rfl _).trans
    ((running_act _ _ _ _ _ _ _).trans ?_))
  rw [exec_sweep hl]
  refine (running_act _ _ _ _ _ _ _).trans ?_
  simp only [exec, hr, Bool.true_eq_false, if_false, List.nil_append]
  refine (running_act _ _ _ _ _ _ _).trans ?_
  simp only [exec, Function.update_of_ne hne, hw, Bool.true_eq_false, if_false, List.nil_append]
  rw [← running_nil _ .poll]
  exact running_unlock _ _ _ _ rfl _

/-- The second thread of a transport holds `transport_lock` and is about to close the handle. -/
theorem reaches_closing (hs : d.started w = true) (he : d.ended (.io w false) = false)
    (hk : d.kicked w = true) (hc : d.refCount w = 1) :
    Reaches writeable (idle d) (running { d with
      kicked := Function.update d.kicked w true
      refCount := Function.update d.refCount w 0 }
        (Function.update (fun _ => none) .transport (some (.io w false))) (fun _ => []) (.io w false)
        (usbClose w ++ [.unlock .transport, .act (.finish (.io w false))])) := by
  refine (reaches_idle (.leave w false hs he)).trans ?_
  have htest := running_act writeable d (fun _ => none) (fun _ => []) (.io w false)
    (.testKicked (.io w false) w) (transportUnref w ++ [.act (.finish (.io w false))])
  rw [exec, hk] at htest
  have hunref := running_act writeable d
    (Function.update (fun _ => none) .transport (some (.io w false))) (fun _ => []) (.io w false)
    (.unref w) [.unlock .transport, .act (.finish (.io w false))]
  rw [exec, hc, if_pos (by decide), hk] at hunref
  exact htest.trans ((running_lock _ _ _ _ rfl _).trans hunref)

/-- Meanwhile a scan misses a device that can only be read, and the two threads wait for each other. -/
theorem reaches_deadlock {m₀ : State} (hreach : Reaches writeable m₀ ⟨d, o, f⟩)
    (hr : writeable r = false) (hl : d.list = [r, w]) (hm : d.mark r = false)
    (hd : d.dead r = false) (ho : o .transport = some (.io w false)) (hu : o .usb = none)
    (hh : o (.handle r) = none) (hf : ∃ p, f (.io w false) = .lock .usb :: p) (hp : f .poll = []) :
    ∃ m, Reaches writeable m₀ m ∧ Deadlock m.owner m.wants {.poll, .io w false} := by
  refine ⟨running { d with dead := Function.update d.dead r true }
      (Function.update (Function.update o .usb (some .poll)) (.handle r) (some .poll)) f .poll
      (unregisterUsbTransport ++ [.unlock (.handle r), .act (.sweepOne w), .unlock .usb]), ?_, ?_⟩
  · have hlock : Lock.handle r ≠ .usb := nofun
    refine hreach.trans ((reaches_call (t := .poll) hp .disconnected).trans
      ((running_lock d o f _ hu _).trans ((running_act _ _ _ _ _ _ _).trans ?_)))
    rw [exec_sweep hl]
    refine (running_act _ _ _ _ _ _ _).trans ?_
    rw [exec, if_pos hm]
    refine (running_lock _ _ _ _ ((Function.update_of_ne hlock _ _).trans hh) _).trans ?_
    have hkick := running_act writeable d
      (Function.update (Function.update o .usb (some .poll)) (.handle r) (some .poll)) f .poll (.kick r)
      [.unlock (.handle r), .act (.sweepOne w), .unlock .usb]
    rw [exec, hd, hr] at hkick
    exact hkick
  · obtain ⟨p, hp⟩ := hf
    refine ⟨⟨.poll, .inl rfl⟩, fun t ht => ?_⟩
    rcases ht with rfl | rfl
    · refine ⟨.transport, ?_, .io w false, .inr rfl, ?_⟩
      · simp only [Machine.wants, running, Function.update_self]
        rfl
      · simpa [running] using ho
    · refine ⟨.usb, ?_, .poll, .inl rfl, ?_⟩
      · simp [Machine.wants, running, hp]
      · simp [running]

end

/-- **Deadlocks**: threads come to wait for each other in some run if and only if there are devices that
can be written and devices that can only be read. -/
theorem deadlock_iff (writeable : Nat → Bool) :
    (∃ ss m, RunOk (Machine.step (exec writeable)) StepOk init ss ∧
      run (Machine.step (exec writeable)) init ss = some m ∧ ∃ S, Deadlock m.owner m.wants S) ↔
    (∃ h, writeable h = true) ∧ ∃ h, writeable h = false := by
  constructor
  · rintro ⟨ss, m, hok, hrun, S, hS⟩
    by_contra hnot
    rcases not_and_or.mp hnot with hnone | hnone
    · have hr : ∀ h, writeable h = false := fun h => Bool.eq_false_iff.mpr fun hw => hnone ⟨h, hw⟩
      exact no_deadlock (order_read hr) (n := 2) readOrder_le hok hrun S hS
    · have hw : ∀ h, writeable h = true := fun h => by
        by_contra hr
        exact hnone ⟨h, Bool.eq_false_iff.mpr hr⟩
      exact no_deadlock (order_write hw) (n := 2) writeOrder_le hok hrun S hS
  · rintro ⟨⟨w, hw⟩, r, hr⟩
    have hne : w ≠ r := fun he => by
      rw [he, hr] at hw
      cases hw
    have hpoll : Thread.poll ≠ .io w false := nofun
    have h₁ : Reaches writeable init _ := reaches_registered (d := init.data) (h := r) nofun
    have h₂ := h₁.trans (reaches_registered (h := w) fun hm => hne (List.mem_singleton.mp hm))
    have h₃ := h₂.trans (reaches_started hw (List.mem_cons_of_mem _ List.mem_cons_self) rfl)
    have h₄ := h₃.trans (reaches_left hw (Function.update_self _ _ _) rfl rfl rfl
      (Function.update_self _ _ _))
    have h₅ := h₄.trans (reaches_swept hne rfl
      ((Function.update_of_ne hne.symm _ _).trans (Function.update_self _ _ _))
      (Function.update_self _ _ _))
    have h₆ := h₅.trans (reaches_closing (Function.update_self _ _ _)
      (Function.update_of_ne (by simp) _ _) (Function.update_self _ _ _) (Function.update_self _ _ _))
    obtain ⟨m, ⟨ss, hok, hrun⟩, hdead⟩ := reaches_deadlock h₆ hr rfl
      ((Function.update_of_ne hne.symm _ _).trans (Function.update_self _ _ _))
      (Function.update_of_ne hne.symm _ _) (Function.update_self _ _ _) rfl rfl
      ⟨_, Function.update_self _ _ _⟩ ((Function.update_of_ne hpoll _ _).trans rfl)
    exact ⟨ss, m, hok, hrun, _, hdead⟩

end Twm.Adb.UsbLocks
