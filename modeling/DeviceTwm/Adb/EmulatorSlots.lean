import Mathlib.Data.List.Perm.Basic
import DeviceTwm.Adb.Transport

/-!
# The slots of the emulators (`transport_local.c`)

The server keeps the transports to emulators in `local_transports`, at most 16 of them, so that it has one
for each port. `init_socket_transport` fills a slot, or refuses the connection; the `kick` of a socket
transport (`remote_kick`) clears its slot. Each step is one whole call; what calls the threads of a
transport make, and in which parts, is in `DeviceTwm/Adb/Transport.lean`.

`kick` has four callers: `kick_transport`, `transport_unref_locked`, `close_usb_devices` and
`unregister_all_tcp_transports`. All of them go through `kicked`, so `kick` is called once at most.

`slots_consistent`: what the slots hold after any calls, and when a connection is refused.
-/

open Lib

namespace Twm.Adb.Emulator

/-- The fields of a socket transport. -/
structure ATransport where
  phase : Phase
  sfd : Int
  adbPort : Int
  kicked : Bool
  refCount : Int

/-- The server; the transports are known by their addresses. -/
structure Server where
  tr : Nat → ATransport
  localTransports : List (Option Nat)
  /-- `transport_list`. -/
  transportList : List Nat
  /-- The messages to `transport_registration_func`. -/
  queue : List TMsg
  /-- The sockets that were closed. -/
  closed : List Int

def adbLocalTransportMax : Nat := 16

namespace Server

def init : Server where
  tr _ := ⟨.fresh, -1, 0, false, 0⟩
  localTransports := List.replicate adbLocalTransportMax none
  transportList := []
  queue := []
  closed := []

variable (s : Server)

def setTr (t : Nat) (tr : ATransport) : Server := { s with tr := Function.update s.tr t tr }

/-- The transports in the slots. -/
def emulators : List Nat := s.localTransports.filterMap id

/-! ## Connections -/

def findEmulatorTransportByAdbPort (adbPort : Int) : Option Nat :=
  s.emulators.find? fun t => (s.tr t).adbPort = adbPort

def getAvailableLocalTransportIndex : Option Nat := s.localTransports.findIdx? (· = none)

/-- `init_socket_transport` on the new transport `t`, and whether it fails. -/
def initSocketTransport (t : Nat) (fd adbPort : Int) (isLocal : Bool) : Bool × Server :=
  let s := s.setTr t ⟨.fresh, fd, 0, false, 0⟩
  if isLocal then
    -- the port of `t` is set first; `t` is in no slot yet
    let s := s.setTr t { s.tr t with adbPort := adbPort }
    match s.findEmulatorTransportByAdbPort adbPort, s.getAvailableLocalTransportIndex with
    | some _, _ => (true, s)
    | none, none => (true, s)
    | none, some i => (false, { s with localTransports := s.localTransports.set i (some t) })
  else (false, s)

def registerSocketTransport (t : Nat) (fd port : Int) (isLocal : Bool) : Server :=
  match s.initSocketTransport t fd port isLocal with
  | (true, s) => { s.setTr t { s.tr t with phase := .freed } with closed := s.closed ++ [fd] }
  | (false, s) =>
    { s.setTr t { s.tr t with phase := .registered } with queue := s.queue ++ [.register t] }

/-! ## Kicks -/

/-- The loop of `remote_kick`. -/
def clearSlot (t : Nat) : List (Option Nat) → List (Option Nat)
  | [] => []
  | o :: rest => if o = some t then none :: rest else o :: clearSlot t rest

def remoteKick (t : Nat) : Server :=
  { s.setTr t { s.tr t with sfd := -1 } with
    closed := s.closed ++ [(s.tr t).sfd]
    localTransports := clearSlot t s.localTransports }

/-- `if (!t->kicked) { t->kicked = 1; t->kick(t); }`, as each of the four callers has it. -/
def kickOnce (t : Nat) : Server :=
  if (s.tr t).kicked then s
  else (s.setTr t { s.tr t with kicked := true }).remoteKick t

def kickTransport (t : Nat) : Server := s.kickOnce t

def transportUnrefLocked (t : Nat) : Server :=
  let s := s.setTr t { s.tr t with refCount := (s.tr t).refCount - 1 }
  if (s.tr t).refCount = 0 then
    let s := s.kickOnce t
    { s with queue := s.queue ++ [.remove t] }
  else s

def closeUsbDevices : Server := s.transportList.foldl kickOnce s

def unregisterAllTcpTransports : Server :=
  s.transportList.foldl
    (fun s t =>
      if (s.tr t).adbPort = 0 then
        ({ s with transportList := s.transportList.erase t }.kickOnce t).transportUnrefLocked t
      else s) s

def unregisterTransport (t : Nat) : Server :=
  ({ s with transportList := s.transportList.erase t }.kickTransport t).transportUnrefLocked t

/-! ## Registration -/

/-- `transport_registration_func`. -/
def handle : Option Server :=
  match s.queue with
  | [] => none
  | .register t :: q => some
      { s.setTr t { s.tr t with phase := .started, refCount := 2 } with
        queue := q, transportList := s.transportList ++ [t] }
  | .remove t :: q => some
      { s.setTr t { s.tr t with phase := .freed } with
        queue := q, transportList := s.transportList.erase t }

/-- `t` is registered, and not freed. -/
def Registered (t : Nat) : Prop := (s.tr t).phase = .registered ∨ (s.tr t).phase = .started

instance : DecidablePred s.Registered := fun _ => inferInstanceAs (Decidable (_ ∨ _))

end Server

inductive Step
  /-- `register_socket_transport`; `local_connect` calls it with `isLocal`, and `adb connect` without. -/
  | connect (t : Nat) (fd port : Int) (isLocal : Bool)
  | handle
  | kick (t : Nat)
  | unref (t : Nat)
  | unregister (t : Nat)
  | unregisterAll
  | closeUsb

def step (s : Server) : Step → Option Server
  | .connect t fd port isLocal =>
    if (s.tr t).phase = .fresh then some (s.registerSocketTransport t fd port isLocal) else none
  | .handle => s.handle
  | .kick t => if s.Registered t then some (s.kickTransport t) else none
  | .unref t => if s.Registered t then some (s.transportUnrefLocked t) else none
  | .unregister t => if t ∈ s.transportList then some (s.unregisterTransport t) else none
  | .unregisterAll => some s.unregisterAllTcpTransports
  | .closeUsb => some s.closeUsbDevices

/-! ## What the slots hold -/

/-- The slots hold distinct transports with distinct ports, each registered and not kicked. -/
structure Consistent (s : Server) : Prop where
  registered : ∀ t ∈ s.emulators, s.Registered t ∧ (s.tr t).kicked = false
  distinct : s.emulators.Nodup
  ports : (s.emulators.map fun t => (s.tr t).adbPort).Nodup

/-- The port has an emulator. -/
def PortPresent (s : Server) (port : Int) : Prop := ∃ t ∈ s.emulators, (s.tr t).adbPort = port

/-- No slot is free. -/
def Full (s : Server) : Prop := none ∉ s.localTransports

/-- The connection is refused: its socket is closed, its record freed, and nothing else changes. -/
structure Refused (s s' : Server) (t : Nat) (fd : Int) : Prop where
  closed : s'.closed = s.closed ++ [fd]
  freed : (s'.tr t).phase = .freed
  slots : s'.localTransports = s.localTransports
  queue : s'.queue = s.queue
  others : ∀ u ≠ t, s'.tr u = s.tr u

/-- The connection is a new transport, in a free slot if it is to an emulator. -/
structure Accepted (s s' : Server) (t : Nat) (port : Int) (isLocal : Bool) : Prop where
  closed : s'.closed = s.closed
  registered : (s'.tr t).phase = .registered
  slots : if isLocal then (s'.tr t).adbPort = port ∧ ∃ l₁ l₂, s.localTransports = l₁ ++ none :: l₂ ∧
      s'.localTransports = l₁ ++ some t :: l₂
    else s'.localTransports = s.localTransports
  others : ∀ u ≠ t, s'.tr u = s.tr u

/-! ## Kicks clear slots -/

theorem filterMap_clearSlot (t : Nat) (l : List (Option Nat)) :
    (Server.clearSlot t l).filterMap id = (l.filterMap id).erase t := by
  induction l with
  | nil => rfl
  | cons o rest ih =>
    unfold Server.clearSlot
    by_cases ho : o = some t
    · subst ho
      simp
    · rw [if_neg ho]
      rcases o with _ | u
      · simpa using ih
      · have hu : ¬ (u == t) = true := by simpa using ho
        show u :: (Server.clearSlot t rest).filterMap id = (u :: rest.filterMap id).erase t
        rw [ih, List.erase_cons_tail hu]

/-- A message is about a transport that is not fresh; one that is removed was kicked. -/
def Sound (s : Server) : TMsg → Prop
  | .register t => (s.tr t).phase ≠ .fresh
  | .remove t => (s.tr t).phase ≠ .fresh ∧ (s.tr t).kicked = true

/-- What every call keeps. -/
structure Inv (s : Server) : Prop where
  consistent : Consistent s
  listed : ∀ t ∈ s.transportList, (s.tr t).phase ≠ .fresh
  queued : ∀ m ∈ s.queue, Sound s m

section Frame

variable {s : Server} {t u : Nat}

@[simp] theorem setTr_same (x : ATransport) : (s.setTr t x).tr t = x := Function.update_self ..

theorem setTr_ne (x : ATransport) (h : u ≠ t) : (s.setTr t x).tr u = s.tr u :=
  Function.update_of_ne h ..

@[simp] theorem setTr_emulators (x : ATransport) : (s.setTr t x).emulators = s.emulators := rfl

/-- A write that keeps a field keeps it for every transport. -/
theorem setTr_field {α : Type} (f : ATransport → α) {x : ATransport} (h : f x = f (s.tr t)) (u : Nat) :
    f ((s.setTr t x).tr u) = f (s.tr u) := by
  by_cases hu : u = t
  · subst hu
    rw [setTr_same, h]
  · rw [setTr_ne x hu]

theorem kickOnce_emulators (h : (s.tr t).kicked = false) :
    (s.kickOnce t).emulators = s.emulators.erase t := by
  unfold Server.kickOnce
  rw [if_neg (by simp [h])]
  exact filterMap_clearSlot t s.localTransports

theorem kickOnce_field {α : Type} (f : ATransport → α) (hf : ∀ x sfd kicked,
    f { x with sfd := sfd, kicked := kicked } = f x) (u : Nat) :
    f ((s.kickOnce t).tr u) = f (s.tr u) := by
  unfold Server.kickOnce
  split
  · rfl
  · refine (setTr_field f ?_ u).trans (setTr_field f ?_ u)
    · exact hf _ _ _
    · exact hf _ _ _

@[simp] theorem kickOnce_phase (u : Nat) : ((s.kickOnce t).tr u).phase = (s.tr u).phase :=
  kickOnce_field ATransport.phase (fun _ _ _ => rfl) u

@[simp] theorem kickOnce_adbPort (u : Nat) : ((s.kickOnce t).tr u).adbPort = (s.tr u).adbPort :=
  kickOnce_field ATransport.adbPort (fun _ _ _ => rfl) u

@[simp] theorem kickOnce_queue : (s.kickOnce t).queue = s.queue := by
  unfold Server.kickOnce
  split <;> rfl

@[simp] theorem kickOnce_transportList : (s.kickOnce t).transportList = s.transportList := by
  unfold Server.kickOnce
  split <;> rfl

theorem kickOnce_kicked_ne (h : u ≠ t) : ((s.kickOnce t).tr u).kicked = (s.tr u).kicked := by
  unfold Server.kickOnce
  split
  · rfl
  · exact congrArg ATransport.kicked ((setTr_ne _ h).trans (setTr_ne _ h))

@[simp] theorem kickOnce_kicked : ((s.kickOnce t).tr t).kicked = true := by
  unfold Server.kickOnce
  split
  · assumption
  · show ((Server.setTr _ t _).tr t).kicked = true
    rw [setTr_same, setTr_same]

end Frame

section Messages

variable {s s' : Server} {t : Nat}

@[simp] theorem sound_register : Sound s (.register t) ↔ (s.tr t).phase ≠ .fresh := Iff.rfl

@[simp] theorem sound_remove :
    Sound s (.remove t) ↔ (s.tr t).phase ≠ .fresh ∧ (s.tr t).kicked = true := Iff.rfl

/-- Messages stay sound where no transport becomes fresh and no kick is undone. -/
theorem Sound.mono {m : TMsg} (h : Sound s m)
    (hp : ∀ t, (s.tr t).phase ≠ .fresh → (s'.tr t).phase ≠ .fresh)
    (hk : ∀ t, (s.tr t).kicked = true → (s'.tr t).kicked = true) : Sound s' m := by
  cases m with
  | register t => exact hp t h
  | remove t => exact ⟨hp t h.1, hk t h.2⟩

end Messages

namespace Inv

variable {s : Server} {t : Nat}

/-- Nothing happens to the records and the slots. -/
theorem update {s' : Server} (h : Inv s) (htr : s'.tr = s.tr)
    (hslots : s'.localTransports = s.localTransports)
    (hlist : ∀ t ∈ s'.transportList, t ∈ s.transportList ∨ (s.tr t).phase ≠ .fresh)
    (hqueue : ∀ m ∈ s'.queue, m ∈ s.queue ∨ Sound s m) : Inv s' := by
  have hem : s'.emulators = s.emulators := by
    unfold Server.emulators
    rw [hslots]
  refine ⟨⟨?_, ?_, ?_⟩, fun t ht => ?_, fun m hm => ?_⟩
  · unfold Server.Registered
    rw [hem, htr]
    exact h.consistent.registered
  · rw [hem]
    exact h.consistent.distinct
  · rw [hem, htr]
    exact h.consistent.ports
  · rw [htr]
    exact (hlist t ht).elim (h.listed t) id
  · refine Sound.mono ((hqueue m hm).elim (h.queued m) id) ?_ ?_ <;> simp [htr]

theorem kickOnce (h : Inv s) (t : Nat) : Inv (s.kickOnce t) := by
  have hc := h.consistent
  by_cases hk : (s.tr t).kicked = true
  · unfold Server.kickOnce
    rwa [if_pos hk]
  have hem := kickOnce_emulators (Bool.eq_false_iff.mpr hk)
  refine ⟨⟨fun u hu => ?_, ?_, ?_⟩, fun u hu => ?_, fun m hm => ?_⟩
  · rw [hem, hc.distinct.mem_erase_iff] at hu
    obtain ⟨hreg, hkick⟩ := hc.registered u hu.2
    refine ⟨?_, (kickOnce_kicked_ne hu.1).trans hkick⟩
    unfold Server.Registered
    rwa [kickOnce_phase]
  · rw [hem]
    exact hc.distinct.erase t
  · simp only [hem, kickOnce_adbPort]
    exact hc.ports.sublist ((List.erase_sublist).map _)
  · rw [kickOnce_transportList] at hu
    rw [kickOnce_phase]
    exact h.listed u hu
  · rw [kickOnce_queue] at hm
    refine (h.queued m hm).mono (fun u hu => ?_) fun u hu => ?_
    · rwa [kickOnce_phase]
    by_cases hut : u = t
    · subst hut
      exact kickOnce_kicked
    · rw [kickOnce_kicked_ne hut]
      exact hu

/-- A write to a transport that keeps its port and whether it was kicked. -/
theorem setTr (h : Inv s) {x : ATransport} (hf : (s.tr t).phase ≠ .fresh → x.phase ≠ .fresh)
    (hr : t ∈ s.emulators → x.phase = .registered ∨ x.phase = .started)
    (ha : x.adbPort = (s.tr t).adbPort) (hk : x.kicked = (s.tr t).kicked) : Inv (s.setTr t x) := by
  have hport := setTr_field ATransport.adbPort ha
  have hkicked := setTr_field ATransport.kicked hk
  have hfresh : ∀ u, (s.tr u).phase ≠ .fresh → ((s.setTr t x).tr u).phase ≠ .fresh := by
    intro u hu
    by_cases hut : u = t
    · subst hut
      rw [setTr_same]
      exact hf hu
    · rwa [setTr_ne x hut]
  refine ⟨⟨fun u hu => ?_, h.consistent.distinct, ?_⟩, fun u hu => hfresh u (h.listed u hu),
    fun m hm => (h.queued m hm).mono hfresh fun u hu => (hkicked u).trans hu⟩
  · obtain ⟨hreg, hkick⟩ := h.consistent.registered u hu
    refine ⟨?_, (hkicked u).trans hkick⟩
    unfold Server.Registered
    by_cases hut : u = t
    · subst hut
      rw [setTr_same]
      exact hr hu
    · rwa [setTr_ne x hut]
  · simp only [setTr_emulators, hport]
    exact h.consistent.ports

theorem erase (h : Inv s) (t : Nat) : Inv { s with transportList := s.transportList.erase t } :=
  h.update rfl rfl (fun _ hu => .inl (List.mem_of_mem_erase hu)) fun _ hm => .inl hm

/-- A sound message is written. -/
theorem write {m : TMsg} (h : Inv s) (hm : Sound s m) : Inv { s with queue := s.queue ++ [m] } := by
  refine h.update rfl rfl (fun _ hu => .inl hu) fun m' hm' => ?_
  rcases List.mem_append.mp hm' with hm' | hm'
  · exact .inl hm'
  · obtain rfl := List.mem_singleton.mp hm'
    exact .inr hm

theorem transportUnrefLocked (h : Inv s) (ht : (s.tr t).phase ≠ .fresh) :
    Inv (s.transportUnrefLocked t) := by
  unfold Server.transportUnrefLocked
  have h₁ : Inv (s.setTr t { s.tr t with refCount := (s.tr t).refCount - 1 }) :=
    h.setTr id (fun hm => (h.consistent.registered t hm).1) rfl rfl
  simp only []
  split
  · refine (h₁.kickOnce t).write ⟨?_, kickOnce_kicked⟩
    rw [kickOnce_phase, setTr_same]
    exact ht
  · exact h₁

/-- Over the transports of a list. -/
theorem foldl (f : Server → Nat → Server) (hf : ∀ s t, Inv s → (s.tr t).phase ≠ .fresh → Inv (f s t))
    (hp : ∀ s t u, ((f s t).tr u).phase = (s.tr u).phase) (h : Inv s) {ts : List Nat}
    (hts : ∀ t ∈ ts, (s.tr t).phase ≠ .fresh) : Inv (ts.foldl f s) := by
  induction ts generalizing s with
  | nil => exact h
  | cons t ts ih =>
    refine ih (hf s t h (hts t List.mem_cons_self)) fun u hu => ?_
    rw [hp]
    exact hts u (List.mem_cons_of_mem _ hu)

end Inv

/-! ## A connection -/

section Connect

variable {s : Server} {t : Nat} {fd port : Int}

theorem setTr_setTr (x y : ATransport) : (s.setTr t x).setTr t y = s.setTr t y := by
  unfold Server.setTr
  rw [Function.update_idem]

theorem Inv.fresh_notMem (h : Inv s) (ht : (s.tr t).phase = .fresh) : t ∉ s.emulators := by
  intro hm
  rcases (h.consistent.registered t hm).1 with hp | hp <;> rw [ht] at hp <;> cases hp

/-- The search for the port, with a new record at an address that no slot has. -/
theorem find_setTr (port : Int) (ht : t ∉ s.emulators) (x : ATransport) :
    ((s.setTr t x).findEmulatorTransportByAdbPort port).isSome = true ↔ PortPresent s port := by
  unfold Server.findEmulatorTransportByAdbPort PortPresent
  rw [List.find?_isSome, setTr_emulators]
  refine exists_congr fun u => and_congr_right fun hu => ?_
  have hut : u ≠ t := by
    rintro rfl
    exact ht hu
  rw [setTr_ne x hut, decide_eq_true_iff]

/-- The first free slot. -/
theorem available_cases (s : Server) : (s.getAvailableLocalTransportIndex = none ∧ Full s) ∨
    ∃ i l₁ l₂, s.getAvailableLocalTransportIndex = some i ∧ s.localTransports = l₁ ++ none :: l₂ ∧
      ∀ o, s.localTransports.set i o = l₁ ++ o :: l₂ := by
  unfold Server.getAvailableLocalTransportIndex Full
  rcases hi : s.localTransports.findIdx? (· = none) with _ | i
  · left
    refine ⟨rfl, fun hm => ?_⟩
    simpa using List.findIdx?_eq_none_iff.mp hi none hm
  · right
    obtain ⟨hlt, hget, -⟩ := List.findIdx?_eq_some_iff_getElem.mp hi
    have hnone : s.localTransports[i] = none := by simpa using hget
    refine ⟨i, s.localTransports.take i, s.localTransports.drop (i + 1), rfl, ?_, fun o => ?_⟩
    · rw [← hnone, List.getElem_cons_drop, List.take_append_drop]
    · rw [List.set_eq_take_append_cons_drop, if_pos hlt]

/-- What `register_socket_transport` does. -/
theorem connect_cases (fd port : Int) (h : Inv s) (ht : (s.tr t).phase = .fresh) (isLocal : Bool) :
    ((isLocal = true ∧ (PortPresent s port ∨ Full s)) ∧
      s.registerSocketTransport t fd port isLocal =
        { s.setTr t ⟨.freed, fd, port, false, 0⟩ with closed := s.closed ++ [fd] }) ∨
    (isLocal = false ∧ s.registerSocketTransport t fd port isLocal =
      { s.setTr t ⟨.registered, fd, 0, false, 0⟩ with queue := s.queue ++ [.register t] }) ∨
    (isLocal = true ∧ ¬ PortPresent s port ∧ ¬ Full s ∧ ∃ l₁ l₂,
      s.localTransports = l₁ ++ none :: l₂ ∧
      s.registerSocketTransport t fd port isLocal =
        { s.setTr t ⟨.registered, fd, port, false, 0⟩ with
          queue := s.queue ++ [.register t], localTransports := l₁ ++ some t :: l₂ }) := by
  have hnot := h.fresh_notMem ht
  cases isLocal with
  | false =>
    refine .inr (.inl ⟨rfl, ?_⟩)
    unfold Server.registerSocketTransport Server.initSocketTransport
    simp only [Bool.false_eq_true, ↓reduceIte, setTr_same, setTr_setTr]
    rfl
  | true =>
    unfold Server.registerSocketTransport Server.initSocketTransport
    simp only [↓reduceIte, setTr_same, setTr_setTr]
    have hfind := find_setTr port hnot ⟨.fresh, fd, port, false, 0⟩
    have hidx := available_cases (s.setTr t ⟨.fresh, fd, port, false, 0⟩)
    rcases hf : (s.setTr t ⟨.fresh, fd, port, false, 0⟩).findEmulatorTransportByAdbPort port with _ | u
    · have hport : ¬ PortPresent s port := by
        rw [← hfind, hf]
        simp
      rcases hidx with ⟨hi, hfull⟩ | ⟨i, l₁, l₂, hi, hl, hset⟩
      · simp only [hi, setTr_same, setTr_setTr]
        exact .inl ⟨⟨trivial, .inr hfull⟩, rfl⟩
      · refine .inr (.inr ⟨trivial, hport, fun hfull => hfull ?_, l₁, l₂, hl, ?_⟩)
        · rw [show s.localTransports = l₁ ++ none :: l₂ from hl]
          simp
        · simp only [hi, hset]
          simp only [Server.setTr, Function.update_self, Function.update_idem]
    · have hport : PortPresent s port := by
        rw [← hfind, hf]
        rfl
      simp only [setTr_same, setTr_setTr]
      exact .inl ⟨⟨trivial, .inl hport⟩, rfl⟩

/-- A new record at a fresh address, which is in no slot, no list and no message. -/
theorem Inv.setFresh (h : Inv s) (ht : (s.tr t).phase = .fresh) (x : ATransport) :
    Inv (s.setTr t x) := by
  have hne : ∀ u, (s.tr u).phase ≠ .fresh → (s.setTr t x).tr u = s.tr u := by
    intro u hu
    refine setTr_ne x ?_
    rintro rfl
    exact hu ht
  have hem : ∀ u ∈ s.emulators, (s.setTr t x).tr u = s.tr u := by
    intro u hu
    refine setTr_ne x ?_
    rintro rfl
    exact h.fresh_notMem ht hu
  refine ⟨⟨fun u hu => ?_, h.consistent.distinct, ?_⟩, fun u hu => ?_, fun m hm => ?_⟩
  · unfold Server.Registered
    rw [hem u hu]
    exact h.consistent.registered u hu
  · rw [setTr_emulators, List.map_congr_left fun u hu => congrArg ATransport.adbPort (hem u hu)]
    exact h.consistent.ports
  · rw [hne u (h.listed u hu)]
    exact h.listed u hu
  · have hs := h.queued m hm
    cases m with
    | register u =>
      rw [sound_register, hne u hs]
      exact hs
    | remove u =>
      rw [sound_remove, hne u hs.1]
      exact hs

/-- A new emulator takes a free slot. -/
theorem Inv.fill {l₁ l₂ : List (Option Nat)} (h : Inv s) (hl : s.localTransports = l₁ ++ none :: l₂)
    (hreg : (s.tr t).phase = .registered) (hkick : (s.tr t).kicked = false) (hnot : t ∉ s.emulators)
    (hport : ¬ PortPresent s (s.tr t).adbPort) :
    Inv { s with localTransports := l₁ ++ some t :: l₂ } := by
  have hem : ({ s with localTransports := l₁ ++ some t :: l₂ } : Server).emulators.Perm
      (t :: s.emulators) := by
    unfold Server.emulators
    rw [hl, List.filterMap_append, List.filterMap_append]
    exact List.perm_middle
  refine ⟨⟨fun u hu => ?_, ?_, ?_⟩, h.listed, h.queued⟩
  · rcases List.mem_cons.mp (hem.mem_iff.mp hu) with rfl | hu
    · exact ⟨.inl hreg, hkick⟩
    · exact h.consistent.registered u hu
  · rw [hem.nodup_iff, List.nodup_cons]
    exact ⟨hnot, h.consistent.distinct⟩
  · rw [(hem.map _).nodup_iff, List.map_cons, List.nodup_cons]
    refine ⟨fun hm => hport ?_, h.consistent.ports⟩
    obtain ⟨u, hu, he⟩ := List.mem_map.mp hm
    exact ⟨u, hu, he⟩

theorem Inv.connect (h : Inv s) (ht : (s.tr t).phase = .fresh) (isLocal : Bool) :
    Inv (s.registerSocketTransport t fd port isLocal) := by
  rcases connect_cases fd port h ht isLocal with ⟨-, he⟩ | ⟨-, he⟩ |
    ⟨-, hport, -, l₁, l₂, hl, he⟩
  · rw [he]
    exact (h.setFresh ht ⟨.freed, fd, port, false, 0⟩).update rfl rfl (fun _ hu => .inl hu)
      fun _ hm => .inl hm
  · rw [he]
    exact (h.setFresh ht ⟨.registered, fd, 0, false, 0⟩).write (m := .register t)
      (by simp [Sound])
  · rw [he]
    have hnot := h.fresh_notMem ht
    have h' := (h.setFresh ht ⟨.registered, fd, port, false, 0⟩).write (m := .register t)
      (by simp [Sound])
    refine Inv.fill h' hl (by simp [Server.setTr]) (by simp [Server.setTr]) hnot ?_
    rintro ⟨u, hu, he'⟩
    have hut : u ≠ t := by
      rintro rfl
      exact hnot hu
    refine hport ⟨u, hu, ?_⟩
    simpa [Server.setTr, Function.update_of_ne hut] using he'

end Connect

/-! ## Runs -/

section Steps

variable {s s' : Server}

theorem transportUnrefLocked_phase (t u : Nat) :
    ((s.transportUnrefLocked t).tr u).phase = (s.tr u).phase := by
  unfold Server.transportUnrefLocked
  simp only []
  split
  · exact (kickOnce_phase u).trans (setTr_field ATransport.phase (by rfl) u)
  · exact setTr_field ATransport.phase (by rfl) u

/-- `transport_registration_func`: a transport that is freed was kicked, so it is in no slot. -/
theorem Inv.handle (h : Inv s) (hs : s.handle = some s') : Inv s' := by
  unfold Server.handle at hs
  split at hs
  · cases hs
  · rename_i t q hq
    cases hs
    have h' : Inv (s.setTr t { s.tr t with phase := .started, refCount := 2 }) :=
      h.setTr (fun _ => by simp) (fun _ => .inr rfl) rfl rfl
    refine h'.update rfl rfl (fun u hu => ?_) fun m hm => .inl ?_
    · rcases List.mem_append.mp hu with hu | hu
      · exact .inl hu
      · obtain rfl := List.mem_singleton.mp hu
        exact .inr (by simp)
    · show m ∈ s.queue
      rw [hq]
      exact List.mem_cons_of_mem _ hm
  · rename_i t q hq
    cases hs
    obtain ⟨-, hkicked⟩ := h.queued (.remove t) (by simp [hq])
    have h' : Inv (s.setTr t { s.tr t with phase := .freed }) := by
      refine h.setTr (fun _ => by simp) (fun hm => ?_) rfl rfl
      rw [(h.consistent.registered t hm).2] at hkicked
      cases hkicked
    refine h'.update rfl rfl (fun u hu => .inl (List.mem_of_mem_erase hu)) fun m hm => .inl ?_
    show m ∈ s.queue
    rw [hq]
    exact List.mem_cons_of_mem _ hm

theorem Inv.step (h : Inv s) {l : Step} (hs : step s l = some s') : Inv s' := by
  cases l with
  | connect t fd port isLocal =>
    obtain ⟨ht, hs⟩ := Option.ite_none_right_eq_some.mp hs
    cases hs
    exact h.connect ht isLocal
  | handle => exact h.handle hs
  | kick t =>
    obtain ⟨-, hs⟩ := Option.ite_none_right_eq_some.mp hs
    cases hs
    exact h.kickOnce t
  | unref t =>
    obtain ⟨ht, hs⟩ := Option.ite_none_right_eq_some.mp hs
    cases hs
    exact h.transportUnrefLocked (by rcases ht with ht | ht <;> simp [ht])
  | unregister t =>
    obtain ⟨ht, hs⟩ := Option.ite_none_right_eq_some.mp hs
    cases hs
    refine ((h.erase t).kickOnce t).transportUnrefLocked ?_
    rw [kickOnce_phase]
    exact h.listed t ht
  | unregisterAll =>
    cases hs
    refine h.foldl _ (fun s t h ht => ?_) (fun s t u => ?_) h.listed
    · split
      · refine ((h.erase t).kickOnce t).transportUnrefLocked ?_
        rw [kickOnce_phase]
        exact ht
      · exact h
    · split
      · rw [transportUnrefLocked_phase, kickOnce_phase]
      · rfl
  | closeUsb =>
    cases hs
    exact h.foldl _ (fun s t h _ => h.kickOnce t) (fun s t u => kickOnce_phase u) h.listed

theorem inv_init : Inv .init := by
  refine ⟨⟨fun t ht => ?_, ?_, ?_⟩, fun t ht => ?_, fun m hm => ?_⟩
  · cases ht
  · exact List.nodup_nil
  · exact List.nodup_nil
  · cases ht
  · cases hm

end Steps

theorem inv_run {s : Server} {ls : List Step} (hrun : run step .init ls = some s) : Inv s :=
  run_keeps (fun _ _ _ h hs => h.step hs) inv_init hrun

theorem Accepted.not_refused {s s' : Server} {t : Nat} {fd port : Int} {isLocal : Bool}
    (h : Accepted s s' t port isLocal) : ¬ Refused s s' t fd := by
  intro hr
  have hfreed := hr.freed
  rw [h.registered] at hfreed
  cases hfreed

/-- **The slots of the emulators.** After any calls, the slots hold distinct transports with distinct
ports, each registered and not kicked. A connection to an emulator is refused just when its port has one
or no slot is free; no other connection is. -/
theorem slots_consistent (ls : List Step) (s : Server) (hrun : run step .init ls = some s) :
    Consistent s ∧ ∀ t fd port isLocal s', step s (.connect t fd port isLocal) = some s' →
      (Refused s s' t fd ↔ isLocal = true ∧ (PortPresent s port ∨ Full s)) ∧
      (¬ Refused s s' t fd → Accepted s s' t port isLocal) := by
  have h := inv_run hrun
  refine ⟨h.consistent, fun t fd port isLocal s' hs => ?_⟩
  obtain ⟨ht, hs⟩ := Option.ite_none_right_eq_some.mp hs
  cases hs
  have hothers : ∀ (x : ATransport), ∀ u ≠ t, (s.setTr t x).tr u = s.tr u := fun x u hu =>
    setTr_ne x hu
  rcases connect_cases fd port h ht isLocal with ⟨hwhy, he⟩ | ⟨hl, he⟩ |
    ⟨hl, hport, hfull, l₁, l₂, hslots, he⟩
  · have hr : Refused s (s.registerSocketTransport t fd port isLocal) t fd := by
      rw [he]
      exact ⟨rfl, by simp [Server.setTr], rfl, rfl, hothers _⟩
    exact ⟨iff_of_true hr hwhy, fun hn => absurd hr hn⟩
  · have ha : Accepted s (s.registerSocketTransport t fd port isLocal) t port isLocal := by
      rw [he]
      refine ⟨rfl, by simp [Server.setTr], ?_, hothers _⟩
      rw [hl, if_neg (by simp)]
      rfl
    refine ⟨iff_of_false ha.not_refused fun hw => ?_, fun _ => ha⟩
    rw [hl] at hw
    cases hw.1
  · have ha : Accepted s (s.registerSocketTransport t fd port isLocal) t port isLocal := by
      rw [he]
      refine ⟨rfl, by simp [Server.setTr], ?_, hothers _⟩
      rw [if_pos hl]
      exact ⟨by simp [Server.setTr], l₁, l₂, hslots, rfl⟩
    exact ⟨iff_of_false ha.not_refused fun hw => hw.2.elim hport hfull, fun _ => ha⟩

/-- Emulators on two ports; the first is kicked and freed, and one more connects to its port. -/
def reconnect : List Step :=
  [.connect 0 5 5555 true, .connect 1 6 5557 true, .handle, .handle, .kick 0, .unref 0, .unref 0,
    .connect 2 7 5555 true, .handle]

theorem slots_consistent_reconnect : ∃ s, run step .init reconnect = some s ∧
    s.emulators = [2, 1] ∧ (s.tr 0).phase = .freed ∧ Consistent s ∧
    ∀ s', step s (.connect 3 8 5557 true) = some s' → Refused s s' 3 8 := by
  have hrun := (Option.some_get (x := run step .init reconnect) (by decide)).symm
  obtain ⟨hc, hconnect⟩ := slots_consistent reconnect _ hrun
  refine ⟨_, hrun, by decide, by decide, hc, fun s' hs => ?_⟩
  exact (hconnect 3 8 5557 true s' hs).1.mpr ⟨rfl, .inl ⟨1, by decide, by decide⟩⟩

/-- A connection of `adb connect` to a port that an emulator has is not refused. -/
theorem network_not_refused : ∃ s s', run step .init [.connect 0 5 5555 true] = some s ∧
    step s (.connect 1 6 5555 false) = some s' ∧ PortPresent s 5555 ∧ ¬ Refused s s' 1 6 := by
  refine ⟨_, _, rfl, rfl, ⟨0, by decide, by decide⟩, fun h => ?_⟩
  exact absurd h.freed (by decide)

end Twm.Adb.Emulator
