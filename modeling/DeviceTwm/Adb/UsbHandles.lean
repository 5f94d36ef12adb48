import DeviceTwm.Adb.UsbScan
import DeviceTwm.Lib.Run
import Mathlib.Data.List.Nodup

/-!
# The handles of USB devices (`usb_linux.c` of `adb`)

`device_poll_thread` scans the device nodes once a second. A node whose name is in `handle_list` is only
marked (`known_device`); behind a new one the scan looks for the interface of adb, and `register_device`
opens it, puts a handle at the end of the list and registers a transport. After the scan
`kick_disconnected_devices` kicks the handles that were not marked. In between the transports kick
handles and close them, on their own threads.

* A step is one section under `usb_lock`, or what is done between two such sections.
* `none` stands for a handle that is used after it was freed.
* `Listed`, `Inv`: what is true of the list, and of the marks.
* `knownDevice_cases`, `usbKick_spec`, `kickLoop_spec`: what the functions do.
-/

open Lib

namespace Twm.Adb.UsbHandles

open UsbScan (Registered)

/-! ## The code -/

/-- The name of a device node, without the terminating zero. -/
abbrev Name := List UInt8

/-- `usb_handle`; its request blocks belong to the reads and writes. -/
structure UsbHandle where
  fname : Name
  desc : Nat
  epIn : UInt8
  epOut : UInt8
  zeroMask : UInt32
  writeable : Bool
  dead : Bool
  mark : Bool
  deriving DecidableEq

/-- A call of `register_usb_transport`. -/
structure Registration where
  usb : Nat
  fname : Name
  serial : List UInt8
  writeable : Bool
  deriving DecidableEq

/-- Where the thread that scans is. -/
inductive Poll
  /-- Before the next entry of the directories, or after the last one. -/
  | scanning
  /-- `find_usb_device` has found an interface in a node that was not known. -/
  | found (devName : Name) (r : Registered)
  /-- `register_device` has not found the name in the list. -/
  | opening (devName : Name) (r : Registered)
  deriving DecidableEq

structure Usb where
  /-- What was allocated and not freed. -/
  heap : Nat → Option UsbHandle
  count : Nat
  /-- `handle_list`. -/
  list : List Nat
  /-- The descriptors that are open. -/
  fds : List Nat
  poll : Poll
  registered : List Registration
  /-- The calls of `unregister_usb_transport`. -/
  unregistered : List Nat

namespace Usb

variable (s : Usb)

/-- A handle with new fields. -/
def setHandle (h : Nat) (u : UsbHandle) : Usb := { s with heap := Function.update s.heap h (some u) }

/-- The handle with this name, from a place in the list on. -/
def findName (devName : Name) : List Nat → Option (Option Nat)
  | [] => some none
  | h :: rest =>
    match s.heap h with
    | none => none
    | some u => if u.fname = devName then some (some h) else findName devName rest

/-- `known_device`: whether there is such a handle, which is then marked. -/
def knownDevice (devName : Name) : Option (Usb × Bool) :=
  match s.findName devName s.list with
  | none => none
  | some none => some (s, false)
  | some (some h) => (s.heap h).map fun u => (s.setHandle h { u with mark := true }, true)

/-- `usb_kick`. The transport of a handle that is only read is unregistered here. -/
def usbKick (h : Nat) : Option Usb :=
  match s.heap h with
  | none => none
  | some u =>
    if u.dead then some s
    else
      let s := s.setHandle h { u with dead := true }
      if u.writeable then some s else some { s with unregistered := s.unregistered ++ [h] }

/-- The loop of `kick_disconnected_devices`. -/
def kickLoop (s : Usb) : List Nat → Option Usb
  | [] => some s
  | h :: rest =>
    match s.heap h with
    | none => none
    | some u =>
      if u.mark = false then (s.usbKick h).bind fun s => kickLoop s rest
      else kickLoop (s.setHandle h { u with mark := false }) rest

def kickDisconnectedDevices : Option Usb := kickLoop s s.list

/-- `usb_close`. -/
def usbClose (h : Nat) : Option Usb :=
  match s.heap h with
  | none => none
  | some u => some { s with
      heap := Function.update s.heap h none
      list := s.list.erase h
      fds := s.fds.erase u.desc }

end Usb

/-! ### `register_device` -/

/-- `ioctl(USBDEVFS_CONTROL)` for a string: the result, and the 128 words of the buffer. -/
structure Control where
  result : Int
  buffer : List UInt16
  size : buffer.length = 128
  /-- `wLength` is 256. -/
  le : result ≤ 256
  deriving DecidableEq

/-- The serial number in an answer: without the first word, and of each word the low byte. -/
def Control.serial (c : Control) : List UInt8 :=
  ((c.buffer.take (c.result / 2).toNat).drop 1).map UInt16.toUInt8

/-- The loop over the languages, of which the first word of the list is none: the first one that is
answered. `ask i` is the request in the round `i`. -/
def serialLoop (languages : List UInt16) (ask : Nat → UInt16 → Control) (i : Nat) : Nat → List UInt8
  | 0 => []
  | n + 1 =>
    let c := ask i (languages.getD i 0)
    if 0 < c.result then c.serial else serialLoop languages ask (i + 1) n

/-- The serial number that `register_device` reads, as a string. -/
def readSerial (serialIndex : UInt8) (languages : Control) (ask : Nat → UInt16 → Control) :
    List UInt8 :=
  if serialIndex = 0 then []
  else
    let languageCount := if 0 < languages.result then (languages.result - 2).tdiv 2 else 0
    (serialLoop languages.buffer ask 1 languageCount.toNat).takeWhile (· ≠ 0)

theorem Control.length_serial (c : Control) : c.serial.length ≤ 127 := by
  have := c.le
  rw [Control.serial, List.length_map, List.length_drop, List.length_take]
  omega

theorem length_serialLoop (languages : List UInt16) (ask : Nat → UInt16 → Control) (i n : Nat) :
    (serialLoop languages ask i n).length ≤ 127 := by
  induction n generalizing i with
  | zero => exact Nat.zero_le _
  | succ n ih =>
    rw [serialLoop]
    split
    · exact Control.length_serial _
    · exact ih (i + 1)

/-- With its terminating zero it fits into the 256 bytes of `serial`. -/
theorem length_readSerial_lt (serialIndex : UInt8) (languages : Control)
    (ask : Nat → UInt16 → Control) : (readSerial serialIndex languages ask).length + 1 ≤ 256 := by
  rw [readSerial]
  split
  · decide
  · refine Nat.le_trans (Nat.succ_le_succ ?_) (by decide : 127 + 1 ≤ 256)
    exact Nat.le_trans (List.takeWhile_sublist _).length_le (length_serialLoop _ _ _ _)

/-- What the kernel answers `register_device`: the descriptors for writing and for reading only, whether
the interface was claimed, and the requests for the serial number. -/
structure Answers where
  rdwr : Option Nat
  claimed : Bool
  rdonly : Option Nat
  languages : Control
  ask : Nat → UInt16 → Control

namespace Usb

variable (s : Usb)

/-- The last part of `register_device`, for a descriptor that stays open. -/
def addHandle (devName : Name) (r : Registered) (a : Answers) (fd : Nat) (writeable : Bool) : Usb :=
  { s with
    heap := Function.update s.heap s.count
      (some ⟨devName, fd, r.epIn, r.epOut, r.zeroMask, writeable, false, true⟩)
    count := s.count + 1
    list := s.list ++ [s.count]
    fds := fd :: s.fds
    poll := .scanning
    registered := s.registered ++
      [⟨s.count, devName, readSerial r.serialIndex a.languages a.ask, writeable⟩] }

/-- `register_device` after its search: a descriptor whose interface cannot be claimed is closed. -/
def openDevice (devName : Name) (r : Registered) (a : Answers) : Usb :=
  match a.rdwr with
  | some fd => if a.claimed then s.addHandle devName r a fd true else { s with poll := .scanning }
  | none =>
    match a.rdonly with
    | some fd => s.addHandle devName r a fd false
    | none => { s with poll := .scanning }

end Usb

/-! ### Runs -/

/-- The handles, and what has happened to them. -/
structure World where
  usb : Usb
  /-- The names that this scan has come to. -/
  visited : List Name
  /-- The handles that a whole scan did not come to. -/
  missed : List Nat
  /-- The handles that a transport has kicked. -/
  kicked : List Nat

def World.init : World := ⟨⟨fun _ => none, 0, [], [], .scanning, [], []⟩, [], [], []⟩

inductive Call
  /-- The scan comes to an entry: `found` is the interface, if the node can be read and has one. -/
  | entry (devName : Name) (found : Option Registered)
  /-- `register_device` looks for the name in the list. -/
  | search
  /-- The rest of `register_device`. -/
  | openDevice (a : Answers)
  /-- `kick_disconnected_devices`, after the last entry. -/
  | kickDisconnected
  /-- A transport kicks its handle. -/
  | usbKick (h : Nat)
  /-- A transport closes its handle. -/
  | usbClose (h : Nat)

/-- The steps of the scanning thread, and those of the transports. -/
def step (w : World) : Call → Option World
  | .entry devName found =>
    if w.usb.poll = .scanning then
      match w.usb.knownDevice devName with
      | none => none
      | some (s, true) => some { w with usb := s, visited := devName :: w.visited }
      | some (s, false) => some { w with
          usb := { s with poll := match found with
            | some r => .found devName r
            | none => .scanning }
          visited := devName :: w.visited }
    else none
  | .search =>
    match w.usb.poll with
    | .found devName r =>
      (w.usb.findName devName w.usb.list).map fun known =>
        { w with usb := { w.usb with
            poll := if known.isSome then .scanning else .opening devName r } }
    | _ => none
  | .openDevice a =>
    match w.usb.poll with
    | .opening devName r => some { w with usb := w.usb.openDevice devName r a }
    | _ => none
  | .kickDisconnected =>
    if w.usb.poll = .scanning then
      w.usb.kickDisconnectedDevices.map fun s =>
        { w with
          usb := s
          visited := []
          missed := w.missed ++ w.usb.list.filter fun h =>
            (w.usb.heap h).any fun u => ∀ n ∈ w.visited, n ≠ u.fname }
    else none
  | .usbKick h => (w.usb.usbKick h).map fun s => { w with usb := s, kicked := w.kicked ++ [h] }
  | .usbClose h => (w.usb.usbClose h).map fun s => { w with usb := s }

/-- The thread is in `register_device`, before its search. -/
def Poll.isFound : Poll → Bool
  | .found _ _ => true
  | _ => false

/-- The thread is in `register_device`, after its search. -/
def Poll.isOpening : Poll → Bool
  | .opening _ _ => true
  | _ => false

/-- What the steps rely on. The scanning thread does one thing after the other, the kernel gives out
descriptors that are not open, and a transport kicks and closes the handle that it was registered with
until it has closed it. The transport of a handle that is only read has no threads, and is never
closed. -/
def CallOk (w : World) : Call → Prop
  | .entry _ _ => w.usb.poll = .scanning
  | .search => w.usb.poll.isFound = true
  | .openDevice a => w.usb.poll.isOpening = true ∧
      (∀ fd ∈ a.rdwr, fd ∉ w.usb.fds) ∧ ∀ fd ∈ a.rdonly, fd ∉ w.usb.fds
  | .kickDisconnected => w.usb.poll = .scanning
  | .usbKick h => (w.usb.heap h).isSome = true
  | .usbClose h => (w.usb.heap h).any UsbHandle.writeable = true

/-! ## The invariant -/

/-- The descriptors of the handles in the list. -/
def Usb.descs (s : Usb) : List Nat := s.list.filterMap fun h => (s.heap h).map UsbHandle.desc

/-- The list, and what it has to do with the handles that are allocated. -/
structure Listed (s : Usb) : Prop where
  nodup : s.list.Nodup
  /-- The handles in the list are those that were not freed. -/
  live : ∀ h, h ∈ s.list ↔ (s.heap h).isSome = true
  fresh : ∀ h, s.count ≤ h → s.heap h = none
  names : ∀ h k u v, s.heap h = some u → s.heap k = some v → u.fname = v.fname → h = k
  descs : s.descs.Perm s.fds
  distinct : s.fds.Nodup
  registered : ∀ r ∈ s.registered, r.usb < s.count ∧ ∀ u, s.heap r.usb = some u →
    u.fname = r.fname ∧ u.writeable = r.writeable
  stays : ∀ r ∈ s.registered, r.writeable = false → (s.heap r.usb).isSome = true

/-- A handle that is only read, and was kicked. -/
def UsbHandle.Abandoned (u : UsbHandle) : Prop := u.dead = true ∧ u.writeable = false

instance (u : UsbHandle) : Decidable u.Abandoned := inferInstanceAs (Decidable (_ ∧ _))

structure Inv (w : World) : Prop where
  listed : Listed w.usb
  mark : ∀ h u, w.usb.heap h = some u → (u.mark = true ↔ u.fname ∈ w.visited)
  dead : ∀ h u, w.usb.heap h = some u → (u.dead = true ↔ h ∈ w.missed ∨ h ∈ w.kicked)
  past : ∀ h, h ∈ w.missed ∨ h ∈ w.kicked → h < w.usb.count
  found : ∀ devName r, w.usb.poll = .found devName r → devName ∈ w.visited
  opening : ∀ devName r, w.usb.poll = .opening devName r → devName ∈ w.visited ∧
    ∀ h u, w.usb.heap h = some u → u.fname ≠ devName
  /-- Each of them was unregistered once. -/
  unregistered : ∀ h, w.usb.unregistered.count h =
    if ∃ u ∈ w.usb.heap h, u.Abandoned then 1 else 0

/-! ## The functions -/

variable {s s' : Usb} {w : World} {u : UsbHandle} {h : Nat} {devName : Name} {l : List Nat}

/-- What no function changes in a handle. -/
def UsbHandle.device (u : UsbHandle) : Name × Nat × Bool := (u.fname, u.desc, u.writeable)

/-- The handles are the same, but for `mark` and `dead`. -/
structure Same (s s' : Usb) : Prop where
  count : s'.count = s.count
  list : s'.list = s.list
  fds : s'.fds = s.fds
  poll : s'.poll = s.poll
  registered : s'.registered = s.registered
  device : ∀ h, (s'.heap h).map UsbHandle.device = (s.heap h).map UsbHandle.device
  dead : ∀ h, (s.heap h).any UsbHandle.dead = true → (s'.heap h).any UsbHandle.dead = true

theorem Same.refl (s : Usb) : Same s s := ⟨rfl, rfl, rfl, rfl, rfl, fun _ => rfl, fun _ => id⟩

theorem Same.trans {s₁ s₂ s₃ : Usb} (h : Same s₁ s₂) (h' : Same s₂ s₃) : Same s₁ s₃ :=
  ⟨h'.count.trans h.count, h'.list.trans h.list, h'.fds.trans h.fds, h'.poll.trans h.poll,
    h'.registered.trans h.registered, fun k => (h'.device k).trans (h.device k),
    fun k hk => h'.dead k (h.dead k hk)⟩

theorem Same.isSome (h : Same s s') (k : Nat) : (s'.heap k).isSome = (s.heap k).isSome := by
  have hd := congrArg Option.isSome (h.device k)
  rwa [Option.isSome_map, Option.isSome_map] at hd

/-- The handle that a new one was. -/
theorem Same.get (h : Same s s') {k : Nat} {v : UsbHandle} (hv : s'.heap k = some v) :
    ∃ u, s.heap k = some u ∧ u.fname = v.fname ∧ u.desc = v.desc ∧ u.writeable = v.writeable := by
  have hd := h.device k
  rw [hv, Option.map_some] at hd
  obtain ⟨u, hu, he⟩ := Option.map_eq_some_iff.mp hd.symm
  exact ⟨u, hu, congrArg (·.1) he, congrArg (·.2.1) he, congrArg (·.2.2) he⟩

theorem Same.descs (h : Same s s') : s'.descs = s.descs := by
  rw [Usb.descs, Usb.descs, h.list]
  congr 1
  funext k
  have hd := congrArg (Option.map (·.2.1)) (h.device k)
  rwa [Option.map_map, Option.map_map] at hd

theorem Listed.same (hs : Listed s) (h : Same s s') : Listed s' where
  nodup := by rw [h.list]; exact hs.nodup
  live k := by rw [h.list, h.isSome]; exact hs.live k
  fresh k hk := by
    have hnone := hs.fresh k (h.count ▸ hk)
    have hsome := h.isSome k
    rw [hnone] at hsome
    exact Option.isNone_iff_eq_none.mp (by rw [← Option.not_isSome, hsome]; rfl)
  names j k u v hu hv he := by
    obtain ⟨u', hu', hu₁, -⟩ := h.get hu
    obtain ⟨v', hv', hv₁, -⟩ := h.get hv
    exact hs.names j k u' v' hu' hv' (by rw [hu₁, hv₁, he])
  descs := by rw [h.descs, h.fds]; exact hs.descs
  distinct := by rw [h.fds]; exact hs.distinct
  registered r hr := by
    rw [h.registered] at hr
    obtain ⟨hlt, hreg⟩ := hs.registered r hr
    refine ⟨h.count ▸ hlt, fun v hv => ?_⟩
    obtain ⟨u, hu, hn, -, hw⟩ := h.get hv
    rw [← hn, ← hw]
    exact hreg u hu
  stays r hr hro := by
    rw [h.registered] at hr
    rw [h.isSome]
    exact hs.stays r hr hro

theorem same_setHandle (hu : s.heap h = some u) {v : UsbHandle} (hv : v.device = u.device)
    (hd : u.dead = true → v.dead = true) : Same s (s.setHandle h v) := by
  refine ⟨rfl, rfl, rfl, rfl, rfl, fun k => ?_, fun k hk => ?_⟩
  · show (Function.update s.heap h (some v) k).map UsbHandle.device = _
    rcases eq_or_ne k h with rfl | hne
    · rw [Function.update_self, hu, Option.map_some, Option.map_some, hv]
    · rw [Function.update_of_ne hne]
  · show (Function.update s.heap h (some v) k).any UsbHandle.dead = true
    rcases eq_or_ne k h with rfl | hne
    · rw [hu] at hk
      rw [Function.update_self]
      exact hd hk
    · rwa [Function.update_of_ne hne]

variable (devName) in
/-- A search among handles that are there. -/
theorem findName_cases (hl : ∀ h ∈ l, (s.heap h).isSome = true) :
    (s.findName devName l = some none ∧ ∀ h ∈ l, ∀ u, s.heap h = some u → u.fname ≠ devName) ∨
      ∃ h u, s.heap h = some u ∧ u.fname = devName ∧ s.findName devName l = some (some h) := by
  induction l with
  | nil => exact .inl ⟨rfl, nofun⟩
  | cons k rest ih =>
    obtain ⟨u, hu⟩ := Option.isSome_iff_exists.mp (hl k List.mem_cons_self)
    rw [Usb.findName, hu]
    dsimp only
    split
    case isTrue hn => exact .inr ⟨k, u, hu, hn, rfl⟩
    case isFalse hn =>
      refine (ih fun h hh => hl h (List.mem_cons_of_mem _ hh)).imp_left fun ⟨he, hrest⟩ =>
        ⟨he, fun h hh v hv => ?_⟩
      rcases List.mem_cons.mp hh with rfl | hh
      · rw [hu] at hv
        cases hv
        exact hn
      · exact hrest h hh v hv

/-- `known_device` knows exactly the names in the list. -/
theorem knownDevice_cases (hs : Listed s) (devName : Name) :
    (s.knownDevice devName = some (s, false) ∧ ∀ h u, s.heap h = some u → u.fname ≠ devName) ∨
      ∃ h u, s.heap h = some u ∧ u.fname = devName ∧
        s.knownDevice devName = some (s.setHandle h { u with mark := true }, true) := by
  rcases findName_cases devName fun h hh => (hs.live h).mp hh with
    ⟨he, hall⟩ | ⟨h, u, hu, hn, he⟩
  · refine .inl ⟨by rw [Usb.knownDevice, he], fun h u hu => ?_⟩
    exact hall h ((hs.live h).mpr (by rw [hu]; rfl)) u hu
  · exact .inr ⟨h, u, hu, hn, by rw [Usb.knownDevice, he]; dsimp only; rw [hu, Option.map_some]⟩

/-- What `usb_kick` leaves. -/
structure Kicked (s : Usb) (h : Nat) (u : UsbHandle) (s' : Usb) : Prop where
  same : Same s s'
  heap : s'.heap = Function.update s.heap h (some { u with dead := true })
  unregistered : s'.unregistered = s.unregistered ++
    if u.dead = false ∧ u.writeable = false then [h] else []

theorem usbKick_spec (hu : s.heap h = some u) : ∃ s', s.usbKick h = some s' ∧ Kicked s h u s' := by
  rw [Usb.usbKick, hu]
  dsimp only
  by_cases hd : u.dead = true
  · rw [if_pos hd]
    refine ⟨s, rfl, Same.refl s, ?_, ?_⟩
    · have he : { u with dead := true } = u := by rw [← hd]
      rw [he, ← hu, Function.update_eq_self]
    · rw [if_neg (by rw [hd]; nofun), List.append_nil]
  · rw [if_neg hd]
    have hsame := same_setHandle hu (v := { u with dead := true }) rfl fun _ => rfl
    by_cases hw : u.writeable = true
    · rw [if_pos hw]
      refine ⟨_, rfl, hsame, rfl, ?_⟩
      rw [if_neg (by rw [hw]; nofun), List.append_nil]
      rfl
    · rw [if_neg hw]
      refine ⟨_, rfl, ⟨hsame.count, hsame.list, hsame.fds, hsame.poll, hsame.registered, hsame.device,
        hsame.dead⟩, rfl, ?_⟩
      rw [if_pos ⟨Bool.eq_false_iff.mpr hd, Bool.eq_false_iff.mpr hw⟩]
      rfl

/-- What `kick_disconnected_devices` makes of a handle. -/
def UsbHandle.swept (u : UsbHandle) : UsbHandle :=
  if u.mark = false then { u with dead := true } else { u with mark := false }

/-- A handle for which the loop calls `unregister_usb_transport`. -/
def UsbHandle.Unregisters (u : UsbHandle) : Prop :=
  u.mark = false ∧ u.dead = false ∧ u.writeable = false

instance (u : UsbHandle) : Decidable u.Unregisters := inferInstanceAs (Decidable (_ ∧ _))

/-- What its loop leaves of the handles `l`. -/
structure Swept (s : Usb) (l : List Nat) (s' : Usb) : Prop where
  same : Same s s'
  heap : ∀ h, s'.heap h = if h ∈ l then (s.heap h).map UsbHandle.swept else s.heap h
  unregistered : ∀ h, s'.unregistered.count h = s.unregistered.count h +
    if h ∈ l ∧ ∃ u ∈ s.heap h, u.Unregisters then 1 else 0

/-- One round of the loop. -/
theorem kickLoop_cons (hu : s.heap h = some u) : ∃ s₁,
    s.kickLoop (h :: l) = s₁.kickLoop l ∧ Same s s₁ ∧
      s₁.heap = Function.update s.heap h (some u.swept) ∧
      s₁.unregistered = s.unregistered ++ if u.Unregisters then [h] else [] := by
  rw [Usb.kickLoop, hu]
  dsimp only
  by_cases hm : u.mark = false
  · obtain ⟨s₁, hkick, hk⟩ := usbKick_spec hu
    rw [if_pos hm, hkick]
    refine ⟨s₁, rfl, hk.same, ?_, ?_⟩
    · rw [hk.heap, UsbHandle.swept, if_pos hm]
    · rw [hk.unregistered]
      congr 1
      by_cases hd : u.dead = false ∧ u.writeable = false
      · rw [if_pos hd, if_pos ⟨hm, hd⟩]
      · rw [if_neg hd, if_neg fun hun => hd hun.2]
  · rw [if_neg hm]
    refine ⟨_, rfl, same_setHandle hu rfl id, ?_, ?_⟩
    · rw [UsbHandle.swept, if_neg hm]
      rfl
    · rw [if_neg fun hun => hm hun.1, List.append_nil]
      rfl

theorem count_ite_of_ne {p : Prop} [Decidable p] {k h : Nat} (hne : k ≠ h) :
    (if p then [h] else []).count k = 0 := by
  split
  · exact List.count_eq_zero.mpr fun hk => hne (List.mem_singleton.mp hk)
  · exact List.count_nil

theorem kickLoop_spec (hn : l.Nodup) (hl : ∀ h ∈ l, (s.heap h).isSome = true) :
    ∃ s', s.kickLoop l = some s' ∧ Swept s l s' := by
  induction l generalizing s with
  | nil => exact ⟨s, rfl, Same.refl s, fun h => (if_neg List.not_mem_nil).symm, fun h => by
      rw [if_neg fun hh => List.not_mem_nil hh.1, Nat.add_zero]⟩
  | cons k rest ih =>
    obtain ⟨u, hu⟩ := Option.isSome_iff_exists.mp (hl k List.mem_cons_self)
    obtain ⟨hk, hrest⟩ := List.nodup_cons.mp hn
    obtain ⟨s₁, hstep, hsame, hheap, hun⟩ := kickLoop_cons (l := rest) hu
    obtain ⟨s', hs', hsw⟩ := ih hrest (s := s₁) fun h hh => by
      rw [hsame.isSome]
      exact hl h (List.mem_cons_of_mem _ hh)
    refine ⟨s', hstep.trans hs', hsame.trans hsw.same, fun h => ?_, fun h => ?_⟩
    · rw [hsw.heap, hheap]
      rcases eq_or_ne h k with rfl | hne
      · rw [if_neg hk, if_pos List.mem_cons_self, Function.update_self, hu, Option.map_some]
      · rw [Function.update_of_ne hne]
        simp only [List.mem_cons, hne, false_or]
    · rw [hsw.unregistered, hheap, hun, List.count_append, Nat.add_assoc]
      congr 1
      rcases eq_or_ne h k with rfl | hne
      · have hno : ¬ (h ∈ rest ∧ ∃ v ∈ Function.update s.heap h (some u.swept) h, v.Unregisters) :=
          fun hh => hk hh.1
        rw [if_neg hno, Nat.add_zero, hu]
        by_cases hyes : u.Unregisters
        · rw [if_pos hyes, if_pos ⟨List.mem_cons_self, u, rfl, hyes⟩, List.count_singleton_self]
        · rw [if_neg hyes, if_neg fun ⟨_, v, hv, hyes'⟩ => hyes (Option.some.inj hv ▸ hyes'),
            List.count_nil]
      · rw [count_ite_of_ne hne, Nat.zero_add, Function.update_of_ne hne]
        simp only [List.mem_cons, hne, false_or]

end Twm.Adb.UsbHandles
