import DeviceTwm.Lib.Region

/-!
# The descriptors of a USB device (`usb_linux.c` of `fastboot`)

What is read from a device node is a device descriptor, a configuration descriptor, and then interface
descriptors with their endpoint descriptors. Each one begins with its length. `filter_usb_device` goes
through them and shows every interface to a callback.

* `none` stands for a byte that is used and was not read (or, for the serial number, does not exist).
* `Cursor`: `ptr` and `len`. The invariant is that they meet at the end of what was read (`Cursor.At`).
* `filterUsbDevice_faithful`: nothing else is used, and what is reported is of the interface that the
  callback accepted.
-/

open Lib

namespace Twm.Fastboot.Usb

/-! ## The code -/

/-- `usb_ifc_info`. -/
structure Info where
  devVendor : UInt16
  devProduct : UInt16
  devClass : UInt8
  devSubclass : UInt8
  devProtocol : UInt8
  ifcClass : UInt8
  ifcSubclass : UInt8
  ifcProtocol : UInt8
  hasBulkIn : Bool
  hasBulkOut : Bool
  writable : Bool
  serialNumber : List UInt8

/-- What the control transfer for a string returns: `buffer` has 256 bytes. -/
structure Control where
  result : Int
  buffer : List UInt16
  length_eq : buffer.length = 128
  le : result ≤ 256

/-- `*ept_in_id`, `*ept_out_id` and `*ifc_id`. -/
structure Outputs where
  eptIn : Int
  eptOut : Int
  ifc : Int

/-- `ptr`, and the `len` bytes from there on. -/
structure Cursor where
  ptr : Nat
  len : Int

def check (d : Region) (c : Cursor) (type : UInt8) (size : Nat) : Option Int :=
  if c.len < size then some (-1)
  else do
    let n ← d.byte c.ptr
    if n.toNat < size then some (-1)
    else if c.len < n.toNat then some (-1)
    else
      let t ← d.byte (c.ptr + 1)
      some (if t ≠ type then -1 else 0)

/-- `len -= desc->bLength` and `ptr += desc->bLength`. -/
def advance (d : Region) (c : Cursor) : Option Cursor := do
  let n ← d.byte c.ptr
  some ⟨c.ptr + n.toNat, c.len - n.toNat⟩

/-- The serial number: the first word is skipped, and the others are changed to bytes. -/
def serialNumber (c : Control) : Option (List UInt8) :=
  if c.result ≤ 0 then some []
  else do
    let text ← (List.range' 1 ((c.result / 2).toNat - 1)).mapM fun i => c.buffer[i]?
    if text.length < 256 then some (text.map UInt16.toUInt8) else none

/-- The serial number of the device, if there is one. -/
def readSerial (control : UInt8 → Control) (iSerialNumber : UInt8) : Option (List UInt8) :=
  if iSerialNumber ≠ 0 then serialNumber (control iSerialNumber) else some []

/-- The loop over the endpoints; the inner `none` is `return -1`. -/
def eptLoop (d : Region) : Nat → Cursor → Int → Int → Option (Option (Cursor × Int × Int))
  | 0, c, eptIn, eptOut => some (some (c, eptIn, eptOut))
  | e + 1, c, eptIn, eptOut => do
    if (← check d c 5 7) ≠ 0 then some none
    else
      let c' ← advance d c
      let attributes ← d.byte (c.ptr + 3)
      if attributes &&& 0x03 ≠ 0x02 then eptLoop d e c' eptIn eptOut
      else
        let address ← d.byte (c.ptr + 2)
        if address &&& 0x80 ≠ 0 then eptLoop d e c' address.toNat eptOut
        else eptLoop d e c' eptIn address.toNat

/-- The loop over the interfaces. -/
def ifcLoop (d : Region) (info : Info) (callback : Info → Int) :
    Nat → Cursor → Option (Option Outputs)
  | 0, _ => some none
  | i + 1, c => do
    if (← check d c 4 9) ≠ 0 then some none
    else
      let c' ← advance d c
      let ifcClass ← d.byte (c.ptr + 5)
      let ifcSubclass ← d.byte (c.ptr + 6)
      let ifcProtocol ← d.byte (c.ptr + 7)
      let n ← d.byte (c.ptr + 4)
      match ← eptLoop d n.toNat c' (-1) (-1) with
      | none => some none
      | some (c', eptIn, eptOut) =>
        let info := { info with
          ifcClass := ifcClass, ifcSubclass := ifcSubclass, ifcProtocol := ifcProtocol,
          hasBulkIn := eptIn ≠ -1, hasBulkOut := eptOut ≠ -1 }
        if callback info = 0 then
          let ifc ← d.byte (c.ptr + 2)
          some (some ⟨eptIn, eptOut, ifc.toNat⟩)
        else ifcLoop d info callback i c'

/-- What `filter_usb_device` returns, and its outputs after it. -/
def filterUsbDevice (d : Region) (writable : Bool) (control : UInt8 → Control)
    (callback : Info → Int) (outs : Outputs) : Option (Int × Outputs) := do
  let dev : Cursor := ⟨0, d.len⟩
  if (← check d dev 1 18) ≠ 0 then some (-1, outs)
  else
    let cfg ← advance d dev
    if (← check d cfg 2 9) ≠ 0 then some (-1, outs)
    else
      let c ← advance d cfg
      let devVendor ← d.half 8
      let devProduct ← d.half 10
      let devClass ← d.byte 4
      let devSubclass ← d.byte 5
      let devProtocol ← d.byte 6
      let iSerialNumber ← d.byte 16
      let serial ← readSerial control iSerialNumber
      let info : Info :=
        ⟨devVendor, devProduct, devClass, devSubclass, devProtocol, 0, 0, 0, false, false, writable,
          serial⟩
      let n ← d.byte (cfg.ptr + 4)
      match ← ifcLoop d info callback n.toNat c with
      | none => some (-1, outs)
      | some outs => some (0, outs)

/-! ## Descriptors -/

/-- A descriptor of this type, all of which was read. -/
structure Descriptor (d : Region) (p : Nat) (type : UInt8) (size : Nat) : Prop where
  size_le : size ≤ (d.get p).toNat
  fits : (p : Int) + (d.get p).toNat ≤ d.len
  type_eq : d.get (p + 1) = type

/-- Descriptors of one type, the first at `p`, each directly after the one before, up to `p'`. -/
def Chain (d : Region) (type : UInt8) (size : Nat) : Nat → List Nat → Nat → Prop
  | p, [], p' => p = p'
  | p, q :: qs, p' =>
    q = p ∧ Descriptor d p type size ∧ Chain d type size (p + (d.get p).toNat) qs p'

/-- Where an interface descriptor is, and the endpoint descriptors that belong to it. -/
structure Ifc where
  ptr : Nat
  epts : List Nat

/-- An interface descriptor at `p`, and directly after it as many endpoint descriptors as it names, up
to `p'`. -/
structure Interface (d : Region) (p : Nat) (g : Ifc) (p' : Nat) : Prop where
  ptr_eq : g.ptr = p
  ifc : Descriptor d p 4 9
  length_epts : g.epts.length = (d.get (p + 4)).toNat
  epts : Chain d 5 7 (p + (d.get p).toNat) g.epts p'

/-- Interfaces, each directly after the one before. -/
def Interfaces (d : Region) : Nat → List Ifc → Nat → Prop
  | p, [], p' => p = p'
  | p, g :: gs, p' => ∃ m, Interface d p g m ∧ Interfaces d m gs p'

/-- A bulk endpoint of this direction. -/
def Bulk (d : Region) (toHost : Bool) (q : Nat) : Prop :=
  d.get (q + 3) &&& 0x03 = 0x02 ∧ (d.get (q + 2) &&& 0x80 ≠ 0 ↔ toHost = true)

instance (d : Region) (toHost : Bool) (q : Nat) : Decidable (Bulk d toHost q) :=
  inferInstanceAs (Decidable (_ ∧ _))

/-- The endpoint that is reported for a direction: the last one, or -1. -/
structure Reported (d : Region) (toHost : Bool) (epts : List Nat) (x : Int) : Prop where
  none : (∀ q ∈ epts, ¬ Bulk d toHost q) → x = -1
  last : ∀ before q after, epts = before ++ q :: after → Bulk d toHost q →
    (∀ r ∈ after, ¬ Bulk d toHost r) → x = (d.get (q + 2)).toNat

/-! ## One descriptor -/

variable {d : Region} {c : Cursor} {type : UInt8} {size : Nat} {a b : Int}

/-- The cursor and the bytes that are left meet at the end. -/
def Cursor.At (d : Region) (c : Cursor) : Prop := (c.ptr : Int) + c.len = d.len

/-- The cursor after the descriptor that it is at. -/
def Cursor.next (d : Region) (c : Cursor) : Cursor :=
  ⟨c.ptr + (d.get c.ptr).toNat, c.len - (d.get c.ptr).toNat⟩

theorem Cursor.At.next (h : c.At d) : (c.next d).At d := by
  unfold At Cursor.next at *
  push_cast
  omega

theorem check_eq (type : UInt8) (size : Nat) (hc : c.At d) (hsize : 2 ≤ size) :
    ∃ r, check d c type size = some r ∧ (r = 0 ↔ Descriptor d c.ptr type size) := by
  unfold Cursor.At at hc
  unfold check
  by_cases hlen : c.len < size
  · rw [if_pos hlen]
    refine ⟨-1, rfl, fun h => absurd h (by decide), fun hd => ?_⟩
    have := hd.size_le
    have := hd.fits
    omega
  rw [if_neg hlen, Region.byte_of_lt (p := c.ptr) (by omega),
    Region.byte_of_lt (p := c.ptr + 1) (by omega)]
  dsimp only [bind, Option.bind]
  by_cases hsmall : (d.get c.ptr).toNat < size
  · rw [if_pos hsmall]
    refine ⟨-1, rfl, fun h => absurd h (by decide), fun hd => ?_⟩
    have := hd.size_le
    omega
  rw [if_neg hsmall]
  by_cases hbig : c.len < (d.get c.ptr).toNat
  · rw [if_pos hbig]
    refine ⟨-1, rfl, fun h => absurd h (by decide), fun hd => ?_⟩
    have := hd.fits
    omega
  rw [if_neg hbig]
  by_cases ht : d.get (c.ptr + 1) = type
  · rw [if_neg (not_not_intro ht)]
    exact ⟨0, rfl, fun _ => ⟨by omega, by omega, ht⟩, fun _ => rfl⟩
  · rw [if_pos ht]
    exact ⟨-1, rfl, fun h => absurd h (by decide), fun hd => absurd hd.type_eq ht⟩

/-- A byte of a descriptor. -/
theorem Descriptor.byte {p i : Nat} (h : Descriptor d p type size) (hi : i < size) :
    d.byte (p + i) = some (d.get (p + i)) := by
  have := h.size_le
  have := h.fits
  exact Region.byte_of_lt (by push_cast; omega)

theorem Descriptor.advance (h : Descriptor d c.ptr type size) (hsize : 0 < size) :
    advance d c = some (c.next d) := by
  have hn := h.byte hsize
  rw [Nat.add_zero] at hn
  rw [Usb.advance, hn]
  rfl

/-! ## The endpoints of an interface -/

/-- The endpoint of a direction, when `x` is reported so far. -/
def pick (d : Region) (toHost : Bool) : List Nat → Int → Int
  | [], x => x
  | q :: qs, x => pick d toHost qs (if Bulk d toHost q then (d.get (q + 2)).toNat else x)

theorem pick_of_not_bulk {toHost : Bool} {qs : List Nat} {x : Int} (h : ∀ q ∈ qs, ¬ Bulk d toHost q) :
    pick d toHost qs x = x := by
  induction qs generalizing x with
  | nil => rfl
  | cons q qs ih =>
    rw [List.forall_mem_cons] at h
    rw [pick, if_neg h.1, ih h.2]

theorem pick_append (d : Region) (toHost : Bool) (qs rs : List Nat) (x : Int) :
    pick d toHost (qs ++ rs) x = pick d toHost rs (pick d toHost qs x) := by
  induction qs generalizing x with
  | nil => rfl
  | cons q qs ih => exact ih _

theorem reported_pick (d : Region) (toHost : Bool) (qs : List Nat) :
    Reported d toHost qs (pick d toHost qs (-1)) where
  none h := pick_of_not_bulk h
  last before q after hqs hq hafter := by
    rw [hqs, pick_append, pick, if_pos hq, pick_of_not_bulk hafter]

/-- The loop stops with `return -1`, or goes through the endpoint descriptors from the cursor on. -/
theorem eptLoop_spec (e : Nat) (hc : c.At d) (a b : Int) :
    eptLoop d e c a b = some none ∨
    ∃ qs c', eptLoop d e c a b = some (some (c', pick d true qs a, pick d false qs b)) ∧ c'.At d ∧
      qs.length = e ∧ Chain d 5 7 c.ptr qs c'.ptr := by
  induction e generalizing c a b with
  | zero => exact .inr ⟨[], c, rfl, hc, rfl, rfl⟩
  | succ e ih =>
    obtain ⟨r, hr, hdesc⟩ := check_eq 5 7 hc (by decide)
    unfold eptLoop
    rw [hr]
    dsimp only [bind, Option.bind]
    by_cases h0 : r = 0
    · have hd := hdesc.mp h0
      rw [if_neg (not_not_intro h0), hd.advance (by decide), hd.byte (by decide : 3 < 7),
        hd.byte (by decide : 2 < 7)]
      dsimp only
      -- The rest of the loop, after an endpoint that leaves `a'` and `b'`.
      have step {a' b' : Int}
          (ha : a' = if Bulk d true c.ptr then ((d.get (c.ptr + 2)).toNat : Int) else a)
          (hb : b' = if Bulk d false c.ptr then ((d.get (c.ptr + 2)).toNat : Int) else b) :
          eptLoop d e (c.next d) a' b' = some none ∨
          ∃ qs c', eptLoop d e (c.next d) a' b' =
              some (some (c', pick d true qs a, pick d false qs b)) ∧ c'.At d ∧
            qs.length = e + 1 ∧ Chain d 5 7 c.ptr qs c'.ptr := by
        refine (ih hc.next a' b').imp id ?_
        rintro ⟨qs, c', hrun, hc', hlen, hchain⟩
        refine ⟨c.ptr :: qs, c', ?_, hc', congrArg (· + 1) hlen, rfl, hd, hchain⟩
        rw [hrun, pick, pick, ← ha, ← hb]
      by_cases hbulk : d.get (c.ptr + 3) &&& 0x03 = 0x02
      · rw [if_neg (not_not_intro hbulk)]
        by_cases hdir : d.get (c.ptr + 2) &&& 0x80 = 0
        · rw [if_neg (not_not_intro hdir)]
          refine step ?_ ?_
          · exact (if_neg fun h => h.2.mpr rfl hdir).symm
          · exact (if_pos ⟨hbulk, fun h => absurd hdir h, fun h => absurd h (by decide)⟩).symm
        · rw [if_pos hdir]
          refine step ?_ ?_
          · exact (if_pos ⟨hbulk, fun _ => rfl, fun _ => hdir⟩).symm
          · exact (if_neg fun h => absurd (h.2.mp hdir) (by decide)).symm
      · rw [if_pos hbulk]
        exact step (if_neg fun h => hbulk h.1).symm (if_neg fun h => hbulk h.1).symm
    · rw [if_pos h0]
      exact .inl rfl

/-! ## The interfaces -/

variable {info : Info} {callback : Info → Int} {n p m : Nat} {g : Ifc} {outs : Outputs}

/-- What the callback is shown for an interface. -/
def Info.ofIfc (info : Info) (d : Region) (g : Ifc) : Info :=
  { info with
    ifcClass := d.get (g.ptr + 5), ifcSubclass := d.get (g.ptr + 6), ifcProtocol := d.get (g.ptr + 7),
    hasBulkIn := pick d true g.epts (-1) ≠ -1, hasBulkOut := pick d false g.epts (-1) ≠ -1 }

/-- The outputs are those of the first interface that the callback accepts, among `n` from `p` on. -/
def Accepted (d : Region) (info : Info) (callback : Info → Int) (n p : Nat) (outs : Outputs) : Prop :=
  ∃ rejected g p', Interfaces d p (rejected ++ [g]) p' ∧ rejected.length < n ∧
    (∀ g' ∈ rejected, callback (info.ofIfc d g') ≠ 0) ∧ callback (info.ofIfc d g) = 0 ∧
    outs.ifc = (d.get (g.ptr + 2)).toNat ∧ Reported d true g.epts outs.eptIn ∧
    Reported d false g.epts outs.eptOut

theorem Accepted.cons (h : Accepted d info callback n m outs) (hg : Interface d p g m)
    (hrej : callback (info.ofIfc d g) ≠ 0) : Accepted d info callback (n + 1) p outs := by
  obtain ⟨rejected, g', p', hifcs, hlen, hall, hrest⟩ := h
  refine ⟨g :: rejected, g', p', ⟨m, hg, hifcs⟩, Nat.succ_lt_succ hlen, ?_, hrest⟩
  exact List.forall_mem_cons.mpr ⟨hrej, hall⟩

/-- The loop stops without an interface, or at the first that is accepted. -/
theorem ifcLoop_spec (callback : Info → Int) (n : Nat) (hc : c.At d) (info' : Info)
    (hinfo : ∀ g, info'.ofIfc d g = info.ofIfc d g) :
    ifcLoop d info' callback n c = some none ∨
    ∃ outs, ifcLoop d info' callback n c = some (some outs) ∧
      Accepted d info callback n c.ptr outs := by
  induction n generalizing c info' with
  | zero => exact .inl rfl
  | succ n ih =>
    obtain ⟨r, hr, hdesc⟩ := check_eq 4 9 hc (by decide)
    unfold ifcLoop
    rw [hr]
    dsimp only [bind, Option.bind]
    by_cases h0 : r = 0
    · have hd := hdesc.mp h0
      rw [if_neg (not_not_intro h0), hd.advance (by decide), hd.byte (by decide : 5 < 9),
        hd.byte (by decide : 6 < 9), hd.byte (by decide : 7 < 9), hd.byte (by decide : 4 < 9),
        hd.byte (by decide : 2 < 9)]
      dsimp only
      rcases eptLoop_spec (d.get (c.ptr + 4)).toNat hc.next (-1) (-1) with hrun | hrun
      · rw [hrun]
        exact .inl rfl
      obtain ⟨qs, c', hrun, hc', hlen, hchain⟩ := hrun
      rw [hrun]
      dsimp only
      have hg : Interface d c.ptr ⟨c.ptr, qs⟩ c'.ptr := ⟨rfl, hd, hlen, hchain⟩
      have hshown := hinfo ⟨c.ptr, qs⟩
      unfold Info.ofIfc at hshown
      dsimp only at hshown
      rw [hshown]
      by_cases hcall : callback (info.ofIfc d ⟨c.ptr, qs⟩) = 0
      · refine .inr ⟨_, if_pos hcall, [], ⟨c.ptr, qs⟩, c'.ptr, ⟨c'.ptr, hg, rfl⟩, Nat.succ_pos n, ?_,
          hcall, rfl, reported_pick d true qs, reported_pick d false qs⟩
        exact fun g' hg' => absurd hg' List.not_mem_nil
      · refine (ih hc' _ fun g => ?_).imp (fun h => (if_neg hcall).trans h) ?_
        · rfl
        · rintro ⟨outs, hrun, hacc⟩
          exact ⟨outs, (if_neg hcall).trans hrun, hacc.cons hg hcall⟩
    · rw [if_pos h0]
      exact .inl rfl

/-! ## The device -/

theorem mapM_getElem? {α : Type} (buffer : List α) (is : List Nat)
    (h : ∀ i ∈ is, i < buffer.length) :
    ∃ text, (is.mapM fun i => buffer[i]?) = some text ∧ text.length = is.length := by
  induction is with
  | nil => exact ⟨[], rfl, rfl⟩
  | cons i is ih =>
    obtain ⟨hi, his⟩ := List.forall_mem_cons.mp h
    obtain ⟨text, htext, hlen⟩ := ih his
    refine ⟨buffer[i] :: text, ?_, congrArg (· + 1) hlen⟩
    rw [List.mapM_cons, List.getElem?_eq_getElem hi, htext]
    rfl

/-- The serial number fits, whatever the device returns. -/
theorem serialNumber_some (c : Control) : ∃ serial, serialNumber c = some serial := by
  unfold serialNumber
  split
  · exact ⟨[], rfl⟩
  · have hle := c.le
    have hbound : ∀ i ∈ List.range' 1 ((c.result / 2).toNat - 1), i < c.buffer.length := by
      intro i hi
      rw [List.mem_range'_1] at hi
      rw [c.length_eq]
      omega
    obtain ⟨text, htext, hlen⟩ := mapM_getElem? c.buffer _ hbound
    rw [List.length_range'] at hlen
    rw [htext]
    exact ⟨_, if_pos (by omega)⟩

theorem readSerial_some (control : UInt8 → Control) (i : UInt8) :
    ∃ serial, readSerial control i = some serial := by
  unfold readSerial
  split
  · exact serialNumber_some _
  · exact ⟨[], rfl⟩

/-- What is read from the device node, and the string that the device returns for the number in it. -/
structure Info.OfDevice (info : Info) (d : Region) (writable : Bool) (control : UInt8 → Control) :
    Prop where
  vendor : d.half 8 = some info.devVendor
  product : d.half 10 = some info.devProduct
  devClass : info.devClass = d.get 4
  subclass : info.devSubclass = d.get 5
  protocol : info.devProtocol = d.get 6
  writable_eq : info.writable = writable
  serial : readSerial control (d.get 16) = some info.serialNumber

/-- **The walk is safe and faithful.** Whatever was read from the device node, nothing else is used and
the walk ends. When it returns 0, the outputs are those of the first interface that the callback
accepts; else they are what they were. -/
theorem filterUsbDevice_faithful (d : Region) (writable : Bool) (control : UInt8 → Control)
    (callback : Info → Int) (outs : Outputs) :
    ∃ r outs', filterUsbDevice d writable control callback outs = some (r, outs') ∧
      (r = -1 ∧ outs' = outs ∨
        r = 0 ∧ ∃ info, info.OfDevice d writable control ∧ Descriptor d 0 1 18 ∧
          Descriptor d (d.get 0).toNat 2 9 ∧
          Accepted d info callback (d.get ((d.get 0).toNat + 4)).toNat
            ((d.get 0).toNat + (d.get (d.get 0).toNat).toNat) outs') := by
  have hdev : Cursor.At d ⟨0, d.len⟩ := Int.zero_add d.len
  obtain ⟨r, hr, hdesc⟩ := check_eq 1 18 hdev (by decide)
  unfold filterUsbDevice
  dsimp only [bind, Option.bind]
  rw [hr]
  dsimp only
  by_cases h0 : r = 0
  · have hd := hdesc.mp h0
    rw [if_neg (not_not_intro h0), hd.advance (by decide)]
    dsimp only
    obtain ⟨cfg, hcfg, hptr⟩ : ∃ cfg, Cursor.next d ⟨0, d.len⟩ = cfg ∧ cfg.ptr = (d.get 0).toNat :=
      ⟨_, rfl, Nat.zero_add _⟩
    have hat : cfg.At d := hcfg ▸ hdev.next
    obtain ⟨r', hr', hdesc'⟩ := check_eq 2 9 hat (by decide)
    rw [hcfg, hr']
    dsimp only
    by_cases h0' : r' = 0
    · have hd' := hdesc'.mp h0'
      have hbyte (i : Nat) (hi : i < 18) : d.byte i = some (d.get i) := by
        have h := hd.byte hi
        rwa [Nat.zero_add] at h
      have hfit := hd.fits
      have hsize := hd.size_le
      obtain ⟨serial, hserial⟩ := readSerial_some control (d.get 16)
      have hvendor := Region.half_of_lt (d := d) (p := 8) (by push_cast; omega)
      have hproduct := Region.half_of_lt (d := d) (p := 10) (by push_cast; omega)
      rw [if_neg (not_not_intro h0'), hd'.advance (by decide), hvendor, hproduct,
        hbyte 4 (by decide), hbyte 5 (by decide), hbyte 6 (by decide), hbyte 16 (by decide)]
      dsimp only
      rw [hserial, hd'.byte (by decide : 4 < 9)]
      dsimp only
      rcases ifcLoop_spec callback (d.get (cfg.ptr + 4)).toNat hat.next
        ⟨_, _, d.get 4, d.get 5, d.get 6, 0, 0, 0, false, false, writable, serial⟩ (fun _ => rfl) with
        hrun | ⟨outs', hrun, hacc⟩
      · rw [hrun]
        exact ⟨-1, outs, rfl, .inl ⟨rfl, rfl⟩⟩
      · rw [hrun]
        rw [Cursor.next, hptr] at hacc
        rw [hptr] at hd'
        exact ⟨0, outs', rfl, .inr ⟨rfl, _, ⟨hvendor, hproduct, rfl, rfl, rfl, rfl, hserial⟩, hd, hd',
          hacc⟩⟩
    · rw [if_pos h0']
      exact ⟨-1, outs, rfl, .inl ⟨rfl, rfl⟩⟩
  · rw [if_pos h0]
    exact ⟨-1, outs, rfl, .inl ⟨rfl, rfl⟩⟩

end Twm.Fastboot.Usb
