import DeviceTwm.Lib.Loop
import DeviceTwm.Lib.Region

/-!
# The scan of a USB device (`usb_linux.c` of `adb`)

`find_usb_device` reads the descriptors of every device node and looks for the interface of adb among
them. The loop goes from descriptor to descriptor by their first bytes, whatever these are, and reads
the fields of an interface descriptor without asking whether they were read from the device.

* `none` stands for a byte that is used and was not read.
* `Next`: from which descriptor the loop goes to which; `Bad`: where it goes wrong.
* `scan_ends_iff`: it ends, and uses only what was read, if and only if the read succeeded and it comes
  to no bad place.
-/

open Lib

namespace Twm.Adb.UsbScan

/-! ## The code -/

/-- What was read from a device node into 256 bytes; `adb_read` returns -1 when it fails. -/
structure Node extends Region where
  ge : -1 ≤ len
  size_eq : bytes.length = 256

/-- The result of `adb_read` as a `size_t` of 64 bits. -/
def Node.desclength (d : Node) : Nat := (d.len % 2 ^ 64).toNat

/-- `is_adb_interface`. -/
def isAdbInterface : List Int → UInt16 → UInt8 → UInt8 → UInt8 → Bool
  | [], _, _, _, _ => false
  | v :: vendorIds, vid, usbClass, usbSubclass, usbProtocol =>
    if vid.toNat = v then usbClass = 0xff && usbSubclass = 0x42 && usbProtocol = 0x01
    else isAdbInterface vendorIds vid usbClass usbSubclass usbProtocol

/-- What `register_device_callback` is given. -/
structure Registered where
  epIn : UInt8
  epOut : UInt8
  ifc : UInt8
  serialIndex : UInt8
  zeroMask : UInt32
  deriving DecidableEq

/-- The part of the loop for an interface that looks like adb: the endpoints at `bufptr`. -/
def findEndpoints (d : Node) (interface bufptr : Nat) : Option (Nat ⊕ Option Registered) :=
  if d.desclength < bufptr + 14 then some (.inr none)
  else do
    let length1 ← d.byte bufptr
    let type1 ← d.byte (bufptr + 1)
    let length2 ← d.byte (bufptr + 7)
    let type2 ← d.byte (bufptr + 8)
    if length1 ≠ 7 ∨ type1 ≠ 5 ∨ length2 ≠ 7 ∨ type2 ≠ 5 then some (.inr none)
    else
      let attributes1 ← d.byte (bufptr + 3)
      let attributes2 ← d.byte (bufptr + 10)
      if attributes1 ≠ 2 ∨ attributes2 ≠ 2 then some (.inl (bufptr + 14))
      else
        let protocol ← d.byte (interface + 7)
        let maxPacketSize ← d.half (bufptr + 4)
        let zeroMask := if protocol = 0x01 then maxPacketSize.toUInt32 - 1 else 0
        let address1 ← d.byte (bufptr + 2)
        let address2 ← d.byte (bufptr + 9)
        let number ← d.byte (interface + 2)
        let serialIndex ← d.byte 16
        let (epIn, epOut) :=
          if address1 &&& 0x80 ≠ 0 then (address1, address2) else (address2, address1)
        some (.inr (some ⟨epIn, epOut, number, serialIndex, zeroMask⟩))

/-- The part of the loop for an interface descriptor. -/
def findInterface (d : Node) (vendorIds : List Int) (vid : UInt16) (bufptr : Nat) (length : UInt8) :
    Option (Nat ⊕ Option Registered) :=
  if length ≠ 9 then some (.inr none)
  else do
    let numEndpoints ← d.byte (bufptr + 4)
    if numEndpoints = 2 then
      let usbClass ← d.byte (bufptr + 5)
      let usbSubclass ← d.byte (bufptr + 6)
      let usbProtocol ← d.byte (bufptr + 7)
      if isAdbInterface vendorIds vid usbClass usbSubclass usbProtocol then
        findEndpoints d bufptr (bufptr + length.toNat)
      else some (.inl (bufptr + length.toNat))
    else some (.inl (bufptr + length.toNat))

/-- The body of the loop; it goes on with another `bufptr`, or is left. -/
def descriptorStep (d : Node) (vendorIds : List Int) (vid : UInt16) (bufptr : Nat) :
    Option (Nat ⊕ Option Registered) :=
  if ¬ bufptr < d.desclength then some (.inr none)
  else do
    let length ← d.byte bufptr
    let type ← d.byte (bufptr + 1)
    if type = 4 then findInterface d vendorIds vid bufptr length
    else some (.inl (bufptr + length.toNat))

/-- The part before the loop: the vendor, if the device and the configuration descriptor are there. -/
def readHeader (d : Node) : Option (Option UInt16) :=
  if d.desclength < 18 + 9 then some none
  else do
    let length ← d.byte 0
    let type ← d.byte 1
    if length ≠ 18 ∨ type ≠ 1 then some none
    else
      let vid ← d.half 8
      let _pid ← d.half 10
      let length ← d.byte 18
      let type ← d.byte 19
      if length ≠ 9 ∨ type ≠ 2 then some none else some (some vid)

/-- What `find_usb_device` does with a device node, for `n` rounds of the loop. -/
def scan (d : Node) (vendorIds : List Int) (n : Nat) : Outcome Nat (Option Registered) :=
  match readHeader d with
  | none => .wrong
  | some none => .left none
  | some (some vid) => loop (descriptorStep d vendorIds vid) n 27

/-! ## Places -/

/-- The device and the configuration descriptor are as they should be. -/
structure Header (d : Node) : Prop where
  length_le : 27 ≤ d.desclength
  device : d.get 0 = 18 ∧ d.get 1 = 1
  config : d.get 18 = 9 ∧ d.get 19 = 2

/-- The vendor in the device descriptor. -/
def vendor (d : Node) : UInt16 := (d.get 8).toUInt16 ||| ((d.get 9).toUInt16 <<< 8)

/-- Two endpoint descriptors at `p`. -/
def Endpoints (d : Node) (p : Nat) : Prop :=
  p + 14 ≤ d.desclength ∧ d.get p = 7 ∧ d.get (p + 1) = 5 ∧ d.get (p + 7) = 7 ∧ d.get (p + 8) = 5

def Bulk (d : Node) (p : Nat) : Prop := d.get (p + 3) = 2 ∧ d.get (p + 10) = 2

/-- The interface descriptor at `p` is one of adb. -/
def IsAdb (d : Node) (vendorIds : List Int) (p : Nat) : Prop :=
  isAdbInterface vendorIds (vendor d) (d.get (p + 5)) (d.get (p + 6)) (d.get (p + 7)) = true

instance (d : Node) (vendorIds : List Int) (p : Nat) : Decidable (IsAdb d vendorIds p) :=
  inferInstanceAs (Decidable (_ = true))

/-- After the interface descriptor at `p` the loop goes on at `q`: after its endpoints, if it is one of
adb and they are there and not both bulk. -/
def NextInterface (d : Node) (vendorIds : List Int) (p q : Nat) : Prop :=
  d.get p = 9 ∧ p + 4 < d.desclength ∧
    if d.get (p + 4) = 2 then
      p + 7 < d.desclength ∧
        if IsAdb d vendorIds p then (Endpoints d (p + 9) ∧ ¬ Bulk d (p + 9)) ∧ q = p + 9 + 14
        else q = p + 9
    else q = p + 9

/-- After the descriptor at `p` the loop goes on at `q`. -/
def Next (d : Node) (vendorIds : List Int) (p q : Nat) : Prop :=
  p + 1 < d.desclength ∧
    if d.get (p + 1) = 4 then NextInterface d vendorIds p q else q = p + (d.get p).toNat

/-- The fields of an interface were not all read: the number of endpoints, and the class if that number
is 2. -/
def BadInterface (d : Node) (p : Nat) : Prop :=
  d.get p = 9 ∧ (d.desclength ≤ p + 4 ∨ d.get (p + 4) = 2 ∧ d.desclength ≤ p + 7)

/-- A single byte is left, or a descriptor that is no interface has length 0. -/
def Bad (d : Node) (p : Nat) : Prop :=
  p + 1 = d.desclength ∨ p + 1 < d.desclength ∧
    if d.get (p + 1) = 4 then BadInterface d p else d.get p = 0

/-! ## One round -/

variable {d : Node} {vendorIds : List Int} {vid : UInt16} {p q i : Nat}

theorem desclength_of_nonneg (h : 0 ≤ d.len) : (d.desclength : Int) = d.len := by
  have := d.le
  have := d.size_eq
  unfold Node.desclength
  omega

theorem desclength_of_neg (h : d.len < 0) : d.desclength = 2 ^ 64 - 1 := by
  have := d.ge
  have hlen : d.len = -1 := by omega
  rw [Node.desclength, hlen]
  rfl

theorem byte_of_lt (h : 0 ≤ d.len) (hp : p < d.desclength) : d.byte p = some (d.get p) := by
  have := desclength_of_nonneg h
  exact Region.byte_of_lt (by omega)

theorem byte_of_le (h : 0 ≤ d.len) (hp : d.desclength ≤ p) : d.byte p = none := by
  have := desclength_of_nonneg h
  exact Region.byte_of_le (by omega)

theorem findEndpoints_cases (h : 0 ≤ d.len) (hl : 27 ≤ d.desclength) (hi : i + 7 < d.desclength) :
    (Endpoints d p ∧ ¬ Bulk d p) ∧ findEndpoints d i p = some (.inl (p + 14)) ∨
      ¬ (Endpoints d p ∧ ¬ Bulk d p) ∧ ∃ r, findEndpoints d i p = some (.inr r) := by
  unfold findEndpoints
  by_cases hroom : d.desclength < p + 14
  · rw [if_pos hroom]
    exact .inr ⟨fun he => absurd he.1.1 (Nat.not_le.mpr hroom), none, rfl⟩
  have hbyte (k : Nat) (hk : k < 14) : d.byte (p + k) = some (d.get (p + k)) :=
    byte_of_lt h (by omega)
  rw [if_neg hroom, show d.byte p = _ from hbyte 0 (by decide), hbyte 1 (by decide),
    hbyte 7 (by decide), hbyte 8 (by decide)]
  dsimp only [bind, Option.bind]
  by_cases he : d.get p = 7 ∧ d.get (p + 1) = 5 ∧ d.get (p + 7) = 7 ∧ d.get (p + 8) = 5
  · have hends : Endpoints d p := ⟨Nat.not_lt.mp hroom, he⟩
    rw [if_neg (by simp [he]), hbyte 3 (by decide), hbyte 10 (by decide)]
    dsimp only
    by_cases hb : Bulk d p
    · have hhalf : d.half (p + 4) = _ := Region.half_of_lt (by
        have := desclength_of_nonneg h
        push_cast
        omega)
      have hserial : d.byte 16 = some (d.get 16) := byte_of_lt h (by omega)
      rw [if_neg (by rw [hb.1, hb.2]; decide), byte_of_lt h hi, hhalf, hbyte 2 (by decide),
        hbyte 9 (by decide), byte_of_lt h (by omega : i + 2 < d.desclength), hserial]
      exact .inr ⟨fun hn => hn.2 hb, _, rfl⟩
    · rw [if_pos (by rw [Bulk, not_and_or] at hb; exact hb)]
      exact .inl ⟨⟨hends, hb⟩, rfl⟩
  · rw [if_pos (by simp only [not_and_or] at he; exact he)]
    exact .inr ⟨fun hn => he hn.1.2, none, rfl⟩

/-- What a round can be that does not go wrong. -/
def Fine (next : Nat → Prop) (p : Nat) (x : Option (Nat ⊕ Option Registered)) : Prop :=
  (∃ r, x = some (.inr r)) ∧ (∀ q, ¬ next q) ∨ ∃ q, p < q ∧ x = some (.inl q) ∧ ∀ q', next q' ↔ q' = q

theorem Fine.congr {next next' : Nat → Prop} {x : Option (Nat ⊕ Option Registered)}
    (h : Fine next p x) (hiff : ∀ q, next' q ↔ next q) : Fine next' p x := by
  rcases h with ⟨hr, hno⟩ | ⟨q, hq, hx, hnext⟩
  · exact .inl ⟨hr, fun q hn => hno q ((hiff q).mp hn)⟩
  · exact .inr ⟨q, hq, hx, fun q' => (hiff q').trans (hnext q')⟩

theorem findInterface_cases (vendorIds : List Int) (h : 0 ≤ d.len) (hl : 27 ≤ d.desclength) :
    BadInterface d p ∧ findInterface d vendorIds (vendor d) p (d.get p) = none ∨
      ¬ BadInterface d p ∧ Fine (NextInterface d vendorIds p) p
        (findInterface d vendorIds (vendor d) p (d.get p)) := by
  unfold findInterface BadInterface NextInterface
  by_cases hsize : d.get p = 9
  rotate_left
  · rw [if_pos hsize]
    exact .inr ⟨fun hb => hsize hb.1, .inl ⟨⟨none, rfl⟩, fun q hq => hsize hq.1⟩⟩
  rw [if_neg (not_not_intro hsize)]
  have hover : p + (d.get p).toNat = p + 9 := by
    rw [hsize]
    rfl
  by_cases h4 : p + 4 < d.desclength
  rotate_left
  · rw [byte_of_le h (Nat.not_lt.mp h4)]
    exact .inl ⟨⟨hsize, .inl (Nat.not_lt.mp h4)⟩, rfl⟩
  rw [byte_of_lt h h4]
  dsimp only [bind, Option.bind]
  have hnext {a : Prop} : (d.get p = 9 ∧ p + 4 < d.desclength ∧ a) ↔ a :=
    (and_iff_right hsize).trans (and_iff_right h4)
  by_cases hn : d.get (p + 4) = 2
  rotate_left
  · -- It has not two endpoints.
    simp only [if_neg hn, hover]
    refine .inr ⟨?_, .inr ⟨p + 9, by omega, rfl, fun q => hnext⟩⟩
    rintro ⟨-, hp | ⟨hp, -⟩⟩
    · omega
    · exact hn hp
  simp only [if_pos hn]
  by_cases h7 : p + 7 < d.desclength
  rotate_left
  · refine .inl ⟨⟨hsize, .inr ⟨hn, Nat.not_lt.mp h7⟩⟩, ?_⟩
    rw [byte_of_le h (Nat.not_lt.mp h7)]
    cases d.byte (p + 5) with
    | none => rfl
    | some b =>
      dsimp only
      cases d.byte (p + 6) with
      | none => rfl
      | some b => rfl
  refine .inr ⟨?_, ?_⟩
  · rintro ⟨-, hp | ⟨-, hp⟩⟩
    · omega
    · omega
  rw [byte_of_lt h h7, byte_of_lt h (by omega : p + 5 < d.desclength),
    byte_of_lt h (by omega : p + 6 < d.desclength)]
  dsimp only
  by_cases hadb : IsAdb d vendorIds p
  · have hadb' := hadb
    unfold IsAdb at hadb'
    simp only [if_pos hadb', if_pos hadb, hover]
    rcases findEndpoints_cases (p := p + 9) h hl h7 with ⟨he, hrun⟩ | ⟨he, r, hrun⟩
    · refine .inr ⟨p + 9 + 14, by omega, hrun, fun q => ?_⟩
      exact hnext.trans ((and_iff_right h7).trans (and_iff_right he))
    · exact .inl ⟨⟨r, hrun⟩, fun q hq => he hq.2.2.2.1⟩
  · have hadb' := hadb
    unfold IsAdb at hadb'
    simp only [if_neg hadb', if_neg hadb, hover]
    refine .inr ⟨p + 9, by omega, rfl, fun q => ?_⟩
    exact hnext.trans (and_iff_right h7)

/-- A round goes to the next descriptor, or the loop is left, unless the place is bad; then the round
goes wrong, or stays where it is. -/
theorem descriptorStep_cases (vendorIds : List Int) (h : 0 ≤ d.len) (hl : 27 ≤ d.desclength)
    (p : Nat) :
    Bad d p ∧ (descriptorStep d vendorIds (vendor d) p = none ∨
      descriptorStep d vendorIds (vendor d) p = some (.inl p)) ∨
    ¬ Bad d p ∧ Fine (Next d vendorIds p) p (descriptorStep d vendorIds (vendor d) p) := by
  unfold descriptorStep Bad Next
  by_cases hend : p < d.desclength
  rotate_left
  · rw [if_pos hend]
    refine .inr ⟨?_, .inl ⟨⟨none, rfl⟩, fun q hn => hend (Nat.lt_of_succ_lt hn.1)⟩⟩
    rintro (hp | ⟨hp, -⟩)
    · omega
    · omega
  rw [if_neg (not_not_intro hend), byte_of_lt h hend]
  by_cases htail : p + 1 = d.desclength
  · rw [byte_of_le h (Nat.le_of_eq htail.symm)]
    exact .inl ⟨.inl htail, .inl rfl⟩
  have hlt : p + 1 < d.desclength := by omega
  rw [byte_of_lt h hlt]
  dsimp only [bind, Option.bind]
  by_cases ht : d.get (p + 1) = 4
  · simp only [if_pos ht]
    rcases findInterface_cases vendorIds h hl with ⟨hbad, hrun⟩ | ⟨hbad, hfine⟩
    · exact .inl ⟨.inr ⟨hlt, hbad⟩, .inl hrun⟩
    · refine .inr ⟨?_, hfine.congr fun q => and_iff_right hlt⟩
      rintro (hp | ⟨-, hp⟩)
      · exact htail hp
      · exact hbad hp
  · -- No interface: the length byte says where the next descriptor is.
    simp only [if_neg ht]
    by_cases h0 : d.get p = 0
    · rw [h0]
      exact .inl ⟨.inr ⟨hlt, rfl⟩, .inr rfl⟩
    · have hpos : 0 < (d.get p).toNat := Nat.pos_of_ne_zero fun hz => h0 (UInt8.toNat_inj.mp hz)
      refine .inr ⟨?_, .inr ⟨p + (d.get p).toNat, by omega, rfl, fun q => and_iff_right hlt⟩⟩
      rintro (hp | ⟨-, hp⟩)
      · exact htail hp
      · exact h0 hp

/-! ## The loop -/

/-- The places that the loop comes to are those that the descriptors lead to, up to a bad one. -/
theorem descriptorLoop_ends_iff (vendorIds : List Int) (h : 0 ≤ d.len) (hl : 27 ≤ d.desclength) :
    Lib.Ends (descriptorStep d vendorIds (vendor d)) 27 ↔
      ∀ p, Relation.ReflTransGen (Next d vendorIds) 27 p → ¬ Bad d p := by
  have hcases := descriptorStep_cases vendorIds h hl
  rw [ends_iff (d.desclength - ·)]
  rotate_left
  · intro p q hgoes
    rcases hcases p with ⟨-, hrun | hrun⟩ | ⟨-, ⟨⟨r, hrun⟩, -⟩ | ⟨q', hlt, hrun, hnext⟩⟩
    · cases hrun.symm.trans hgoes
    · cases hrun.symm.trans hgoes
      exact .inl rfl
    · cases hrun.symm.trans hgoes
    · cases hrun.symm.trans hgoes
      have := ((hnext q).mpr rfl).1
      exact .inr (by omega)
  constructor
  · intro hgood p hreach
    have hnot (p : Nat)
        (hp : Relation.ReflTransGen (Goes (descriptorStep d vendorIds (vendor d))) 27 p) :
        ¬ Bad d p := by
      rcases hcases p with ⟨-, hrun | hrun⟩ | ⟨hbad, -⟩
      · exact absurd hrun (hgood p hp).1
      · exact absurd hrun (hgood p hp).2
      · exact hbad
    refine hnot p ?_
    clear hgood
    induction hreach with
    | refl => exact .refl
    | @tail p q _ hnext ih =>
      rcases hcases p with ⟨hbad, -⟩ | ⟨-, ⟨-, hno⟩ | ⟨q', -, hrun, hiff⟩⟩
      · exact absurd hbad (hnot p ih)
      · exact absurd hnext (hno q)
      · rw [(hiff q).mp hnext]
        exact ih.tail hrun
  · intro hgood p hreach
    have hto : Relation.ReflTransGen (Next d vendorIds) 27 p := by
      induction hreach with
      | refl => exact .refl
      | @tail p q _ hgoes ih =>
        rcases hcases p with ⟨hbad, -⟩ | ⟨-, ⟨⟨r, hrun⟩, -⟩ | ⟨q', -, hrun, hiff⟩⟩
        · exact absurd hbad (hgood p ih)
        · cases hrun.symm.trans hgoes
        · cases hrun.symm.trans hgoes
          exact ih.tail ((hiff q).mpr rfl)
    rcases hcases p with ⟨hbad, -⟩ | ⟨-, ⟨⟨r, hrun⟩, -⟩ | ⟨q, hlt, hrun, -⟩⟩
    · exact absurd hbad (hgood p hto)
    · rw [hrun]
      exact ⟨nofun, fun hgoes => nomatch hrun.symm.trans hgoes⟩
    · rw [hrun]
      refine ⟨nofun, fun hgoes => ?_⟩
      cases hrun.symm.trans hgoes
      exact Nat.lt_irrefl _ hlt

/-! ## A device node -/

/-- Nothing is known of the bytes when the read failed. -/
theorem readHeader_of_neg (h : d.len < 0) : readHeader d = none := by
  unfold readHeader
  have hbyte : d.byte 0 = none := Region.byte_of_le (by omega)
  rw [desclength_of_neg h, if_neg (by decide), hbyte]
  rfl

theorem readHeader_cases (h : 0 ≤ d.len) :
    ¬ Header d ∧ readHeader d = some none ∨ Header d ∧ readHeader d = some (some (vendor d)) := by
  unfold readHeader
  by_cases hl : d.desclength < 18 + 9
  · rw [if_pos hl]
    exact .inl ⟨fun hh => absurd hh.length_le (Nat.not_le.mpr hl), rfl⟩
  have hbyte (k : Nat) (hk : k < 27) : d.byte k = some (d.get k) := byte_of_lt h (by omega)
  have hhalf (k : Nat) (hk : k + 1 < 27) : d.half k = _ := Region.half_of_lt (by
    have := desclength_of_nonneg h
    omega)
  rw [if_neg hl, hbyte 0 (by decide), hbyte 1 (by decide)]
  dsimp only [bind, Option.bind]
  by_cases hdev : d.get 0 = 18 ∧ d.get 1 = 1
  · rw [if_neg (by rw [hdev.1, hdev.2]; decide), hhalf 8 (by decide), hhalf 10 (by decide),
      hbyte 18 (by decide), hbyte 19 (by decide)]
    dsimp only
    by_cases hcfg : d.get 18 = 9 ∧ d.get 19 = 2
    · rw [if_neg (by rw [hcfg.1, hcfg.2]; decide)]
      exact .inr ⟨⟨Nat.not_lt.mp hl, hdev, hcfg⟩, rfl⟩
    · rw [if_pos (by rw [not_and_or] at hcfg; exact hcfg)]
      exact .inl ⟨fun hh => hcfg hh.config, rfl⟩
  · rw [if_pos (by rw [not_and_or] at hdev; exact hdev)]
    exact .inl ⟨fun hh => hdev hh.device, rfl⟩

/-- **The scan of a device node ends, and uses only what was read**, if and only if the read did not
fail and the descriptors lead to no bad place. -/
theorem scan_ends_iff (d : Node) (vendorIds : List Int) :
    (∃ n r, scan d vendorIds n = .left r) ↔
      0 ≤ d.len ∧
        (Header d → ∀ p, Relation.ReflTransGen (Next d vendorIds) 27 p → ¬ Bad d p) := by
  unfold scan
  by_cases h : 0 ≤ d.len
  · rw [and_iff_right h]
    rcases readHeader_cases h with ⟨hno, hread⟩ | ⟨hh, hread⟩
    · rw [hread]
      exact ⟨fun _ hh => absurd hh hno, fun _ => ⟨0, none, rfl⟩⟩
    · rw [hread]
      exact (descriptorLoop_ends_iff vendorIds h hh.length_le).trans
        ⟨fun hp _ => hp, fun hp => hp hh⟩
  · rw [readHeader_of_neg (Int.not_le.mp h)]
    constructor
    · rintro ⟨n, r, hr⟩
      cases hr
    · exact fun hh => absurd hh.1 h

/-- A device node of which `n` bytes were read: the two descriptors, then zeros. -/
def zeroNode (n : Nat) (h : n ≤ 256) : Node where
  bytes := 18 :: 1 :: List.replicate 16 0 ++ 9 :: 2 :: List.replicate 236 0
  len := n
  le := by
    simp only [List.length_append, List.length_cons, List.length_replicate]
    omega
  ge := by omega
  size_eq := by simp only [List.length_append, List.length_cons, List.length_replicate]

/-- Two zeros are a descriptor without a length, and the loop stays there. A single byte has no type. -/
theorem not_ends_zeroNode :
    (∀ n, scan (zeroNode 29 (by decide)) [] n = .running 27) ∧
      scan (zeroNode 28 (by decide)) [] 1 = .wrong := by
  constructor
  · intro n
    have hread : readHeader (zeroNode 29 (by decide)) = some (some 0) := rfl
    have hgoes : Goes (descriptorStep (zeroNode 29 (by decide)) [] 0) 27 27 := rfl
    rw [scan, hread]
    exact loop_of_goes_self hgoes n
  · rfl

end Twm.Adb.UsbScan
