import DeviceTwm.Lib.Bytes

/-!
# The buffer of an emulated socket pair

One direction of a socket pair on Windows: a buffer with two regions, of which the second one begins
again at the start when the first one reaches the end. Between `EnterCriticalSection` and
`LeaveCriticalSection` a call runs alone; a call that has to wait is one that has not run yet.

* `Holds bip q`: the buffer holds the bytes `q`, the flags say whether there are any and whether there is
  room, and the events are set when the flags are.
* `bip_buffer_write_holds`, `bip_buffer_read_holds`: the buffer is a queue of `BIP_BUFFER_SIZE` bytes.
  A call that does not wait takes as many bytes as there are or as there is room for; no assertion fails
  and no copy leaves the buffer.
-/

open Lib

namespace Twm.Adb.Win32

def BIP_BUFFER_SIZE : Nat := 4096

structure BipBuffer where
  aStart : Nat
  aEnd : Nat
  bEnd : Nat
  closed : Bool
  canWrite : Bool
  /-- The event that is set when one can write. -/
  evtWrite : Bool
  canRead : Bool
  /-- The event that is set when one can read. -/
  evtRead : Bool
  buff : List UInt8
deriving DecidableEq

/-- What the new memory held stays in `buff`. -/
def bipBufferInit (memory : List UInt8) : BipBuffer where
  aStart := 0
  aEnd := 0
  bEnd := 0
  canWrite := true
  canRead := false
  closed := false
  evtWrite := true
  evtRead := false
  buff := memory

def bipBufferClose (bip : BipBuffer) : BipBuffer :=
  let bip := { bip with closed := true }
  let bip := if bip.canRead then bip else { bip with evtRead := true }
  if bip.canWrite then bip else { bip with evtWrite := true }

/-- How a call ends. -/
inductive Outcome (α : Type) where
  /-- It has to wait for its event. -/
  | waits
  /-- `-1` with `EPIPE` -/
  | closed
  | done (result : α) (bip : BipBuffer)
  /-- An assertion fails, or a copy goes past the end of the buffer. -/
  | crash
deriving DecidableEq

namespace BipBuffer

/-- The buffer is full. -/
def resetWrite (bip : BipBuffer) : BipBuffer := { bip with canWrite := false, evtWrite := false }

/-- The buffer is empty. -/
def resetRead (bip : BipBuffer) : BipBuffer := { bip with canRead := false, evtRead := false }

/-- The exit of `bip_buffer_write`. -/
def exitWrite (bip : BipBuffer) (count : Nat) : Outcome Nat :=
  if count = 0 then .crash
  else .done count (if bip.canRead then bip else { bip with canRead := true, evtRead := true })

/-- The exit of `bip_buffer_read`. -/
def exitRead (bip : BipBuffer) (dst : List UInt8) : Outcome (List UInt8) :=
  if dst.length = 0 then .crash
  else .done dst (if bip.canWrite then bip else { bip with canWrite := true, evtWrite := true })

end BipBuffer

open BipBuffer

/-- The copy to region B, after `count` bytes. -/
def writeB (bip : BipBuffer) (src : List UInt8) (count : Nat) : Outcome Nat :=
  let avail := bip.aStart - bip.bEnd
  if avail = 0 then .crash
  else
    let avail := min avail src.length
    match blit bip.buff bip.bEnd (src.take avail) with
    | none => .crash
    | some buff =>
      let bip := { bip with buff, bEnd := bip.bEnd + avail }
      exitWrite (if bip.bEnd = bip.aStart then bip.resetWrite else bip) (count + avail)

/-- What is left for region B, if the buffer is not full. -/
def writeRest (bip : BipBuffer) (src : List UInt8) (count : Nat) : Outcome Nat :=
  if src.length = 0 then exitWrite bip count else writeB bip src count

def bipBufferWrite (bip : BipBuffer) (src : List UInt8) : Outcome Nat :=
  if src.length = 0 then .done 0 bip
  else if bip.canWrite = false then (if bip.closed then .closed else .waits)
  else
    let avail := BIP_BUFFER_SIZE - bip.aEnd
    if 0 < avail then
      let avail := min avail src.length
      match blit bip.buff bip.aEnd (src.take avail) with
      | none => .crash
      | some buff =>
        let bip := { bip with buff, aEnd := bip.aEnd + avail }
        if bip.aEnd = BIP_BUFFER_SIZE ∧ bip.aStart = 0 then exitWrite bip.resetWrite avail
        else writeRest bip (src.drop avail) avail
    else writeRest bip src 0

/-- `memcpy(dst, bip->buff + off, n)` -/
def readAt (bip : BipBuffer) (off n : Nat) : Option (List UInt8) :=
  if off + n ≤ bip.buff.length then some (slice bip.buff off n) else none

/-- When region A has been read to its end, region B takes its place. -/
def readB (bip : BipBuffer) (dst : List UInt8) (len : Nat) : Outcome (List UInt8) :=
  let bip := { bip with aStart := 0, aEnd := bip.bEnd, bEnd := 0 }
  let avail := bip.aEnd
  if 0 < avail then
    let avail := min avail len
    match readAt bip 0 avail with
    | none => .crash
    | some d =>
      let bip := { bip with aStart := bip.aStart + avail }
      if bip.aStart < bip.aEnd then exitRead bip (dst ++ d)
      else exitRead { bip with aStart := 0, aEnd := 0 }.resetRead (dst ++ d)
  else exitRead bip.resetRead dst

def bipBufferRead (bip : BipBuffer) (len : Nat) : Outcome (List UInt8) :=
  if len = 0 then .done [] bip
  else if bip.canRead = false then (if bip.closed then .closed else .waits)
  else
    let avail := bip.aEnd - bip.aStart
    if avail = 0 then .crash
    else
      let avail := min avail len
      match readAt bip bip.aStart avail with
      | none => .crash
      | some d =>
        let bip := { bip with aStart := bip.aStart + avail }
        if bip.aStart < bip.aEnd then exitRead bip d else readB bip d (len - avail)

/-! ## The two regions -/

theorem slice_add (b : List UInt8) (off m n : Nat) :
    slice b off (m + n) = slice b off m ++ slice b (off + m) n := by
  rw [slice, slice, slice, List.take_add, List.drop_drop]

theorem slice_of_take {b b' : List UInt8} {k o n : Nat} (h : b'.take k = b.take k)
    (hk : o + n ≤ k) : slice b' o n = slice b o n := by
  have hcut : ∀ c : List UInt8, slice c o n = slice (c.take k) o n := by
    intro c
    rw [slice, slice, List.drop_take, List.take_take, Nat.min_eq_left (by omega)]
  rw [hcut b', hcut b, h]

theorem drop_blit {b b' d : List UInt8} {off n : Nat} (h : blit b off d = some b')
    (hn : off + d.length ≤ n) : b'.drop n = b.drop n := by
  unfold blit at h
  split at h
  · rename_i hle
    cases h
    have hlen : (b.take off ++ d).length = off + d.length := by
      rw [List.length_append, List.length_take]
      omega
    rw [List.drop_append, hlen, List.drop_eq_nil_of_le (by omega), List.nil_append, List.drop_drop]
    congr 1
    omega
  · cases h

theorem exists_blit {b d : List UInt8} {o : Nat} (h : o + d.length ≤ b.length) :
    ∃ b', blit b o d = some b' := ⟨_, if_pos h⟩

/-- Region A, from `s` to `e`, holds `a`, and region B, up to `t`, holds `b`. -/
structure Regions (s e t : Nat) (buff a b : List UInt8) : Prop where
  aEnd : e = s + a.length
  bEnd : t = b.length
  le : t ≤ s
  size : e ≤ BIP_BUFFER_SIZE
  memory : buff.length = BIP_BUFFER_SIZE
  inA : slice buff s a.length = a
  inB : slice buff 0 b.length = b
  /-- Region B is not begun before A is at the end. -/
  order : b ≠ [] → e = BIP_BUFFER_SIZE
  /-- An empty region A is at the start. -/
  empty : a = [] → s = 0

namespace Regions

variable {s e t n : Nat} {buff buff' a b d : List UInt8}

theorem length_le (h : Regions s e t buff a b) : a.length + b.length ≤ BIP_BUFFER_SIZE := by
  have h₁ := h.aEnd
  have h₂ := h.bEnd
  have h₃ := h.le
  have h₄ := h.size
  omega

theorem appendA (h : Regions s e 0 buff a []) (hd : e + d.length ≤ BIP_BUFFER_SIZE)
    (hbuff : blit buff e d = some buff') : Regions s (e + d.length) 0 buff' (a ++ d) [] where
  aEnd := by rw [h.aEnd, List.length_append, Nat.add_assoc]
  bEnd := rfl
  le := h.le
  size := hd
  memory := (length_blit hbuff).trans h.memory
  inA := by
    have ha := slice_of_take (take_blit hbuff (Nat.le_refl e)) (o := s) (n := a.length)
      (Nat.le_of_eq h.aEnd.symm)
    rw [List.length_append, slice_add, ha, h.inA, ← h.aEnd, slice_blit hbuff]
  inB := rfl
  order := fun h => absurd rfl h
  empty := fun hnil => h.empty (List.append_eq_nil_iff.mp hnil).1

theorem appendB (h : Regions s e t buff a b) (he : e = BIP_BUFFER_SIZE) (hd : t + d.length ≤ s)
    (hbuff : blit buff t d = some buff') : Regions s e (t + d.length) buff' a (b ++ d) where
  aEnd := h.aEnd
  bEnd := by rw [h.bEnd, List.length_append]
  le := hd
  size := h.size
  memory := (length_blit hbuff).trans h.memory
  inA := by
    rw [slice, drop_blit hbuff hd]
    exact h.inA
  inB := by
    have hb := slice_of_take (take_blit hbuff (Nat.le_refl t)) (o := 0) (n := b.length)
      (by rw [h.bEnd]; omega)
    rw [List.length_append, slice_add, hb, h.inB, Nat.zero_add, ← h.bEnd, slice_blit hbuff]
  order := fun _ => he
  empty := h.empty

/-- Some bytes of region A are read, but not all. -/
theorem dropA (h : Regions s e t buff a b) (hn : n < a.length) :
    Regions (s + n) e t buff (a.drop n) b where
  aEnd := by
    rw [h.aEnd, List.length_drop]
    omega
  bEnd := h.bEnd
  le := Nat.le_trans h.le (Nat.le_add_right s n)
  size := h.size
  memory := h.memory
  inA := by
    rw [slice, List.length_drop, ← List.drop_drop, ← List.drop_take]
    exact congrArg (List.drop n) h.inA
  inB := h.inB
  order := h.order
  empty := fun hnil => by
    have hlen := congrArg List.length hnil
    rw [List.length_drop, List.length_nil] at hlen
    omega

/-- Region B takes the place of A. -/
theorem swap (h : Regions s e t buff a b) : Regions 0 t 0 buff b [] where
  aEnd := by rw [h.bEnd, Nat.zero_add]
  bEnd := rfl
  le := Nat.le_refl 0
  size := Nat.le_trans h.le (Nat.le_trans (by have := h.aEnd; omega) h.size)
  memory := h.memory
  inA := h.inB
  inB := rfl
  order := fun h => absurd rfl h
  empty := fun _ => rfl

theorem nil (hbuff : buff.length = BIP_BUFFER_SIZE) : Regions 0 0 0 buff [] [] :=
  ⟨rfl, rfl, Nat.le_refl 0, Nat.zero_le _, hbuff, rfl, rfl, fun h => absurd rfl h, fun _ => rfl⟩

end Regions

/-- The buffer holds `q`. -/
structure Holds (bip : BipBuffer) (q : List UInt8) : Prop where
  regions : ∃ a b, q = a ++ b ∧ Regions bip.aStart bip.aEnd bip.bEnd bip.buff a b
  canRead : bip.canRead = true ↔ q ≠ []
  canWrite : bip.canWrite = true ↔ q.length < BIP_BUFFER_SIZE
  evtRead : bip.canRead = true → bip.evtRead = true
  evtWrite : bip.canWrite = true → bip.evtWrite = true

theorem bipBufferInit_holds {memory : List UInt8} (h : memory.length = BIP_BUFFER_SIZE) :
    Holds (bipBufferInit memory) [] where
  regions := ⟨[], [], rfl, Regions.nil h⟩
  canRead := ⟨nofun, fun h => absurd rfl h⟩
  canWrite := ⟨fun _ => by decide, fun _ => rfl⟩
  evtRead := nofun
  evtWrite := fun _ => rfl

namespace Holds

variable {bip : BipBuffer} {q a b src : List UInt8}

theorem length_le (h : Holds bip q) : q.length ≤ BIP_BUFFER_SIZE := by
  obtain ⟨a, b, rfl, hr⟩ := h.regions
  rw [List.length_append]
  exact hr.length_le

theorem close (h : Holds bip q) : Holds (bipBufferClose bip) q := by
  obtain ⟨hr, h₁, h₂, h₃, h₄⟩ := h
  unfold bipBufferClose
  dsimp only
  split <;> split
  · exact ⟨hr, h₁, h₂, h₃, h₄⟩
  · exact ⟨hr, h₁, h₂, h₃, fun _ => rfl⟩
  · exact ⟨hr, h₁, h₂, fun _ => rfl, h₄⟩
  · exact ⟨hr, h₁, h₂, fun _ => rfl, fun _ => rfl⟩

/-- The exit of a write that leaves `q` in the buffer, with `can_write` right already. -/
theorem exitWrite (bip : BipBuffer) {count : Nat}
    (hr : ∃ a b, q = a ++ b ∧ Regions bip.aStart bip.aEnd bip.bEnd bip.buff a b)
    (hq : q ≠ []) (hc : 0 < count) (hw : bip.canWrite = true ↔ q.length < BIP_BUFFER_SIZE)
    (hew : bip.canWrite = true → bip.evtWrite = true)
    (her : bip.canRead = true → bip.evtRead = true) :
    ∃ bip', bip.exitWrite count = .done count bip' ∧ Holds bip' q ∧ bip'.closed = bip.closed := by
  rw [BipBuffer.exitWrite, if_neg (by omega)]
  by_cases h : bip.canRead = true
  · exact ⟨_, rfl, by rw [if_pos h]; exact ⟨hr, ⟨fun _ => hq, fun _ => h⟩, hw, her, hew⟩,
      by rw [if_pos h]⟩
  · exact ⟨_, rfl, by rw [if_neg h]; exact ⟨hr, ⟨fun _ => hq, fun _ => rfl⟩, hw, fun _ => rfl, hew⟩,
      by rw [if_neg h]⟩

/-- The exit of a read that leaves `q`, with `can_read` right already. -/
theorem exitRead (bip : BipBuffer) {dst : List UInt8}
    (hr : ∃ a b, q = a ++ b ∧ Regions bip.aStart bip.aEnd bip.bEnd bip.buff a b)
    (hq : q.length < BIP_BUFFER_SIZE) (hd : dst ≠ []) (hrd : bip.canRead = true ↔ q ≠ [])
    (her : bip.canRead = true → bip.evtRead = true)
    (hew : bip.canWrite = true → bip.evtWrite = true) :
    ∃ bip', bip.exitRead dst = .done dst bip' ∧ Holds bip' q ∧ bip'.closed = bip.closed := by
  have hd' : ¬ dst.length = 0 := fun h => hd (List.eq_nil_of_length_eq_zero h)
  rw [BipBuffer.exitRead, if_neg hd']
  by_cases h : bip.canWrite = true
  · exact ⟨_, rfl, by rw [if_pos h]; exact ⟨hr, hrd, ⟨fun _ => hq, fun _ => h⟩, her, hew⟩,
      by rw [if_pos h]⟩
  · exact ⟨_, rfl, by rw [if_neg h]; exact ⟨hr, hrd, ⟨fun _ => hq, fun _ => rfl⟩, her, fun _ => rfl⟩,
      by rw [if_neg h]⟩

end Holds

/-! ## Writing -/

variable {bip : BipBuffer} {q a b src : List UInt8}

theorem writeB_holds (bip : BipBuffer) (count : Nat)
    (hr : Regions bip.aStart bip.aEnd bip.bEnd bip.buff a b) (he : bip.aEnd = BIP_BUFFER_SIZE)
    (hlt : bip.bEnd < bip.aStart) (hsrc : src ≠ []) (hw : bip.canWrite = true)
    (hew : bip.evtWrite = true) (her : bip.canRead = true → bip.evtRead = true) :
    ∃ bip', writeB bip src count = .done (count + min (bip.aStart - bip.bEnd) src.length) bip' ∧
      Holds bip' (a ++ (b ++ src.take (bip.aStart - bip.bEnd))) ∧ bip'.closed = bip.closed := by
  have hpos : 0 < src.length := List.length_pos_iff.mpr hsrc
  have htake : src.take (min (bip.aStart - bip.bEnd) src.length) =
      src.take (bip.aStart - bip.bEnd) := by rw [← List.take_take, List.take_length]
  have hlen : (src.take (bip.aStart - bip.bEnd)).length = min (bip.aStart - bip.bEnd) src.length :=
    List.length_take
  have hmem := hr.memory
  have haE := hr.aEnd
  obtain ⟨buff, hbuff⟩ := exists_blit (b := bip.buff) (o := bip.bEnd)
    (d := src.take (bip.aStart - bip.bEnd)) (by omega)
  have happ := hr.appendB he (by omega) hbuff
  rw [hlen] at happ
  have hsize := happ.length_le
  have hb := happ.bEnd
  have hne : a ++ (b ++ src.take (bip.aStart - bip.bEnd)) ≠ [] := fun h => by
    have := congrArg List.length h
    rw [List.length_append, List.length_append, hlen, List.length_nil] at this
    omega
  simp only [writeB, htake, hbuff]
  rw [if_neg (by omega)]
  split
  case isTrue hfull =>
    refine Holds.exitWrite (BipBuffer.resetWrite _) ⟨_, _, rfl, happ⟩ hne (by omega)
      ⟨nofun, fun h => ?_⟩ nofun her
    rw [List.length_append] at h
    omega
  case isFalse hroom =>
    refine Holds.exitWrite _ ⟨_, _, rfl, happ⟩ hne (by omega) ⟨fun _ => ?_, fun _ => hw⟩
      (fun _ => hew) her
    rw [List.length_append]
    omega

/-- **A write** takes as much as there is room for, and waits only when there is none. -/
theorem bipBufferWrite_holds (h : Holds bip q) (hsrc : src ≠ []) :
    (q.length = BIP_BUFFER_SIZE →
      bipBufferWrite bip src = if bip.closed then .closed else .waits) ∧
    (q.length < BIP_BUFFER_SIZE →
      ∃ bip', bipBufferWrite bip src = .done (min src.length (BIP_BUFFER_SIZE - q.length)) bip' ∧
        Holds bip' (q ++ src.take (BIP_BUFFER_SIZE - q.length)) ∧ bip'.closed = bip.closed) := by
  have hpos : 0 < src.length := List.length_pos_iff.mpr hsrc
  constructor
  · intro hfull
    have hw : bip.canWrite = false := Bool.eq_false_iff.mpr fun hw => by
      have := h.canWrite.mp hw
      omega
    rw [bipBufferWrite, if_neg (by omega), if_pos hw]
  · intro hroom
    have hw := h.canWrite.mpr hroom
    have hew := h.evtWrite hw
    obtain ⟨a, b, rfl, hr⟩ := h.regions
    have haE := hr.aEnd
    have hbE := hr.bEnd
    have hmem := hr.memory
    have hsize := hr.size
    have hle := hr.le
    rw [List.length_append] at hroom ⊢
    rw [bipBufferWrite, if_neg (by omega), if_neg (by simp [hw])]
    dsimp only
    split
    case isTrue hA =>
      have hb : b = [] := by
        by_cases hb : b = []
        · exact hb
        · have := hr.order hb
          omega
      subst hb
      rw [List.length_nil] at hbE
      rw [hbE] at hr
      have htake : src.take (min (BIP_BUFFER_SIZE - bip.aEnd) src.length) =
          src.take (BIP_BUFFER_SIZE - bip.aEnd) := by rw [← List.take_take, List.take_length]
      have hlen : (src.take (BIP_BUFFER_SIZE - bip.aEnd)).length =
          min (BIP_BUFFER_SIZE - bip.aEnd) src.length := List.length_take
      obtain ⟨buff, hbuff⟩ := exists_blit (b := bip.buff) (o := bip.aEnd)
        (d := src.take (BIP_BUFFER_SIZE - bip.aEnd)) (by omega)
      have happ := hr.appendA (by omega) hbuff
      rw [hlen] at happ
      rw [List.append_nil, List.length_nil, Nat.add_zero] at *
      simp only [htake, hbuff]
      split
      case isTrue hfull =>
        -- the buffer is full, and nothing more is written
        obtain ⟨hend, hstart⟩ := hfull
        have hmin : min src.length (BIP_BUFFER_SIZE - a.length) =
            min (BIP_BUFFER_SIZE - bip.aEnd) src.length := by omega
        have hcap : BIP_BUFFER_SIZE - a.length = BIP_BUFFER_SIZE - bip.aEnd := by omega
        rw [hmin, hcap]
        refine Holds.exitWrite (BipBuffer.resetWrite _)
          ⟨_, [], (List.append_nil _).symm, by rw [← hbE] at happ; exact happ⟩
          (fun hnil => ?_) (by omega) ⟨nofun, fun hlt => ?_⟩ nofun h.evtRead
        · have := congrArg List.length hnil
          rw [List.length_append, hlen, List.length_nil] at this
          omega
        · rw [List.length_append, hlen] at hlt
          omega
      case isFalse hfull =>
        unfold writeRest
        split
        case isTrue hall =>
          -- everything is in region A
          rw [List.length_drop] at hall
          have hmin : min (BIP_BUFFER_SIZE - bip.aEnd) src.length = src.length := by omega
          have hsrc' : src.take (BIP_BUFFER_SIZE - a.length) = src.take (BIP_BUFFER_SIZE - bip.aEnd) := by
            rw [List.take_of_length_le (by omega), List.take_of_length_le (by omega)]
          rw [hsrc', hmin, Nat.min_eq_left (by omega : src.length ≤ BIP_BUFFER_SIZE - a.length)]
          rw [hmin] at happ hfull
          refine Holds.exitWrite _ ⟨_, [], (List.append_nil _).symm, by rw [← hbE] at happ; exact happ⟩
            (fun hnil => ?_) hpos ⟨fun _ => ?_, fun _ => hw⟩ (fun _ => hew) h.evtRead
          · have := congrArg List.length hnil
            rw [List.length_append, hlen, List.length_nil] at this
            omega
          · rw [List.length_append, hlen, hmin]
            have hend := happ.size
            have hstart := happ.aEnd
            rw [List.length_append, hlen, hmin] at hstart
            omega
        case isFalse hmore =>
          rw [List.length_drop] at hmore
          have hmin : min (BIP_BUFFER_SIZE - bip.aEnd) src.length = BIP_BUFFER_SIZE - bip.aEnd := by
            omega
          rw [hmin] at happ hfull ⊢
          have hend : bip.aEnd + (BIP_BUFFER_SIZE - bip.aEnd) = BIP_BUFFER_SIZE := by omega
          have hrest : src.drop (BIP_BUFFER_SIZE - bip.aEnd) ≠ [] := fun hnil => by
            have := congrArg List.length hnil
            rw [List.length_drop, List.length_nil] at this
            omega
          obtain ⟨bip', hres, hholds, hclosed⟩ := writeB_holds
            { bip with buff, aEnd := bip.aEnd + (BIP_BUFFER_SIZE - bip.aEnd) }
            (BIP_BUFFER_SIZE - bip.aEnd) (a := a ++ src.take (BIP_BUFFER_SIZE - bip.aEnd)) (b := [])
            (by rw [← hbE] at happ; exact happ) hend (by dsimp only; omega) hrest hw hew h.evtRead
          dsimp only at hres hholds hclosed
          rw [hbE, Nat.sub_zero, List.length_drop] at hres
          rw [hbE, Nat.sub_zero, List.nil_append, List.append_assoc, ← List.take_add] at hholds
          have hcount : min src.length (BIP_BUFFER_SIZE - a.length) = BIP_BUFFER_SIZE - bip.aEnd +
              min bip.aStart (src.length - (BIP_BUFFER_SIZE - bip.aEnd)) := by omega
          have hcap : BIP_BUFFER_SIZE - a.length = BIP_BUFFER_SIZE - bip.aEnd + bip.aStart := by omega
          rw [hcount, hcap, hbE]
          exact ⟨bip', hres, hholds, hclosed⟩
    case isFalse hB =>
      have hend : bip.aEnd = BIP_BUFFER_SIZE := by omega
      obtain ⟨bip', hres, hholds, hclosed⟩ := writeB_holds bip 0 hr hend (by omega) hsrc hw hew
        h.evtRead
      have hcap : BIP_BUFFER_SIZE - (a.length + b.length) = bip.aStart - bip.bEnd := by omega
      rw [writeRest, if_neg (by omega), hcap, Nat.min_comm, List.append_assoc]
      rw [Nat.zero_add] at hres
      exact ⟨bip', hres, hholds, hclosed⟩

/-! ## Reading -/

theorem readAt_eq {off n : Nat} (h : off + n ≤ bip.buff.length) :
    readAt bip off n = some (slice bip.buff off n) := if_pos h

theorem take_slice {s : List UInt8} {off m n : Nat} (h : slice s off m = a) (hn : n ≤ m) :
    slice s off n = a.take n := by
  rw [← h, slice, slice, List.take_take, Nat.min_eq_left hn]

/-- Region A has been read. -/
theorem readB_holds (bip : BipBuffer) {dst : List UInt8} {len : Nat}
    (hswap : Regions 0 bip.bEnd 0 bip.buff b []) (hd : dst ≠ [])
    (hb : b.length < BIP_BUFFER_SIZE) (hrd : bip.canRead = true) (her : bip.evtRead = true)
    (hew : bip.canWrite = true → bip.evtWrite = true) :
    ∃ bip', readB bip dst len = .done (dst ++ b.take len) bip' ∧ Holds bip' (b.drop len) ∧
      bip'.closed = bip.closed := by
  have hbE : bip.bEnd = b.length := by
    rw [hswap.aEnd, Nat.zero_add]
  have hmem := hswap.memory
  unfold readB
  dsimp only
  split
  case isTrue hpos =>
    rw [readAt_eq (by dsimp only; omega)]
    have hslice : slice bip.buff 0 (min bip.bEnd len) = b.take len := by
      rw [take_slice hswap.inA (by omega : min bip.bEnd len ≤ b.length), hbE, Nat.min_comm,
        ← List.take_take, List.take_length]
    dsimp only
    rw [hslice, Nat.zero_add]
    have hne : dst ++ b.take len ≠ [] := fun h => hd (List.append_eq_nil_iff.mp h).1
    split
    case isTrue hlt =>
      have hdrop := hswap.dropA (n := min bip.bEnd len) (by omega)
      have hlen : min bip.bEnd len = len := by omega
      rw [Nat.zero_add] at hdrop
      rw [hlen] at hdrop ⊢
      refine Holds.exitRead _ ⟨_, [], (List.append_nil _).symm, hdrop⟩ ?_ hne
        ⟨fun _ hnil => ?_, fun _ => hrd⟩ (fun _ => her) hew
      · rw [List.length_drop]
        omega
      · have := congrArg List.length hnil
        rw [List.length_drop, List.length_nil] at this
        omega
    case isFalse hge =>
      have hnil : b.drop len = [] := List.drop_eq_nil_of_le (by omega)
      rw [hnil]
      exact Holds.exitRead (BipBuffer.resetRead _) ⟨[], [], rfl, Regions.nil hmem⟩ (by decide)
        hne ⟨nofun, fun h => absurd rfl h⟩ nofun hew
  case isFalse hzero =>
    have hnil : b = [] := List.eq_nil_of_length_eq_zero (by omega)
    have hbE0 : bip.bEnd = 0 := by omega
    rw [hnil, List.take_nil, List.append_nil, List.drop_nil]
    refine Holds.exitRead (BipBuffer.resetRead _) ⟨[], [], rfl, ?_⟩ (by decide) hd
      ⟨nofun, fun h => absurd rfl h⟩ nofun hew
    dsimp only [BipBuffer.resetRead]
    rw [hbE0]
    exact Regions.nil hmem

/-- **A read** takes as much as there is, and waits only when there is nothing. -/
theorem bipBufferRead_holds (h : Holds bip q) {len : Nat} (hlen : 0 < len) :
    (q = [] → bipBufferRead bip len = if bip.closed then .closed else .waits) ∧
    (q ≠ [] → ∃ bip', bipBufferRead bip len = .done (q.take len) bip' ∧
      Holds bip' (q.drop len) ∧ bip'.closed = bip.closed) := by
  constructor
  · intro hnil
    have hrd : bip.canRead = false := Bool.eq_false_iff.mpr fun hrd => h.canRead.mp hrd hnil
    rw [bipBufferRead, if_neg (by omega), if_pos hrd]
  · intro hne
    have hrd := h.canRead.mpr hne
    have her := h.evtRead hrd
    have hsize := h.length_le
    obtain ⟨a, b, rfl, hr⟩ := h.regions
    have haE := hr.aEnd
    have hbE := hr.bEnd
    have hmem := hr.memory
    have hend := hr.size
    have hle := hr.le
    have hapos : 0 < a.length := by
      rcases a with - | ⟨x, a⟩
      · have hb : b.length = 0 := by
          have := hr.empty rfl
          omega
        rw [List.eq_nil_of_length_eq_zero hb] at hne
        exact absurd rfl hne
      · exact Nat.succ_pos _
    rw [List.length_append] at hsize
    rw [bipBufferRead, if_neg (by omega), if_neg (by simp [hrd])]
    dsimp only
    rw [if_neg (by omega), readAt_eq (by omega)]
    have havail : bip.aEnd - bip.aStart = a.length := by omega
    have hslice : slice bip.buff bip.aStart (min a.length len) = a.take len := by
      rw [take_slice hr.inA (Nat.min_le_left _ _), Nat.min_comm, ← List.take_take, List.take_length]
    dsimp only
    rw [havail, hslice]
    have htne : a.take len ≠ [] := fun hnil => by
      have := congrArg List.length hnil
      rw [List.length_take, List.length_nil] at this
      omega
    split
    case isTrue hlt =>
      have hmin : min a.length len = len := by omega
      have hdrop := hr.dropA (n := len) (by omega)
      rw [hmin, List.take_append_of_le_length (by omega), List.drop_append_of_le_length (by omega)]
      refine Holds.exitRead _ ⟨_, _, rfl, hdrop⟩ ?_ htne ⟨fun _ hnil => ?_, fun _ => hrd⟩
        (fun _ => her) h.evtWrite
      · rw [List.length_append, List.length_drop]
        omega
      · have := congrArg List.length (List.append_eq_nil_iff.mp hnil).1
        rw [List.length_drop, List.length_nil] at this
        omega
    case isFalse hge =>
      have hmin : min a.length len = a.length := by omega
      rw [hmin, List.take_append, List.take_of_length_le (by omega : a.length ≤ len), List.drop_append,
        List.drop_eq_nil_of_le (by omega : a.length ≤ len), List.nil_append]
      exact readB_holds { bip with aStart := bip.aStart + a.length } hr.swap
        (List.length_pos_iff.mp hapos) (by omega) hrd her h.evtWrite

end Twm.Adb.Win32
