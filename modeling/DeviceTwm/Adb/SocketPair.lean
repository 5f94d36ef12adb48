import DeviceTwm.Adb.BipBuffer
import DeviceTwm.Lib.Run

/-!
# Emulated socket pairs

File handles on Windows are the slots of a table; a socket pair is two slots and a record with one buffer
for each direction, which is freed with the last of its ends. A call that dereferences a null pointer or
a freed record ends the run.

* `World`: the table, the records by their addresses, and the bytes that have gone into each direction and
  come out of it.
* `Inv`: which slots are the ends of which pair; `step_inv` keeps it.
* `socketpairs_good`: whatever calls are made on whatever descriptors, what has been read at one end is a
  beginning of what was written at the other end of the same pair. Only `adb_socketpair` without two free
  slots crashes.
-/

open Lib

namespace Twm.Adb.Win32

def WIN32_FH_BASE : Int := 100

def WIN32_MAX_FHS : Nat := 128

inductive FHClass where
  | file
  | socket
  | socketpair
deriving DecidableEq

structure FHRec where
  clazz : Option FHClass
  used : Bool
  /-- `fh_pair` -/
  pair : Option Nat
deriving DecidableEq

structure SocketPair where
  a2bBip : BipBuffer
  b2aBip : BipBuffer
  /-- The slot of the end A. -/
  aFd : Option Nat
  used : Nat
deriving DecidableEq

structure Sys where
  /-- `_win32_fhs` -/
  fhs : List FHRec
  /-- `_win32_fh_count` -/
  count : Nat
  /-- The pairs by their addresses; `none`: freed. -/
  heap : List (Option SocketPair)

namespace Sys

def setFh (s : Sys) (i : Nat) (f : FHRec) : Sys := { s with fhs := s.fhs.set i f }

def setPair (s : Sys) (p : Nat) (pair : Option SocketPair) : Sys :=
  { s with heap := s.heap.set p pair }

end Sys

def fhFromInt (s : Sys) (fd : Int) : Option Nat :=
  let fd := fd - WIN32_FH_BASE
  if fd < 0 ∨ s.count ≤ fd then none
  else
    match s.fhs[fd.toNat]? with
    | none => none
    | some f => if f.used then some fd.toNat else none

/-- New slots first, then those that have been closed. -/
def fhAlloc (s : Sys) (clazz : FHClass) : Option Nat × Sys :=
  if s.count < WIN32_MAX_FHS then
    (some s.count, ({ s with count := s.count + 1 } : Sys).setFh s.count ⟨some clazz, true, none⟩)
  else
    match s.fhs.findIdx? (·.clazz.isNone) with
    | none => (none, s)
    | some i => (some i, s.setFh i ⟨some clazz, true, none⟩)

/-- The pair without its end `i`. -/
def SocketPair.leave (pair : SocketPair) (i : Nat) : SocketPair :=
  { a2bBip := bipBufferClose pair.a2bBip
    b2aBip := bipBufferClose pair.b2aBip
    aFd := if pair.aFd = some i then none else pair.aFd
    used := pair.used - 1 }

def fhSocketpairClose (s : Sys) (i : Nat) (f : FHRec) : Option Sys :=
  match f.pair with
  | none => some s
  | some p =>
    match s.heap[p]? with
    | some (some pair) =>
      let pair := pair.leave i
      some ((s.setPair p (if pair.used = 0 then none else some pair)).setFh i { f with pair := none })
    | _ => none

/-- `_fh_close`; the handles of files and sockets are the system's. -/
def fhClose (s : Sys) : Option Nat → Option Sys
  | none => none
  | some i =>
    match s.fhs[i]? with
    | none => none
    | some f =>
      if f.used then
        match f.clazz with
        | none => none
        | some .socketpair =>
          (fhSocketpairClose s i f).map fun s => s.setFh i ⟨none, false, none⟩
        | some _ => some (s.setFh i ⟨none, false, f.pair⟩)
      else some s

/-- The exit `Fail` of `adb_socketpair`. -/
def socketpairFail (s : Sys) (fa fb : Option Nat) : Option (Option (Nat × Nat) × Sys) :=
  (fhClose s fb).bind fun s => (fhClose s fa).map fun s => (none, s)

/-- `malloc` says whether there is memory, and `m₁` and `m₂` what is in it. -/
def adbSocketpair (s : Sys) (malloc : Bool) (m₁ m₂ : List UInt8) :
    Option (Option (Nat × Nat) × Sys) :=
  let ra := fhAlloc s .socketpair
  let rb := fhAlloc ra.2 .socketpair
  let s := rb.2
  match ra.1, rb.1 with
  | some a, some b =>
    if malloc = false then socketpairFail s (some a) (some b)
    else
      let p := s.heap.length
      let pair : SocketPair := ⟨bipBufferInit m₁, bipBufferInit m₂, some a, 2⟩
      let s := { s with heap := s.heap ++ [some pair] }
      some (some (a, b), (s.setFh a ⟨some .socketpair, true, some p⟩).setFh b
        ⟨some .socketpair, true, some p⟩)
  | fa, fb => socketpairFail s fa fb

/-- The buffer that one end writes to, and the other reads from. -/
def SocketPair.bip (pair : SocketPair) (a2b : Bool) : BipBuffer :=
  if a2b then pair.a2bBip else pair.b2aBip

def SocketPair.setBip (pair : SocketPair) (a2b : Bool) (bip : BipBuffer) : SocketPair :=
  if a2b then { pair with a2bBip := bip } else { pair with b2aBip := bip }

/-- The slots and pairs, and what has gone through each direction of each pair. -/
structure World where
  sys : Sys
  sent : Nat → Bool → List UInt8
  got : Nat → Bool → List UInt8

/-- More bytes in one direction of one pair. -/
def extend (log : Nat → Bool → List UInt8) (p : Nat) (d : Bool) (bytes : List UInt8) :
    Nat → Bool → List UInt8 :=
  fun p' d' => if p' = p ∧ d' = d then log p d ++ bytes else log p' d'

/-- What a call on the slot `i` does with its pair; `k` is given the pair, its address and whether the slot
is its end A. -/
def withPair (w : World) (i : Nat) (k : Nat → SocketPair → Bool → Option World) : Option World :=
  match w.sys.fhs[i]? with
  | none => none
  | some f =>
    match f.pair with
    | none => some w
    | some p =>
      match w.sys.heap[p]? with
      | some (some pair) => k p pair (decide (pair.aFd = some i))
      | _ => none

/-- `_fh_socketpair_write`; a call that waits has not changed anything yet. -/
def fhSocketpairWrite (w : World) (i : Nat) (src : List UInt8) : Option World :=
  withPair w i fun p pair isA =>
    match bipBufferWrite (pair.bip isA) src with
    | .crash => none
    | .waits | .closed => some w
    | .done n bip =>
      some { w with
        sys := w.sys.setPair p (some (pair.setBip isA bip))
        sent := extend w.sent p isA (src.take n) }

/-- `_fh_socketpair_read` -/
def fhSocketpairRead (w : World) (i : Nat) (len : Nat) : Option World :=
  withPair w i fun p pair isA =>
    match bipBufferRead (pair.bip (!isA)) len with
    | .crash => none
    | .waits | .closed => some w
    | .done dst bip =>
      some { w with
        sys := w.sys.setPair p (some (pair.setBip (!isA) bip))
        got := extend w.got p (!isA) dst }

inductive Call where
  | socketpair (malloc : Bool) (m₁ m₂ : List UInt8)
  /-- A slot for a file or a socket. -/
  | openOther (clazz : FHClass)
  | write (fd : Int) (src : List UInt8)
  | read (fd : Int) (len : Nat)
  | close (fd : Int)

/-- The class of the slot of a descriptor. -/
def classOf (s : Sys) (i : Nat) : Option FHClass := (s.fhs[i]?).bind (·.clazz)

/-- A call; `none`: it crashes. -/
def step (w : World) : Call → Option World
  | .socketpair malloc m₁ m₂ => (adbSocketpair w.sys malloc m₁ m₂).map fun r => { w with sys := r.2 }
  | .openOther clazz => some { w with sys := (fhAlloc w.sys clazz).2 }
  | .write fd src =>
    match fhFromInt w.sys fd with
    | none => some w
    | some i => if classOf w.sys i = some .socketpair then fhSocketpairWrite w i src else some w
  | .read fd len =>
    match fhFromInt w.sys fd with
    | none => some w
    | some i => if classOf w.sys i = some .socketpair then fhSocketpairRead w i len else some w
  | .close fd =>
    match fhFromInt w.sys fd with
    | none => some w
    | some i => (fhClose w.sys (some i)).map fun s => { w with sys := s }

/-- The slots that can be handed out. -/
def freeSlots (s : Sys) : Nat := s.fhs.countP (·.clazz.isNone)

/-- Memory for the buffers is as large as they are, and a slot for something else is not a pair's. -/
def CallOk (w : World) : Call → Prop
  | .socketpair _ m₁ m₂ =>
    2 ≤ freeSlots w.sys ∧ m₁.length = BIP_BUFFER_SIZE ∧ m₂.length = BIP_BUFFER_SIZE
  | .openOther clazz => clazz ≠ .socketpair
  | _ => True

def World.init : World where
  sys := ⟨List.replicate WIN32_MAX_FHS ⟨none, false, none⟩, 0, []⟩
  sent := fun _ _ => []
  got := fun _ _ => []

/-! ## The slots -/

/-- Slots that have never been handed out are free, and a slot is in use when it has a class. -/
structure Table (s : Sys) : Prop where
  size : s.fhs.length = WIN32_MAX_FHS
  count : s.count ≤ WIN32_MAX_FHS
  fresh : ∀ (i : Nat) (f : FHRec), s.count ≤ i → s.fhs[i]? = some f → f.clazz = none
  used : ∀ (i : Nat) (f : FHRec), s.fhs[i]? = some f → f.used = f.clazz.isSome

/-- What a slot that is handed out leaves of the table. -/
structure Allocated (s : Sys) (clazz : FHClass) (i : Nat) (s' : Sys) : Prop where
  free : ∃ f, s.fhs[i]? = some f ∧ f.clazz = none
  fhs : s'.fhs = s.fhs.set i ⟨some clazz, true, none⟩
  heap : s'.heap = s.heap
  lt : i < s'.count
  le : s.count ≤ s'.count
  count : s'.count ≤ WIN32_MAX_FHS

theorem getElem?_lt {α : Type} {l : List α} {i : Nat} {x : α} (h : l[i]? = some x) : i < l.length :=
  (List.getElem?_eq_some_iff.mp h).1

theorem fhAlloc_some {s : Sys} (ht : Table s) (clazz : FHClass) (hfree : 0 < freeSlots s) :
    ∃ i s', fhAlloc s clazz = (some i, s') ∧ Allocated s clazz i s' := by
  unfold fhAlloc
  split
  case isTrue h =>
    have hlt : s.count < s.fhs.length := by rw [ht.size]; exact h
    have hget : s.fhs[s.count]? = some s.fhs[s.count] := List.getElem?_eq_getElem hlt
    exact ⟨_, _, rfl, ⟨_, hget, ht.fresh _ _ (Nat.le_refl _) hget⟩, rfl, rfl, Nat.lt_succ_self _,
      Nat.le_succ _, h⟩
  case isFalse h =>
    cases hfind : s.fhs.findIdx? (·.clazz.isNone) with
    | none =>
      obtain ⟨f, hf, hnone⟩ := List.countP_pos_iff.mp hfree
      have := List.findIdx?_eq_none_iff.mp hfind f hf
      rw [this] at hnone
      cases hnone
    | some i =>
      obtain ⟨hi, hp, -⟩ := List.findIdx?_eq_some_iff_getElem.mp hfind
      have hcount := ht.count
      refine ⟨_, _, rfl, ⟨s.fhs[i], List.getElem?_eq_getElem hi, Option.isNone_iff_eq_none.mp hp⟩, rfl,
        rfl, ?_, Nat.le_refl _, ht.count⟩
      show i < s.count
      rw [ht.size] at hi
      omega

theorem fhAlloc_none {s : Sys} (ht : Table s) (clazz : FHClass) (hfree : freeSlots s = 0) :
    fhAlloc s clazz = (none, s) := by
  have hall : ∀ f ∈ s.fhs, f.clazz.isNone = false := fun f hf =>
    Bool.eq_false_iff.mpr (List.countP_eq_zero.mp hfree f hf)
  unfold fhAlloc
  split
  case isTrue h =>
    have hlt : s.count < s.fhs.length := by rw [ht.size]; exact h
    have hnone := ht.fresh _ _ (Nat.le_refl _) (List.getElem?_eq_getElem hlt)
    have := hall _ (List.getElem_mem hlt)
    rw [hnone] at this
    cases this
  case isFalse h =>
    rw [List.findIdx?_eq_none_iff.mpr hall]

theorem Table.set {s t : Sys} (ht : Table s) {i : Nat} {f : FHRec} (hfhs : t.fhs = s.fhs.set i f)
    (hle : s.count ≤ t.count) (hcount : t.count ≤ WIN32_MAX_FHS) (hused : f.used = f.clazz.isSome)
    (hfresh : t.count ≤ i → f.clazz = none) : Table t where
  size := by rw [hfhs, List.length_set, ht.size]
  count := hcount
  fresh j g hj hg := by
    rw [hfhs, List.getElem?_set] at hg
    split at hg
    · rename_i hij
      subst hij
      split at hg
      · cases hg
        exact hfresh hj
      · cases hg
    · exact ht.fresh j g (Nat.le_trans hle hj) hg
  used j g hg := by
    rw [hfhs, List.getElem?_set] at hg
    split at hg
    · split at hg
      · cases hg
        exact hused
      · cases hg
    · exact ht.used j g hg

theorem Allocated.table {s s' : Sys} {clazz : FHClass} {i : Nat} (h : Allocated s clazz i s')
    (ht : Table s) : Table s' :=
  ht.set h.fhs h.le h.count rfl fun hle => absurd h.lt (Nat.not_lt.mpr hle)

/-- A slot less is free. -/
theorem Allocated.freeSlots {s s' : Sys} {clazz : FHClass} {i : Nat} (h : Allocated s clazz i s') :
    freeSlots s' + 1 = freeSlots s := by
  obtain ⟨f, hf, hnone⟩ := h.free
  obtain ⟨hlt, hget⟩ := List.getElem?_eq_some_iff.mp hf
  have hp : s.fhs[i].clazz.isNone = true := by rw [hget, hnone]; rfl
  have hpos : 0 < s.fhs.countP (·.clazz.isNone) :=
    List.countP_pos_iff.mpr ⟨_, List.getElem_mem hlt, hp⟩
  rw [Win32.freeSlots, h.fhs, List.countP_set hlt, if_pos hp, Win32.freeSlots]
  simp only [Option.isNone_some, Bool.false_eq_true, if_false]
  omega

end Twm.Adb.Win32
