import DeviceTwm.Lib.Run
import Mathlib.Data.List.Basic
import Mathlib.Tactic.Tauto

/-!
# Bulk transfers (`usb_linux.c` of `adb`)

A handle has one request block for each direction. `usb_bulk_write` submits the one that goes out and
waits until `urb_out_busy` is cleared; only the thread in `usb_bulk_read` takes completed requests from
the kernel (`REAPURB`), and it clears the flag. `usb_kick`, from any thread, discards both requests.
`usb_write` and `usb_read` cut what they are given into transfers of 4096 bytes.

* A step of a thread is what it does while it holds the lock of the handle, or one call of `REAPURB`.
* `Slot`: where a request block is in the kernel. `none` stands for a block that is submitted while the
  kernel still has it, or while its completion was not handled.
* `pthread_cond_timedwait` returns 0 or `ETIMEDOUT`, and the code takes neither for an error: what a
  transfer returns that failed is this number.
* `WriteInv`, `ReadInv`: where the request of each direction is, and what of it was taken.
-/

open Lib

namespace Twm.Adb.UsbBulk

/-! ## The calls -/

def ETIMEDOUT : Int := 110

def ENODEV : Int := 19

/-- The largest transfer. -/
def chunkSize : Nat := 4096

/-- What `usb_write` or `usb_read` does next. -/
inductive Next (α : Type)
  | transfer (c : α)
  | returns (c : α) (n : Int)

/-- A call of `usb_write`; `done` bytes are behind `data`. -/
structure WriteCall where
  data : List UInt8
  done : Nat
  needZero : Bool

namespace WriteCall

variable (c : WriteCall)

def xfer : Nat := min chunkSize (c.data.length - c.done)

/-- What the next transfer sends; nothing, if it is the 0-marker. -/
def chunk : List UInt8 := (c.data.drop c.done).take c.xfer

/-- The head of the loop, and what follows it. -/
def go : Next WriteCall := if c.done < c.data.length ∨ c.needZero then .transfer c else .returns c 0

/-- What is done with the result of a transfer. -/
def next (n : Int) : Next WriteCall :=
  if c.done < c.data.length then
    if n = c.xfer then { c with done := c.done + c.xfer : WriteCall }.go else .returns c (-1)
  else .returns c n

end WriteCall

/-- A call of `usb_read`, with the bytes that it has got. -/
structure ReadCall where
  len : Nat
  got : List UInt8

namespace ReadCall

variable (c : ReadCall)

def xfer : Nat := min chunkSize (c.len - c.got.length)

def go : Next ReadCall := if c.got.length < c.len then .transfer c else .returns c 0

/-- What is done with the result of a transfer that left `d` in the buffer; `timedOut`: `errno` is
`ETIMEDOUT`. -/
def next (n : Int) (d : List UInt8) (timedOut : Bool) : Next ReadCall :=
  if n = c.xfer then { c with got := c.got ++ d : ReadCall }.go
  else if timedOut then { c with got := if 0 < n then c.got ++ d else c.got : ReadCall }.go
  else .returns c (-1)

end ReadCall

/-! ## The handle -/

/-- What the kernel has written into a request block. -/
structure Urb where
  status : Int
  actual : Nat

/-- A request block in the kernel. -/
inductive Slot (α β : Type)
  | free
  | flying (request : α)
  | completed (answer : β)

/-- The thread that writes. -/
inductive Writer
  | idle
  /-- Before `usb_bulk_write`. -/
  | ready (c : WriteCall)
  /-- In `pthread_cond_timedwait`. -/
  | waiting (c : WriteCall)

/-- What `REAPURB` has come to. -/
inductive Reaped
  | interrupted
  | failed
  | outUrb
  /-- The bytes are in the buffer. -/
  | inUrb (d : List UInt8)

/-- The thread that reads. -/
inductive Reader
  | idle
  /-- Before `usb_bulk_read`. -/
  | ready (c : ReadCall)
  /-- In `REAPURB`. -/
  | reaping (c : ReadCall)
  /-- After it, before the lock. -/
  | reaped (c : ReadCall) (r : Reaped)

/-- A call of `usb_write` that has returned; the device took `sent` bytes. `late`: the wait that ended the
last of its transfers had timed out; the 0-marker is none of them. -/
structure Written where
  data : List UInt8
  sent : Nat
  late : Bool
  ret : Int

/-- A call of `usb_read` that has returned. -/
structure Read where
  len : Nat
  got : List UInt8
  ret : Int

structure Sys where
  zeroMask : Nat
  dead : Bool
  urbOutBusy : Bool
  urbInBusy : Bool
  urbOut : Urb
  urbIn : Urb
  kernelOut : Slot (List UInt8) Urb
  /-- A read of so many bytes; the status and the bytes. -/
  kernelIn : Slot Nat (Int × List UInt8)
  writer : Writer
  reader : Reader
  /-- Of the call of `usb_write` that has not returned. -/
  sent : Nat
  late : Bool
  /-- What the device has taken. -/
  taken : List UInt8
  /-- What it has sent in transfers without an error. -/
  given : List UInt8
  writes : List Written
  reads : List Read

namespace Sys

def init (zeroMask : Nat) : Sys where
  zeroMask := zeroMask
  dead := false
  urbOutBusy := false
  urbInBusy := false
  urbOut := ⟨0, 0⟩
  urbIn := ⟨0, 0⟩
  kernelOut := .free
  kernelIn := .free
  writer := .idle
  reader := .idle
  sent := 0
  late := false
  taken := []
  given := []
  writes := []
  reads := []

variable (s : Sys)

/-- The writer goes on with `usb_write`. -/
def write : Next WriteCall → Sys
  | .transfer c => { s with writer := .ready c }
  | .returns c n =>
    { s with
      writer := .idle
      writes := s.writes ++ [⟨c.data, s.sent, s.late, n⟩]
      sent := 0
      late := false }

/-- The reader goes on with `usb_read`. -/
def read : Next ReadCall → Sys
  | .transfer c => { s with reader := .ready c }
  | .returns c n => { s with reader := .idle, reads := s.reads ++ [⟨c.len, c.got, n⟩] }

/-- `usb_write` begins. -/
def usbWrite (data : List UInt8) : Sys :=
  s.write (WriteCall.go ⟨data, 0, s.zeroMask ≠ 0 ∧ data.length &&& s.zeroMask = 0⟩)

/-- `usb_read` begins. -/
def usbRead (len : Nat) : Sys := s.read (ReadCall.go ⟨len, []⟩)

/-- `usb_bulk_write` up to the wait; `ok`: the kernel takes the request. -/
def bulkWrite (c : WriteCall) (ok : Bool) : Option Sys :=
  let s := { s with urbOut := ⟨-1, 0⟩ }
  if s.dead then some (s.write (c.next (-1)))
  else if ok then
    match s.kernelOut with
    | .free => some { s with kernelOut := .flying c.chunk, urbOutBusy := true, writer := .waiting c }
    | _ => none
  else some (s.write (c.next (-1)))

/-- A turn of the loop of `usb_bulk_write`, after the wait. -/
def wake (c : WriteCall) (timedOut : Bool) : Sys :=
  let res := if timedOut then ETIMEDOUT else 0
  let ended := { s with late := if c.done < c.data.length then timedOut else s.late }
  if s.dead then ended.write (c.next res)
  else if s.urbOutBusy then s
  else ended.write (c.next (if s.urbOut.status = 0 then s.urbOut.actual else res))

/-- `usb_bulk_read` up to `REAPURB`. -/
def bulkRead (c : ReadCall) (ok timedOut : Bool) : Option Sys :=
  let s := { s with urbIn := ⟨-1, 0⟩ }
  if s.dead then some (s.read (c.next (-1) [] timedOut))
  else if ok then
    match s.kernelIn with
    | .free => some { s with kernelIn := .flying c.xfer, urbInBusy := true, reader := .reaping c }
    | _ => none
  else some (s.read (c.next (-1) [] timedOut))

/-- `REAPURB` returns; what it returns is written into the request block. -/
def reap (c : ReadCall) (r : Reaped) : Sys :=
  match r, s.kernelOut, s.kernelIn with
  | .outUrb, .completed u, _ =>
    { s with kernelOut := .free, urbOut := u, reader := .reaped c .outUrb }
  | .inUrb _, _, .completed (status, d) =>
    { s with kernelIn := .free, urbIn := ⟨status, d.length⟩, reader := .reaped c (.inUrb d) }
  | .failed, _, _ => { s with reader := .reaped c .failed }
  | _, _, _ => { s with reader := .reaped c .interrupted }

/-- The loop of `usb_bulk_read`, after `REAPURB`. A failure of that is no time out. -/
def reaped (c : ReadCall) (timedOut : Bool) : Reaped → Sys
  | .interrupted => if s.dead then s.read (c.next (-1) [] false) else { s with reader := .reaping c }
  | .failed => s.read (c.next (-1) [] false)
  | .outUrb =>
    if s.dead then s.read (c.next (-1) [] timedOut)
    else { s with urbOutBusy := false, reader := .reaping c }
  | .inUrb d =>
    if s.dead then s.read (c.next (-1) [] timedOut)
    else { s with urbInBusy := false }.read
      (c.next (if s.urbIn.status = 0 then s.urbIn.actual else -1) d timedOut)

/-- The device has taken `actual` bytes of a request. -/
def completeOut (d : List UInt8) (status : Int) (actual : Nat) : Sys :=
  { s with
    kernelOut := .completed ⟨status, actual⟩
    taken := s.taken ++ d.take actual
    sent := s.sent + actual }

def completeIn (status : Int) (d : List UInt8) : Sys :=
  { s with
    kernelIn := .completed (status, d)
    given := if status = 0 then s.given ++ d else s.given }

/-- `DISCARDURB` for the request that goes out, of which the device has taken `actual` bytes. -/
def discardOut (actual : Nat) : Sys :=
  match s.kernelOut with
  | .flying d => s.completeOut d (-2) actual
  | _ => s

def discardIn (d : List UInt8) : Sys :=
  match s.kernelIn with
  | .flying _ => s.completeIn (-2) d
  | _ => s

/-- What `usb_kick` does to the handle. -/
def die : Sys :=
  { s with
    dead := true
    urbIn := { s.urbIn with status := -ENODEV }
    urbOut := { s.urbOut with status := -ENODEV }
    urbInBusy := false
    urbOutBusy := false }

/-- `usb_kick`, of a handle that can be written. -/
def usbKick (actual : Nat) (d : List UInt8) : Sys :=
  if s.dead then s else ((s.discardIn d).discardOut actual).die

end Sys

/-! ## Steps -/

inductive Step
  | usbWrite (data : List UInt8)
  | usbRead (len : Nat)
  /-- The writer enters `usb_bulk_write`. -/
  | bulkWrite (ok : Bool)
  /-- `pthread_cond_timedwait` returns. -/
  | wake (timedOut : Bool)
  /-- The reader enters `usb_bulk_read`. -/
  | bulkRead (ok timedOut : Bool)
  /-- `REAPURB` returns. -/
  | reap (r : Reaped)
  /-- The reader has the lock again. -/
  | reaped (timedOut : Bool)
  /-- The request that goes out comes to its end. -/
  | completeOut (status : Int) (actual : Nat)
  | completeIn (status : Int) (d : List UInt8)
  | usbKick (actual : Nat) (d : List UInt8)

/-- `none`: a request block is submitted that is still in use. -/
def step (s : Sys) : Step → Option Sys
  | .usbWrite data => some (s.usbWrite data)
  | .usbRead len => some (s.usbRead len)
  | .bulkWrite ok =>
    match s.writer with
    | .ready c => s.bulkWrite c ok
    | _ => some s
  | .wake timedOut =>
    match s.writer with
    | .waiting c => some (s.wake c timedOut)
    | _ => some s
  | .bulkRead ok timedOut =>
    match s.reader with
    | .ready c => s.bulkRead c ok timedOut
    | _ => some s
  | .reap r =>
    match s.reader with
    | .reaping c => some (s.reap c r)
    | _ => some s
  | .reaped timedOut =>
    match s.reader with
    | .reaped c r => some (s.reaped c timedOut r)
    | _ => some s
  | .completeOut status actual =>
    match s.kernelOut with
    | .flying d => some (s.completeOut d status actual)
    | _ => some s
  | .completeIn status d =>
    match s.kernelIn with
    | .flying _ => some (s.completeIn status d)
    | _ => some s
  | .usbKick actual d => some (s.usbKick actual d)

/-- What the threads and the kernel hold to: one call at a time on each thread, none of `usb_read` after
one that failed, and no more bytes than there were. -/
def StepOk (s : Sys) : Step → Prop
  | .usbWrite _ => s.writer = .idle
  | .usbRead _ => s.reader = .idle ∧ ∀ r ∈ s.reads, r.ret = 0
  | .completeOut _ actual => ∀ d, s.kernelOut = .flying d → actual ≤ d.length
  | .completeIn _ d => ∀ n, s.kernelIn = .flying n → d.length ≤ n
  | .usbKick actual d =>
    (∀ x, s.kernelOut = .flying x → actual ≤ x.length) ∧ ∀ n, s.kernelIn = .flying n → d.length ≤ n
  | _ => True

/-! ## What goes out -/

/-- The reader has the completion of the request that went out, and has not handled it. -/
def Reader.hasOut : Reader → Bool
  | .reaped _ .outUrb => true
  | _ => false

/-- No request is on its way out. -/
structure Quiet (s : Sys) : Prop where
  kernel : s.kernelOut = .free
  reader : s.reader.hasOut = false
  busy : s.urbOutBusy = false

/-- Where the request of a transfer is that had sent `base` bytes before. -/
inductive Underway (s : Sys) (c : WriteCall) (base : Nat) : Prop
  | flying (kernel : s.kernelOut = .flying c.chunk) (reader : s.reader.hasOut = false)
      (busy : s.urbOutBusy = true) (sent : s.sent = base)
  | completed (u : Urb) (kernel : s.kernelOut = .completed u) (reader : s.reader.hasOut = false)
      (busy : s.urbOutBusy = true) (sent : s.sent = base + u.actual)
  | reaped (kernel : s.kernelOut = .free) (reader : s.reader.hasOut = true)
      (busy : s.urbOutBusy = true) (sent : s.sent = base + s.urbOut.actual)
  | handled (kernel : s.kernelOut = .free) (reader : s.reader.hasOut = false)
      (busy : s.urbOutBusy = false) (sent : s.sent = base + s.urbOut.actual)

/-- The device has the bytes before the pointer. The last transfer is an exception, if it has as many
bytes as `ETIMEDOUT` is and the wait that ended it had timed out. -/
structure WriteCall.Valid (c : WriteCall) (sent : Nat) (late : Bool) : Prop where
  le : c.done ≤ c.data.length
  middle : c.done < c.data.length → sent = c.done ∧ chunkSize ∣ c.done
  last : c.done = c.data.length →
    sent = c.data.length ∨ sent ≤ c.data.length ∧ late = true ∧
      c.data.length % chunkSize = 110 ∧ c.data.length ≤ sent + 110

/-- The call of `usb_write` that has not returned. -/
def WriterInv (s : Sys) : Prop :=
  match s.writer with
  | .idle => s.sent = 0 ∧ (s.dead = false → Quiet s)
  | .ready c => c.Valid s.sent s.late ∧ (s.dead = false → Quiet s)
  | .waiting c => ∃ base, c.Valid base s.late ∧ base ≤ s.sent ∧ s.sent ≤ base + c.xfer ∧
      (s.dead = false → Underway s c base)

def Writer.data : Writer → List UInt8
  | .idle => []
  | .ready c | .waiting c => c.data

/-- The bytes of the calls that the device has taken. -/
def sentBytes (ws : List Written) : List UInt8 := ws.flatMap fun w => w.data.take w.sent

/-- What 0 means: the device has taken everything, but for bytes of the last transfer, if that has as many
as `ETIMEDOUT` is and the wait that ended it had timed out. -/
def Written.Ok (w : Written) : Prop :=
  w.sent ≤ w.data.length ∧
    (w.ret = 0 → w.sent = w.data.length ∨ w.late = true ∧ w.data.length % chunkSize = 110 ∧
      w.data.length ≤ w.sent + 110)

structure WriteInv (s : Sys) : Prop where
  writer : WriterInv s
  dead : s.dead = true → ∀ d, s.kernelOut ≠ .flying d
  taken : s.taken = sentBytes s.writes ++ s.writer.data.take s.sent
  writes : ∀ w ∈ s.writes, w.Ok

/-! ## What comes in -/

/-- The bytes of the calls of `usb_read`. -/
def gotBytes (rs : List Read) : List UInt8 := rs.flatMap Read.got

def Reader.got : Reader → List UInt8
  | .idle => []
  | .ready c | .reaping c | .reaped c _ => c.got

/-- What was received so far. -/
def Sys.received (s : Sys) : List UInt8 := gotBytes s.reads ++ s.reader.got

/-- A transfer is on its way in, or has ended and was not handled. -/
def Incoming (s : Sys) (c : ReadCall) : Prop :=
  s.kernelIn = .flying c.xfer ∧ s.given = s.received ∨
    ∃ status d, s.kernelIn = .completed (status, d) ∧ d.length ≤ c.xfer ∧
      s.given = s.received ++ if status = 0 then d else []

/-- The call of `usb_read` that has not returned, if the handle is open. -/
def ReaderInv (s : Sys) : Prop :=
  match s.reader with
  | .idle => (∀ r ∈ s.reads, r.ret = 0) → s.kernelIn = .free ∧ s.given = s.received
  | .ready c => c.got.length < c.len ∧ s.kernelIn = .free ∧ s.given = s.received
  | .reaping c => c.got.length < c.len ∧ Incoming s c
  | .reaped c (.inUrb d) => c.got.length < c.len ∧ s.kernelIn = .free ∧ s.urbIn.actual = d.length ∧
      d.length ≤ c.xfer ∧ s.given = s.received ++ if s.urbIn.status = 0 then d else []
  | .reaped c .failed => c.got.length < c.len
  | .reaped c _ => c.got.length < c.len ∧ Incoming s c

def Read.Ok (r : Read) : Prop := r.got.length ≤ r.len ∧ (r.ret = 0 → r.got.length = r.len)

def Reader.Fits : Reader → Prop
  | .idle => True
  | .ready c | .reaping c | .reaped c _ => c.got.length ≤ c.len

structure ReadInv (s : Sys) : Prop where
  reader : s.dead = false → ReaderInv s
  dead : s.dead = true → ∀ n, s.kernelIn ≠ .flying n
  fits : s.reader.Fits
  begins : s.received <+: s.given
  reads : ∀ r ∈ s.reads, r.Ok

end Twm.Adb.UsbBulk
