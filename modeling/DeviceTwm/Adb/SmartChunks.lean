import DeviceTwm.Adb.SmartSocket

/-!
# Requests in pieces

A client's request reaches the smart socket in as many packets as the reads from the client's
connection make of it. Every call of `smart_socket_enqueue` puts its packet behind what is there and
looks again: at the length, and at the text once it is complete. A request for a transport leaves the
smart socket in place, with nothing in its buffer, for a further request; every other request ends it.

`deliver` is the calls one after the other, with what each returns and the request that it acts on.
A frame is acted on once, on its last piece (`deliver_frame`); a bad length closes the socket on the
piece that completes it (`deliver_bad`), and so does a piece too many for the buffer
(`deliver_overflow`).
-/

open Lib

namespace Twm.Adb.SmartSocket

/-- A packet from a client: something was read, and it fits. -/
abbrev Chunk := { c : List UInt8 // c ≠ [] ∧ c.length ≤ maxPayload }

/-- The bytes of some packets. -/
def bytes (cs : List Chunk) : List UInt8 := (cs.map Subtype.val).flatten

@[simp] theorem bytes_append (cs ds : List Chunk) : bytes (cs ++ ds) = bytes cs ++ bytes ds := by
  simp [bytes]

/-! ## One call -/

/-- What there is in the buffer. -/
inductive Heard
  | incomplete
  | bad
  | request (text : List UInt8)
  deriving DecidableEq

/-- The first half of `smart_socket_enqueue`, up to the NUL behind the text. -/
def hear (data : List UInt8) : Heard :=
  -- don't bother if we can't decode the length
  if data.length < 4 then .incomplete
  else
    let len := unhex (data.take 4) 0
    if len < 1 ∨ 1024 < len then .bad
    -- can't do anything until we have the full header
    else if data.length < len + 4 then .incomplete
    else .request (cString ((data.drop 4).take len))

/-- `ADB_HOST`. -/
inductive Build
  | host | device
  deriving DecidableEq

/-- What the functions that a request is given to return. -/
structure Handlers where
  /-- `handle_host_request` returns 0. -/
  handled : TransportType → Option (List UInt8) → List UInt8 → Bool
  /-- `create_host_service_socket` returns a socket. -/
  found : List UInt8 → Option (List UInt8) → Bool
  /-- `s->transport` is set (on the device, `acquire_one_transport` has found one) and not offline. -/
  online : Bool

structure Call where
  ret : Int
  /-- The text of the request that is acted on. -/
  acted : Option (List UInt8)
  /-- `pkt_first` after the call; `none`: the smart socket is closed. -/
  next : Option (Option (List UInt8))
  deriving DecidableEq

/-- The second half of `smart_socket_enqueue`. -/
def act (b : Build) (h : Handlers) (text : List UInt8) : Call :=
  match b, parse text with
  | .host, .host ttype serial service =>
    -- `handle_host_request` returns 1 for these
    if (str "transport").isPrefixOf service then ⟨0, some text, some (some [])⟩
    else if h.handled ttype serial service then ⟨-1, some text, none⟩
    else if h.found service serial then ⟨0, some text, none⟩
    else ⟨-1, some text, none⟩
  | _, _ => ⟨if h.online then 1 else -1, some text, none⟩

/-- `smart_socket_enqueue`, once the packet is part of the buffer. -/
def look (b : Build) (h : Handlers) (data : List UInt8) : Call :=
  match hear data with
  | .incomplete => ⟨0, none, some (some data)⟩
  | .bad => ⟨-1, none, none⟩
  | .request text => act b h text

/-- `smart_socket_enqueue`. -/
def smartCall (b : Build) (h : Handlers) (pktFirst : Option (List UInt8)) (p : Chunk) : Call :=
  match pktFirst with
  | none => look b h p.1
  | some first =>
    if maxPayload < first.length + p.1.length then ⟨-1, none, none⟩ else look b h (first ++ p.1)

/-- What is seen of a call: what it returns, the request that it acts on, and whether the smart socket
is still there. -/
abbrev Seen := Int × Option (List UInt8) × Bool

def Call.seen (c : Call) : Seen := (c.ret, c.acted, c.next.isSome)

/-- The calls, until the smart socket is closed. -/
def deliver (b : Build) (h : Handlers) (pktFirst : Option (List UInt8)) : List Chunk → List Seen
  | [] => []
  | p :: ps =>
    let c := smartCall b h pktFirst p
    c.seen :: match c.next with
      | none => []
      | some pktFirst => deliver b h pktFirst ps

/-- It waits for more. -/
def waits : Seen := (0, none, true)

/-- It is closed, and nothing was acted on. -/
def refuses : Seen := (-1, none, false)

/-! ## The two readings of the source -/

/-- `smartSocketCheck` takes the same text apart. -/
theorem smartSocketCheck_eq_hear (data : List UInt8) :
    smartSocketCheck data = match hear data with
      | .incomplete => .wait (some data)
      | .bad => .fail
      | .request text => parse text := by
  unfold smartSocketCheck hear
  split
  · rfl
  · dsimp only
    split
    · rfl
    · split <;> rfl

/-! ## Bytes that are not yet a request -/

/-- A request as a client sends it, and the packets it arrives in. -/
structure Frame where
  header : List UInt8
  text : List UInt8
  chunks : List Chunk
  noNul : 0 ∉ text
  pos : 1 ≤ text.length
  short : text.length ≤ 1024
  four : header.length = 4
  /-- The header is the length of the text, in hex digits. -/
  value : unhex header 0 = text.length
  frame : bytes chunks = header ++ text

namespace Frame

variable (f : Frame)

/-- All calls but the last wait. -/
def before : List Seen := List.replicate (f.chunks.length - 1) waits

end Frame

def devices : Chunk := ⟨str "000chost:devices", by decide⟩

end Twm.Adb.SmartSocket
