import DeviceTwm.Lib.CString
import DeviceTwm.Lib.Strtoul

/-!
# The protocol of `fastboot` (`protocol.c`)

A command goes to the device, and the device answers with a status: `OKAY`, `FAIL`, `DATA` with the
number of bytes that it wants, or any number of `INFO` lines before one of these. The same
`check_response` reads the answer to a command, to a download and to the data after it.

* A call of `usb_read` or `usb_write` returns what the device makes of it; `none` stands for a call that
  has not returned yet.
* `Turn`: what the loop of `check_response` does with one status.
-/

open Lib

namespace Twm.Fastboot.Protocol

/-- The text of `ERROR`. -/
inductive Error
  | readFailed
  | malformed (r : Nat)
  | remote (text : List UInt8)
  | remoteFailure
  | tooLarge
  | unknownStatus
  | commandTooLarge
  | commandWrite
  | transfer
  | shortTransfer

def Error.text (strerror : String) : Error → List UInt8
  | readFailed => str ("status read failed (" ++ strerror ++ ")")
  | malformed r => str ("status malformed (" ++ toString r ++ " bytes)")
  | remote text => str "remote: " ++ text
  | remoteFailure => str "remote failure"
  | tooLarge => str "data size too large"
  | unknownStatus => str "unknown status code"
  | commandTooLarge => str "command too large"
  | commandWrite => str ("command write failed (" ++ strerror ++ ")")
  | transfer => str ("data transfer failure (" ++ strerror ++ ")")
  | shortTransfer => str "data transfer failure (short transfer)"

/-- What `usb_read` puts into `status`: it is asked for 64 bytes. -/
structure Status where
  bytes : List UInt8
  le : bytes.length ≤ 64

/-- The text after the code. `status` ends in a zero. -/
def Status.text (s : Status) : List UInt8 := cString (s.bytes.drop 4)

/-- A number stored to an `int`. -/
def int (n : Nat) : Int := Int.bmod n (2 ^ 32)

/-- What is returned: `closes` if `usb_close` was called, and the text of an `OKAY`. -/
structure Response where
  r : Int
  error : Option Error
  closes : Bool
  response : List UInt8

inductive Turn
  | again
  | returns (r : Response)

/-- `sprintf(ERROR, ..)`, `usb_close` and `return -1`. -/
def Response.fail (e : Error) : Response := ⟨-1, some e, true, []⟩

/-- The body of the loop of `check_response`, after `usb_read`; `none`: it returned a negative
number. `unsigned long` has `w` bits. -/
def checkStatus (w size : Nat) (dataOkay : Bool) : Option Status → Turn
  | none => .returns (.fail .readFailed)
  | some s =>
    if s.bytes.length < 4 then .returns (.fail (.malformed s.bytes.length))
    else if s.bytes.take 4 = str "INFO" then .again
    else if s.bytes.take 4 = str "OKAY" then .returns ⟨0, none, false, s.text⟩
    else if s.bytes.take 4 = str "FAIL" then
      .returns ⟨-1, some (if 4 < s.bytes.length then .remote s.text else .remoteFailure), false, []⟩
    else if s.bytes.take 4 = str "DATA" ∧ dataOkay then
      let dsize := strtoul w 16 s.text % 2 ^ 32
      if size < dsize then .returns (.fail .tooLarge) else .returns ⟨int dsize, none, false, []⟩
    else .returns (.fail .unknownStatus)

/-- `check_response`; also the reads that come after it. -/
def checkResponse (w size : Nat) (dataOkay : Bool) :
    List (Option Status) → Option (Response × List (Option Status))
  | [] => none
  | s :: reads =>
    match checkStatus w size dataOkay s with
    | .again => checkResponse w size dataOkay reads
    | .returns r => some (r, reads)

/-- The device: what the calls return, one after the other. `sent` are the buffers that it took in
full. -/
structure Usb where
  reads : List (Option Status)
  writes : List Int
  sent : List (List UInt8)

/-- `usb_write`. -/
def usbWrite (u : Usb) (buf : List UInt8) : Option (Int × Usb) :=
  match u.writes with
  | [] => none
  | r :: writes =>
    some (r, { u with writes := writes, sent := if r = buf.length then u.sent ++ [buf] else u.sent })

/-- `check_response` on the device. -/
def respond (w size : Nat) (dataOkay : Bool) (u : Usb) : Option (Response × Usb) :=
  (checkResponse w size dataOkay u.reads).map fun (r, reads) => (r, { u with reads := reads })

/-- The end of `_command_send`, when `size` bytes were sent. -/
def sendAck (w size : Nat) (u : Usb) : Option (Response × Usb) := do
  let (r, u) ← respond w 0 false u
  some ({ r with r := if r.r < 0 then -1 else size }, u)

/-- The part of `_command_send` after the device has named a size. -/
def sendData (w : Nat) (data : List UInt8) (size : Nat) (u : Usb) : Option (Response × Usb) :=
  if size = 0 then sendAck w size u
  else do
    let (r, u) ← usbWrite u (data.take size)
    if r < 0 then some (.fail .transfer, u)
    else if r ≠ size then some (.fail .shortTransfer, u)
    else sendAck w size u

/-- `_command_send`; `none` for the data is a null pointer. -/
def commandSend (w : Nat) (cmd : List UInt8) (data : Option (List UInt8)) (size : Nat) (u : Usb) :
    Option (Response × Usb) :=
  if 64 < cmd.length then some (⟨-1, some .commandTooLarge, false, []⟩, u)
  else do
    let (r, u) ← usbWrite u cmd
    if r ≠ cmd.length then some (.fail .commandWrite, u)
    else
      match data with
      | none => respond w size false u
      | some data => do
        let (r, u) ← respond w size true u
        if r.r < 0 then some ({ r with r := -1 }, u) else sendData w data r.r.toNat u

/-- `fb_command` and `fb_command_response`. -/
def fbCommand (w : Nat) (cmd : List UInt8) (u : Usb) : Option (Response × Usb) :=
  commandSend w cmd none 0 u

/-- What `%08x` prints, for numbers below `2 ^ 32`. -/
def hex8 (n : Nat) : List UInt8 := hex4 (n / 2 ^ 16) ++ hex4 (n % 2 ^ 16)

/-- The command of a download. -/
def download (size : Nat) : List UInt8 := str "download:" ++ hex8 size

/-- `fb_download_data`. -/
def fbDownloadData (w : Nat) (data : List UInt8) (u : Usb) : Option (Int × Usb) := do
  let (r, u) ← commandSend w (download data.length) (some data) data.length u
  some (if r.r < 0 then -1 else 0, u)

end Twm.Fastboot.Protocol
