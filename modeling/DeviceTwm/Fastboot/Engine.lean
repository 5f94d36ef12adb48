import Mathlib.Data.List.DropRight
import DeviceTwm.Adb.SyncClient

/-!
# The queue of `fastboot` (`engine.c`, `fastboot.c`)

`flashall` and `update` queue what they will do: first a check for every requirement of
`android-info.txt`, then the images. `fb_execute_queue` goes through the queue and stops at the first
action that fails.

* A text is read as the C code reads it: a line ends at its newline or its first zero byte.
* The files, the package and the device are what `load_file`, `unzip_file` and the USB calls return.
* `Stop`: why there is no queue. `queue_action` prints into 64 bytes, whatever it prints.
-/

namespace Twm.Fastboot

open Twm.Adb (cstr)

/-- The bytes of a string of the source. -/
def ascii (s : String) : List UInt8 := s.toList.map fun c => UInt8.ofNat c.toNat

/-- Why there is no queue. -/
inductive Stop
  | die
  /-- More than `Action::cmd` holds was written to it. -/
  | overflow
  deriving DecidableEq

/-! ## Actions -/

inductive Op
  | download (data : List UInt8)
  | command
  | query
  | notice
  deriving DecidableEq

/-- `Action::func`. -/
inductive Func
  | cbDefault
  | cbRequire (value : List (List UInt8))
  | cbReject (value : List (List UInt8))
  | cbDisplay
  | cbDoNothing
  deriving DecidableEq

structure Action where
  op : Op
  cmd : List UInt8
  func : Func
  deriving DecidableEq

def fbQueueErase (ptn : String) : List Action := [⟨.command, ascii "erase:" ++ ascii ptn, .cbDefault⟩]

def fbQueueFlash (ptn : String) (data : List UInt8) : List Action :=
  [⟨.download data, [], .cbDefault⟩, ⟨.command, ascii "flash:" ++ ascii ptn, .cbDefault⟩]

def fbQueueDisplay (var : String) : List Action :=
  [⟨.query, ascii "getvar:" ++ ascii var, .cbDisplay⟩]

def fbQueueReboot : List Action := [⟨.command, ascii "reboot", .cbDoNothing⟩]

def fbQueueCommand (cmd : String) : List Action := [⟨.command, ascii cmd, .cbDefault⟩]

def fbQueueDownload (data : List UInt8) : List Action := [⟨.download data, [], .cbDefault⟩]

def fbQueueNotice : List Action := [⟨.notice, [], .cbDefault⟩]

/-- `sizeof(Action::cmd)`. -/
def cmdSize : Nat := 64

def fbQueueRequire (var : List UInt8) (invert : Bool) (value : List (List UInt8)) :
    Except Stop Action :=
  let cmd := ascii "getvar:" ++ var
  if cmd.length < cmdSize then
    .ok ⟨.query, cmd, if invert then .cbReject value else .cbRequire value⟩
  else .error .overflow

/-! ## `setup_requirements` -/

/-- `isspace`, in the C locale. -/
def isspace (b : UInt8) : Bool := b == 32 || (9 ≤ b && b ≤ 13)

def strip (s : List UInt8) : List UInt8 := (s.dropWhile isspace).rdropWhile isspace

/-- `strchr`: what is before the first `c`, and what is after it. -/
def strchr (c : UInt8) : List UInt8 → Option (List UInt8 × List UInt8)
  | [] => none
  | b :: s => if b = c then some ([], s) else (strchr c s).map fun (x, y) => (b :: x, y)

def MAX_OPTIONS : Nat := 32

/-- The loop of `setup_requirement_line` over the options, when `n` more fit the array. -/
def splitOptions : Nat → List UInt8 → List (List UInt8)
  | 0, s => [s]
  | n + 1, s =>
    match strchr 124 s with
    | none => [s]
    | some (x, y) => x :: splitOptions n y

/-- What `setup_requirement_line` gives to `fb_queue_require`. -/
structure Check where
  name : List UInt8
  invert : Bool
  value : List (List UInt8)
  deriving DecidableEq

/-- `setup_requirement_line` up to `fb_queue_require`; `none`: the line has no `=`. -/
def setupRequirementLine (line : List UInt8) : Option Check :=
  let (invert, line) :=
    if ascii "reject " <+: line then (true, line.drop 7)
    else if ascii "require " <+: line then (false, line.drop 8)
    else (false, line)
  match strchr 61 line with
  | none => none
  | some (name, rest) =>
    let val := (splitOptions (MAX_OPTIONS - 1) rest).map strip
    let name := strip (strip name)
    -- work around an unfortunate name mismatch
    let name := if name = ascii "board" then ascii "product" else name
    some ⟨name, invert, val.map strip⟩

/-- `setup_requirements`; `line` is what was read since the last newline. -/
def setupRequirements (line : List UInt8) : List UInt8 → Except Stop (List Action)
  | [] => .ok []
  | b :: s =>
    if b = 10 then do
      let check ← match setupRequirementLine (cstr line) with
        | none => .ok []
        | some q => do .ok [← fbQueueRequire q.name q.invert q.value]
      .ok (check ++ (← setupRequirements [] s))
    else setupRequirements (line ++ [b]) s

/-! ## `do_flashall` and `do_update` -/

/-- What is found of the files that are flashed. -/
structure Images where
  boot : Option (List UInt8)
  bootSig : Option (List UInt8)
  recovery : Option (List UInt8)
  recoverySig : Option (List UInt8)
  system : Option (List UInt8)
  systemSig : Option (List UInt8)

def queueInfoDump : List Action :=
  fbQueueNotice ++ fbQueueDisplay "version-bootloader" ++ fbQueueDisplay "version-baseband" ++
    fbQueueDisplay "serialno" ++ fbQueueNotice

/-- `do_send_signature` and `do_update_signature`. -/
def doSignature : Option (List UInt8) → List Action
  | none => []
  | some data => fbQueueDownload data ++ fbQueueCommand "signature"

/-- The images, with their signatures. -/
def flashImages (f : Images) : Except Stop (List Action) :=
  match f.boot, f.system with
  | some boot, some system =>
    .ok (doSignature f.bootSig ++ fbQueueFlash "boot" boot ++
      (match f.recovery with
        | none => []
        | some recovery => doSignature f.recoverySig ++ fbQueueFlash "recovery" recovery) ++
      doSignature f.systemSig ++ fbQueueFlash "system" system)
  | _, _ => .error .die

/-- Where the requirements come from. -/
inductive Source
  /-- `flashall`: the file, if it can be loaded. -/
  | flashall (info : Option (List UInt8))
  /-- `update`: `android-info.txt` and `android-product.txt` of the package. -/
  | update (info product : Option (List UInt8))

/-- The text that is given to `setup_requirements`. -/
def Source.text : Source → Except Stop (List UInt8)
  | .flashall none => .error .die
  | .flashall (some info) => .ok info
  | .update (some info) _ => .ok info
  | .update none none => .error .die
  | .update none (some product) =>
    -- fallback for older zipfiles
    if product.length < 1 then .error .die
    else .ok (ascii "board=" ++ cstr product ++ ascii "version-baseband=0.66.04.19\n")

/-- A run of `main` with `flashall` or `update`: `before` and `after` are the actions of the other
arguments. -/
structure Run where
  source : Source
  images : Images
  before : List Action
  after : List Action
  wipe : Bool

/-- The queue of a run: up to the requirements, and after them. -/
def Run.queue (r : Run) : Except Stop (List Action × List Action) := do
  let text ← r.source.text
  let requirements ← setupRequirements [] text
  let images ← flashImages r.images
  let wipe := if r.wipe then fbQueueErase "userdata" ++ fbQueueErase "cache" else []
  .ok (r.before ++ queueInfoDump ++ requirements, images ++ r.after ++ wipe ++ fbQueueReboot)

/-! ## `fb_execute_queue` -/

/-- What the device answers to a command: a text of the C code. -/
structure Device where
  reply : List UInt8 → List UInt8
  reply_ne : ∀ c, 0 ∉ reply c

/-- The body of the loop of `match`. -/
def matchOption (str val : List UInt8) : Bool :=
  if 1 < val.length ∧ val.getLast? = some 42 then val.dropLast.isPrefixOf str else val == str

def matchValue (str : List UInt8) (value : List (List UInt8)) : Bool := value.any (matchOption str)

/-- `cb_check`, when the device answered. -/
def cbCheck (resp : List UInt8) (value : List (List UInt8)) (invert : Bool) : Bool :=
  if invert then !matchValue resp value else matchValue resp value

/-- Whether the loop of `fb_execute_queue` goes on after an action; `ok`: the device acknowledged
it. -/
def goesOn (d : Device) (ok : Bool) (a : Action) : Bool :=
  match a.op, a.func with
  | .notice, _ => true
  | _, .cbDoNothing => true
  | .query, .cbRequire value => ok && cbCheck (d.reply a.cmd) value false
  | .query, .cbReject value => ok && cbCheck (d.reply a.cmd) value true
  | _, _ => ok

/-- `fb_execute_queue`: the actions that are begun. `oks` is whether the device acknowledges
each. -/
def fbExecuteQueue (d : Device) (oks : Nat → Bool) : List Action → List Action
  | [] => []
  | a :: as =>
    a :: if goesOn d (oks 0) a then fbExecuteQueue d (fun n => oks (n + 1)) as else []

end Twm.Fastboot
