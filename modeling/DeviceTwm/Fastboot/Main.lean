import DeviceTwm.Lib.Strtoul
import DeviceTwm.BootImg.Cmdline
import DeviceTwm.Fastboot.Commands

/-!
# The command line of `fastboot` (`fastboot.c`)

`main` reads its arguments one after the other and puts actions into the queue. Only when it has come to
the end of them does it open the device. An argument that it cannot make sense of, or a file that is not
there, ends the program before that (`Exit`).

* A word is a string of `argv`, without its zero.
* `Host`: what the calls that read files, packages and the environment return.
* `argument`: the body of the loop, for one argument and the words after it; it returns how many of
  these it takes.
* `Fault` and `Trap`: the code leaves its arrays, or gives `printf` no argument.
-/

open Lib

namespace Twm.Fastboot.Main

open Queue (Request mkmsg queueAction infoLines)
open BootImg.Fastboot (Trap loadBootableImage)
open Twm.Adb (cstr)

abbrev Word := List UInt8

abbrev Actions := List Queue.Action

/-- Why `main` ends without a queue. -/
inductive Exit
  | usage
  /-- `devices` was asked for. -/
  | devices
  | die (message : List UInt8)
  /-- `boot` has no image: 1 is returned. -/
  | noImage
  | fault (f : Fault)
  | trap (t : Trap)

structure Host where
  /-- `load_file`. -/
  loadFile : Word → Option (List UInt8)
  /-- The entries of a package, for `init_zipfile` and `unzip_file`. -/
  package : List UInt8 → Option (Word → Option (List UInt8))
  calloc : Nat → Bool
  /-- `getenv("ANDROID_PRODUCT_OUT")`. -/
  productOut : Option Word
  /-- `getenv("ANDROID_SERIAL")`. -/
  androidSerial : Option Word
  /-- `get_my_path`. -/
  myPath : Word
  /-- The bits of an `unsigned long`. -/
  w : Nat

/-- The variables that the options set. -/
structure Settings where
  wantsWipe : Bool
  wantsReboot : Bool
  wantsRebootBootloader : Bool
  pageSize : Nat
  baseAddr : Nat
  serial : Option Word
  product : Option Word
  cmdline : Option Word
  vendorId : Nat

def Settings.init (h : Host) : Settings where
  wantsWipe := false
  wantsReboot := false
  wantsRebootBootloader := false
  pageSize := 2048
  baseAddr := 0x10000000
  serial := h.androidSerial
  product := none
  cmdline := none
  vendorId := 0

/-! ## What is put into the queue -/

def fbQueueReboot : Except Fault Actions := do
  let a ← queueAction .command (str "reboot") []
  .ok [{ a with func := .cbDoNothing, msg := some (str "rebooting") }]

def fbQueueDownload (name : Word) (data : List UInt8) : Except Fault Actions := do
  let a ← queueAction (.download data) (str "") []
  let msg ← mkmsg (str "downloading '%s'") [.str name]
  .ok [{ a with msg := some msg }]

def fbQueueNotice : Except Fault Actions := do
  let a ← queueAction .notice (str "") []
  .ok [a]

/-- What `main` and its functions queue. -/
inductive Job
  | request (r : Request)
  | notice
  /-- A download, and the command for what was downloaded. -/
  | send (name : Word) (data : List UInt8) (cmd msg : Word)
  | command (cmd msg : Word)
  | reboot

def Job.queue : Job → Except Fault Actions
  | request r => r.queue
  | notice => fbQueueNotice
  | send name data cmd msg => do
    let download ← fbQueueDownload name data
    let command ← Queue.fbQueueCommand cmd msg
    .ok (download ++ command)
  | command cmd msg => Queue.fbQueueCommand cmd msg
  | reboot => fbQueueReboot

/-- The end of the queue. -/
def put (j : Job) (q : Actions) : Except Exit Actions :=
  match j.queue with
  | .error f => .error (.fault f)
  | .ok as => .ok (q ++ as)

def putAll (q : Actions) : List Job → Except Exit Actions
  | [] => .ok q
  | j :: js => do putAll (← put j q) js

/-- A signature, and the command for it. -/
def signature (data : List UInt8) : Job :=
  .send (str "signature") data (str "signature") (str "installing signature")

def flash (ptn : Word) (data : List UInt8) : Job := .request (.flash ptn data)

/-! ## Files -/

/-- `sizeof(path)`, which is `PATH_MAX + 128`. -/
def pathSize : Nat := 4224

/-- The file of a partition. -/
def imageName (item : Word) : Option Word :=
  if item = str "boot" then some (str "boot.img")
  else if item = str "recovery" then some (str "recovery.img")
  else if item = str "system" then some (str "system.img")
  else if item = str "userdata" then some (str "userdata.img")
  else if item = str "info" then some (str "android-info.txt")
  else none

/-- A text printed to `path`. -/
def printPath (fmt : Word) (args : List Arg) (path : Word) : Except Exit Word :=
  match vsprintf fmt args >>= fun s => store pathSize (path ++ s) with
  | .error f => .error (.fault f)
  | .ok path => .ok path

/-- `find_item`. -/
def findItem (h : Host) (item : Word) (product : Option Word) : Except Exit (Option Word) :=
  match imageName item with
  | none => .ok none
  | some fn =>
    match product with
    | some product => do
      .ok (some (← printPath (str "../../../target/product/%s/%s") [.str product, .str fn] h.myPath))
    | none =>
      match h.productOut with
      | none | some [] => .error (.die (str "neither -p product specified nor ANDROID_PRODUCT_OUT set"))
      | some dir => do .ok (some (← printPath (str "%s/%s") [.str dir, .str fn] []))

/-- `die`, with a text of the user in it. -/
def dieWith (pre arg post : Word) : Exit := .die (pre ++ arg ++ post)

/-- A file that has to be there. -/
def load (h : Host) (fname : Word) (e : Exit) : Except Exit (List UInt8) :=
  match h.loadFile fname with
  | none => .error e
  | some data => .ok data

/-- The file of an item; `find_item` knows it. -/
def itemPath (h : Host) (item : Word) (product : Option Word) (e : Exit) : Except Exit Word := do
  match ← findItem h item product with
  | none => .error e
  | some fname => .ok fname

/-- The name of the signature of an image. -/
def sigName (fn : Word) : Option Word :=
  if str ".img" <:+ fn then some (fn.take (fn.length - 4) ++ str ".sig") else none

/-- `do_send_signature`. -/
def doSendSignature (h : Host) (fn : Word) (q : Actions) : Except Exit Actions :=
  match (sigName fn).bind h.loadFile with
  | none => .ok q
  | some data => put (signature data) q

def queueInfoDump (q : Actions) : Except Exit Actions :=
  putAll q [.notice, .request (.getvar (str "version-bootloader")),
    .request (.getvar (str "version-baseband")), .request (.getvar (str "serialno")), .notice]

/-- `setup_requirements`. -/
def setupRequirements (data : List UInt8) (q : Actions) : Except Exit Actions :=
  putAll q ((infoLines [] data).map .request)

/-! ## `flashall` and `update` -/

/-- A file of `do_flashall` that was loaded. -/
def flashItem (h : Host) (item fname : Word) (data : List UInt8) (q : Actions) :
    Except Exit Actions := do
  let q ← doSendSignature h fname q
  put (flash item data) q

/-- `recovery.img`, which may be missing. -/
def ifThere (data : Option (List UInt8)) (q : Actions) (k : List UInt8 → Except Exit Actions) :
    Except Exit Actions :=
  match data with
  | none => .ok q
  | some data => k data

/-- `do_flashall`. -/
def doFlashall (h : Host) (product : Option Word) (q : Actions) : Except Exit Actions := do
  let q ← queueInfoDump q
  let fname ← itemPath h (str "info") product (.die (str "cannot find android-info.txt"))
  let data ← load h fname (.die (str "could not load android-info.txt"))
  let q ← setupRequirements data q
  let fname ← itemPath h (str "boot") product (.die (str "could not load boot.img"))
  let data ← load h fname (.die (str "could not load boot.img"))
  let q ← flashItem h (str "boot") fname data q
  let fname ← itemPath h (str "recovery") product (.die (str "could not load recovery.img"))
  let q ← ifThere (h.loadFile fname) q fun data => flashItem h (str "recovery") fname data q
  let fname ← itemPath h (str "system") product (.die (str "could not load system.img"))
  let data ← load h fname (.die (str "could not load system.img"))
  flashItem h (str "system") fname data q

/-- `do_update_signature`. -/
def doUpdateSignature (zip : Word → Option (List UInt8)) (fn : Word) (q : Actions) :
    Except Exit Actions :=
  match zip fn with
  | none => .ok q
  | some data => put (signature data) q

/-- An image of a package. -/
def updateItem (zip : Word → Option (List UInt8)) (item : Word) (data : List UInt8)
    (q : Actions) : Except Exit Actions := do
  let q ← doUpdateSignature zip (item ++ str ".sig") q
  put (flash item data) q

/-- The requirements of a package. -/
def packageInfo (zip : Word → Option (List UInt8)) : Except Exit (List UInt8) :=
  match zip (str "android-info.txt") with
  | some data => .ok data
  | none =>
    -- fallback for older zipfiles
    match zip (str "android-product.txt") with
    | none | some [] =>
      .error (.die (str "update package has no android-info.txt or android-product.txt"))
    | some data => .ok (str "board=" ++ cstr data ++ str "version-baseband=0.66.04.19\n")

/-- `do_update`. -/
def doUpdate (h : Host) (fn : Word) (q : Actions) : Except Exit Actions := do
  let q ← queueInfoDump q
  let zdata ← load h fn (dieWith (str "failed to load '") fn (str "'"))
  match h.package zdata with
  -- the text has a `%s`, and `die` is given no argument for it
  | none => .error (.fault .conversion)
  | some zip => do
    let q ← setupRequirements (← packageInfo zip) q
    match zip (str "boot.img") with
    | none => .error (.die (str "update package missing boot.img"))
    | some data => do
      let q ← updateItem zip (str "boot") data q
      let q ← ifThere (zip (str "recovery.img")) q fun data => updateItem zip (str "recovery") data q
      match zip (str "system.img") with
      | none => .error (.die (str "update package missing system.img"))
      | some data => updateItem zip (str "system") data q

/-! ## The arguments -/

/-- The name of a file as `load_bootable_image` has it. -/
def ofWord (s : Word) : String := String.ofList (s.map fun b => Char.ofNat b.toNat)

/-- `load_bootable_image`; `none`: it returns 0. -/
def bootableImage (h : Host) (s : Settings) (kernel ramdisk : Option Word) :
    Except Exit (Option (List UInt8)) :=
  match loadBootableImage (fun fn => h.loadFile (str fn)) h.calloc s.pageSize s.baseAddr
      (kernel.map ofWord) (ramdisk.map ofWord) s.cmdline with
  | .error t => .error (.trap t)
  | .ok (.error _) => .ok none
  | .ok (.ok data) => .ok (some data)

/-- Whether `strtoul` takes the text to its end. -/
def wholeNumber (s : Word) : Bool :=
  let r := radix 0 (sign (s.dropWhile isSpace)).2
  s.isEmpty || !r.2.isEmpty && r.2.all fun c => digitVal c < r.1

/-- What an argument leaves: the variables, the queue, and how many of the words after it were
taken. -/
abbrev Taken := Except Exit (Settings × Actions × Nat)

/-- `require(2)`. -/
def require2 (rest : List Word) (k : Word → Taken) : Taken :=
  match rest with
  | [] => .error .usage
  | val :: _ => k val

/-- The name of the file that is flashed, and how many words were taken. -/
def flashFile (h : Host) (s : Settings) (pname : Word) : List Word → Except Exit (Word × Nat)
  | [] => do
    .ok (← itemPath h pname s.product
      (dieWith (str "cannot determine image filename for '") pname (str "'")), 1)
  | fname :: _ => .ok (fname, 2)

/-- The body of the loop of `main`, from `getvar` on. -/
def command (h : Host) (s : Settings) (q : Actions) (arg : Word) (rest : List Word) : Taken :=
  if arg = str "getvar" then
    require2 rest fun val => do .ok (s, ← put (.request (.getvar val)) q, 1)
  else if arg = str "erase" then
    require2 rest fun val => do .ok (s, ← put (.request (.erase val)) q, 1)
  else if arg = str "signature" then
    require2 rest fun val => do
      let data ← load h val (dieWith (str "could not load '") val (str "'"))
      if data.length ≠ 256 then .error (.die (str "signature must be 256 bytes"))
      else .ok (s, ← put (signature data) q, 1)
  else if arg = str "reboot" then .ok ({ s with wantsReboot := true }, q, 0)
  else if arg = str "reboot-bootloader" then .ok ({ s with wantsRebootBootloader := true }, q, 0)
  else if arg = str "continue" then do
    .ok (s, ← put (.command (str "continue") (str "resuming boot")) q, 0)
  else if arg = str "boot" then do
    match ← bootableImage h s rest[0]? rest[1]? with
    | none => .error .noImage
    | some data => .ok (s, ← put (.send (str "boot.img") data (str "boot") (str "booting")) q,
        min 2 rest.length)
  else if arg = str "flash" then
    require2 rest fun pname => do
      let (fname, n) ← flashFile h s pname rest.tail
      let data ← load h fname (dieWith (str "cannot load '") fname (str "'\n"))
      .ok (s, ← put (flash pname data) q, n)
  else if arg = str "flash:raw" then
    match rest with
    | pname :: kname :: more => do
      match ← bootableImage h s (some kname) more[0]? with
      | none => .error (.die (str "cannot load bootable image"))
      | some data => .ok (s, ← put (flash pname data) q, 2 + min 1 more.length)
    | _ => .error .usage
  else if arg = str "flashall" then do
    .ok ({ s with wantsReboot := true }, ← doFlashall h s.product q, 0)
  else if arg = str "update" then do
    match rest with
    | [] => .ok ({ s with wantsReboot := true }, ← doUpdate h (str "update.zip") q, 0)
    | fn :: _ => .ok ({ s with wantsReboot := true }, ← doUpdate h fn q, 1)
  else if arg = str "oem" then do .ok (s, ← put (.request (.oem rest)) q, rest.length)
  else .error .usage

/-- The body of the loop of `main`. -/
def argument (h : Host) (s : Settings) (q : Actions) (arg : Word) (rest : List Word) : Taken :=
  if arg = str "-w" then .ok ({ s with wantsWipe := true }, q, 0)
  else if arg = str "-b" then
    require2 rest fun val => .ok ({ s with baseAddr := strtoul h.w 16 val % 2 ^ 32 }, q, 1)
  else if arg = str "-n" then
    require2 rest fun val =>
      let pageSize := strtoul h.w 0 val % 2 ^ 32
      if pageSize = 0 then .error (.die (str "invalid page size"))
      else .ok ({ s with pageSize := pageSize }, q, 1)
  else if arg = str "-s" then
    require2 rest fun val => .ok ({ s with serial := some val }, q, 1)
  else if arg = str "-p" then
    require2 rest fun val => .ok ({ s with product := some val }, q, 1)
  else if arg = str "-c" then
    require2 rest fun val => .ok ({ s with cmdline := some val }, q, 1)
  else if arg = str "-i" then
    require2 rest fun val =>
      let n := strtoul h.w 0 val
      if ¬ wholeNumber val ∨ 2 ^ 16 ≤ n then
        .error (dieWith (str "invalid vendor id '") val (str "'"))
      else .ok ({ s with vendorId := n }, q, 1)
  else command h s q arg rest

/-- The loop of `main`; `skip` words were taken already. -/
def mainLoop (h : Host) (s : Settings) (q : Actions) :
    Nat → List Word → Except Exit (Settings × Actions)
  | _, [] => .ok (s, q)
  | skip + 1, _ :: argv => mainLoop h s q skip argv
  | 0, arg :: argv => do
    let (s, q, n) ← argument h s q arg argv
    mainLoop h s q n argv

/-- `-w`. -/
def wipe (s : Settings) (q : Actions) : Except Exit Actions :=
  if s.wantsWipe then
    putAll q [.request (.erase (str "userdata")), .request (.erase (str "cache"))]
  else .ok q

/-- The end of `main`, before `open_device`. -/
def finish (s : Settings) (q : Actions) : Except Exit Actions := do
  let q ← wipe s q
  if s.wantsReboot then put .reboot q
  else if s.wantsRebootBootloader then
    put (.command (str "reboot-bootloader") (str "rebooting into bootloader")) q
  else .ok q

/-- `main`, up to the queue; `argv` without the name of the program. -/
def main (h : Host) (argv : List Word) : Except Exit Actions :=
  match argv with
  | [] => .error .usage
  | arg :: _ =>
    if arg = str "devices" then .error .devices
    else do
      let (s, q) ← mainLoop h (Settings.init h) [] 0 argv
      finish s q

end Twm.Fastboot.Main
