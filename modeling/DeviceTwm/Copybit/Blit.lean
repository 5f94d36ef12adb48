/-!
# Blits (`libcopybit/copybit.cpp`)

`stretch_copybit` makes a request for each clip of the region, and hands them over to the display
driver with the ioctl `MSMFB_BLIT`, twelve at a time. Rectangles come as `int` edges and go into the
requests as unsigned corners and sizes. An `int` difference is the one of the 32-bit words.

The formats of `hardware.h` are an enumeration; `next` of the region is a list of clips.
-/

namespace Twm.Copybit

def MAX_DIMENSION : UInt32 := 4096

/-! ## What comes in -/

/-- The formats that the code knows, and any other. -/
inductive HalFormat
  | RGBA_8888 | RGBX_8888 | RGB_888 | RGB_565 | BGRA_8888 | RGBA_5551 | RGBA_4444
  | YCrCb_420_SP | YCbCr_422_SP | other
  deriving DecidableEq

/-- `copybit_image_t`, with what is read of its handle. -/
structure Image where
  w : UInt32
  h : UInt32
  format : HalFormat
  offset : UInt32
  fd : Int32
  deriving DecidableEq

/-- `copybit_rect_t`. -/
structure Rect where
  l : Int32
  t : Int32
  r : Int32
  b : Int32
  deriving DecidableEq

/-- `copybit_context_t`. -/
structure Ctx where
  mAlpha : UInt8
  mFlags : UInt8
  deriving DecidableEq

def COPYBIT_TRANSFORM_FLIP_H : UInt8 := 1
def COPYBIT_TRANSFORM_FLIP_V : UInt8 := 2
def COPYBIT_TRANSFORM_ROT_90 : UInt8 := 4

/-- The flag is set. -/
def Ctx.has (ctx : Ctx) (flag : UInt8) : Bool := ctx.mFlags &&& flag != 0

/-! ## What goes out -/

/-- `mdp_rect`. -/
structure MdpRect where
  x : UInt32
  y : UInt32
  w : UInt32
  h : UInt32
  deriving DecidableEq

/-- `mdp_img`. -/
structure MdpImg where
  width : UInt32
  height : UInt32
  format : UInt32
  offset : UInt32
  memory_id : Int32
  deriving DecidableEq

/-- `mdp_blit_req`. -/
structure MdpBlitReq where
  src : MdpImg
  dst : MdpImg
  src_rect : MdpRect
  dst_rect : MdpRect
  alpha : UInt32
  transp_mask : UInt32
  flags : UInt32
  deriving DecidableEq

def MDP_TRANSP_NOP : UInt32 := 0xffffffff

/-! ## The request for a clip -/

/-- What ends the process. -/
inductive Fault
  | divisionByZero
  /-- A slot past the end of the list. -/
  | overrun
  deriving DecidableEq

/-- The `int` factors are compared as they are; the product and the quotient are unsigned. -/
def MULDIV (a b : UInt32) (mul div : Int32) : Except Fault (UInt32 × UInt32) :=
  if mul ≠ div then
    if div = 0 then .error .divisionByZero
    else .ok (mul.toUInt32 * a / div.toUInt32, mul.toUInt32 * b / div.toUInt32)
  else .ok (a, b)

def intersect (lhs rhs : Rect) : Rect where
  l := max lhs.l rhs.l
  t := max lhs.t rhs.t
  r := min lhs.r rhs.r
  b := min lhs.b rhs.b

def getFormat : HalFormat → UInt32
  | .RGB_565 => 0
  | .RGBX_8888 => 11
  | .RGB_888 => 4
  | .RGBA_8888 => 9
  | .BGRA_8888 => 10
  | .YCrCb_420_SP => 2
  | .YCbCr_422_SP => 7
  | .RGBA_5551 | .RGBA_4444 | .other => 0xffffffff

def setImage (rhs : Image) : MdpImg where
  width := rhs.w
  height := rhs.h
  format := getFormat rhs.format
  offset := rhs.offset
  memory_id := rhs.fd

/-- The rectangle in the source, before it is mirrored. -/
def cropRect (ctx : Ctx) (dst src clip : Rect) : Except Fault MdpRect := do
  let rot := ctx.has COPYBIT_TRANSFORM_ROT_90
  let x := if rot then (clip.t - dst.t) + src.t else (clip.l - dst.l) + src.l
  let y := if rot then (dst.r - clip.r) + src.l else (clip.t - dst.t) + src.t
  let w := if rot then clip.b - clip.t else clip.r - clip.l
  let h := if rot then clip.r - clip.l else clip.b - clip.t
  let W := if rot then dst.b - dst.t else dst.r - dst.l
  let H := if rot then dst.r - dst.l else dst.b - dst.t
  let (x, w) ← MULDIV x.toUInt32 w.toUInt32 (src.r - src.l) W
  let (y, h) ← MULDIV y.toUInt32 h.toUInt32 (src.b - src.t) H
  return ⟨x, y, w, h⟩

/-- The flips, in the source image. -/
def mirror (ctx : Ctx) (image : MdpImg) (e : MdpRect) (padding : UInt32) : MdpRect :=
  let rot := ctx.has COPYBIT_TRANSFORM_ROT_90
  let e :=
    if ctx.has COPYBIT_TRANSFORM_FLIP_V then
      if rot then { e with x := image.width - (e.x + e.w) - padding }
      else { e with y := image.height - (e.y + e.h) }
    else e
  if ctx.has COPYBIT_TRANSFORM_FLIP_H then
    if rot then { e with y := image.height - (e.y + e.h) }
    else { e with x := image.width - (e.x + e.w) - padding }
  else e

def setRects (ctx : Ctx) (e : MdpBlitReq) (dst src scissor : Rect) (padding : UInt32) :
    Except Fault MdpBlitReq := do
  let clip := intersect scissor dst
  let src_rect ← cropRect ctx dst src clip
  return { e with
    dst_rect := ⟨clip.l.toUInt32, clip.t.toUInt32, (clip.r - clip.l).toUInt32,
      (clip.b - clip.t).toUInt32⟩
    src_rect := mirror ctx e.src src_rect padding }

def setInfos (ctx : Ctx) (req : MdpBlitReq) (flags : UInt32) : MdpBlitReq :=
  { req with
    alpha := ctx.mAlpha.toUInt32
    transp_mask := MDP_TRANSP_NOP
    flags := ctx.mFlags.toUInt32 ||| flags }

/-! ## `stretch_copybit` -/

structure Call where
  ctx : Ctx
  dst : Image
  src : Image
  dst_rect : Rect
  src_rect : Rect
  /-- The clips of the region, in the order of `next`. -/
  region : List Rect

namespace Call

variable (c : Call)

/-- The tests before the loop. An `int` edge is compared with an unsigned size as unsigned. -/
def accepted : Bool :=
  !(c.ctx.mAlpha < 255 && (c.src.format == .RGBA_8888 || c.src.format == .BGRA_8888 ||
      c.src.format == .RGBA_5551 || c.src.format == .RGBA_4444)) &&
    !(c.src_rect.l < 0 || c.src_rect.r.toUInt32 > c.src.w ||
      c.src_rect.t < 0 || c.src_rect.b.toUInt32 > c.src.h) &&
    !(c.src.w > MAX_DIMENSION || c.src.h > MAX_DIMENSION) &&
    !(c.dst.w > MAX_DIMENSION || c.dst.h > MAX_DIMENSION)

def bounds : Rect := ⟨0, 0, c.dst.w.toInt32, c.dst.h.toInt32⟩

/-- What a round of the loop writes into the slot `req`. -/
def request (req : MdpBlitReq) (clip : Rect) : Except Fault MdpBlitReq :=
  setRects c.ctx { setInfos c.ctx req 0 with dst := setImage c.dst, src := setImage c.src } c.dst_rect
    c.src_rect (intersect c.bounds clip) 0

end Call

/-- The sizes are unsigned. -/
def MdpBlitReq.empty (req : MdpBlitReq) : Bool :=
  req.src_rect.w ≤ 0 || req.src_rect.h ≤ 0 || req.dst_rect.w ≤ 0 || req.dst_rect.h ≤ 0

/-- `sizeof(list.req)/sizeof(list.req[0])`. -/
def maxCount : Nat := 12

structure ReqList where
  count : Nat
  req : Vector MdpBlitReq maxCount

/-- `errno` after a call that failed. -/
structure Errno where
  val : Int
  pos : 0 < val

/-- The answers of the ioctl; `none` is 0. -/
abbrev Ioctl := Nat → Option Errno

/-- The loop: its variables, and the lists that were submitted. -/
structure Loop where
  list : ReqList
  status : Int
  submitted : List (List MdpBlitReq)

def msmCopybit (ioctl : Ioctl) (s : Loop) : Loop :=
  { s with
    status :=
      match ioctl s.submitted.length with
      | none => 0
      | some e => -e.val
    submitted := s.submitted ++ [s.list.req.toList.take s.list.count] }

namespace Call

variable (c : Call) (ioctl : Ioctl)

/-- One round of the loop. -/
def round (s : Loop) (clip : Rect) : Except Fault Loop :=
  if h : s.list.count < maxCount then do
    let req ← c.request s.list.req[s.list.count] clip
    let s := { s with list := { s.list with req := s.list.req.set s.list.count req } }
    if req.empty then return s
    let s := { s with list := { s.list with count := s.list.count + 1 } }
    if s.list.count = maxCount then
      let s := msmCopybit ioctl s
      return { s with list := { s.list with count := 0 } }
    return s
  else .error .overrun

/-- The loop; with the fault that ends it, if any. -/
def loop (s : Loop) : List Rect → Loop × Option Fault
  | [] => (s, none)
  | clip :: region =>
    if s.status = 0 then
      match c.round ioctl s clip with
      | .error f => (s, some f)
      | .ok s => loop s region
    else (s, none)

/-- What a call leaves: the lists it submitted, and what it returns. -/
structure Result where
  submitted : List (List MdpBlitReq)
  status : Except Fault Int

def EINVAL : Int := 22

/-- `slots` is what is in the list before. -/
def stretchCopybit (slots : Vector MdpBlitReq maxCount) : Result :=
  if c.accepted then
    match c.loop ioctl ⟨⟨0, slots⟩, 0, []⟩ c.region with
    | (s, some f) => ⟨s.submitted, .error f⟩
    | (s, none) =>
      let s := if s.status = 0 ∧ s.list.count ≠ 0 then msmCopybit ioctl s else s
      ⟨s.submitted, .ok s.status⟩
  else ⟨[], .ok (-EINVAL)⟩

end Call

/-- `blit_copybit`: a stretch of the whole images. -/
def blitCopybit (ctx : Ctx) (dst src : Image) (region : List Rect) (ioctl : Ioctl)
    (slots : Vector MdpBlitReq maxCount) : Call.Result :=
  let c : Call :=
    { ctx := ctx
      dst := dst
      src := src
      dst_rect := ⟨0, 0, dst.w.toInt32, dst.h.toInt32⟩
      src_rect := ⟨0, 0, src.w.toInt32, src.h.toInt32⟩
      region := region }
  c.stretchCopybit ioctl slots

end Twm.Copybit
