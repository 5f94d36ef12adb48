import DeviceTwm.Copybit.Blit

/-!
# `set_rects`

* `cropRect_eq`: the source rectangle is a scaled offset and a scaled size in either direction, unless
  `MULDIV` divides by zero, which depends on the two rectangles but not on the clip (`Divisible`).
* `request_eq`: the request for a clip.
-/

namespace Twm.Copybit

/-- What `MULDIV` makes of one value. -/
def scaled (mul div : Int32) (a : UInt32) : UInt32 :=
  if mul = div then a else mul.toUInt32 * a / div.toUInt32

theorem MULDIV_eq (a b : UInt32) (mul div : Int32) :
    MULDIV a b mul div =
      if div = 0 → mul = 0 then .ok (scaled mul div a, scaled mul div b)
      else .error .divisionByZero := by
  unfold MULDIV scaled
  by_cases hne : mul = div
  · subst hne
    simp
  · by_cases hz : div = 0
    · simp [hz, show mul ≠ 0 from hz ▸ hne]
    · simp [hne, hz]

variable (ctx : Ctx)

/-- The size of the destination rectangle along the `x` of the source. -/
def Ctx.W (dst : Rect) : Int32 :=
  if ctx.has COPYBIT_TRANSFORM_ROT_90 then dst.b - dst.t else dst.r - dst.l

/-- Along its `y`. -/
def Ctx.H (dst : Rect) : Int32 :=
  if ctx.has COPYBIT_TRANSFORM_ROT_90 then dst.r - dst.l else dst.b - dst.t

/-- Where the clip begins along the `x` of the source, from the edge of the destination rectangle, with
the origin that the code adds. -/
def Ctx.x (dst src clip : Rect) : Int32 :=
  if ctx.has COPYBIT_TRANSFORM_ROT_90 then (clip.t - dst.t) + src.t else (clip.l - dst.l) + src.l

def Ctx.y (dst src clip : Rect) : Int32 :=
  if ctx.has COPYBIT_TRANSFORM_ROT_90 then (dst.r - clip.r) + src.l else (clip.t - dst.t) + src.t

/-- `MULDIV` does not divide by zero. -/
def Divisible (dst src : Rect) : Prop :=
  (ctx.W dst = 0 → src.r - src.l = 0) ∧ (ctx.H dst = 0 → src.b - src.t = 0)

instance (dst src : Rect) : Decidable (Divisible ctx dst src) := inferInstanceAs (Decidable (_ ∧ _))

/-- The source rectangle of `cropRect`. -/
def Ctx.crop (dst src clip : Rect) : MdpRect where
  x := scaled (src.r - src.l) (ctx.W dst) (ctx.x dst src clip).toUInt32
  y := scaled (src.b - src.t) (ctx.H dst) (ctx.y dst src clip).toUInt32
  w := scaled (src.r - src.l) (ctx.W dst) (ctx.W clip).toUInt32
  h := scaled (src.b - src.t) (ctx.H dst) (ctx.H clip).toUInt32

theorem cropRect_eq (dst src clip : Rect) :
    cropRect ctx dst src clip =
      if Divisible ctx dst src then .ok (ctx.crop dst src clip) else .error .divisionByZero := by
  have h : cropRect ctx dst src clip = do
      let p ← MULDIV (ctx.x dst src clip).toUInt32 (ctx.W clip).toUInt32 (src.r - src.l) (ctx.W dst)
      let q ← MULDIV (ctx.y dst src clip).toUInt32 (ctx.H clip).toUInt32 (src.b - src.t) (ctx.H dst)
      return ⟨p.1, q.1, p.2, q.2⟩ := rfl
  rw [h, MULDIV_eq, MULDIV_eq]
  by_cases hx : ctx.W dst = 0 → src.r - src.l = 0
  · by_cases hy : ctx.H dst = 0 → src.b - src.t = 0
    · rw [if_pos hx, if_pos hy, if_pos ⟨hx, hy⟩]
      rfl
    · have hnot : ¬ Divisible ctx dst src := fun hd => hy hd.2
      rw [if_pos hx, if_neg hy, if_neg hnot]
      rfl
  · have hnot : ¬ Divisible ctx dst src := fun hd => hx hd.1
    rw [if_neg hx, if_neg hnot]
    rfl

/-- The destination rectangle for a clip. -/
def placed (clip : Rect) : MdpRect :=
  ⟨clip.l.toUInt32, clip.t.toUInt32, (clip.r - clip.l).toUInt32, (clip.b - clip.t).toUInt32⟩

/-- The source rectangle is mirrored along its `x`. -/
def Ctx.flipX : Bool :=
  if ctx.has COPYBIT_TRANSFORM_ROT_90 then ctx.has COPYBIT_TRANSFORM_FLIP_V
  else ctx.has COPYBIT_TRANSFORM_FLIP_H

/-- Along its `y`. -/
def Ctx.flipY : Bool :=
  if ctx.has COPYBIT_TRANSFORM_ROT_90 then ctx.has COPYBIT_TRANSFORM_FLIP_H
  else ctx.has COPYBIT_TRANSFORM_FLIP_V

theorem mirror_eq (image : MdpImg) (e : MdpRect) (padding : UInt32) :
    mirror ctx image e padding =
      { e with
        x := if ctx.flipX then image.width - (e.x + e.w) - padding else e.x
        y := if ctx.flipY then image.height - (e.y + e.h) else e.y } := by
  unfold mirror Ctx.flipX Ctx.flipY
  cases ctx.has COPYBIT_TRANSFORM_ROT_90 <;> cases ctx.has COPYBIT_TRANSFORM_FLIP_V <;>
    cases ctx.has COPYBIT_TRANSFORM_FLIP_H <;> rfl

theorem setRects_eq (e : MdpBlitReq) (dst src scissor : Rect) (padding : UInt32) :
    setRects ctx e dst src scissor padding =
      if Divisible ctx dst src then
        .ok { e with
          dst_rect := placed (intersect scissor dst)
          src_rect := mirror ctx e.src (ctx.crop dst src (intersect scissor dst)) padding }
      else .error .divisionByZero := by
  unfold setRects
  dsimp only
  rw [cropRect_eq]
  split <;> rfl

/-! ## The request for a clip -/

namespace Call

variable (c : Call) {clip : Rect} {req : MdpBlitReq} {f : Fault}

/-- The part of the destination rectangle that a clip leaves. -/
def part (clip : Rect) : Rect := intersect (intersect c.bounds clip) c.dst_rect

/-- The request for a clip. -/
def made (clip : Rect) : MdpBlitReq where
  src := setImage c.src
  dst := setImage c.dst
  src_rect := mirror c.ctx (setImage c.src) (c.ctx.crop c.dst_rect c.src_rect (c.part clip)) 0
  dst_rect := placed (c.part clip)
  alpha := c.ctx.mAlpha.toUInt32
  transp_mask := MDP_TRANSP_NOP
  flags := c.ctx.mFlags.toUInt32 ||| 0

/-- The request overwrites all of its slot. -/
theorem request_eq (req : MdpBlitReq) (clip : Rect) :
    c.request req clip =
      if Divisible c.ctx c.dst_rect c.src_rect then .ok (c.made clip)
      else .error .divisionByZero := by
  rw [request, setRects_eq]
  rfl

end Call

/-- An empty slot. -/
def blank : MdpBlitReq where
  src := ⟨0, 0, 0, 0, 0⟩
  dst := ⟨0, 0, 0, 0, 0⟩
  src_rect := ⟨0, 0, 0, 0⟩
  dst_rect := ⟨0, 0, 0, 0⟩
  alpha := 0
  transp_mask := 0
  flags := 0

end Twm.Copybit
