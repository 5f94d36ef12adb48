import DeviceTwm.Copybit.SetRects
import DeviceTwm.Lib.Scaling
import DeviceTwm.Lib.SignedWords

/-!
# Where the source of a blit comes from

Along an axis of the source, a clip has an offset and a size in the destination rectangle, and the
request reads the scaled offset and the scaled size (`Axis.Mapped`). `set_rects` adds the edge of the
source rectangle to the offset before it scales, and under a rotation it adds the edge of the other
axis.

* `Axis.exact`: what `MULDIV` makes of these, when nothing wraps.
* `sourceMapped_iff`: the request reads what it should exactly if either edge is scaled to itself
  (`Axis.Good`).
-/

namespace Twm.Copybit

open Lib

/-- An axis of the source: the source rectangle has `size` points from `edge` on, the destination rectangle
`dst`, and a clip `count` of these from `offset` on. The code takes `origin` for the edge. -/
structure Axis where
  edge : Nat
  origin : Nat
  size : Nat
  dst : Nat
  offset : Nat
  count : Nat

namespace Axis

variable (a : Axis)

/-- No product wraps. -/
def Fits : Prop :=
  a.size = a.dst ∨ a.size * (a.offset + a.origin) < 2 ^ 32 ∧ a.size * a.count < 2 ^ 32

/-- The request reads `count'` points from `start` on, of a source with `extent` points. -/
structure Mapped (flip : Bool) (extent start count' : Nat) : Prop where
  fits : a.Fits
  count_eq : count' = a.count * a.size / a.dst
  start_eq : start =
    if flip then extent - (a.edge + a.offset * a.size / a.dst + count')
    else a.edge + a.offset * a.size / a.dst
  /-- It is the source rectangle that it reads, or the mirror image of it. -/
  inside : (if flip then extent - (a.edge + a.size) else a.edge) ≤ start ∧
    start + count' ≤ if flip then extent - a.edge else a.edge + a.size

/-- The origin that is scaled with the offset is as good as the edge. -/
def Good : Prop :=
  a.Fits ∧ a.edge * a.dst ≤ a.origin * a.size + a.offset * a.size % a.dst ∧
    a.origin * a.size + a.offset * a.size % a.dst < (a.edge + 1) * a.dst

instance : Decidable a.Fits := inferInstanceAs (Decidable (_ ∨ _))

instance : Decidable a.Good := inferInstanceAs (Decidable (_ ∧ _))

/-- The words of the axis: the factors, the offset with the origin, and the count. -/
structure Words (mul div : Int32) (off cnt : UInt32) : Prop where
  mul_eq : mul.toInt = a.size
  div_eq : div.toUInt32.toNat = a.dst
  off_eq : off.toNat = (a.offset + a.origin) % 2 ^ 32
  cnt_eq : cnt.toNat = a.count
  size_pos : 0 < a.size
  origin_lt : a.origin < 2 ^ 31
  count_pos : 0 < a.count
  within : a.offset + a.count ≤ a.dst

variable {a} {mul div : Int32} {off cnt : UInt32}

namespace Words

theorem dst_pos (h : a.Words mul div off cnt) : 0 < a.dst := by
  have := h.within
  have := h.count_pos
  omega

theorem size_lt (h : a.Words mul div off cnt) : a.size < 2 ^ 31 ∧ mul.toUInt32.toNat = a.size := by
  have hm := toNat_toUInt32 mul
  have hb := toInt_bounds mul
  have := h.mul_eq
  omega

theorem factors_eq_iff (h : a.Words mul div off cnt) : mul = div ↔ a.size = a.dst := by
  obtain ⟨-, hm⟩ := h.size_lt
  rw [← hm, ← h.div_eq, UInt32.toNat_inj]
  exact ⟨congrArg Int32.toUInt32, congrArg UInt32.toInt32⟩

/-- What `MULDIV` makes of the axis, when nothing wraps. -/
theorem exact (h : a.Words mul div off cnt) (hfits : a.Fits) :
    (scaled mul div off).toNat = a.size * (a.offset + a.origin) / a.dst ∧
      (scaled mul div cnt).toNat = a.count * a.size / a.dst := by
  obtain ⟨hlt, hm⟩ := h.size_lt
  have hpos := h.dst_pos
  have hwithin := h.within
  have horigin := h.origin_lt
  unfold scaled
  by_cases heq : mul = div
  · have hsize := h.factors_eq_iff.mp heq
    rw [if_pos heq, if_pos heq, h.off_eq, h.cnt_eq, hsize, Nat.mul_div_cancel_left _ hpos,
      Nat.mul_div_cancel _ hpos]
    exact ⟨Nat.mod_eq_of_lt (by omega), rfl⟩
  · obtain ⟨hoff, hcnt⟩ := hfits.resolve_left (fun hs => heq (h.factors_eq_iff.mpr hs))
    have hle : a.offset + a.origin ≤ a.size * (a.offset + a.origin) :=
      Nat.le_mul_of_pos_left _ h.size_pos
    have hsum : (a.offset + a.origin) % 2 ^ 32 = a.offset + a.origin :=
      Nat.mod_eq_of_lt (Nat.lt_of_le_of_lt hle hoff)
    rw [if_neg heq, if_neg heq, UInt32.toNat_div, UInt32.toNat_div, UInt32.toNat_mul, UInt32.toNat_mul,
      h.div_eq, h.off_eq, h.cnt_eq, hm, hsum, Nat.mod_eq_of_lt hoff, Nat.mod_eq_of_lt hcnt,
      Nat.mul_comm a.size a.count]
    exact ⟨rfl, rfl⟩

/-- The axis is mapped exactly if it is good, with or without a flip. -/
theorem mapped_iff (h : a.Words mul div off cnt) (flip : Bool) {extent : UInt32}
    (hextent : a.edge + a.size ≤ extent.toNat) :
    a.Mapped flip extent.toNat
        (if flip then extent - (scaled mul div off + scaled mul div cnt) else scaled mul div off).toNat
        (scaled mul div cnt).toNat ↔ a.Good := by
  have hpos := h.dst_pos
  have hpart := scaled_part_le (m := a.size) hpos h.within
  have hshift := scale_shifted_iff (s := a.edge) (a := a.origin) (o := a.offset) (m := a.size) hpos
  have hext := extent.toNat_lt
  constructor
  · intro hmap
    obtain ⟨hoff, hcnt⟩ := h.exact hmap.fits
    have hstart := hmap.start_eq
    refine ⟨hmap.fits, hshift.mp ?_⟩
    have hofflt := (scaled mul div off).toNat_lt
    rw [hcnt] at hstart
    cases flip with
    | false =>
      simp only [Bool.false_eq_true, if_false] at hstart
      rw [← hoff, hstart]
    | true =>
      simp only [if_true] at hstart
      rw [UInt32.toNat_sub, UInt32.toNat_add, hoff, hcnt] at hstart
      rw [hoff] at hofflt
      generalize a.size * (a.offset + a.origin) / a.dst = x at hofflt hstart ⊢
      generalize a.offset * a.size / a.dst = q at hpart hstart ⊢
      generalize a.count * a.size / a.dst = w at hpart hstart
      omega
  · rintro ⟨hfits, hgood⟩
    obtain ⟨hoff, hcnt⟩ := h.exact hfits
    have hstart := hshift.mpr hgood
    rw [hstart] at hoff
    cases flip with
    | false =>
      refine ⟨hfits, hcnt, ?_, ?_⟩
      · simpa using hoff
      · simp only [Bool.false_eq_true, if_false, hoff, hcnt]
        generalize a.offset * a.size / a.dst = q at hpart ⊢
        generalize a.count * a.size / a.dst = w at hpart ⊢
        omega
    | true =>
      have hval : (extent - (scaled mul div off + scaled mul div cnt)).toNat =
          extent.toNat - (a.edge + a.offset * a.size / a.dst + a.count * a.size / a.dst) := by
        rw [UInt32.toNat_sub, UInt32.toNat_add, hoff, hcnt]
        generalize a.offset * a.size / a.dst = q at hpart ⊢
        generalize a.count * a.size / a.dst = w at hpart ⊢
        omega
      refine ⟨hfits, hcnt, ?_, ?_⟩
      · simp only [if_true, hval, hcnt]
      · simp only [if_true, hval, hcnt]
        generalize a.offset * a.size / a.dst = q at hpart ⊢
        generalize a.count * a.size / a.dst = w at hpart ⊢
        omega

end Words

/-- The axis of the differences of edges, as `set_rects` takes them. -/
def ofEdges (lo hi origin d₀ d₁ p q c₀ c₁ : Int32) : Axis where
  edge := lo.toInt.toNat
  origin := origin.toInt.toNat
  size := (hi.toInt - lo.toInt).toNat
  dst := (d₁.toInt - d₀.toInt).toNat
  offset := (p.toInt - q.toInt).toNat
  count := (c₁.toInt - c₀.toInt).toNat

theorem words_ofEdges {lo hi origin d₀ d₁ p q c₀ c₁ : Int32} (hlo : 0 ≤ lo.toInt) (hsrc : lo < hi)
    (horigin : 0 ≤ origin.toInt) (hoff : q.toInt ≤ p.toInt) (hclip : c₀ < c₁)
    (hin : p.toInt - q.toInt + (c₁.toInt - c₀.toInt) ≤ d₁.toInt - d₀.toInt) :
    (ofEdges lo hi origin d₀ d₁ p q c₀ c₁).Words (hi - lo) (d₁ - d₀) ((p - q) + origin).toUInt32
      (c₁ - c₀).toUInt32 := by
  have hsrc := Int32.lt_iff_toInt_lt.mp hsrc
  have hclip := Int32.lt_iff_toInt_lt.mp hclip
  have hhi := toInt_bounds hi
  have hob := toInt_bounds origin
  have h₀ := toInt_bounds d₀
  have h₁ := toInt_bounds d₁
  constructor
  · have h := toNat_toUInt32 (hi - lo)
    have h' := toNat_sub_toUInt32 hi lo
    have hb := toInt_bounds (hi - lo)
    simp only [ofEdges]
    omega
  · have h := toNat_sub_toUInt32 d₁ d₀
    simp only [ofEdges]
    omega
  · have h := toNat_add_toUInt32 (p - q) origin
    have h' := toNat_toUInt32 (p - q)
    have h'' := toNat_sub_toUInt32 p q
    simp only [ofEdges]
    omega
  · have h := toNat_sub_toUInt32 c₁ c₀
    simp only [ofEdges]
    omega
  all_goals
    simp only [ofEdges]
    omega

end Axis

/-! ## The two axes of `set_rects` -/

variable (ctx : Ctx)

/-- Under a rotation the `x` of the source goes down the destination. -/
def Ctx.axisX (dst src clip : Rect) : Axis :=
  if ctx.has COPYBIT_TRANSFORM_ROT_90 then
    .ofEdges src.l src.r src.t dst.t dst.b clip.t dst.t clip.t clip.b
  else .ofEdges src.l src.r src.l dst.l dst.r clip.l dst.l clip.l clip.r

/-- Under a rotation the `y` of the source goes from the right of the destination to the left. -/
def Ctx.axisY (dst src clip : Rect) : Axis :=
  if ctx.has COPYBIT_TRANSFORM_ROT_90 then
    .ofEdges src.t src.b src.l dst.l dst.r dst.r clip.r clip.l clip.r
  else .ofEdges src.t src.b src.t dst.t dst.b clip.t dst.t clip.t clip.b

/-- The rectangles have points, the source is in its image, and the clip overlaps the destination. -/
structure Proper (image : MdpImg) (dst src scissor : Rect) : Prop where
  dst_x : dst.l < dst.r
  dst_y : dst.t < dst.b
  src_x : src.l < src.r
  src_y : src.t < src.b
  left : 0 ≤ src.l
  top : 0 ≤ src.t
  right : src.r.toInt ≤ image.width.toNat
  bottom : src.b.toInt ≤ image.height.toNat
  clip_x : (intersect scissor dst).l < (intersect scissor dst).r
  clip_y : (intersect scissor dst).t < (intersect scissor dst).b

namespace Proper

variable {ctx} {image : MdpImg} {dst src scissor : Rect}

/-- The clip is inside the destination rectangle. -/
theorem clip_edges (scissor dst : Rect) :
    (dst.l.toInt ≤ (intersect scissor dst).l.toInt ∧ dst.t.toInt ≤ (intersect scissor dst).t.toInt) ∧
      (intersect scissor dst).r.toInt ≤ dst.r.toInt ∧ (intersect scissor dst).b.toInt ≤ dst.b.toInt := by
  simp only [intersect, toInt_max, toInt_min]
  omega

theorem nonneg (h : Proper image dst src scissor) : 0 ≤ src.l.toInt ∧ 0 ≤ src.t.toInt :=
  ⟨Int32.le_iff_toInt_le.mp h.left, Int32.le_iff_toInt_le.mp h.top⟩

theorem wordsX (h : Proper image dst src scissor) :
    (ctx.axisX dst src (intersect scissor dst)).Words (src.r - src.l) (ctx.W dst)
      (ctx.x dst src (intersect scissor dst)).toUInt32 (ctx.W (intersect scissor dst)).toUInt32 := by
  obtain ⟨hl, ht⟩ := h.nonneg
  obtain ⟨⟨h₁, h₂⟩, h₃, h₄⟩ := clip_edges scissor dst
  unfold Ctx.axisX Ctx.x Ctx.W
  split
  · exact Axis.words_ofEdges hl h.src_x ht h₂ h.clip_y (by omega)
  · exact Axis.words_ofEdges hl h.src_x hl h₁ h.clip_x (by omega)

theorem wordsY (h : Proper image dst src scissor) :
    (ctx.axisY dst src (intersect scissor dst)).Words (src.b - src.t) (ctx.H dst)
      (ctx.y dst src (intersect scissor dst)).toUInt32 (ctx.H (intersect scissor dst)).toUInt32 := by
  obtain ⟨hl, ht⟩ := h.nonneg
  obtain ⟨⟨h₁, h₂⟩, h₃, h₄⟩ := clip_edges scissor dst
  unfold Ctx.axisY Ctx.y Ctx.H
  split
  · exact Axis.words_ofEdges ht h.src_y hl h₃ h.clip_x (by omega)
  · exact Axis.words_ofEdges ht h.src_y ht h₂ h.clip_y (by omega)

/-- The source rectangle ends inside the image. -/
theorem extent (ctx : Ctx) (h : Proper image dst src scissor) (clip : Rect) :
    (ctx.axisX dst src clip).edge + (ctx.axisX dst src clip).size ≤ image.width.toNat ∧
      (ctx.axisY dst src clip).edge + (ctx.axisY dst src clip).size ≤ image.height.toNat := by
  obtain ⟨hl, ht⟩ := h.nonneg
  have hx := Int32.lt_iff_toInt_lt.mp h.src_x
  have hy := Int32.lt_iff_toInt_lt.mp h.src_y
  have hr := h.right
  have hb := h.bottom
  unfold Ctx.axisX Ctx.axisY
  constructor
  · split <;> simp only [Axis.ofEdges] <;> omega
  · split <;> simp only [Axis.ofEdges] <;> omega

theorem divisible (h : Proper image dst src scissor) : Divisible ctx dst src := by
  have hx := mt (sub_eq_zero_iff dst.r dst.l).mp (Int32.ne_of_lt h.dst_x).symm
  have hy := mt (sub_eq_zero_iff dst.b dst.t).mp (Int32.ne_of_lt h.dst_y).symm
  unfold Divisible Ctx.W Ctx.H
  split
  · exact ⟨fun hz => absurd hz hy, fun hz => absurd hz hx⟩
  · exact ⟨fun hz => absurd hz hx, fun hz => absurd hz hy⟩

end Proper

/-- The source rectangle of a request corresponds to the clip, along both axes. -/
def SourceMapped (image : MdpImg) (dst src clip : Rect) (e : MdpRect) : Prop :=
  (ctx.axisX dst src clip).Mapped ctx.flipX image.width.toNat e.x.toNat e.w.toNat ∧
    (ctx.axisY dst src clip).Mapped ctx.flipY image.height.toNat e.y.toNat e.h.toNat

/-- `set_rects` makes the source rectangle correspond to the clip exactly if both edges of the source
rectangle are scaled to themselves, whatever the flags. -/
theorem sourceMapped_iff (ctx : Ctx) (e : MdpBlitReq) (dst src scissor : Rect)
    (h : Proper e.src dst src scissor) :
    ∃ req, setRects ctx e dst src scissor 0 = .ok req ∧
      (SourceMapped ctx e.src dst src (intersect scissor dst) req.src_rect ↔
        (ctx.axisX dst src (intersect scissor dst)).Good ∧
          (ctx.axisY dst src (intersect scissor dst)).Good) := by
  refine ⟨_, by rw [setRects_eq, if_pos h.divisible], ?_⟩
  obtain ⟨hx, hy⟩ := h.extent ctx (intersect scissor dst)
  have hmx := h.wordsX.mapped_iff ctx.flipX hx
  have hmy := h.wordsY.mapped_iff ctx.flipY hy
  rw [SourceMapped, mirror_eq]
  simp only [Ctx.crop, UInt32.sub_zero]
  exact and_congr hmx hmy

/-- A request between two images of 100 by 100 pixels. -/
def square : MdpBlitReq :=
  { blank with src := ⟨100, 100, 0, 0, 0⟩, dst := ⟨100, 100, 0, 0, 0⟩ }

/-- A source rectangle at the corner of the image, twice as large on screen. -/
theorem sourceMapped_iff_corner :
    ∃ req, setRects ⟨255, 0⟩ square ⟨0, 0, 40, 40⟩ ⟨0, 0, 20, 20⟩ ⟨10, 10, 30, 30⟩ 0 = .ok req ∧
      SourceMapped ⟨255, 0⟩ square.src ⟨0, 0, 40, 40⟩ ⟨0, 0, 20, 20⟩
        (intersect ⟨10, 10, 30, 30⟩ ⟨0, 0, 40, 40⟩) req.src_rect := by
  obtain ⟨req, hreq, hiff⟩ := sourceMapped_iff ⟨255, 0⟩ square ⟨0, 0, 40, 40⟩ ⟨0, 0, 20, 20⟩ ⟨10, 10, 30, 30⟩
    (by constructor <;> decide)
  exact ⟨req, hreq, hiff.mpr (by decide)⟩

/-- Elsewhere the left edge is scaled too: the request reads from column 10 on, not from 20. -/
theorem edge_scaled :
    ∃ req, setRects ⟨255, 0⟩ square ⟨0, 0, 40, 40⟩ ⟨20, 0, 40, 20⟩ ⟨0, 0, 40, 40⟩ 0 = .ok req ∧
      req.src_rect = ⟨10, 0, 20, 20⟩ ∧
      ¬ SourceMapped ⟨255, 0⟩ square.src ⟨0, 0, 40, 40⟩ ⟨20, 0, 40, 20⟩
        (intersect ⟨0, 0, 40, 40⟩ ⟨0, 0, 40, 40⟩) req.src_rect := by
  refine ⟨_, rfl, by decide, fun h => ?_⟩
  exact absurd h.1.start_eq (by decide)

end Twm.Copybit
