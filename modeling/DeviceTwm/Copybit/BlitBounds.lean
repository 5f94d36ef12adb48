import DeviceTwm.Copybit.Batching
import DeviceTwm.Lib.SignedWords
import Mathlib

/-!
# Where the blits go

A rectangle stands for its points. A request should have points, all of them in the destination image,
in the destination rectangle and in its clip (`Inside`). `set_rects` intersects as signed edges and
stores an unsigned size, so an inverted intersection is a request with a very large size.

* `part_points`: the edges of the intersection are those of the intersection of the points.
* `inside_iff`: the destination of a request is inside exactly if the intersection is not inverted.
* `safe_iff`: no division by zero and only requests inside, in terms of what was passed.
-/

namespace Twm.Copybit

open Lib

def Rect.points (e : Rect) : Set (Int × Int) :=
  Set.Ico e.l.toInt e.r.toInt ×ˢ Set.Ico e.t.toInt e.b.toInt

def MdpRect.points (e : MdpRect) : Set (Int × Int) :=
  Set.Ico (e.x.toNat : Int) (e.x.toNat + e.w.toNat) ×ˢ Set.Ico (e.y.toNat : Int) (e.y.toNat + e.h.toNat)

def Image.points (e : Image) : Set (Int × Int) :=
  Set.Ico 0 (e.w.toNat : Int) ×ˢ Set.Ico 0 (e.h.toNat : Int)

theorem intersect_points (lhs rhs : Rect) :
    (intersect lhs rhs).points = lhs.points ∩ rhs.points := by
  simp only [Rect.points, intersect, toInt_max, toInt_min]
  rw [Set.prod_inter_prod, Set.Ico_inter_Ico, Set.Ico_inter_Ico]

namespace Call

variable (c : Call) {clip : Rect}

theorem accepted_dst (h : c.accepted = true) :
    c.dst.w.toNat ≤ MAX_DIMENSION.toNat ∧ c.dst.h.toNat ≤ MAX_DIMENSION.toNat := by
  simp only [accepted, Bool.and_eq_true, Bool.not_eq_true', Bool.or_eq_false_iff,
    decide_eq_false_iff_not, gt_iff_lt, UInt32.lt_iff_toNat_lt, not_lt] at h
  exact h.2

theorem bounds_points (h : c.accepted = true) : c.bounds.points = c.dst.points := by
  obtain ⟨hw, hh⟩ := c.accepted_dst h
  have hmax : MAX_DIMENSION.toNat = 4096 := rfl
  rw [Rect.points, Image.points, bounds, toInt_toInt32_of_lt (by omega), toInt_toInt32_of_lt (by omega)]
  rfl

theorem part_points (h : c.accepted = true) (clip : Rect) :
    (c.part clip).points = c.dst.points ∩ clip.points ∩ c.dst_rect.points := by
  rw [part, intersect_points, intersect_points, c.bounds_points h]

/-- The intersection is not inverted, and not empty. -/
def Overlaps (clip : Rect) : Prop :=
  (c.part clip).l < (c.part clip).r ∧ (c.part clip).t < (c.part clip).b

instance (clip : Rect) : Decidable (c.Overlaps clip) := inferInstanceAs (Decidable (_ ∧ _))

/-- The destination of the request for a clip is in order. -/
structure Inside (clip : Rect) (dst_rect : MdpRect) : Prop where
  nonempty : dst_rect.points.Nonempty
  image : dst_rect.points ⊆ c.dst.points
  dst : dst_rect.points ⊆ c.dst_rect.points
  clip : dst_rect.points ⊆ clip.points

end Call

/-! ## Sizes as unsigned words -/

section Axis

variable {l r : Int32}

theorem extent_of_lt (hl : 0 ≤ l.toInt) (h : l < r) :
    (l.toUInt32.toNat : Int) = l.toInt ∧
      (l.toUInt32.toNat : Int) + (r - l).toUInt32.toNat = r.toInt := by
  have hlt := Int32.lt_iff_toInt_lt.mp h
  have hx := toNat_toUInt32 l
  have hw := toNat_sub_toUInt32 r l
  have hlb := toInt_bounds l
  have hrb := toInt_bounds r
  omega

/-- The size of an inverted side. -/
theorem extent_of_not_lt (hl : 0 ≤ l.toInt) (h : ¬ l < r) (hne : l ≠ r) :
    (l.toUInt32.toNat : Int) + (r - l).toUInt32.toNat = r.toInt + 2 ^ 32 := by
  have hle := (not_congr Int32.lt_iff_toInt_lt).mp h
  have hne := (not_congr Int32.toInt_inj).mpr hne
  have hx := toNat_toUInt32 l
  have hw := toNat_sub_toUInt32 r l
  have hlb := toInt_bounds l
  have hrb := toInt_bounds r
  omega

theorem sub_toUInt32_eq_zero : (r - l).toUInt32 = 0 ↔ l = r := by
  rw [eq_comm (a := l), ← sub_eq_zero_iff]
  exact ⟨fun h => congrArg UInt32.toInt32 h, fun h => congrArg Int32.toUInt32 h⟩

end Axis

/-- The edges scale to nothing; the factors are compared as `int`s, the rest is unsigned. -/
def NoSource (mul div n : Int32) : Prop :=
  mul ≠ div ∧ mul.toInt * n.toInt % 2 ^ 32 < div.toInt % 2 ^ 32

instance (mul div n : Int32) : Decidable (NoSource mul div n) := inferInstanceAs (Decidable (_ ∧ _))

theorem scaled_eq_zero {mul div : Int32} (hdiv : div = 0 → mul = 0) (n : Int32) :
    scaled mul div n.toUInt32 = 0 ↔ mul = div ∧ n.toUInt32 = 0 ∨ NoSource mul div n := by
  unfold scaled NoSource
  by_cases hne : mul = div
  · simp [hne]
  · have hz : div ≠ 0 := fun hz => hne ((hdiv hz).trans hz.symm)
    have hdpos : div.toUInt32.toNat ≠ 0 := fun h =>
      hz (congrArg UInt32.toInt32 (UInt32.toNat_inj.mp h : div.toUInt32 = 0))
    have hprod : ((mul.toUInt32.toNat * n.toUInt32.toNat % 2 ^ 32 : Nat) : Int) =
        mul.toInt * n.toInt % 2 ^ 32 := by
      rw [Int.natCast_emod, Int.natCast_mul, toNat_toUInt32, toNat_toUInt32,
        show ((2 ^ 32 : Nat) : Int) = 2 ^ 32 from rfl, ← Int.mul_emod]
    have hd := toNat_toUInt32 div
    rw [if_neg hne, ← UInt32.toNat_inj, UInt32.toNat_div, UInt32.toNat_mul, ← hprod, ← hd]
    simp only [hne, false_and, false_or, ne_eq, not_false_eq_true, true_and]
    rw [show (0 : UInt32).toNat = 0 from rfl, Nat.div_eq_zero_iff]
    omega

namespace Call

variable (c : Call) {clip : Rect}

theorem part_nonneg (clip : Rect) : 0 ≤ (c.part clip).l.toInt ∧ 0 ≤ (c.part clip).t.toInt := by
  simp only [part, bounds, intersect, toInt_max]
  have h0 : (0 : Int32).toInt = 0 := rfl
  omega

/-- A request that is not empty goes inside exactly if the intersection is not inverted. -/
theorem inside_iff (h : c.accepted = true) (hw : (c.part clip).l ≠ (c.part clip).r)
    (hh : (c.part clip).t ≠ (c.part clip).b) :
    c.Inside clip (placed (c.part clip)) ↔ c.Overlaps clip := by
  obtain ⟨hl, ht⟩ := c.part_nonneg clip
  have hpoints := c.part_points h clip
  constructor
  · intro hin
    obtain ⟨hdw, hdh⟩ := c.accepted_dst h
    have hmax : MAX_DIMENSION.toNat = 4096 := rfl
    have hwpos := (not_congr sub_toUInt32_eq_zero).mpr hw
    have hhpos := (not_congr sub_toUInt32_eq_zero).mpr hh
    rw [← UInt32.toNat_inj] at hwpos hhpos
    have hzero : (0 : UInt32).toNat = 0 := rfl
    -- The last point of the request.
    have hlast : (((placed (c.part clip)).x.toNat + (placed (c.part clip)).w.toNat - 1 : Int),
        ((placed (c.part clip)).y.toNat + (placed (c.part clip)).h.toNat - 1 : Int)) ∈ c.dst.points := by
      refine hin.image ⟨⟨?_, ?_⟩, ?_, ?_⟩
      all_goals
        simp only [placed]
        omega
    obtain ⟨⟨-, hx⟩, -, hy⟩ := hlast
    simp only [placed] at hx hy
    constructor
    · by_contra hlt
      have hext := extent_of_not_lt hl hlt hw
      have hb := toInt_bounds (c.part clip).r
      omega
    · by_contra hlt
      have hext := extent_of_not_lt ht hlt hh
      have hb := toInt_bounds (c.part clip).b
      omega
  · rintro ⟨hx, hy⟩
    obtain ⟨hx₁, hx₂⟩ := extent_of_lt hl hx
    obtain ⟨hy₁, hy₂⟩ := extent_of_lt ht hy
    have hplaced : (placed (c.part clip)).points = (c.part clip).points := by
      rw [MdpRect.points, Rect.points, placed]
      dsimp only
      rw [hx₂, hy₂, hx₁, hy₁]
    have hsub := (hplaced.trans hpoints).subset
    refine ⟨?_, fun e he => (hsub he).1.1, fun e he => (hsub he).2, fun e he => (hsub he).1.2⟩
    rw [hplaced]
    exact ⟨((c.part clip).l.toInt, (c.part clip).t.toInt),
      ⟨le_refl _, Int32.lt_iff_toInt_lt.mp hx⟩, le_refl _, Int32.lt_iff_toInt_lt.mp hy⟩

/-- For the clip there is no request, or it goes inside. -/
def Handled (clip : Rect) : Prop :=
  c.Overlaps clip ∨ (c.part clip).l = (c.part clip).r ∨ (c.part clip).t = (c.part clip).b ∨
    NoSource (c.src_rect.r - c.src_rect.l) (c.ctx.W c.dst_rect) (c.ctx.W (c.part clip)) ∨
    NoSource (c.src_rect.b - c.src_rect.t) (c.ctx.H c.dst_rect) (c.ctx.H (c.part clip))

instance (clip : Rect) : Decidable (c.Handled clip) := inferInstanceAs (Decidable (_ ∨ _))

/-- The sides of a clip, whichever way the source is turned. -/
theorem sides_eq_zero (ctx : Ctx) (k : Rect) :
    (ctx.W k).toUInt32 = 0 ∨ (ctx.H k).toUInt32 = 0 ↔ k.l = k.r ∨ k.t = k.b := by
  unfold Ctx.W Ctx.H
  cases ctx.has COPYBIT_TRANSFORM_ROT_90
  · exact or_congr sub_toUInt32_eq_zero sub_toUInt32_eq_zero
  · exact (or_congr sub_toUInt32_eq_zero sub_toUInt32_eq_zero).trans or_comm

/-- When a request is empty. -/
theorem made_empty_iff (hdiv : Divisible c.ctx c.dst_rect c.src_rect) (clip : Rect) :
    (c.made clip).empty = true ↔ (c.part clip).l = (c.part clip).r ∨ (c.part clip).t = (c.part clip).b ∨
      NoSource (c.src_rect.r - c.src_rect.l) (c.ctx.W c.dst_rect) (c.ctx.W (c.part clip)) ∨
      NoSource (c.src_rect.b - c.src_rect.t) (c.ctx.H c.dst_rect) (c.ctx.H (c.part clip)) := by
  have hle (x : UInt32) : x ≤ 0 ↔ x = 0 := by
    rw [UInt32.le_iff_toNat_le, ← UInt32.toNat_inj]
    exact Nat.le_zero
  have hsides := sides_eq_zero c.ctx (c.part clip)
  have hdst : (placed (c.part clip)).w = 0 ∨ (placed (c.part clip)).h = 0 ↔
      (c.part clip).l = (c.part clip).r ∨ (c.part clip).t = (c.part clip).b :=
    or_congr sub_toUInt32_eq_zero sub_toUInt32_eq_zero
  simp only [MdpBlitReq.empty, made, mirror_eq, Ctx.crop, hle, Bool.or_eq_true, decide_eq_true_eq,
    scaled_eq_zero hdiv.1, scaled_eq_zero hdiv.2]
  grind

/-- The clips are handled, when `MULDIV` does not divide by zero. -/
theorem request_inside_iff (h : c.accepted = true) (hdiv : Divisible c.ctx c.dst_rect c.src_rect)
    (clip : Rect) :
    ((c.made clip).empty = false → c.Inside clip (c.made clip).dst_rect) ↔ c.Handled clip := by
  have hempty := c.made_empty_iff hdiv clip
  unfold Handled
  rw [← hempty]
  cases he : (c.made clip).empty with
  | true => simp
  | false =>
    rw [he] at hempty
    have hne := (not_congr hempty).mp Bool.false_ne_true
    simp only [not_or] at hne
    simp [made, c.inside_iff h hne.1 hne.2.1]

/-! ## A call -/

/-- No division by zero, and a request for a clip goes inside. -/
structure Safe (out : Result) : Prop where
  divides : out.status ≠ .error .divisionByZero
  inside : ∀ slot, ∀ clip ∈ c.region, ∀ req ∈ out.submitted.flatten,
    c.request slot clip = .ok req → c.Inside clip req.dst_rect

theorem not_empty_of_kept {clips : List Rect} {req : MdpBlitReq} (h : req ∈ c.kept clips) :
    req.empty = false := by
  unfold kept at h
  split at h
  · have := (List.mem_filter.mp h).2
    simpa using this
  · cases h

variable {c}

/-- What every clip meets makes every call safe. -/
theorem safe_of_handled (hacc : c.accepted = true)
    (h : ∀ clip ∈ c.region, Divisible c.ctx c.dst_rect c.src_rect ∧ c.Handled clip) (ioctl : Ioctl)
    (slots : Vector MdpBlitReq maxCount) : c.Safe (c.stretchCopybit ioctl slots) := by
  obtain ⟨-, hpre, -, -, hfault⟩ := stretchCopybit_spec c ioctl slots hacc
  constructor
  · intro herr
    obtain ⟨-, hnot, hne⟩ := hfault _ herr
    obtain ⟨clip, hclip⟩ := List.exists_mem_of_ne_nil _ hne
    exact hnot (h clip hclip).1
  · intro slot clip hclip req hreq hok
    obtain ⟨hdiv, hhandled⟩ := h clip hclip
    rw [c.request_eq, if_pos hdiv] at hok
    cases hok
    exact (c.request_inside_iff hacc hdiv clip).mpr hhandled
      (c.not_empty_of_kept (hpre.subset hreq))

/-- What a call with answers 0 shows of every clip. -/
theorem handled_of_safe (hacc : c.accepted = true) (slots : Vector MdpBlitReq maxCount)
    (h : c.Safe (c.stretchCopybit (fun _ => none) slots)) {clip : Rect} (hclip : clip ∈ c.region) :
    Divisible c.ctx c.dst_rect c.src_rect ∧ c.Handled clip := by
  obtain ⟨-, -, hall, -, -⟩ := stretchCopybit_spec c (fun _ => none) slots hacc
  have hdiv : Divisible c.ctx c.dst_rect c.src_rect := by
    by_contra hnot
    exact h.divides (stretchCopybit_fault _ slots hacc hnot hclip)
  refine ⟨hdiv, (c.request_inside_iff hacc hdiv clip).mp fun hne => ?_⟩
  have hok : c.request (c.made clip) clip = .ok (c.made clip) := by rw [c.request_eq, if_pos hdiv]
  refine h.inside _ clip hclip _ ?_ hok
  rw [hall fun _ _ => rfl, kept, if_pos hdiv]
  exact List.mem_filter.mpr ⟨List.mem_map_of_mem hclip, by simp [hne]⟩

end Call

/-- A call is safe, whatever the driver answers, exactly if for every clip the scale divides by a size
that is not zero, and the three rectangles overlap, have a common edge, or scale to nothing. -/
theorem safe_iff (c : Call) (hacc : c.accepted = true) :
    (∀ ioctl slots, c.Safe (c.stretchCopybit ioctl slots)) ↔
      ∀ clip ∈ c.region, Divisible c.ctx c.dst_rect c.src_rect ∧ c.Handled clip := by
  constructor
  · intro h clip hclip
    exact Call.handled_of_safe hacc (Vector.replicate maxCount blank) (h _ _) hclip
  · exact Call.safe_of_handled hacc

/-- A clip in the middle of the destination rectangle. -/
theorem safe_iff_overlapping :
    (panel ⟨10, 10, 20, 20⟩ ⟨0, 0, 10, 10⟩ [⟨12, 12, 15, 15⟩]).Safe
      ((panel ⟨10, 10, 20, 20⟩ ⟨0, 0, 10, 10⟩ [⟨12, 12, 15, 15⟩]).stretchCopybit (fun _ => none)
        (Vector.replicate maxCount blank)) :=
  (safe_iff _ (by decide)).mpr (by decide) _ _

/-- A clip beside the destination rectangle is a request of 2 ^ 32 - 30 columns; an empty
destination rectangle divides by zero. -/
theorem beside_not_safe :
    (∃ c : Call, c = panel ⟨10, 10, 20, 20⟩ ⟨0, 0, 10, 10⟩ [⟨50, 10, 60, 20⟩] ∧
      ∃ out, c.stretchCopybit (fun _ => none) (Vector.replicate maxCount blank) = out ∧
        out.submitted.flatten.map MdpBlitReq.dst_rect = [⟨50, 10, 4294967266, 10⟩] ∧ ¬ c.Safe out) ∧
      ((panel ⟨10, 10, 10, 20⟩ ⟨0, 0, 10, 10⟩ [⟨0, 0, 100, 100⟩]).stretchCopybit (fun _ => none)
        (Vector.replicate maxCount blank)).status = .error .divisionByZero := by
  refine ⟨⟨_, rfl, _, rfl, by decide, fun hsafe => ?_⟩, by decide⟩
  have hin := hsafe.inside blank ⟨50, 10, 60, 20⟩ (by decide)
    ((panel ⟨10, 10, 20, 20⟩ ⟨0, 0, 10, 10⟩ [⟨50, 10, 60, 20⟩]).made ⟨50, 10, 60, 20⟩) (by decide)
    rfl
  have hpoint : ((100, 10) : Int × Int) ∈ (panel ⟨10, 10, 20, 20⟩ ⟨0, 0, 10, 10⟩ []).dst.points :=
    hin.image ⟨⟨by decide, by decide⟩, by decide, by decide⟩
  exact absurd hpoint.1.2 (by decide)

end Twm.Copybit
