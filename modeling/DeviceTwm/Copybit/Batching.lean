import DeviceTwm.Copybit.SetRects

/-!
# The lists of requests

The loop of `stretch_copybit` fills a list of twelve slots, and a clip without a request has written
its slot too. The slots below the count, after the lists that were submitted, are the requests so
far (`Inv.sofar`).

* `Inv.round`, `Inv.loop`: a round, and the loop.
* `batches_complete`: what is submitted is every request, once and in order, up to a failing ioctl.
-/

namespace Twm.Copybit

namespace Call

variable (c : Call)

/-- The requests computed for the clips, in order, less those that are empty; `slot` is what a request
overwrites. -/
def requests (slot : MdpBlitReq) (clips : List Rect) : List MdpBlitReq :=
  (clips.filterMap fun clip => (c.request slot clip).toOption).filter fun req => !req.empty

/-- The same. -/
def kept (clips : List Rect) : List MdpBlitReq :=
  if Divisible c.ctx c.dst_rect c.src_rect then (clips.map c.made).filter fun req => !req.empty
  else []

theorem requests_eq (slot : MdpBlitReq) (clips : List Rect) : c.requests slot clips = c.kept clips := by
  unfold requests kept
  simp only [request_eq]
  split
  · rw [← List.filterMap_eq_map]
    rfl
  · simp [Except.toOption]

theorem kept_append (clips : List Rect) (clip : Rect)
    (hdiv : Divisible c.ctx c.dst_rect c.src_rect) :
    c.kept (clips ++ [clip]) =
      c.kept clips ++ if (c.made clip).empty then [] else [c.made clip] := by
  rw [kept, kept, if_pos hdiv, if_pos hdiv, List.map_append, List.filter_append]
  cases h : (c.made clip).empty <;> simp [h]

theorem kept_prefix {clips clips' : List Rect} (h : clips <+: clips') :
    c.kept clips <+: c.kept clips' := by
  unfold kept
  split
  · exact (h.map c.made).filter _
  · exact List.prefix_rfl

end Call

namespace Loop

variable (s : Loop)

/-- The requests in the list. -/
def pending : List MdpBlitReq := s.list.req.toList.take s.list.count

theorem msmCopybit_submitted (ioctl : Ioctl) :
    (msmCopybit ioctl s).submitted = s.submitted ++ [s.pending] := rfl

end Loop

/-- The slot at the count is written. -/
theorem take_set {α : Type} {n i : Nat} (v : Vector α n) (x : α) (hi : i < n) :
    (v.set i x).toList.take i = v.toList.take i ∧
      (v.set i x).toList.take (i + 1) = v.toList.take i ++ [x] := by
  have hlen : i < v.toList.length := by simpa using hi
  rw [Vector.toList_set, List.take_set_of_le (Nat.le_refl i)]
  refine ⟨rfl, ?_⟩
  have htake : (v.toList.take i).length = i := by
    rw [List.length_take]
    omega
  rw [List.take_set, List.take_succ_eq_append_getElem hlen, List.set_append_right _ _ (by omega), htake,
    Nat.sub_self]
  rfl

/-- The answers so far: each was 0, or the last one is the status. -/
structure Answered (ioctl : Ioctl) (s : Loop) : Prop where
  fine : (∀ i, i < s.submitted.length → ioctl i = none) → s.status = 0
  failed : ∀ i e, i < s.submitted.length → ioctl i = some e →
    i + 1 = s.submitted.length ∧ s.status = -e.val

variable {c : Call} {ioctl : Ioctl} {s s' : Loop} {clip : Rect} {clips region : List Rect}

/-- The list is submitted when nothing has failed. -/
theorem Answered.submit (h : Answered ioctl s) (hs : s.status = 0) :
    Answered ioctl (msmCopybit ioctl s) := by
  have hbefore : ∀ i, i < s.submitted.length → ioctl i = none := by
    intro i hi
    cases hio : ioctl i with
    | none => rfl
    | some e =>
      obtain ⟨-, he⟩ := h.failed i e hi hio
      have hpos := e.pos
      omega
  have hlen : (msmCopybit ioctl s).submitted.length = s.submitted.length + 1 := by
    simp [Loop.msmCopybit_submitted]
  constructor
  · intro hall
    have hlast : ioctl s.submitted.length = none := hall _ (by omega)
    simp only [msmCopybit, hlast]
  · intro i e hi he
    rcases Nat.lt_or_ge i s.submitted.length with hlt | hge
    · cases (hbefore i hlt).symm.trans he
    · obtain rfl : i = s.submitted.length := by omega
      refine ⟨hlen.symm, ?_⟩
      simp only [msmCopybit, he]

/-- The requests for the clips so far are submitted, or in the list. -/
structure Inv (c : Call) (ioctl : Ioctl) (s : Loop) (clips : List Rect) : Prop where
  count : s.list.count < maxCount
  sizes : ∀ l ∈ s.submitted, 1 ≤ l.length ∧ l.length ≤ maxCount
  sofar : s.submitted.flatten ++ s.pending = c.kept clips
  answered : Answered ioctl s

/-- Before the first round. -/
theorem Inv.init (c : Call) (ioctl : Ioctl) (slots : Vector MdpBlitReq maxCount) :
    Inv c ioctl ⟨⟨0, slots⟩, 0, []⟩ [] where
  count := Nat.zero_lt_succ 11
  sizes := by simp
  sofar := by simp [Loop.pending, Call.kept]
  answered := ⟨fun _ => rfl, fun i _ hi => absurd hi (Nat.not_lt_zero i)⟩

/-- What is submitted, with `l` as the list. -/
theorem sizes_submit {l : List MdpBlitReq}
    (h : ∀ l ∈ s.submitted, 1 ≤ l.length ∧ l.length ≤ maxCount) (h1 : 1 ≤ l.length)
    (h2 : l.length ≤ maxCount) : ∀ l' ∈ s.submitted ++ [l], 1 ≤ l'.length ∧ l'.length ≤ maxCount := by
  intro l' hl'
  rcases List.mem_append.mp hl' with hl' | hl'
  · exact h l' hl'
  · obtain rfl := List.mem_singleton.mp hl'
    exact ⟨h1, h2⟩

namespace Inv

theorem pending_length (h : Inv c ioctl s clips) : s.pending.length = s.list.count := by
  have := h.count
  simp only [Loop.pending, List.length_take, Vector.length_toList]
  omega

theorem round (h : Inv c ioctl s clips) (clip : Rect) (hs : s.status = 0)
    (hdiv : Divisible c.ctx c.dst_rect c.src_rect) :
    ∃ s', c.round ioctl s clip = .ok s' ∧ Inv c ioctl s' (clips ++ [clip]) := by
  obtain ⟨hsame, hnext⟩ := take_set s.list.req (c.made clip) h.count
  have hreqs := c.kept_append clips clip hdiv
  unfold Call.round
  rw [dif_pos h.count, c.request_eq, if_pos hdiv]
  simp only [bind, Except.bind, pure, Except.pure]
  cases hempty : (c.made clip).empty with
  | true =>
    rw [hempty] at hreqs
    refine ⟨_, rfl, h.count, h.sizes, ?_, ⟨h.answered.fine, h.answered.failed⟩⟩
    rw [hreqs, if_pos rfl, List.append_nil, ← h.sofar]
    exact congrArg (s.submitted.flatten ++ ·) hsame
  | false =>
    rw [hempty] at hreqs
    let s₁ : Loop := ⟨⟨s.list.count + 1, s.list.req.set s.list.count (c.made clip) h.count⟩, s.status,
      s.submitted⟩
    have hpending : s₁.pending = s.pending ++ [c.made clip] := hnext
    have hsofar : s.submitted.flatten ++ s₁.pending = c.kept (clips ++ [clip]) := by
      rw [hpending, ← List.append_assoc, h.sofar, hreqs]
      rfl
    have hlen := h.pending_length
    have hcount := h.count
    by_cases hfull : s.list.count + 1 = maxCount
    · refine ⟨{ msmCopybit ioctl s₁ with list := ⟨0, s₁.list.req⟩ }, ?_, ?_, ?_, ?_, ?_⟩
      · simp only [Bool.false_eq_true, if_false, if_pos hfull]
        rfl
      · exact Nat.zero_lt_of_lt h.count
      · refine sizes_submit h.sizes ?_ ?_
        · show 1 ≤ s₁.pending.length
          simp [hpending]
        · show s₁.pending.length ≤ maxCount
          simp [hpending]
          omega
      · show (s.submitted ++ [s₁.pending]).flatten ++ [] = _
        simpa using hsofar
      · have ha : Answered ioctl s₁ := ⟨h.answered.fine, h.answered.failed⟩
        have hsub := ha.submit hs
        exact ⟨hsub.fine, hsub.failed⟩
    · refine ⟨s₁, ?_, ?_, h.sizes, hsofar, ⟨h.answered.fine, h.answered.failed⟩⟩
      · simp only [Bool.false_eq_true, if_false, if_neg hfull]
        rfl
      · show s.list.count + 1 < maxCount
        omega

/-- Without a division, a round ends the loop. -/
theorem round_fault (h : Inv c ioctl s clips) (hdiv : ¬ Divisible c.ctx c.dst_rect c.src_rect) :
    c.round ioctl s clip = .error .divisionByZero := by
  unfold Call.round
  rw [dif_pos h.count, c.request_eq, if_neg hdiv]
  rfl

/-- The loop gets through the region unless a submission fails or a division by zero ends it. -/
theorem loop (h : Inv c ioctl s clips) (region : List Rect) :
    ∃ done, done <+: clips ++ region ∧ Inv c ioctl (c.loop ioctl s region).1 done ∧
      match (c.loop ioctl s region).2 with
      | some f => f = .divisionByZero ∧ ¬ Divisible c.ctx c.dst_rect c.src_rect ∧ region ≠ []
      | none => (c.loop ioctl s region).1.status = 0 → done = clips ++ region := by
  induction region generalizing s clips with
  | nil => exact ⟨clips, by simp, h, fun _ => by simp⟩
  | cons clip region ih =>
    unfold Call.loop
    by_cases hs : s.status = 0
    · rw [if_pos hs]
      by_cases hdiv : Divisible c.ctx c.dst_rect c.src_rect
      · obtain ⟨s', hround, h'⟩ := h.round clip hs hdiv
        obtain ⟨done, hdone, hinv, hend⟩ := ih h'
        rw [hround]
        rw [List.append_assoc, List.singleton_append] at hdone hend
        refine ⟨done, hdone, hinv, ?_⟩
        dsimp only
        generalize c.loop ioctl s' region = out at hend ⊢
        cases hf : out.2 with
        | some f =>
          rw [hf] at hend
          exact absurd hdiv hend.2.1
        | none =>
          rw [hf] at hend
          exact hend
      · rw [h.round_fault hdiv]
        exact ⟨clips, List.prefix_append .., h, rfl, hdiv, List.cons_ne_nil _ _⟩
    · rw [if_neg hs]
      exact ⟨clips, List.prefix_append .., h, fun h0 => absurd h0 hs⟩

end Inv

/-- What a call leaves. -/
theorem stretchCopybit_spec (c : Call) (ioctl : Ioctl) (slots : Vector MdpBlitReq maxCount)
    (hacc : c.accepted = true) :
    let out := c.stretchCopybit ioctl slots
    (∀ l ∈ out.submitted, 1 ≤ l.length ∧ l.length ≤ maxCount) ∧
      out.submitted.flatten <+: c.kept c.region ∧
      ((∀ i, i < out.submitted.length → ioctl i = none) → out.submitted.flatten = c.kept c.region) ∧
      (∀ i e, i < out.submitted.length → ioctl i = some e →
        i + 1 = out.submitted.length ∧ out.status = .ok (-e.val)) ∧
      ∀ f, out.status = .error f →
        f = .divisionByZero ∧ ¬ Divisible c.ctx c.dst_rect c.src_rect ∧ c.region ≠ [] := by
  obtain ⟨done, hdone, hinv, hend⟩ := (Inv.init c ioctl slots).loop c.region
  have hpre := c.kept_prefix hdone
  rw [List.nil_append] at hdone hend hpre
  unfold Call.stretchCopybit
  rw [if_pos hacc]
  generalize c.loop ioctl ⟨⟨0, slots⟩, 0, []⟩ c.region = out at hinv hend ⊢
  obtain ⟨s, fault⟩ := out
  have hsub : s.submitted.flatten <+: c.kept c.region :=
    (List.prefix_append ..).trans (hinv.sofar ▸ hpre)
  cases fault with
  | some f =>
    -- Nothing is submitted before a division by zero: every clip has it.
    have hnone (clips : List Rect) : c.kept clips = [] := if_neg hend.2.1
    have hsofar := hinv.sofar
    rw [hnone, List.append_eq_nil_iff] at hsofar
    have hsubmitted : s.submitted = [] := by
      refine List.eq_nil_iff_forall_not_mem.mpr fun l hl => ?_
      have hl' := List.flatten_eq_nil_iff.mp hsofar.1 l hl
      have hlen := (hinv.sizes l hl).1
      simp [hl'] at hlen
    simpa [hsubmitted, hnone] using hend
  | none =>
    replace hinv : Inv c ioctl s done := hinv
    have hlen : s.pending.length = s.list.count := hinv.pending_length
    have hcount : s.list.count < maxCount := hinv.count
    dsimp only
    by_cases hlast : s.status = 0 ∧ s.list.count ≠ 0
    · rw [if_pos hlast]
      obtain ⟨hs, hne⟩ := hlast
      have hall : (msmCopybit ioctl s).submitted.flatten = c.kept c.region := by
        rw [s.msmCopybit_submitted, ← hend hs, ← hinv.sofar]
        simp
      have hans := hinv.answered.submit hs
      refine ⟨sizes_submit (l := s.pending) hinv.sizes (by omega) (by omega), ?_, fun _ => hall, ?_,
        fun f hf => nomatch hf⟩
      · exact hall ▸ List.prefix_rfl
      · intro i e hi he
        obtain ⟨hlast, hstatus⟩ := hans.failed i e hi he
        exact ⟨hlast, congrArg _ hstatus⟩
    · rw [if_neg hlast]
      refine ⟨hinv.sizes, hsub, fun hok => ?_, fun i e hi he => ?_, fun f hf => nomatch hf⟩
      · have hs := hinv.answered.fine hok
        have hzero : s.list.count = 0 := by omega
        have hpending : s.pending = [] := List.eq_nil_of_length_eq_zero (hlen.trans hzero)
        rw [← hend hs, ← hinv.sofar, hpending, List.append_nil]
      · obtain ⟨hlast, hstatus⟩ := hinv.answered.failed i e hi he
        exact ⟨hlast, congrArg _ hstatus⟩

theorem stretchCopybit_fault {c : Call} (ioctl : Ioctl) (slots : Vector MdpBlitReq maxCount)
    (hacc : c.accepted = true) (hdiv : ¬ Divisible c.ctx c.dst_rect c.src_rect)
    (hclip : clip ∈ c.region) : (c.stretchCopybit ioctl slots).status = .error .divisionByZero := by
  unfold Call.stretchCopybit
  rw [if_pos hacc]
  cases hr : c.region with
  | nil => simp [hr] at hclip
  | cons clip region => rw [Call.loop, if_pos rfl, (Inv.init c ioctl slots).round_fault hdiv]

/-- What is submitted is every request, once and in order, in lists of 1 to 12, up to the first failing
ioctl, whose error is returned. -/
theorem batches_complete (c : Call) (ioctl : Ioctl) (slots : Vector MdpBlitReq maxCount)
    (slot : MdpBlitReq) (hacc : c.accepted = true) :
    let out := c.stretchCopybit ioctl slots
    (∀ l ∈ out.submitted, 1 ≤ l.length ∧ l.length ≤ maxCount) ∧
      out.submitted.flatten <+: c.requests slot c.region ∧
      ((∀ i, i < out.submitted.length → ioctl i = none) →
        out.submitted.flatten = c.requests slot c.region) ∧
      (∀ i e, i < out.submitted.length → ioctl i = some e →
        i + 1 = out.submitted.length ∧ out.status = .ok (-e.val)) := by
  rw [c.requests_eq]
  obtain ⟨hsizes, hpre, hall, hfailed, -⟩ := stretchCopybit_spec c ioctl slots hacc
  exact ⟨hsizes, hpre, hall, hfailed⟩

/-- A blit between two images of 100 by 100 pixels. -/
def panel (dst_rect src_rect : Rect) (region : List Rect) : Call where
  ctx := ⟨255, 0⟩
  dst := ⟨100, 100, .RGB_565, 0, 3⟩
  src := ⟨100, 100, .RGB_565, 0, 4⟩
  dst_rect := dst_rect
  src_rect := src_rect
  region := region

/-- Fourteen clips, one of them outside. -/
theorem batches_complete_fourteen :
    let c := panel ⟨10, 10, 20, 20⟩ ⟨0, 0, 10, 10⟩
      (List.replicate 12 ⟨0, 0, 15, 15⟩ ++ [⟨15, 0, 15, 9⟩, ⟨0, 0, 12, 12⟩])
    (c.stretchCopybit (fun _ => none) (Vector.replicate 12 blank)).submitted.flatten =
      c.requests blank c.region :=
  (batches_complete _ _ _ blank (by decide)).2.2.1 fun _ _ => rfl

end Twm.Copybit
