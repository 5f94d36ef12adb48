import DeviceTwm.Fastboot.Engine

/-!
# The requirements of `android-info.txt`

What the file says, and that nothing is flashed to a device that does not meet it.

* `Requirement`: a line of the file, with all of its options.
* `Gates`: when some requirement is not met, no run of `flashall` or `update` with the file gets past
  the requirements.
* `requirements_gate`: that is so exactly when a line that the code checks fails as the code reads it. The
  last line is not read without a newline, a line is cut at a zero byte, everything after the 31st bar
  is one option, and a star alone stands for itself.
  It is so for every device when the file has none of these (`WellFormed`).
-/

namespace Twm.Fastboot

open Twm.Adb (cstr)

/-! ## What the file says -/

/-- A line `name=opt1|opt2|…`. -/
structure Requirement where
  name : List UInt8
  reject : Bool
  options : List (List UInt8)
  deriving DecidableEq

/-- The lines of a text; the last one is what follows the last newline. -/
def lines (text : List UInt8) : List (List UInt8) := text.splitOn 10

/-- The requirement of a line, if it has a `=`. -/
def requirement (line : List UInt8) : Option Requirement :=
  let (reject, line) :=
    if ascii "reject " <+: line then (true, line.drop 7)
    else if ascii "require " <+: line then (false, line.drop 8)
    else (false, line)
  if 61 ∈ line then
    let name := strip (line.takeWhile (· ≠ 61))
    some
      { name := if name = ascii "board" then ascii "product" else name
        reject := reject
        options := (((line.dropWhile (· ≠ 61)).tail).splitOn 124).map strip }
  else none

/-- An option is the value, or a beginning of it before its star. -/
def OptionMatches (v o : List UInt8) : Prop := o = v ∨ ∃ p, o = p ++ [42] ∧ p <+: v

/-- The value of a variable. -/
def Device.value (d : Device) (name : List UInt8) : List UInt8 := d.reply (ascii "getvar:" ++ name)

/-- The device meets the requirement. -/
def Requirement.Met (r : Requirement) (d : Device) : Prop :=
  if r.reject then ∀ o ∈ r.options, ¬ OptionMatches (d.value r.name) o
  else ∃ o ∈ r.options, OptionMatches (d.value r.name) o

/-- The device meets every requirement of the file. -/
def AllMet (text : List UInt8) (d : Device) : Prop :=
  ∀ l ∈ lines text, ∀ r, requirement l = some r → r.Met d

/-- A run does not get past its requirements. An overflow can do anything. -/
def Run.Stops (r : Run) (d : Device) (oks : Nat → Bool) : Prop :=
  match r.queue with
  | .error .die => True
  | .error .overflow => False
  | .ok (early, late) => fbExecuteQueue d oks (early ++ late) <+: early

/-- No run with the file gets past the requirements unless they are all met. -/
def Gates (text : List UInt8) (d : Device) : Prop :=
  ¬ AllMet text d → ∀ r : Run, r.source.text = .ok text → ∀ oks, r.Stops d oks

/-! ## What the code checks -/

/-- The checks of the lines that end in a newline. -/
def checks (text : List UInt8) : List Check :=
  (lines text).dropLast.filterMap fun l => setupRequirementLine (cstr l)

/-- The command for the check fits its buffer. -/
def Check.Fits (q : Check) : Prop := q.name.length + 7 < cmdSize

instance (q : Check) : Decidable q.Fits := inferInstanceAs (Decidable (_ < _))

/-- The device passes the check. -/
def Check.passes (q : Check) (d : Device) : Bool := cbCheck (d.value q.name) q.value q.invert

/-- Every name fits, and some check fails. -/
def SomeCheckFails (text : List UInt8) (d : Device) : Prop :=
  (∀ q ∈ checks text, q.Fits) ∧ ∃ q ∈ checks text, q.passes d = false

/-- The action of a check. -/
def Check.action (q : Check) : Action :=
  ⟨.query, ascii "getvar:" ++ q.name, if q.invert then .cbReject q.value else .cbRequire q.value⟩

theorem getvar_length (name : List UInt8) : (ascii "getvar:" ++ name).length = name.length + 7 := by
  rw [List.length_append, Nat.add_comm]
  rfl

theorem fbQueueRequire_ok {q : Check} (h : q.Fits) :
    fbQueueRequire q.name q.invert q.value = .ok q.action := by
  unfold fbQueueRequire
  exact if_pos (by rw [getvar_length]; exact h)

theorem fbQueueRequire_overflow {q : Check} (h : ¬ q.Fits) :
    fbQueueRequire q.name q.invert q.value = .error .overflow := by
  unfold fbQueueRequire
  exact if_neg (by rw [getvar_length]; exact h)

/-- The lines of a text that starts with one. -/
theorem lines_append {line s : List UInt8} (hl : 10 ∉ line) :
    lines (line ++ 10 :: s) = line :: lines s := by
  have hno : ∀ x ∈ line, (x == 10) = false := by
    intro x hx
    rw [beq_eq_false_iff_ne]
    rintro rfl
    exact hl hx
  rw [lines, lines, List.splitOn_eq_splitOnP, List.splitOn_eq_splitOnP,
    List.splitOnP_append_cons_of_forall_mem hno 10 rfl]

theorem checks_append {line s : List UInt8} (hl : 10 ∉ line) :
    checks (line ++ 10 :: s) = (setupRequirementLine (cstr line)).toList ++ checks s := by
  have hne : lines s ≠ [] := List.splitOn_ne_nil 10 s
  rw [checks, lines_append hl, List.dropLast_cons_of_ne_nil hne, checks, List.filterMap_cons]
  cases setupRequirementLine (cstr line) <;> rfl

theorem checks_of_not_mem {line : List UInt8} (hl : 10 ∉ line) : checks line = [] := by
  rw [checks, lines, List.splitOn_eq_singleton hl]
  rfl

/-- `setup_requirements` queues a check for every line that ends in a newline. -/
theorem setupRequirements_ok (s line : List UInt8) (hl : 10 ∉ line)
    (hfit : ∀ q ∈ checks (line ++ s), q.Fits) :
    setupRequirements line s = .ok ((checks (line ++ s)).map Check.action) := by
  induction s generalizing line with
  | nil =>
    rw [List.append_nil, checks_of_not_mem hl]
    rfl
  | cons b s ih =>
    by_cases hb : b = 10
    · subst hb
      rw [checks_append hl] at hfit ⊢
      have hrest := ih [] (by simp) fun q hq => hfit q (List.mem_append_right _ hq)
      rw [List.nil_append] at hrest
      rw [setupRequirements, if_pos rfl, hrest]
      cases hq : setupRequirementLine (cstr line) with
      | none => rfl
      | some q =>
        rw [hq] at hfit
        have hok := fbQueueRequire_ok (hfit q (by simp))
        simp only [hok]
        rfl
    · rw [setupRequirements, if_neg hb]
      rw [List.append_cons line b s] at hfit ⊢
      exact ih (line ++ [b]) (by simp [hl, Ne.symm hb]) hfit

theorem setupRequirements_overflow (s line : List UInt8) (hl : 10 ∉ line)
    (hfit : ¬ ∀ q ∈ checks (line ++ s), q.Fits) : setupRequirements line s = .error .overflow := by
  induction s generalizing line with
  | nil =>
    rw [List.append_nil, checks_of_not_mem hl] at hfit
    simp at hfit
  | cons b s ih =>
    by_cases hb : b = 10
    · subst hb
      rw [checks_append hl] at hfit
      rw [setupRequirements, if_pos rfl]
      by_cases hrest : ∀ q ∈ checks s, q.Fits
      · cases hq : setupRequirementLine (cstr line) with
        | none =>
          rw [hq] at hfit
          exact absurd hrest hfit
        | some q =>
          have hno : ¬ q.Fits := by
            intro h
            apply hfit
            rw [hq]
            intro p hp
            rcases List.mem_append.mp hp with hp | hp
            · rw [Option.mem_toList, Option.some.injEq] at hp
              exact hp ▸ h
            · exact hrest p hp
          have hover := fbQueueRequire_overflow hno
          simp only [hover]
          rfl
      · have hs := ih [] (by simp) hrest
        cases hq : setupRequirementLine (cstr line) with
        | none =>
          simp only [hs]
          rfl
        | some q =>
          by_cases hf : q.Fits
          · simp only [fbQueueRequire_ok hf, hs]
            rfl
          · simp only [fbQueueRequire_overflow hf]
            rfl
    · rw [setupRequirements, if_neg hb]
      rw [List.append_cons line b s] at hfit
      exact ih (line ++ [b]) (by simp [hl, Ne.symm hb]) hfit

/-! ## `fb_execute_queue` -/

/-- An action that does not go on stops the queue. -/
theorem fbExecuteQueue_stops (d : Device) {early : List Action} (late : List Action)
    (oks : Nat → Bool) (h : ∃ a ∈ early, ∀ ok, goesOn d ok a = false) :
    fbExecuteQueue d oks (early ++ late) <+: early := by
  induction early generalizing oks with
  | nil => simp at h
  | cons a early ih =>
    rw [List.cons_append, fbExecuteQueue]
    apply List.cons_prefix_cons.mpr
    refine ⟨rfl, ?_⟩
    split
    · rename_i hgo
      obtain ⟨b, hb, hstop⟩ := h
      rcases List.mem_cons.mp hb with rfl | hb
      · rw [hstop] at hgo
        cases hgo
      · exact ih _ ⟨b, hb, hstop⟩
    · exact List.nil_prefix

/-- When every action goes on, the queue goes past them. -/
theorem fbExecuteQueue_passes (d : Device) {early late : List Action} (hne : late ≠ [])
    (oks : Nat → Bool) (hoks : ∀ n, oks n = true) (h : ∀ a ∈ early, goesOn d true a = true) :
    ¬ fbExecuteQueue d oks (early ++ late) <+: early := by
  induction early generalizing oks with
  | nil =>
    obtain ⟨a, late, rfl⟩ := List.exists_cons_of_ne_nil hne
    simp [fbExecuteQueue]
  | cons a early ih =>
    rw [List.cons_append, fbExecuteQueue, hoks 0, if_pos (h a (by simp))]
    intro hpre
    exact ih _ (fun n => hoks (n + 1)) (fun b hb => h b (by simp [hb])) (List.cons_prefix_cons.mp hpre).2

theorem goesOn_action (d : Device) (ok : Bool) (q : Check) :
    goesOn d ok q.action = (ok && q.passes d) := by
  unfold Check.action Check.passes Device.value
  cases q.invert <;> rfl

/-! ## When the requirements gate the run -/

/-- The queue of a run whose names fit, if its images are there. -/
theorem queue_ok {r : Run} {text : List UInt8} {images : List Action} (ht : r.source.text = .ok text)
    (hfit : ∀ q ∈ checks text, q.Fits) (hi : flashImages r.images = .ok images) :
    ∃ late, late ≠ [] ∧ r.queue =
      .ok (r.before ++ queueInfoDump ++ (checks text).map Check.action, late) := by
  have hreq := setupRequirements_ok text [] (by simp) hfit
  rw [List.nil_append] at hreq
  refine ⟨images ++ r.after ++ (if r.wipe then fbQueueErase "userdata" ++ fbQueueErase "cache" else []) ++
    fbQueueReboot, by simp [fbQueueReboot], ?_⟩
  simp only [Run.queue, ht, hreq, hi, bind, Except.bind]

theorem queue_die {r : Run} {text : List UInt8} (ht : r.source.text = .ok text)
    (hfit : ∀ q ∈ checks text, q.Fits) (hi : flashImages r.images = .error .die) :
    r.queue = .error .die := by
  have hreq := setupRequirements_ok text [] (by simp) hfit
  rw [List.nil_append] at hreq
  simp only [Run.queue, ht, hreq, hi, bind, Except.bind]

theorem queue_overflow {r : Run} {text : List UInt8} (ht : r.source.text = .ok text)
    (hfit : ¬ ∀ q ∈ checks text, q.Fits) : r.queue = .error .overflow := by
  have hreq := setupRequirements_overflow text [] (by simp) hfit
  simp only [Run.queue, ht, hreq, bind, Except.bind]

theorem flashImages_cases (f : Images) :
    flashImages f = .error .die ∨ ∃ images, flashImages f = .ok images := by
  unfold flashImages
  split
  · exact .inr ⟨_, rfl⟩
  · exact .inl rfl

/-- A check that fails stops every run. -/
theorem stops_of_someCheckFails {text : List UInt8} {d : Device} (h : SomeCheckFails text d) (r : Run)
    (ht : r.source.text = .ok text) (oks : Nat → Bool) : r.Stops d oks := by
  obtain ⟨hfit, q, hq, hfails⟩ := h
  unfold Run.Stops
  rcases flashImages_cases r.images with hi | ⟨images, hi⟩
  · rw [queue_die ht hfit hi]
    trivial
  · obtain ⟨late, -, hqueue⟩ := queue_ok ht hfit hi
    rw [hqueue]
    refine fbExecuteQueue_stops d late oks ⟨q.action, ?_, ?_⟩
    · exact List.mem_append_right _ (List.mem_map_of_mem hq)
    · intro ok
      rw [goesOn_action, hfails, Bool.and_false]

/-- `flashall` with a file, and images that are there. -/
def Run.plain (text : List UInt8) : Run where
  source := .flashall (some text)
  images := ⟨some [], none, none, none, some [], none⟩
  before := []
  after := []
  wipe := false

/-- A run in which every call succeeds stops at a check or not at all. -/
theorem someCheckFails_of_stops {text : List UInt8} {d : Device}
    (h : (Run.plain text).Stops d fun _ => true) : SomeCheckFails text d := by
  have ht : (Run.plain text).source.text = .ok text := rfl
  unfold Run.Stops at h
  by_cases hfit : ∀ q ∈ checks text, q.Fits
  · obtain ⟨late, hne, hqueue⟩ := queue_ok ht hfit (show flashImages _ = .ok _ from rfl)
    rw [hqueue] at h
    refine ⟨hfit, ?_⟩
    by_contra hno
    refine fbExecuteQueue_passes d hne _ (fun _ => rfl) ?_ h
    intro a ha
    rcases List.mem_append.mp ha with ha | ha
    · have hdump : ∀ a ∈ queueInfoDump, goesOn d true a = true := by
        simp [queueInfoDump, fbQueueNotice, fbQueueDisplay, goesOn]
      exact hdump a ha
    · obtain ⟨q, hq, rfl⟩ := List.mem_map.mp ha
      rw [goesOn_action, Bool.true_and]
      by_contra hfails
      exact hno ⟨q, hq, Bool.not_eq_true _ ▸ hfails⟩
  · rw [queue_overflow ht hfit] at h
    exact h.elim

theorem gates_iff_or (text : List UInt8) (d : Device) :
    Gates text d ↔ AllMet text d ∨ SomeCheckFails text d := by
  constructor
  · intro h
    by_cases hall : AllMet text d
    · exact .inl hall
    · exact .inr (someCheckFails_of_stops (h hall _ rfl _))
  · rintro (hall | hfails) hnot r ht oks
    · exact absurd hall hnot
    · exact stops_of_someCheckFails hfails r ht oks

/-! ## Files that the code reads as they are -/

/-- The file has no line that the code reads otherwise: the requirements end in a newline and have no
zero byte, at most 32 options and a name that fits, and none rejects a star alone. -/
structure WellFormed (text : List UInt8) : Prop where
  last : ∀ l ∈ (lines text).getLast?, requirement l = none
  noNul : 0 ∉ text
  line : ∀ l ∈ lines text, ∀ r, requirement l = some r →
    r.options.length ≤ MAX_OPTIONS ∧ r.name.length + 7 < cmdSize ∧ (r.reject → [42] ∉ r.options)

theorem strip_strip (s : List UInt8) : strip (strip s) = strip s := by
  have hhead : (strip s).dropWhile isspace = strip s := by
    cases hs : strip s with
    | nil => rfl
    | cons b t =>
      -- what is left of the end does not change the start
      obtain ⟨u, hu⟩ : strip s <+: s.dropWhile isspace := List.rdropWhile_prefix isspace _
      have hb := List.head?_dropWhile_not isspace s
      rw [← hu, hs] at hb
      simp only [List.cons_append, List.head?_cons] at hb
      rw [List.dropWhile_cons, if_neg (by simpa using hb)]
  rw [strip, hhead]
  exact List.rdropWhile_idempotent isspace _

theorem strchr_of_not_mem {c : UInt8} {s : List UInt8} (h : c ∉ s) : strchr c s = none := by
  induction s with
  | nil => rfl
  | cons b s ih =>
    have hb : b ≠ c := fun hb => h (by simp [hb])
    rw [strchr, if_neg hb, ih fun hm => h (by simp [hm])]
    rfl

theorem strchr_of_mem {c : UInt8} {s : List UInt8} (h : c ∈ s) :
    strchr c s = some (s.takeWhile (· ≠ c), (s.dropWhile (· ≠ c)).tail) := by
  induction s with
  | nil => cases h
  | cons b s ih =>
    by_cases hb : b = c
    · rw [strchr, if_pos hb]
      simp [hb]
    · have hm : c ∈ s := by
        rcases List.mem_cons.mp h with rfl | hm
        · exact absurd rfl hb
        · exact hm
      rw [strchr, if_neg hb, ih hm]
      simp [hb]

/-- A list that a separator is in. -/
theorem splitOn_of_mem {c : UInt8} {s : List UInt8} (h : c ∈ s) :
    s.splitOn c = s.takeWhile (· ≠ c) :: (s.dropWhile (· ≠ c)).tail.splitOn c := by
  induction s with
  | nil => cases h
  | cons b s ih =>
    rw [List.splitOn_cons_eq_if_modifyHead]
    by_cases hb : b = c
    · simp [hb]
    · have hm : c ∈ s := by
        rcases List.mem_cons.mp h with rfl | hm
        · exact absurd rfl hb
        · exact hm
      simp [hb, ih hm]

/-- All the options, when there is room for them. -/
theorem splitOptions_eq (n : Nat) (s : List UInt8) (h : (s.splitOn 124).length ≤ n + 1) :
    splitOptions n s = s.splitOn 124 := by
  induction n generalizing s with
  | zero =>
    have hno : 124 ∉ s := by
      intro hm
      rw [splitOn_of_mem hm, List.length_cons] at h
      have := List.length_pos_of_ne_nil (List.splitOn_ne_nil 124 (s.dropWhile (· ≠ 124)).tail)
      omega
    rw [List.splitOn_eq_singleton hno]
    rfl
  | succ n ih =>
    by_cases hm : 124 ∈ s
    · rw [splitOn_of_mem hm, List.length_cons] at h
      rw [splitOptions, strchr_of_mem hm, splitOn_of_mem hm]
      dsimp only
      rw [ih _ (by omega)]
    · rw [splitOptions, strchr_of_not_mem hm, List.splitOn_eq_singleton hm]

/-- The code reads the requirement of a line. -/
theorem setupRequirementLine_eq {l : List UInt8} {r : Requirement} (h : requirement l = some r)
    (ho : r.options.length ≤ MAX_OPTIONS) :
    setupRequirementLine l = some ⟨r.name, r.reject, r.options⟩ := by
  unfold requirement at h
  unfold setupRequirementLine
  generalize (if ascii "reject " <+: l then (true, l.drop 7)
    else if ascii "require " <+: l then (false, l.drop 8) else (false, l)) = p at h ⊢
  obtain ⟨invert, line⟩ := p
  dsimp only at h ⊢
  by_cases hm : 61 ∈ line
  · rw [if_pos hm, Option.some.injEq] at h
    subst h
    dsimp only at ho
    rw [List.length_map] at ho
    rw [strchr_of_mem hm]
    dsimp only
    have hidem : strip ∘ strip = strip := funext strip_strip
    rw [splitOptions_eq (MAX_OPTIONS - 1) _ ho, strip_strip, List.map_map, hidem]
  · rw [if_neg hm] at h
    cases h

/-- A line that the code checks has a requirement. -/
theorem requirement_of_setupRequirementLine {l : List UInt8} {q : Check}
    (h : setupRequirementLine l = some q) : ∃ r, requirement l = some r ∧ r.name = q.name := by
  unfold setupRequirementLine at h
  unfold requirement
  generalize (if ascii "reject " <+: l then (true, l.drop 7)
    else if ascii "require " <+: l then (false, l.drop 8) else (false, l)) = p at h ⊢
  obtain ⟨invert, line⟩ := p
  dsimp only at h ⊢
  by_cases hm : 61 ∈ line
  · rw [strchr_of_mem hm] at h
    dsimp only at h
    rw [Option.some.injEq] at h
    rw [if_pos hm]
    refine ⟨_, rfl, ?_⟩
    rw [← h, strip_strip]
  · rw [strchr_of_not_mem hm] at h
    cases h

/-- The code takes no option for a match that is none. -/
theorem optionMatches_of_matchOption {v o : List UInt8} (h : matchOption v o = true) :
    OptionMatches v o := by
  unfold matchOption at h
  split at h
  · rename_i hstar
    obtain ⟨p, rfl⟩ := List.getLast?_eq_some_iff.mp hstar.2
    rw [List.dropLast_concat] at h
    exact .inr ⟨p, rfl, List.isPrefixOf_iff_prefix.mp h⟩
  · exact .inl (by simpa using h)

/-- The code misses a star alone only. -/
theorem matchOption_of_optionMatches {v o : List UInt8} (h : OptionMatches v o) (ho : o ≠ [42]) :
    matchOption v o = true := by
  unfold matchOption
  rcases h with rfl | ⟨p, rfl, hp⟩
  · split
    · exact List.isPrefixOf_iff_prefix.mpr (List.dropLast_prefix o)
    · simp
  · have hlen : p ≠ [] := by
      rintro rfl
      exact ho rfl
    have hpos := List.length_pos_of_ne_nil hlen
    rw [if_pos ⟨by simp; omega, by simp⟩, List.dropLast_concat]
    exact List.isPrefixOf_iff_prefix.mpr hp

theorem cstr_of_not_mem {l : List UInt8} (h : 0 ∉ l) : cstr l = l := Lib.takeWhile_ne_self h

/-- A line of the text has only bytes of the text. -/
theorem mem_of_mem_lines {text l : List UInt8} (hl : l ∈ lines text) {b : UInt8} (hb : b ∈ l) :
    b ∈ text := by
  unfold lines at hl
  induction text generalizing l with
  | nil =>
    rw [List.splitOn_nil, List.mem_singleton] at hl
    rw [hl] at hb
    cases hb
  | cons c text ih =>
    rw [List.splitOn_cons_eq_if_modifyHead] at hl
    split at hl
    · rcases List.mem_cons.mp hl with rfl | hl
      · cases hb
      · exact List.mem_cons_of_mem _ (ih hl hb)
    · obtain ⟨x, xs, hx⟩ := List.exists_cons_of_ne_nil (List.splitOn_ne_nil 10 text)
      rw [hx] at hl ih
      rcases List.mem_cons.mp hl with rfl | hl
      · rcases List.mem_cons.mp hb with rfl | hb
        · exact List.mem_cons_self
        · exact List.mem_cons_of_mem _ (ih List.mem_cons_self hb)
      · exact List.mem_cons_of_mem _ (ih (List.mem_cons_of_mem _ hl) hb)

namespace WellFormed

variable {text : List UInt8} (h : WellFormed text) {d : Device}

include h

theorem cstr_line {l : List UInt8} (hl : l ∈ lines text) : cstr l = l :=
  cstr_of_not_mem fun hb => h.noNul (mem_of_mem_lines hl hb)

/-- The lines with a requirement end in a newline. -/
theorem mem_dropLast {l : List UInt8} (hl : l ∈ lines text) {r : Requirement}
    (hr : requirement l = some r) : l ∈ (lines text).dropLast := by
  have hne : lines text ≠ [] := List.splitOn_ne_nil 10 text
  rw [← List.dropLast_append_getLast hne] at hl
  rcases List.mem_append.mp hl with hl | hl
  · exact hl
  · rw [List.mem_singleton] at hl
    have hnone := h.last l (by rw [List.getLast?_eq_getLast_of_ne_nil hne, hl]; rfl)
    rw [hnone] at hr
    cases hr

theorem fits {q : Check} (hq : q ∈ checks text) : q.Fits := by
  obtain ⟨l, hl, hq⟩ := List.mem_filterMap.mp hq
  have hmem : l ∈ lines text := (List.dropLast_prefix _).mem hl
  rw [h.cstr_line hmem] at hq
  obtain ⟨r, hr, hname⟩ := requirement_of_setupRequirementLine hq
  have := (h.line l hmem r hr).2.1
  rw [hname] at this
  exact this

/-- A requirement that is not met fails its check. -/
theorem someCheckFails (hnot : ¬ AllMet text d) : SomeCheckFails text d := by
  refine ⟨fun q hq => h.fits hq, ?_⟩
  unfold AllMet at hnot
  push Not at hnot
  obtain ⟨l, hl, r, hr, hmet⟩ := hnot
  obtain ⟨hopts, -, hstar⟩ := h.line l hl r hr
  refine ⟨⟨r.name, r.reject, r.options⟩, ?_, ?_⟩
  · apply List.mem_filterMap.mpr
    refine ⟨l, h.mem_dropLast hl hr, ?_⟩
    rw [h.cstr_line hl]
    exact setupRequirementLine_eq hr hopts
  · unfold Requirement.Met at hmet
    unfold Check.passes cbCheck matchValue
    cases hrej : r.reject with
    | true =>
      rw [if_pos hrej] at hmet
      push Not at hmet
      obtain ⟨o, ho, hm⟩ := hmet
      have hne : o ≠ [42] := by
        rintro rfl
        exact hstar hrej ho
      simp only [if_true, Bool.not_eq_false', List.any_eq_true]
      exact ⟨o, ho, matchOption_of_optionMatches hm hne⟩
    | false =>
      rw [if_neg (by simp [hrej])] at hmet
      push Not at hmet
      simp only [Bool.false_eq_true, if_false, List.any_eq_false]
      intro o ho hm
      exact hmet o ho (optionMatches_of_matchOption hm)

end WellFormed

/-- **Requirements gate flashing**: a requirement that is not met stops every run exactly when the
code sees one fail; and for a well-formed file that is on every device. -/
theorem requirements_gate (text : List UInt8) :
    (∀ d, Gates text d ↔ AllMet text d ∨ SomeCheckFails text d) ∧
      (WellFormed text → ∀ d, Gates text d) := by
  refine ⟨gates_iff_or text, fun h d => ?_⟩
  rw [gates_iff_or]
  by_cases hall : AllMet text d
  · exact .inl hall
  · exact .inr (h.someCheckFails hall)

/-- A device that answers `bar` to everything. -/
def Device.bar : Device := ⟨fun _ => ascii "bar", fun _ => by decide +kernel⟩

/-- A file of one line, on a device that meets it. -/
theorem requirements_gate_line :
    WellFormed (ascii "require product=foo|ba*\n") ∧
      Gates (ascii "require product=foo|ba*\n") Device.bar := by
  have hlines : lines (ascii "require product=foo|ba*\n") =
      [ascii "require product=foo|ba*", []] := by decide +kernel
  have hfoo : requirement (ascii "require product=foo|ba*") =
      some ⟨ascii "product", false, [ascii "foo", ascii "ba*"]⟩ := by decide +kernel
  have hnil : requirement [] = none := by decide +kernel
  have h : WellFormed (ascii "require product=foo|ba*\n") := by
    refine ⟨?_, by decide +kernel, ?_⟩
    · rw [hlines]
      intro l hl
      cases hl
      exact hnil
    · rw [hlines]
      intro l hl r hr
      rcases List.mem_cons.mp hl with rfl | hl
      · rw [hfoo, Option.some.injEq] at hr
        subst hr
        decide +kernel
      · rw [List.mem_singleton.mp hl, hnil] at hr
        cases hr
  exact ⟨h, (requirements_gate _).2 h _⟩

/-- The last line has no newline: a device that is not `foo` is flashed. -/
theorem unterminated_requirement_ignored :
    ¬ AllMet (ascii "require product=foo") Device.bar ∧
      ¬ Gates (ascii "require product=foo") Device.bar := by
  have hnot : ¬ AllMet (ascii "require product=foo") Device.bar := by
    intro hall
    have hmem : ascii "require product=foo" ∈ lines (ascii "require product=foo") := by
      decide +kernel
    have hfoo : requirement (ascii "require product=foo") =
        some ⟨ascii "product", false, [ascii "foo"]⟩ := by decide +kernel
    have hmet := hall _ hmem _ hfoo
    obtain ⟨o, ho, hm⟩ : ∃ o ∈ [ascii "foo"], OptionMatches (ascii "bar") o := hmet
    rw [List.mem_singleton] at ho
    subst ho
    rcases hm with hm | ⟨p, hm, -⟩
    · exact absurd hm (by decide +kernel)
    · have hlast : (ascii "foo").getLast? = some 42 := by
        rw [hm]
        simp
      exact absurd hlast (by decide +kernel)
  refine ⟨hnot, fun h => ?_⟩
  obtain ⟨-, q, hq, -⟩ := someCheckFails_of_stops (h hnot (Run.plain _) rfl fun _ => true)
  have hnone : checks (ascii "require product=foo") = [] := by decide +kernel
  rw [hnone] at hq
  cases hq

end Twm.Fastboot
