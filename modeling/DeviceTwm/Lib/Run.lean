import Mathlib.Logic.Function.Basic

/-!
# Runs of a step function

A system is a partial step function on states, with a label for each step that can be taken.

* `run`: the state after a list of steps.
* `RunOk`: every step of a run meets a condition on the state it is taken in.
* `RunOk.imp_of_invariant`: a condition that follows from another one and from an invariant.
* `run_invariant`: what every allowed step keeps holds at the end of every such run.
* `run_keeps`: the same of runs in which every step is allowed.
* `run_exists`: if allowed steps can be taken besides, the run gets to its end.
* `run_isSome_iff`: if of the allowed steps just the safe ones can be taken, the safe runs do.
-/

namespace Lib

variable {σ ℓ : Type} {step : σ → ℓ → Option σ} {ok : σ → ℓ → Prop} {I : σ → Prop}

/-- The state after the steps `ls`; `none` if one of them cannot be taken. -/
def run (step : σ → ℓ → Option σ) (s : σ) : List ℓ → Option σ
  | [] => some s
  | l :: ls => (step s l).bind fun s' => run step s' ls

/-- Every step of the run is allowed where it is taken. -/
def RunOk (step : σ → ℓ → Option σ) (ok : σ → ℓ → Prop) (s : σ) : List ℓ → Prop
  | [] => True
  | l :: ls => ok s l ∧
    match step s l with
    | none => True
    | some s' => RunOk step ok s' ls

instance RunOk.decidable [∀ s l, Decidable (ok s l)] :
    ∀ (s : σ) (ls : List ℓ), Decidable (RunOk step ok s ls)
  | _, [] => .isTrue trivial
  | s, l :: ls =>
    match h : step s l with
    | none => decidable_of_iff (ok s l) (by simp [RunOk, h])
    | some s' =>
      have := RunOk.decidable s' ls
      decidable_of_iff (ok s l ∧ RunOk step ok s' ls) (by simp [RunOk, h])

/-- In a run of allowed steps, which keep the invariant, a step may be judged by the invariant too. -/
theorem RunOk.imp_of_invariant {ok' : σ → ℓ → Prop}
    (hstep : ∀ s l s', I s → ok s l → step s l = some s' → I s')
    (h : ∀ s l, I s → ok s l → ok' s l) {s : σ} {ls : List ℓ} (hs : I s)
    (hok : RunOk step ok s ls) : RunOk step ok' s ls := by
  induction ls generalizing s with
  | nil => trivial
  | cons l ls ih =>
    refine ⟨h s l hs hok.1, ?_⟩
    have hrest := hok.2
    cases hl : step s l with
    | none => trivial
    | some s' =>
      rw [hl] at hrest
      exact ih (hstep s l s' hs hok.1 hl) hrest

theorem RunOk.imp {ok' : σ → ℓ → Prop} (h : ∀ s l, ok s l → ok' s l) {s : σ} {ls : List ℓ}
    (hok : RunOk step ok s ls) : RunOk step ok' s ls :=
  hok.imp_of_invariant (I := fun _ => True) (fun _ _ _ _ _ _ => trivial) (fun s l _ => h s l) trivial

/-- The first part of a run of allowed steps. -/
theorem RunOk.of_append {s : σ} {ks ls : List ℓ} (hok : RunOk step ok s (ks ++ ls)) :
    RunOk step ok s ks := by
  induction ks generalizing s with
  | nil => trivial
  | cons k ks ih =>
    refine ⟨hok.1, ?_⟩
    have hrest := hok.2
    cases hk : step s k with
    | none => trivial
    | some s' =>
      rw [hk] at hrest
      exact ih hrest

/-- The last part of a run of allowed steps. -/
theorem RunOk.of_append_right {s s' : σ} {ks ls : List ℓ} (hrun : run step s ks = some s')
    (hok : RunOk step ok s (ks ++ ls)) : RunOk step ok s' ls := by
  induction ks generalizing s with
  | nil =>
    cases hrun
    exact hok
  | cons k ks ih =>
    obtain ⟨s₁, hk, hrun⟩ := Option.bind_eq_some_iff.mp hrun
    have hrest := hok.2
    rw [hk] at hrest
    exact ih hrun hrest

/-- Two runs of allowed steps, one after the other. -/
theorem RunOk.append {s : σ} {ks ls : List ℓ} (hks : RunOk step ok s ks)
    (hls : ∀ s', run step s ks = some s' → RunOk step ok s' ls) : RunOk step ok s (ks ++ ls) := by
  induction ks generalizing s with
  | nil => exact hls s rfl
  | cons k ks ih =>
    refine ⟨hks.1, ?_⟩
    have hrest := hks.2
    cases hk : step s k with
    | none => trivial
    | some s₁ =>
      rw [hk] at hrest
      refine ih hrest fun s' hrun => hls s' ?_
      rw [run, hk]
      exact hrun

theorem run_append (s : σ) (ks ls : List ℓ) :
    run step s (ks ++ ls) = (run step s ks).bind fun s' => run step s' ls := by
  induction ks generalizing s with
  | nil => rfl
  | cons k ks ih =>
    simp only [List.cons_append, run, Option.bind_assoc]
    congr 1
    funext s'
    exact ih s'

theorem runOk_of_mem {ls : List ℓ} (h : ∀ l ∈ ls, ∀ s, ok s l) (s : σ) : RunOk step ok s ls := by
  induction ls generalizing s with
  | nil => trivial
  | cons l ls ih =>
    refine ⟨h l List.mem_cons_self s, ?_⟩
    split
    · trivial
    · exact ih (fun l hl => h l (List.mem_cons_of_mem _ hl)) _

theorem runOk_of_forall (h : ∀ s l, ok s l) (s : σ) (ls : List ℓ) : RunOk step ok s ls :=
  runOk_of_mem (fun l _ s => h s l) s

/-- What every allowed step keeps holds at the end of every run of allowed steps. -/
theorem run_invariant (hstep : ∀ s l s', I s → ok s l → step s l = some s' → I s') {s s' : σ}
    {ls : List ℓ} (hs : I s) (hok : RunOk step ok s ls) (hrun : run step s ls = some s') :
    I s' := by
  induction ls generalizing s with
  | nil =>
    cases hrun
    exact hs
  | cons l ls ih =>
    obtain ⟨s₁, h₁, h₂⟩ := Option.bind_eq_some_iff.mp hrun
    obtain ⟨hl, hok⟩ := hok
    rw [h₁] at hok
    exact ih (hstep s l s₁ hs hl h₁) hok h₂

/-- What every step keeps holds at the end of every run. -/
theorem run_keeps (hstep : ∀ s l s', I s → step s l = some s' → I s') {s s' : σ} {ls : List ℓ}
    (hs : I s) (hrun : run step s ls = some s') : I s' := by
  have hok : RunOk step (fun _ _ => True) s ls := runOk_of_forall (fun _ _ => trivial) s ls
  exact run_invariant (fun s l s' h _ => hstep s l s' h) hs hok hrun

/-- When every allowed step can be taken, so can every run of allowed steps. -/
theorem run_exists (hstep : ∀ s l, I s → ok s l → ∃ s', step s l = some s' ∧ I s') {s : σ}
    {ls : List ℓ} (hs : I s) (hok : RunOk step ok s ls) : ∃ s', run step s ls = some s' ∧ I s' := by
  induction ls generalizing s with
  | nil => exact ⟨s, rfl, hs⟩
  | cons l ls ih =>
    obtain ⟨hl, hrest⟩ := hok
    obtain ⟨s₁, h₁, hI⟩ := hstep s l hs hl
    rw [h₁] at hrest
    obtain ⟨s', hrun, hI'⟩ := ih hI hrest
    exact ⟨s', Option.bind_eq_some_iff.mpr ⟨s₁, h₁, hrun⟩, hI'⟩

/-- When of the allowed steps those can be taken that are safe, and no others, a run of allowed steps gets
to its end exactly if it is safe. -/
theorem run_isSome_iff {safe : σ → ℓ → Prop} (hstep : ∀ s l, I s → ok s l →
      (safe s l → ∃ s', step s l = some s' ∧ I s') ∧ (¬ safe s l → step s l = none))
    {s : σ} {ls : List ℓ} (hs : I s) (hok : RunOk step ok s ls) :
    (run step s ls).isSome = true ↔ RunOk step safe s ls := by
  induction ls generalizing s with
  | nil => exact iff_of_true rfl trivial
  | cons l ls ih =>
    obtain ⟨hl, hrest⟩ := hok
    obtain ⟨hsafe, hno⟩ := hstep s l hs hl
    rw [run, RunOk]
    by_cases h : safe s l
    · obtain ⟨s₁, h₁, hI⟩ := hsafe h
      rw [h₁] at hrest
      rw [h₁, Option.bind_some, and_iff_right h]
      exact ih hI hrest
    · rw [hno h]
      exact iff_of_false Bool.false_ne_true fun hall => h hall.1

end Lib
