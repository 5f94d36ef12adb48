import DeviceTwm.Lib.Run

/-!
# Two runs that differ in hidden steps

An observer does not see some of the steps of a system. If a hidden step keeps what the observer can
tell apart, and a visible one does so when it is taken on both sides, then two runs with the same
visible steps look the same (`Unwinding.run_agree`).
-/

namespace Lib

variable {σ ℓ : Type} {step : σ → ℓ → Option σ} {ok : σ → ℓ → Prop} {hidden : ℓ → Bool}
  {I : σ → Prop} {R : σ → σ → Prop}

/-- `R` relates states that look the same. -/
structure Unwinding (step : σ → ℓ → Option σ) (ok : σ → ℓ → Prop) (hidden : ℓ → Bool)
    (I : σ → Prop) (R : σ → σ → Prop) : Prop where
  inv : ∀ s l s', I s → ok s l → step s l = some s' → I s'
  symm : ∀ s s', R s s' → R s' s
  left : ∀ s s' l t, I s → I s' → R s s' → hidden l = true → ok s l → step s l = some t → R t s'
  both : ∀ s s' l t t', I s → I s' → R s s' → hidden l = false → ok s l → ok s' l →
    step s l = some t → step s' l = some t' → R t t'

/-- A run begins with a step, and goes on from there. -/
theorem run_cons {s t : σ} {l : ℓ} {ls : List ℓ} (hok : RunOk step ok s (l :: ls))
    (hrun : run step s (l :: ls) = some t) :
    ∃ s₁, step s l = some s₁ ∧ ok s l ∧ RunOk step ok s₁ ls ∧ run step s₁ ls = some t := by
  obtain ⟨s₁, h₁, h₂⟩ := Option.bind_eq_some_iff.mp hrun
  obtain ⟨hl, hrest⟩ := hok
  rw [h₁] at hrest
  exact ⟨s₁, h₁, hl, hrest, h₂⟩

theorem Unwinding.run_agree (U : Unwinding step ok hidden I R) {s s' t t' : σ} {ls ls' : List ℓ}
    (hs : I s) (hs' : I s') (hR : R s s') (hok : RunOk step ok s ls) (hok' : RunOk step ok s' ls')
    (hf : ls.filter (!hidden ·) = ls'.filter (!hidden ·))
    (hrun : run step s ls = some t) (hrun' : run step s' ls' = some t') : R t t' := by
  -- the steps of the first run, and before each visible one the hidden ones of the second run
  induction ls generalizing s s' ls' with
  | nil =>
    cases hrun
    induction ls' generalizing s' with
    | nil =>
      cases hrun'
      exact hR
    | cons l' ls' ih =>
      obtain ⟨s₁, h₁, hl, hok₁, hr₁⟩ := run_cons hok' hrun'
      cases hh : hidden l' with
      | true =>
        rw [List.filter_cons_of_neg (by simp [hh])] at hf
        have hR₁ := U.symm _ _ (U.left _ _ _ _ hs' hs (U.symm _ _ hR) hh hl h₁)
        exact ih (U.inv _ _ _ hs' hl h₁) hok₁ hf hr₁ hR₁
      | false =>
        rw [List.filter_cons_of_pos (by simp [hh])] at hf
        cases hf
  | cons l ls ih =>
    obtain ⟨s₁, h₁, hl, hok₁, hr₁⟩ := run_cons hok hrun
    cases hh : hidden l with
    | true =>
      rw [List.filter_cons_of_neg (by simp [hh])] at hf
      exact ih (U.inv _ _ _ hs hl h₁) hs' (U.left _ _ _ _ hs hs' hR hh hl h₁) hok₁ hok' hf hr₁ hrun'
    | false =>
      induction ls' generalizing s' with
      | nil =>
        rw [List.filter_cons_of_pos (by simp [hh])] at hf
        cases hf
      | cons l' ls' ih' =>
        obtain ⟨s₁', h₁', hl', hok₁', hr₁'⟩ := run_cons hok' hrun'
        cases hh' : hidden l' with
        | true =>
          have hR₁ := U.symm _ _ (U.left _ _ _ _ hs' hs (U.symm _ _ hR) hh' hl' h₁')
          refine ih' (U.inv _ _ _ hs' hl' h₁') hR₁ hok₁' ?_ hr₁'
          rw [hf, List.filter_cons_of_neg (by simp [hh'])]
        | false =>
          rw [List.filter_cons_of_pos (by simp [hh]), List.filter_cons_of_pos (by simp [hh'])] at hf
          obtain ⟨rfl, hrest⟩ := List.cons.inj hf
          exact ih (U.inv _ _ _ hs hl h₁) (U.inv _ _ _ hs' hl' h₁')
            (U.both _ _ _ _ _ hs hs' hR hh hl hl' h₁ h₁') hok₁ hok₁' hrest hr₁ hr₁'

end Lib
