import Mathlib.Logic.Function.Basic

/-!
# Writers that append

* `Puts`: from a state at its end (`atEnd`), a writer appends these items to what the state holds, and
  is at its end again.
* `Puts.bind` and `Puts.forM` put a writer together as the reader is (`Takes`).
* `Extends`: whatever a writer appends, it keeps what is there.
-/

namespace Lib

variable {σ α β γ ι : Type}

/-- The writer `x` appends `bs` and returns `a`. -/
def Puts (data : σ → List γ) (atEnd : σ → Prop) (x : StateT σ Option α) (bs : List γ) (a : α) :
    Prop :=
  ∀ s, atEnd s → ∃ s', x.run s = some (a, s') ∧ data s' = data s ++ bs ∧ atEnd s'

namespace Puts

variable {data : σ → List γ} {atEnd : σ → Prop} {x : StateT σ Option α} {bs bs' : List γ} {a : α}
  {f : α → StateT σ Option β} {b : β}

theorem pure (a : α) : Puts data atEnd (pure a) [] a := fun s h =>
  ⟨s, rfl, (List.append_nil _).symm, h⟩

theorem bind (hx : Puts data atEnd x bs a) (hf : Puts data atEnd (f a) bs' b) :
    Puts data atEnd (x >>= f) (bs ++ bs') b := by
  intro s h
  obtain ⟨s₁, hs₁, hd₁, he₁⟩ := hx s h
  obtain ⟨s₂, hs₂, hd₂, he₂⟩ := hf s₁ he₁
  refine ⟨s₂, ?_, ?_, he₂⟩
  · rw [StateT.run_bind, hs₁]
    exact hs₂
  · rw [hd₂, hd₁, List.append_assoc]

/-- The last part of a writer puts nothing. -/
theorem last (hx : Puts data atEnd x bs a) (hf : Puts data atEnd (f a) [] b) :
    Puts data atEnd (x >>= f) bs b := by
  have h := hx.bind hf
  rwa [List.append_nil] at h

/-- A loop puts what its rounds put. -/
theorem forM {w : ι → StateT σ Option Unit} {enc : ι → List γ} (is : List ι)
    (hw : ∀ i ∈ is, Puts data atEnd (w i) (enc i) ()) :
    Puts data atEnd (is.forM w) (is.flatMap enc) () := by
  induction is with
  | nil => exact pure ()
  | cons i is ih =>
    rw [List.flatMap_cons]
    exact (hw i List.mem_cons_self).bind (ih fun j hj => hw j (List.mem_cons_of_mem _ hj))

end Puts

/-! ## Appending something -/

/-- When the writer `x` returns, what the state held is still there, in front of the rest. -/
def Extends (data : σ → List γ) (atEnd : σ → Prop) (x : StateT σ Option α) : Prop :=
  ∀ s a s', atEnd s → x.run s = some (a, s') → data s <+: data s' ∧ atEnd s'

namespace Extends

variable {data : σ → List γ} {atEnd : σ → Prop} {x y : StateT σ Option α}
  {f : α → StateT σ Option β}

theorem pure (a : α) : Extends data atEnd (pure a) := by
  intro s b s' h hrun
  cases hrun
  exact ⟨List.prefix_rfl, h⟩

theorem lift (o : Option α) : Extends data atEnd (StateT.lift o) := by
  intro s a s' h hrun
  obtain ⟨b, -, hb⟩ := Option.bind_eq_some_iff.mp hrun
  cases hb
  exact ⟨List.prefix_rfl, h⟩

theorem modify {g : σ → σ} (hg : ∀ s, atEnd s → data s <+: data (g s) ∧ atEnd (g s)) :
    Extends data atEnd (modify g : StateT σ Option PUnit) := by
  intro s a s' h hrun
  cases hrun
  exact hg s h

theorem bind (hx : Extends data atEnd x) (hf : ∀ a, Extends data atEnd (f a)) :
    Extends data atEnd (x >>= f) := by
  intro s b s' h hrun
  rw [StateT.run_bind] at hrun
  obtain ⟨⟨a, s₁⟩, hx₁, hf₁⟩ := Option.bind_eq_some_iff.mp hrun
  obtain ⟨hd₁, he₁⟩ := hx s a s₁ h hx₁
  obtain ⟨hd₂, he₂⟩ := hf a s₁ b s' he₁ hf₁
  exact ⟨hd₁.trans hd₂, he₂⟩

theorem ite {c : Prop} [Decidable c] (hx : Extends data atEnd x) (hy : Extends data atEnd y) :
    Extends data atEnd (if c then x else y) := by
  split
  · exact hx
  · exact hy

theorem forM {w : ι → StateT σ Option PUnit} (hw : ∀ i, Extends data atEnd (w i)) (is : List ι) :
    Extends data atEnd (is.forM w) := by
  induction is with
  | nil => exact pure _
  | cons i is ih => exact (hw i).bind fun _ => ih

theorem foldlM {w : α → ι → StateT σ Option α} (hw : ∀ a i, Extends data atEnd (w a i))
    (is : List ι) (a : α) : Extends data atEnd (is.foldlM w a) := by
  induction is generalizing a with
  | nil => exact pure a
  | cons i is ih => exact (hw a i).bind fun b => ih b

end Extends

end Lib
