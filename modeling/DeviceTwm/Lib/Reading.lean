import Mathlib.Logic.Function.Basic

/-!
# Readers that look at their errors late

A strict reader stops at the first read that fails. A lax reader goes on, and its caller looks at the
error at the end. When a failed read makes every later one fail (`stuck`), the two agree.

* `Agrees`: what a lax reader does, next to a strict one.
* `Agrees.bind`: it is enough that the parts agree.
* `Takes`: a lax reader takes from its input what a writer put there; `Takes.bind` and
  `Takes.replicate` put a reader together as the writer is.
* `Consumes`: a lax reader makes so many reads of one size, of whatever is there.
-/

namespace Lib

variable {ρ σ α β : Type}

/-- The state of a lax reader: the input that is left (`view`), no read has failed (`good`), or every
later read will fail (`stuck`). -/
structure Laxity (ρ σ : Type) where
  view : ρ → σ
  good : ρ → Prop
  stuck : ρ → Prop

/-- The lax reader `x` does what the strict one does when that succeeds, and gets stuck when it
fails. -/
structure Agrees (L : Laxity ρ σ) (x : StateM ρ α) (y : StateT σ Option α) : Prop where
  ok : ∀ r a s, L.good r → y.run (L.view r) = some (a, s) →
    ∃ r', x.run r = (a, r') ∧ L.view r' = s ∧ L.good r'
  fails : ∀ r, y.run (L.view r) = none → L.good r → L.stuck (x.run r).2
  stays : ∀ r, L.stuck r → L.stuck (x.run r).2

namespace Agrees

variable {L : Laxity ρ σ} {x : StateM ρ α} {y : StateT σ Option α} {f : α → StateM ρ β}
  {g : α → StateT σ Option β}

theorem pure (a : α) : Agrees L (pure a) (pure a) where
  ok r b s hg h := by
    cases h
    exact ⟨r, rfl, rfl, hg⟩
  fails r h := by cases h
  stays r h := h

theorem bind (hx : Agrees L x y) (hf : ∀ a, Agrees L (f a) (g a)) :
    Agrees L (x >>= f) (y >>= g) where
  ok r b s hg h := by
    rw [StateT.run_bind] at h
    obtain ⟨⟨a, s₁⟩, hy, hg'⟩ := Option.bind_eq_some_iff.mp h
    obtain ⟨r₁, hr₁, rfl, hg₁⟩ := hx.ok r a s₁ hg hy
    obtain ⟨r₂, hr₂, hs, hg₂⟩ := (hf a).ok r₁ b s hg₁ hg'
    refine ⟨r₂, ?_, hs, hg₂⟩
    rw [StateT.run_bind, hr₁]
    exact hr₂
  fails r h hg := by
    rw [StateT.run_bind] at h ⊢
    cases hy : y.run (L.view r) with
    | none => exact (hf _).stays _ (hx.fails r hy hg)
    | some as =>
      obtain ⟨a, s₁⟩ := as
      obtain ⟨r₁, hr₁, rfl, hg₁⟩ := hx.ok r a s₁ hg hy
      rw [hr₁]
      rw [hy] at h
      exact (hf a).fails r₁ h hg₁
  stays r h := by
    rw [StateT.run_bind]
    exact (hf _).stays _ (hx.stays r h)

/-- Reading so many times the same thing. -/
theorem replicate (hx : Agrees L x y) (n : Nat) :
    Agrees L ((List.replicate n ()).mapM fun _ => x) ((List.replicate n ()).mapM fun _ => y) := by
  induction n with
  | zero => exact pure []
  | succ n ih =>
    simp only [List.replicate_succ, List.mapM_cons]
    exact hx.bind fun a => ih.bind fun as => pure (a :: as)

end Agrees

/-! ## Reading what was written -/

/-- When the input starts with `bs`, the reader `x` takes these and returns `a`. A read that takes
something is good. -/
def Takes {γ : Type} (left : ρ → List γ) (good : ρ → Prop) (x : StateM ρ α) (bs : List γ)
    (a : α) : Prop :=
  ∀ r rest, left r = bs ++ rest →
    ∃ r', x.run r = (a, r') ∧ left r' = rest ∧ (good r ∨ bs ≠ [] → good r')

namespace Takes

variable {γ : Type} {left : ρ → List γ} {good : ρ → Prop} {x : StateM ρ α} {bs bs' : List γ}
  {a : α} {f : α → StateM ρ β} {b : β}

theorem pure (a : α) : Takes left good (pure a) [] a := fun r _ h =>
  ⟨r, rfl, h, fun hg => hg.resolve_right (· rfl)⟩

theorem bind (hx : Takes left good x bs a) (hf : Takes left good (f a) bs' b) :
    Takes left good (x >>= f) (bs ++ bs') b := by
  intro r rest h
  rw [List.append_assoc] at h
  obtain ⟨r₁, hr₁, hl₁, hg₁⟩ := hx r _ h
  obtain ⟨r₂, hr₂, hl₂, hg₂⟩ := hf r₁ rest hl₁
  refine ⟨r₂, ?_, hl₂, fun hg => hg₂ ?_⟩
  · rw [StateT.run_bind, hr₁]
    exact hr₂
  · by_cases hbs : good r ∨ bs ≠ []
    · exact .inl (hg₁ hbs)
    · rw [not_or, not_not] at hbs
      rw [hbs.2] at hg
      exact .inr (hg.resolve_left hbs.1)

/-- The last part of a reader takes nothing. -/
theorem last (hx : Takes left good x bs a) (hf : Takes left good (f a) [] b) :
    Takes left good (x >>= f) bs b := by
  have h := hx.bind hf
  rwa [List.append_nil] at h

/-- A loop of reads takes what a loop of writes put there. -/
theorem replicate {enc : α → List γ} (hx : ∀ a, Takes left good x (enc a) a) (as : List α) :
    Takes left good ((List.replicate as.length ()).mapM fun _ => x) (as.flatMap enc) as := by
  induction as with
  | nil => exact pure []
  | cons a as ih =>
    simp only [List.length_cons, List.replicate_succ, List.mapM_cons, List.flatMap_cons]
    exact (hx a).bind (ih.last (pure (a :: as)))

end Takes

/-! ## Reads of one size -/

/-- The reader `x` makes `n` reads of one item each. `items` is how many items there are; a read that
finds none fails, and a later one can only fail too. The state at the end is that of the last read. -/
def Consumes (items : ρ → Nat) (good : ρ → Prop) (x : StateM ρ α) (n : Nat) : Prop :=
  ∀ r, items (x.run r).2 = items r - n ∧
    (good (x.run r).2 ↔ (n = 0 ∧ good r) ∨ (n ≠ 0 ∧ n ≤ items r))

namespace Consumes

variable {items : ρ → Nat} {good : ρ → Prop} {x : StateM ρ α} {f : α → StateM ρ β} {n k : Nat}

theorem pure (a : α) : Consumes items good (pure a) 0 := fun r => by
  refine ⟨rfl, ?_⟩
  show good r ↔ _
  simp

theorem bind (hx : Consumes items good x n) (hf : ∀ a, Consumes items good (f a) k) :
    Consumes items good (x >>= f) (n + k) := by
  intro r
  rw [StateT.run_bind]
  obtain ⟨hi, hg⟩ := hx r
  obtain ⟨hi', hg'⟩ := hf (x.run r).1 (x.run r).2
  refine ⟨?_, hg'.trans ?_⟩
  · apply hi'.trans
    omega
  · rw [hg, hi]
    by_cases hn : n = 0
    · simp [hn]
    · simp only [hn, false_and, ne_eq, not_false_eq_true, true_and, false_or]
      omega

/-- Reading so many times the same thing. -/
theorem replicate (hx : Consumes items good x n) (k : Nat) :
    Consumes items good ((List.replicate k ()).mapM fun _ => x) (k * n) := by
  induction k with
  | zero =>
    rw [Nat.zero_mul]
    exact pure []
  | succ k ih =>
    rw [Nat.add_one_mul, Nat.add_comm (k * n)]
    simp only [List.replicate_succ, List.mapM_cons]
    exact hx.bind fun a => ih.bind fun as => pure (a :: as)

end Consumes

end Lib
