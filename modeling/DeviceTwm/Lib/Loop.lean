import Mathlib.Logic.Relation

/-!
# Loops that may go wrong

The body of a loop goes on with another state, leaves the loop, or goes wrong. A loop may also never
end.

* `loop body n s`: the loop from `s` on, for `n` rounds.
* `Ends body s`: it is left after some number of rounds.
* `loop_left_invariant`: what every round keeps.
* `loop_left_of_measure`: a loop whose every round makes a measure smaller is left.
* `ends_iff`: when a round that changes the state makes a measure smaller, the loop is left if and only
  if no state that it comes to goes wrong or stays as it is.
-/

namespace Lib

variable {σ α : Type}

/-- Where a loop is after some rounds. -/
inductive Outcome (σ α : Type)
  | running (s : σ)
  | left (a : α)
  | wrong
  deriving DecidableEq

/-- The loop for `n` rounds; the body goes on with a state, leaves with a result, or goes wrong. -/
def loop (body : σ → Option (σ ⊕ α)) : Nat → σ → Outcome σ α
  | 0, s => .running s
  | n + 1, s =>
    match body s with
    | none => .wrong
    | some (.inl s') => loop body n s'
    | some (.inr a) => .left a

/-- The loop is left. -/
def Ends (body : σ → Option (σ ⊕ α)) (s : σ) : Prop := ∃ n a, loop body n s = .left a

/-- One round. -/
def Goes (body : σ → Option (σ ⊕ α)) (s s' : σ) : Prop := body s = some (.inl s')

variable {body : σ → Option (σ ⊕ α)} {s s' : σ} {n : Nat}

theorem loop_goes (h : Goes body s s') : loop body (n + 1) s = loop body n s' := by
  rw [loop, h]

/-- A loop that is left stays so, with more rounds. -/
theorem loop_left_of_le {m : Nat} {a : α} (h : loop body n s = .left a) (hle : n ≤ m) :
    loop body m s = .left a := by
  induction n generalizing m s with
  | zero => cases h
  | succ n ih =>
    obtain ⟨m, rfl⟩ := Nat.exists_eq_add_of_le' (Nat.lt_of_succ_le hle)
    unfold loop at h ⊢
    split at h
    · cases h
    · exact ih h (Nat.le_of_succ_le_succ hle)
    · exact h

/-- What every round keeps holds when the loop is left. -/
theorem loop_left_invariant {I : σ → Prop} {Q : α → Prop} {a : α}
    (hgoes : ∀ s s', I s → Goes body s s' → I s') (hleft : ∀ s a, I s → body s = some (.inr a) → Q a)
    (hs : I s) (h : loop body n s = .left a) : Q a := by
  induction n generalizing s with
  | zero => cases h
  | succ n ih =>
    unfold loop at h
    split at h
    · cases h
    · exact ih (hgoes _ _ hs ‹_›) h
    · cases h
      exact hleft _ _ hs ‹_›

/-- A loop whose rounds keep the invariant and make a measure smaller is left, in as many rounds. -/
theorem loop_left_of_measure {I : σ → Prop} {Q : α → Prop} (measure : σ → Nat)
    (hround : ∀ s, I s → (∃ s', Goes body s s' ∧ I s' ∧ measure s' < measure s) ∨
      ∃ a, body s = some (.inr a) ∧ Q a)
    (hs : I s) (hn : measure s < n) : ∃ a, loop body n s = .left a ∧ Q a := by
  induction n generalizing s with
  | zero => exact absurd hn (Nat.not_lt_zero _)
  | succ n ih =>
    rcases hround s hs with ⟨s', hgoes, hs', hlt⟩ | ⟨a, hleft, ha⟩
    · rw [loop_goes hgoes]
      exact ih hs' (Nat.lt_of_lt_of_le hlt (Nat.le_of_lt_succ hn))
    · exact ⟨a, by rw [loop, hleft], ha⟩

theorem ends_goes_iff (h : Goes body s s') : Ends body s ↔ Ends body s' := by
  constructor
  · rintro ⟨n, a, hn⟩
    cases n with
    | zero => cases hn
    | succ n => exact ⟨n, a, (loop_goes h).symm.trans hn⟩
  · rintro ⟨n, a, hn⟩
    exact ⟨n + 1, a, (loop_goes h).trans hn⟩

theorem ends_reaches_iff (h : Relation.ReflTransGen (Goes body) s s') :
    Ends body s ↔ Ends body s' := by
  induction h with
  | refl => rfl
  | tail _ hgoes ih => exact ih.trans (ends_goes_iff hgoes)

theorem not_ends_of_wrong (h : body s = none) : ¬ Ends body s := by
  rintro ⟨n, a, hn⟩
  cases n with
  | zero => cases hn
  | succ n =>
    rw [loop, h] at hn
    cases hn

/-- A state that stays as it is stays in the loop. -/
theorem loop_of_goes_self (h : Goes body s s) (n : Nat) : loop body n s = .running s := by
  induction n with
  | zero => rfl
  | succ n ih => rw [loop_goes h, ih]

theorem not_ends_of_goes_self (h : Goes body s s) : ¬ Ends body s := by
  rintro ⟨n, a, hn⟩
  rw [loop_of_goes_self h] at hn
  cases hn

/-- **A loop whose rounds make a measure smaller**, unless they change nothing. -/
theorem ends_iff (measure : σ → Nat)
    (hmeasure : ∀ s s', Goes body s s' → s' = s ∨ measure s' < measure s) (s : σ) :
    Ends body s ↔
      ∀ s', Relation.ReflTransGen (Goes body) s s' → body s' ≠ none ∧ ¬ Goes body s' s' := by
  constructor
  · intro h s' hr
    have h' := (ends_reaches_iff hr).mp h
    exact ⟨fun hw => not_ends_of_wrong hw h', fun hg => not_ends_of_goes_self hg h'⟩
  · -- By induction on the measure.
    generalize hm : measure s = m
    induction m using Nat.strongRecOn generalizing s with
    | ind m ih =>
      intro h
      obtain ⟨hwrong, hself⟩ := h s .refl
      match hb : body s with
      | none => exact absurd hb hwrong
      | some (.inr a) => exact ⟨1, a, by rw [loop, hb]⟩
      | some (.inl s') =>
        have hgoes : Goes body s s' := hb
        rcases hmeasure s s' hgoes with rfl | hlt
        · exact absurd hgoes hself
        · rw [ends_goes_iff hgoes]
          exact ih (measure s') (hm ▸ hlt) s' rfl fun t ht => h t (.head hgoes ht)

end Lib
