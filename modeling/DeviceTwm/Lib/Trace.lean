import Mathlib.Data.List.Induction

/-!
# Two kinds of events that take turns in a trace

A trace is a list of events, the newest last. Some of them open something, and some close it.

* `pending`: an event opens, and none after it closes.
* `Separated`: between two events that open there is one that closes.
* `Separated.snoc`: what a step that adds an event has to show.
-/

namespace Lib

variable {α : Type}

section

variable (opens closes : α → Bool)

/-- Some event opens, and none after it closes. -/
def pending (l : List α) : Bool :=
  l.foldl (fun b e => if opens e then true else if closes e then false else b) false

/-- Between two events that open there is one that closes. -/
def Separated (l : List α) : Prop :=
  ∀ a x b y c, l = a ++ x :: b ++ y :: c → opens x = true → opens y = true →
    ∃ z ∈ b, closes z = true

end

variable {opens closes : α → Bool} {l : List α} {e : α}

theorem pending_snoc (l : List α) (e : α) : pending opens closes (l ++ [e]) =
    if opens e then true else if closes e then false else pending opens closes l := by
  simp only [pending, List.foldl_append, List.foldl_cons, List.foldl_nil]

theorem pending_snoc_neutral (ho : opens e = false) (hc : closes e = false) :
    pending opens closes (l ++ [e]) = pending opens closes l := by
  rw [pending_snoc, ho, hc]
  rfl

/-- When nothing is pending, every event that opens is followed by one that closes. -/
theorem closed_after {a b : List α} {x : α} (hx : opens x = true)
    (h : pending opens closes (a ++ x :: b) = false) : ∃ z ∈ b, closes z = true := by
  induction b using List.reverseRecOn with
  | nil =>
    rw [pending_snoc, if_pos hx] at h
    cases h
  | append_singleton b z ih =>
    rw [← List.cons_append, ← List.append_assoc, pending_snoc] at h
    by_cases hc : closes z = true
    · exact ⟨z, by simp, hc⟩
    · split at h
      · cases h
      · obtain ⟨y, hy, hcy⟩ := ih h
        exact ⟨y, List.mem_append_left _ hy, hcy⟩

theorem separated_nil : Separated opens closes [] := by
  intro a x b y c h
  have := congrArg List.length h
  simp at this

/-- An event is added; if it opens, nothing is pending. -/
theorem Separated.snoc (h : Separated opens closes l)
    (he : opens e = true → pending opens closes l = false) : Separated opens closes (l ++ [e]) := by
  intro a x b y c heq hx hy
  cases c using List.reverseRecOn with
  | nil =>
    obtain ⟨rfl, hey⟩ := List.append_inj' heq rfl
    cases hey
    exact closed_after hx (he hy)
  | append_singleton c z =>
    refine h a x b y c ?_ hx hy
    rw [← List.cons_append, ← List.append_assoc] at heq
    exact (List.append_inj' heq rfl).1

end Lib
