import DeviceTwm.Lib.Act

/-!
# Computations with a log

`Logged σ ε` is a state with a log of events. A computation on it follows one on the state alone
(`Logged.Follows ok Q m m'`) when it does the same there, returns what satisfies `Q`, and logs only events
that are `ok`. The rules follow the shape of the computation.
-/

namespace Lib

/-- A state, and the events so far, the last one first. -/
structure Logged (σ ε : Type) where
  state : σ
  log : List ε

namespace Logged

variable {σ ε α β : Type}

/-- Every event so far is `ok`. -/
def All (ok : ε → Prop) (s : Logged σ ε) : Prop := ∀ e ∈ s.log, ok e

def emit (e : ε) : Act (Logged σ ε) Unit := .lift fun s => ((), { s with log := e :: s.log })

/-- A computation without events. -/
def quietly (m : Act σ α) : Act (Logged σ ε) α := fun s =>
  ((m s.state).1, { s with state := (m s.state).2 })

theorem emit_eq (e : ε) (s : Logged σ ε) : emit e s = (some (), { s with log := e :: s.log }) := rfl

theorem all_emit {ok : ε → Prop} {e : ε} {s : Logged σ ε} :
    All ok { s with log := e :: s.log } ↔ ok e ∧ All ok s := by
  simp [All]

/-- `m` does what `m'` does, and what it logs is `ok`. -/
structure FollowsAt (ok : ε → Prop) (Q : α → Prop) (m : Act (Logged σ ε) α) (m' : Act σ α)
    (s : Logged σ ε) : Prop where
  run : m' s.state = ((m s).1, (m s).2.state)
  keeps : All ok (m s).2 ↔ All ok s
  returns : ∀ a, (m s).1 = some a → Q a

def Follows (ok : ε → Prop) (Q : α → Prop) (m : Act (Logged σ ε) α) (m' : Act σ α) : Prop :=
  ∀ s, FollowsAt ok Q m m' s

section Rules

variable {ok : ε → Prop} {Q : α → Prop} {R : β → Prop} {m : Act (Logged σ ε) α} {m' : Act σ α}

/-- What follows at all does the same. -/
theorem Follows.weaken {ok' : ε → Prop} (h : Follows ok Q m m') (hok : ∀ e, ok' e) : Follows ok' Q m m' :=
  fun s => ⟨(h s).run, iff_of_true (fun e _ => hok e) fun e _ => hok e, (h s).returns⟩

theorem Follows.pure {a : α} (h : Q a) : Follows ok Q (pure a : Act (Logged σ ε) α) (pure a) :=
  fun _ => ⟨rfl, Iff.rfl, fun _ hb => by cases hb; exact h⟩

theorem Follows.fail : Follows ok Q (.fail : Act (Logged σ ε) α) .fail :=
  fun _ => ⟨rfl, Iff.rfl, nofun⟩

theorem Follows.quietly (h : ∀ s a, (m' s).1 = some a → Q a) : Follows ok Q (quietly m') m' :=
  fun s => ⟨rfl, Iff.rfl, fun a ha => h s.state a ha⟩

theorem Follows.bind {f : α → Act (Logged σ ε) β} {f' : α → Act σ β} (h : Follows ok Q m m')
    (hf : ∀ a, Q a → Follows ok R (f a) (f' a)) : Follows ok R (m >>= f) (m' >>= f') := by
  intro s
  obtain ⟨hrun, hkeeps, hret⟩ := h s
  rcases hm : m s with ⟨_ | a, t⟩
  · rw [hm] at hrun hkeeps
    have hb := Act.bind_none (f := f) hm
    refine ⟨?_, ?_, ?_⟩
    · rw [Act.bind_none hrun, hb]
    · rwa [hb]
    · rw [hb]
      exact nofun
  · rw [hm] at hrun hkeeps hret
    have hb := Act.bind_some (f := f) hm
    obtain ⟨hrun', hkeeps', hret'⟩ := hf a (hret a rfl) t
    refine ⟨?_, ?_, ?_⟩
    · rw [Act.bind_some hrun, hb, hrun']
    · rw [hb]
      exact hkeeps'.trans hkeeps
    · rw [hb]
      exact hret'

/-- An event before the computation. -/
theorem Follows.emit {e : ε} (he : ok e) {f : Unit → Act (Logged σ ε) α} (h : Follows ok Q (f ()) m') :
    Follows ok Q (emit e >>= f) m' := by
  intro s
  obtain ⟨hrun, hkeeps, hret⟩ := h { s with log := e :: s.log }
  have hb := Act.bind_some (f := f) (emit_eq e s)
  refine ⟨?_, ?_, ?_⟩
  · rw [hb]
    exact hrun
  · rw [hb, hkeeps, all_emit, and_iff_right he]
  · rw [hb]
    exact hret

theorem Follows.onFail {h : Act (Logged σ ε) β} {h' : Act σ β} (hm : Follows ok Q m m')
    (hh : Follows ok R h h') : Follows ok Q (m.onFail h) (m'.onFail h') := by
  intro s
  obtain ⟨hrun, hkeeps, hret⟩ := hm s
  rcases hr : m s with ⟨_ | a, t⟩
  · rw [hr] at hrun hkeeps
    have hb := Act.onFail_none (h := h) hr
    obtain ⟨hrun', hkeeps', -⟩ := hh t
    refine ⟨?_, ?_, ?_⟩
    · rw [Act.onFail_none hrun, hb, hrun']
    · rw [hb]
      exact hkeeps'.trans hkeeps
    · rw [hb]
      exact nofun
  · rw [hr] at hrun hkeeps hret
    have hb := Act.onFail_some (h := h) hr
    refine ⟨?_, ?_, ?_⟩
    · rw [Act.onFail_some hrun, hb]
    · rwa [hb]
    · rw [hb]
      exact hret

theorem Follows.reading {f : Logged σ ε → Act (Logged σ ε) α} {f' : σ → Act σ α}
    (h : ∀ s, Follows ok Q (f s) (f' s.state)) : Follows ok Q (.reading f) (.reading f') :=
  fun s => ⟨(h s s).run, (h s s).keeps, (h s s).returns⟩

theorem Follows.forM {γ : Type} {f : γ → Act (Logged σ ε) PUnit} {f' : γ → Act σ PUnit} {xs : List γ}
    (h : ∀ x ∈ xs, Follows ok (fun _ => True) (f x) (f' x)) :
    Follows ok (fun _ => True) (xs.forM f) (xs.forM f') := by
  induction xs with
  | nil => exact .pure trivial
  | cons x xs ih =>
    exact (h x (by simp)).bind fun _ _ => ih fun y hy => h y (List.mem_cons_of_mem _ hy)

end Rules

end Logged

end Lib
