import Mathlib.Logic.Basic

/-!
# Two runs of a computation

`Act σ α` is a computation on a state, which may give up. `Agrees P m Q E` is about two runs of `m` from
states that are related by `P`: either both return the same value, in states related by `Q` for that
value; or both give up, in states related by `E`. The rules below follow the shape of the computation.
-/

namespace Lib

/-- A computation on a state; `none`: it gives up. -/
def Act (σ α : Type) : Type := σ → Option α × σ

namespace Act

variable {σ α β : Type}

instance : Monad (Act σ) where
  pure a := fun s => (some a, s)
  bind m f := fun s =>
    match m s with
    | (some a, s) => f a s
    | (none, s) => (none, s)

def fail : Act σ α := fun s => (none, s)

/-- What does not give up. -/
def lift (f : σ → α × σ) : Act σ α := fun s => (some (f s).1, (f s).2)

/-- Whether it gives up or not. -/
def attempt (m : Act σ α) : Act σ Bool := fun s => (some (m s).1.isSome, (m s).2)

/-- Before it gives up, it does `h`. -/
def onFail (m : Act σ α) (h : Act σ β) : Act σ α := fun s =>
  match m s with
  | (some a, s) => (some a, s)
  | (none, s) => (none, (h s).2)

/-- A computation that depends on the state it starts in. -/
def reading (f : σ → Act σ α) : Act σ α := fun s => f s s

theorem bind_some {m : Act σ α} {f : α → Act σ β} {s t : σ} {a : α} (h : m s = (some a, t)) :
    (m >>= f) s = f a t := by
  show (match m s with | (some a, s) => f a s | (none, s) => (none, s)) = f a t
  rw [h]

theorem bind_none {m : Act σ α} {f : α → Act σ β} {s t : σ} (h : m s = (none, t)) :
    (m >>= f) s = (none, t) := by
  show (match m s with | (some a, s) => f a s | (none, s) => (none, s)) = (none, t)
  rw [h]

theorem attempt_eq {m : Act σ α} {s t : σ} {o : Option α} (h : m s = (o, t)) :
    attempt m s = (some o.isSome, t) := by
  rw [attempt, h]

theorem onFail_some {m : Act σ α} {h : Act σ β} {s t : σ} {a : α} (hm : m s = (some a, t)) :
    onFail m h s = (some a, t) := by
  rw [onFail, hm]

theorem onFail_none {m : Act σ α} {h : Act σ β} {s t : σ} (hm : m s = (none, t)) :
    onFail m h s = (none, (h t).2) := by
  rw [onFail, hm]

/-- Two runs of `m` do the same. -/
structure AgreeAt (m : Act σ α) (Q : α → σ → σ → Prop) (E : σ → σ → Prop) (s s' : σ) : Prop where
  result : (m s).1 = (m s').1
  returns : ∀ a, (m s).1 = some a → Q a (m s).2 (m s').2
  fails : (m s).1 = none → E (m s).2 (m s').2

theorem AgreeAt.of_some {m : Act σ α} {Q : α → σ → σ → Prop} {E : σ → σ → Prop} {s s' t t' : σ} {a : α}
    (h : m s = (some a, t)) (h' : m s' = (some a, t')) (hQ : Q a t t') : AgreeAt m Q E s s' where
  result := by rw [h, h']
  returns b hb := by
    rw [h] at hb
    cases hb
    rwa [h, h']
  fails hn := by
    rw [h] at hn
    cases hn

theorem AgreeAt.of_none {m : Act σ α} {Q : α → σ → σ → Prop} {E : σ → σ → Prop} {s s' t t' : σ}
    (h : m s = (none, t)) (h' : m s' = (none, t')) (hE : E t t') : AgreeAt m Q E s s' where
  result := by rw [h, h']
  returns b hb := by
    rw [h] at hb
    cases hb
  fails _ := by rwa [h, h']

/-- Both runs return the same value, or both give up. -/
theorem AgreeAt.cases {m : Act σ α} {Q : α → σ → σ → Prop} {E : σ → σ → Prop} {s s' : σ}
    (h : AgreeAt m Q E s s') :
    (∃ a t t', m s = (some a, t) ∧ m s' = (some a, t') ∧ Q a t t') ∨
      ∃ t t', m s = (none, t) ∧ m s' = (none, t') ∧ E t t' := by
  obtain ⟨hres, hret, hfail⟩ := h
  rcases hm : m s with ⟨_ | a, t⟩
  · rcases hm' : m s' with ⟨_ | b, t'⟩
    · rw [hm, hm'] at hfail
      exact .inr ⟨t, t', rfl, rfl, hfail rfl⟩
    · rw [hm, hm'] at hres
      cases hres
  · rcases hm' : m s' with ⟨_ | b, t'⟩
    · rw [hm, hm'] at hres
      cases hres
    · rw [hm, hm'] at hres hret
      cases hres
      exact .inl ⟨a, t, t', rfl, rfl, hret a rfl⟩

/-- Two runs of `m` from related states do the same. -/
def Agrees (P : σ → σ → Prop) (m : Act σ α) (Q : α → σ → σ → Prop) (E : σ → σ → Prop) : Prop :=
  ∀ s s', P s s' → AgreeAt m Q E s s'

section Rules

variable {P P' R : σ → σ → Prop} {Q Q' : α → σ → σ → Prop} {E : σ → σ → Prop} {m : Act σ α}

theorem Agrees.pure {a : α} (h : ∀ s s', P s s' → Q a s s') : Agrees P (pure a : Act σ α) Q E := by
  intro s s' hP
  refine ⟨rfl, fun b hb => ?_, nofun⟩
  cases hb
  exact h s s' hP

theorem Agrees.fail (h : ∀ s s', P s s' → E s s') : Agrees P (fail : Act σ α) Q E :=
  fun s s' hP => ⟨rfl, nofun, fun _ => h s s' hP⟩

theorem Agrees.pre (h : Agrees P m Q E) (hP : ∀ s s', P' s s' → P s s') : Agrees P' m Q E :=
  fun s s' hs => h s s' (hP s s' hs)

theorem Agrees.post (h : Agrees P m Q E) (hQ : ∀ a s s', Q a s s' → Q' a s s') : Agrees P m Q' E :=
  fun s s' hs => ⟨(h s s' hs).result, fun a ha => hQ a _ _ ((h s s' hs).returns a ha),
    (h s s' hs).fails⟩

/-- The two runs reach the same value, and go on from there. -/
theorem Agrees.bind {f : α → Act σ β} {Q' : β → σ → σ → Prop} (h : Agrees P m Q E)
    (hf : ∀ a, Agrees (Q a) (f a) Q' E) : Agrees P (m >>= f) Q' E := by
  intro s s' hP
  rcases (h s s' hP).cases with ⟨a, t, t', hm, hm', hQ⟩ | ⟨t, t', hm, hm', hE⟩
  · rcases (hf a t t' hQ).cases with ⟨b, u, u', hu, hu', hQ'⟩ | ⟨u, u', hu, hu', hE⟩
    · exact .of_some ((bind_some hm).trans hu) ((bind_some hm').trans hu') hQ'
    · exact .of_none ((bind_some hm).trans hu) ((bind_some hm').trans hu') hE
  · exact .of_none (bind_none hm) (bind_none hm') hE

theorem Agrees.lift {f : σ → α × σ}
    (h : ∀ s s', P s s' → (f s).1 = (f s').1 ∧ Q (f s).1 (f s).2 (f s').2) :
    Agrees P (lift f) Q E := by
  intro s s' hP
  obtain ⟨hv, hQ⟩ := h s s' hP
  refine ⟨congrArg some hv, fun a ha => ?_, nofun⟩
  cases ha
  exact hQ

theorem Agrees.attempt (h : Agrees P m (fun _ => R) R) :
    Agrees P (attempt m) (fun _ => R) E := by
  intro s s' hP
  rcases (h s s' hP).cases with ⟨a, t, t', hm, hm', hR⟩ | ⟨t, t', hm, hm', hR⟩
  · exact .of_some (attempt_eq hm) (attempt_eq hm') hR
  · exact .of_some (attempt_eq hm) (attempt_eq hm') hR

theorem Agrees.onFail {h : Act σ β} {E' : σ → σ → Prop} (hm : Agrees P m Q E')
    (hh : Agrees E' h (fun _ => E) E) : Agrees P (onFail m h) Q E := by
  intro s s' hP
  rcases (hm s s' hP).cases with ⟨a, t, t', hs, hs', hQ⟩ | ⟨t, t', hs, hs', hE'⟩
  · exact .of_some (onFail_some hs) (onFail_some hs') hQ
  · have hE : E (h t).2 (h t').2 := by
      rcases (hh t t' hE').cases with ⟨b, u, u', hu, hu', hE⟩ | ⟨u, u', hu, hu', hE⟩ <;> rwa [hu, hu']
    exact .of_none (onFail_none hs) (onFail_none hs') hE

/-- What is read of the state is the same on both sides. -/
theorem Agrees.reading {f : σ → Act σ α} (hf : ∀ s s', P s s' → f s = f s')
    (h : ∀ s, Agrees P (f s) Q E) : Agrees P (reading f) Q E := by
  intro s s' hP
  have hs := h s s s' hP
  have heq : Act.reading f s' = f s s' := by rw [Act.reading, ← hf s s' hP]
  constructor
  · rw [heq]
    exact hs.result
  · rw [heq]
    exact hs.returns
  · rw [heq]
    exact hs.fails

/-- A loop over a list keeps what each round keeps. -/
theorem Agrees.forM {γ : Type} {f : γ → Act σ PUnit} (h : ∀ x, Agrees R (f x) (fun _ => R) E)
    (xs : List γ) : Agrees R (xs.forM f) (fun _ => R) E := by
  induction xs with
  | nil => exact .pure fun _ _ hR => hR
  | cons x xs ih => exact (h x).bind fun _ => ih

end Rules

end Act

end Lib
