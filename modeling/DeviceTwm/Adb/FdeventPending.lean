import DeviceTwm.Adb.FdeventTable

/-!
# Events on their way to a callback

Between `fdevent_process`, which collects the events of a descriptor, and the turn of its fdevent on
the pending list, other callbacks can change what the fdevent wants. `fdevent_set` is to take out the
events that are no longer wanted. It takes out those that are.

So the events that are left are those that no call asked for in between, and these are the ones that are
still wanted only if no call changed what is wanted, or if nothing that was collected is to be left
(`delivers_iff`).
-/

open Lib

namespace Twm.Adb.Select

/-! ## One fdevent -/

/-- The events that are wanted after some calls. -/
def wantedAfter (w : Word) : List Call → Word
  | [] => w
  | c :: cs => wantedAfter (mask (c.word w)) cs

/-- The events that the calls ask for which change what is wanted, one word for each call. -/
def asked (w : Word) : List Call → List Word
  | [] => []
  | c :: cs =>
    if w = mask (c.word w) then asked (mask (c.word w)) cs
    else mask (c.word w) :: asked (mask (c.word w)) cs

/-- All the events among them. -/
def anyOf (ms : List Word) : Word := ms.foldr (· ||| ·) 0

/-- The calls of other callbacks. -/
def Fdevent.rearms (f : Fdevent) (cs : List Call) : Fdevent :=
  cs.foldl (fun f c => f.rearm (mask (c.word f.wanted))) f

/-- No call changes what is wanted; or nothing that was collected is wanted in the end, and all of it
was asked for at some time. -/
def Kept (collected w : Word) (cs : List Call) : Prop :=
  asked w cs = [] ∨
    (collected &&& wantedAfter w cs = 0 ∧ collected &&& ~~~anyOf (asked w cs) = 0)

instance (collected w : Word) (cs : List Call) : Decidable (Kept collected w cs) :=
  inferInstanceAs (Decidable (_ ∨ _))

theorem anyOf_cons (m : Word) (ms : List Word) : anyOf (m :: ms) = m ||| anyOf ms := rfl

/-- Where nothing is asked for, nothing is dropped. -/
theorem and_not_anyOf_nil (w : Word) : w &&& ~~~anyOf [] = w := BitVec.and_allOnes

/-- What is wanted in the end was asked for last. -/
theorem wantedAfter_of_asked (w : Word) (cs : List Call) :
    (asked w cs = [] → wantedAfter w cs = w) ∧
      (asked w cs ≠ [] → wantedAfter w cs &&& ~~~anyOf (asked w cs) = 0) := by
  induction cs generalizing w with
  | nil => exact ⟨fun _ => rfl, fun h => absurd rfl h⟩
  | cons c cs ih =>
    obtain ⟨hnone, hsome⟩ := ih (mask (c.word w))
    rw [asked, wantedAfter]
    by_cases hsame : w = mask (c.word w)
    · rw [if_pos hsame]
      exact ⟨fun h => (hnone h).trans hsame.symm, hsome⟩
    · rw [if_neg hsame]
      refine ⟨fun h => absurd h (List.cons_ne_nil _ _), fun _ => ?_⟩
      rw [anyOf_cons, BitVec.not_or]
      by_cases hcs : asked (mask (c.word w)) cs = []
      · rw [hnone hcs, ← BitVec.and_assoc, BitVec.and_not_self]
        exact BitVec.zero_and
      · rw [BitVec.and_comm (~~~_), ← BitVec.and_assoc, hsome hcs]
        exact BitVec.zero_and

/-- What is left is what is still wanted, in just these cases. -/
theorem kept_iff {collected w : Word} (hsub : collected &&& w = collected) (cs : List Call) :
    collected &&& ~~~anyOf (asked w cs) = collected &&& wantedAfter w cs ↔
      Kept collected w cs := by
  obtain ⟨hnone, hsome⟩ := wantedAfter_of_asked w cs
  by_cases hcs : asked w cs = []
  · rw [hnone hcs, hsub, hcs]
    exact iff_of_true (and_not_anyOf_nil collected) (.inl hcs)
  · rw [Kept, or_iff_right hcs]
    constructor
    · intro heq
      -- what is left is wanted, but what is wanted was asked for
      have hzero : collected &&& wantedAfter w cs = 0 := by
        calc collected &&& wantedAfter w cs
            = (collected &&& wantedAfter w cs) &&& wantedAfter w cs := by
              rw [BitVec.and_assoc, BitVec.and_self]
          _ = collected &&& (wantedAfter w cs &&& ~~~anyOf (asked w cs)) := by
              rw [← heq, BitVec.and_assoc, BitVec.and_comm (~~~_)]
          _ = 0 := by
              rw [hsome hcs]
              exact BitVec.and_zero
      exact ⟨hzero, heq.trans hzero⟩
    · rintro ⟨hzero, hleft⟩
      rw [hzero, hleft]

/-! ## Among the others -/

/-- The events that `x` has, which its callback gets when it is its turn, are those of `collected` that
it wants; and it is on the pending list if there are any. -/
def Delivers (s : Fdevents) (x : Nat) (collected : Word) : Prop :=
  (s.fde x).events = collected &&& (s.fde x).wanted ∧
    (x ∈ s.listPending ↔ collected &&& (s.fde x).wanted ≠ 0)

instance (s : Fdevents) (x : Nat) (collected : Word) : Decidable (Delivers s x collected) :=
  inferInstanceAs (Decidable (_ ∧ _))

end Twm.Adb.Select
