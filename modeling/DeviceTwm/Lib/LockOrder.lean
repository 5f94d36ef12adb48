import DeviceTwm.Lib.Run
import Mathlib.Data.Set.Basic

/-!
# Threads with locks

Threads run programs whose steps take a lock, give one back, or act on shared data; what an action finds
there decides what is run next. A lock is held by one thread at a time, and a thread that wants one that
is held waits, also for itself.

* `Deadlock`: some threads, each of which waits for a lock that one of them holds.
* `no_deadlock`: there is none when a thread only waits for locks that come after all it holds, in some
  order of the locks.
* `Ordered`: a program that takes its locks in such an order, and gives all of them back.
* `Machine.no_deadlock`: where every program that is started is so, and the actions only lead to such
  programs, no run comes to a deadlock.
-/

namespace Lib

variable {θ L A σ : Type}

/-- A set of threads, each of which waits for a lock that a thread of the set holds. -/
def Deadlock (owner : L → Option θ) (waits : θ → Option L) (S : Set θ) : Prop :=
  S.Nonempty ∧ ∀ t ∈ S, ∃ l, waits t = some l ∧ ∃ t' ∈ S, owner l = some t'

/-- A thread waits for a lock that comes after all it holds: then some thread can go on. -/
theorem no_deadlock {owner : L → Option θ} {waits : θ → Option L} (rank : L → Nat) {n : Nat}
    (hn : ∀ l, rank l ≤ n)
    (h : ∀ t l k, waits t = some l → owner k = some t → rank k < rank l) (S : Set θ) :
    ¬ Deadlock owner waits S := by
  rintro ⟨⟨t₀, ht₀⟩, hS⟩
  -- along the locks that are waited for the rank goes up without end
  have hclimb : ∀ m : Nat, ∃ t ∈ S, ∃ l, waits t = some l ∧ m ≤ rank l := by
    intro m
    induction m with
    | zero =>
      obtain ⟨l, hl, -⟩ := hS t₀ ht₀
      exact ⟨t₀, ht₀, l, hl, Nat.zero_le _⟩
    | succ m ih =>
      obtain ⟨t, ht, l, hl, hm⟩ := ih
      obtain ⟨l', hl', t', ht', hown⟩ := hS t ht
      cases hl.symm.trans hl'
      obtain ⟨k, hk, -⟩ := hS t' ht'
      exact ⟨t', ht', k, hk, Nat.lt_of_le_of_lt hm (h t' k l hk hown)⟩
  obtain ⟨t, -, l, -, hm⟩ := hclimb (n + 1)
  exact absurd (hn l) (by omega)

/-- A step of a program: `act a` acts on the data. -/
inductive LockOp (L A : Type)
  | lock (l : L)
  | unlock (l : L)
  | act (a : A)
  deriving DecidableEq

/-- The threads, the locks, and the data they share. -/
structure Machine (θ L A σ : Type) where
  data : σ
  owner : L → Option θ
  prog : θ → List (LockOp L A)

/-- A thread without a program starts one, or a thread goes on. -/
inductive MachineStep (θ L A : Type)
  | call (t : θ) (p : List (LockOp L A))
  | run (t : θ)
  deriving DecidableEq

namespace Machine

/-- The lock that a thread wants next. -/
def wants (m : Machine θ L A σ) (t : θ) : Option L :=
  match m.prog t with
  | .lock l :: _ => some l
  | _ => none

variable [DecidableEq θ] [DecidableEq L] (exec : σ → A → σ × List (LockOp L A))

/-- One step. An action changes the data, and says what is run before the rest. -/
def step (m : Machine θ L A σ) : MachineStep θ L A → Option (Machine θ L A σ)
  | .call t p =>
    match m.prog t with
    | [] => some { m with prog := Function.update m.prog t p }
    | _ :: _ => none
  | .run t =>
    match m.prog t with
    | [] => none
    | .lock l :: rest =>
      match m.owner l with
      | none => some { m with
          owner := Function.update m.owner l (some t), prog := Function.update m.prog t rest }
      | some _ => none
    | .unlock l :: rest => some { m with
        owner := Function.update m.owner l none, prog := Function.update m.prog t rest }
    | .act a :: rest => some { m with
        data := (exec m.data a).1
        prog := Function.update m.prog t ((exec m.data a).2 ++ rest) }

end Machine

/-- With the locks `held`, a program takes each lock after all those it holds, acts only where it may,
and gives every lock back. -/
def Ordered [DecidableEq L] (rank : L → Nat) (fits : A → List L → Prop) :
    List L → List (LockOp L A) → Prop
  | held, [] => held = []
  | held, .lock l :: ops => (∀ k ∈ held, rank k < rank l) ∧ Ordered rank fits (l :: held) ops
  | held, .unlock l :: ops => l ∈ held ∧ Ordered rank fits (held.erase l) ops
  | held, .act a :: ops => fits a held ∧ Ordered rank fits held ops

section

variable [DecidableEq L] {rank : L → Nat} {fits : A → List L → Prop}

/-- A lock that is taken for a while. -/
theorem ordered_section {held : List L} {l : L} {a : A} {ops : List (LockOp L A)}
    (hl : ∀ k ∈ held, rank k < rank l) (ha : fits a (l :: held)) (h : Ordered rank fits held ops) :
    Ordered rank fits held (.lock l :: .act a :: .unlock l :: ops) := by
  refine ⟨hl, ha, List.mem_cons_self, ?_⟩
  rwa [List.erase_cons_head]

end

namespace Machine

variable [DecidableEq θ] [DecidableEq L] {exec : σ → A → σ × List (LockOp L A)} {rank : L → Nat}
  {fits : A → List L → Prop} {D : σ → Prop} {m m' : Machine θ L A σ}

/-- The data is as it should be, and each thread holds locks with which the rest of its program is
ordered. -/
structure Inv (D : σ → Prop) (rank : L → Nat) (fits : A → List L → Prop) (m : Machine θ L A σ) :
    Prop where
  data : D m.data
  ordered : ∀ t, ∃ held : List L, held.Nodup ∧ (∀ l, l ∈ held ↔ m.owner l = some t) ∧
    Ordered rank fits held (m.prog t)

/-- An action keeps the data as it should be, and one that fits leads to a program that does. -/
def Leads (exec : σ → A → σ × List (LockOp L A)) (D : σ → Prop) (rank : L → Nat)
    (fits : A → List L → Prop) : Prop :=
  ∀ d a, D d → D (exec d a).1 ∧ ∀ held ops, fits a held → Ordered rank fits held ops →
    Ordered rank fits held ((exec d a).2 ++ ops)

/-- What is asked of a step: a program that is started begins without locks. -/
def StepOk (rank : L → Nat) (fits : A → List L → Prop) (_ : Machine θ L A σ) :
    MachineStep θ L A → Prop
  | .call _ p => Ordered rank fits [] p
  | .run _ => True

/-- The other threads hold what they held. -/
theorem Inv.other {t : θ} {p : List (LockOp L A)} (hi : Inv D rank fits m) (hdata : D m'.data)
    (hown : ∀ t' ≠ t, ∀ l, m'.owner l = some t' ↔ m.owner l = some t')
    (hprog : m'.prog = Function.update m.prog t p)
    (hself : ∃ held : List L, held.Nodup ∧ (∀ l, l ∈ held ↔ m'.owner l = some t) ∧
      Ordered rank fits held p) : Inv D rank fits m' := by
  refine ⟨hdata, fun t' => ?_⟩
  rcases eq_or_ne t' t with rfl | hne
  · obtain ⟨held, hn, hmem, ho⟩ := hself
    exact ⟨held, hn, hmem, by rwa [hprog, Function.update_self]⟩
  · obtain ⟨held, hn, hmem, ho⟩ := hi.ordered t'
    exact ⟨held, hn, fun l => (hmem l).trans (hown t' hne l).symm,
      by rwa [hprog, Function.update_of_ne hne]⟩

theorem step_inv (hexec : Leads exec D rank fits) (hi : Inv D rank fits m) {s : MachineStep θ L A}
    (hok : StepOk rank fits m s) (hs : m.step exec s = some m') : Inv D rank fits m' := by
  cases s with
  | call t p =>
    rw [step] at hs
    split at hs
    case h_1 hnil =>
      cases hs
      obtain ⟨held, hn, hmem, ho⟩ := hi.ordered t
      rw [hnil] at ho
      cases ho
      exact hi.other hi.data (fun _ _ _ => Iff.rfl) rfl ⟨[], List.nodup_nil, hmem, hok⟩
    case h_2 => cases hs
  | run t =>
    obtain ⟨held, hn, hmem, ho⟩ := hi.ordered t
    rw [step] at hs
    split at hs
    case h_1 => cases hs
    case h_2 l rest hp =>
      split at hs
      case h_1 hfree =>
        cases hs
        rw [hp] at ho
        have hnot : l ∉ held := fun hl =>
          Option.some_ne_none t (((hmem l).mp hl).symm.trans hfree)
        refine hi.other hi.data (fun t' hne k => ?_) rfl ⟨l :: held, List.nodup_cons.mpr ⟨hnot, hn⟩,
          fun k => ?_, ho.2⟩
        · dsimp only
          rcases eq_or_ne k l with rfl | hk
          · rw [Function.update_self, hfree]
            exact iff_of_false (fun h => hne (Option.some.inj h).symm) (Option.some_ne_none t').symm
          · rw [Function.update_of_ne hk]
        · dsimp only
          rcases eq_or_ne k l with rfl | hk
          · rw [Function.update_self]
            exact iff_of_true List.mem_cons_self rfl
          · rw [Function.update_of_ne hk, List.mem_cons, or_iff_right hk]
            exact hmem k
      case h_2 => cases hs
    case h_3 l rest hp =>
      cases hs
      rw [hp] at ho
      have hl := (hmem l).mp ho.1
      refine hi.other hi.data (fun t' hne k => ?_) rfl ⟨held.erase l, hn.erase l, fun k => ?_, ho.2⟩
      · dsimp only
        rcases eq_or_ne k l with rfl | hk
        · rw [Function.update_self, hl]
          exact iff_of_false (Option.some_ne_none t').symm fun h => hne (Option.some.inj h).symm
        · rw [Function.update_of_ne hk]
      · dsimp only
        rw [hn.mem_erase_iff]
        rcases eq_or_ne k l with rfl | hk
        · rw [Function.update_self]
          exact iff_of_false (fun h => h.1 rfl) (Option.some_ne_none t).symm
        · rw [Function.update_of_ne hk, hmem]
          exact and_iff_right hk
    case h_4 a rest hp =>
      cases hs
      rw [hp] at ho
      obtain ⟨hdata, hlead⟩ := hexec m.data a hi.data
      exact hi.other hdata (fun _ _ _ => Iff.rfl) rfl ⟨held, hn, hmem, hlead _ _ ho.1 ho.2⟩

/-- Along a run of ordered programs no threads wait for each other. -/
theorem no_deadlock (hexec : Leads exec D rank fits) {n : Nat} (hn : ∀ l, rank l ≤ n)
    (hi : Inv D rank fits m) {ss : List (MachineStep θ L A)}
    (hok : RunOk (step exec) (StepOk rank fits) m ss) (hrun : run (step exec) m ss = some m')
    (S : Set θ) : ¬ Deadlock m'.owner m'.wants S := by
  have hi' : Inv D rank fits m' := run_invariant (I := Inv D rank fits)
    (fun m s m' hi hok hs => step_inv hexec hi hok hs) hi hok hrun
  refine Lib.no_deadlock rank hn (fun t l k hw hk => ?_) S
  obtain ⟨held, -, hmem, ho⟩ := hi'.ordered t
  rw [wants] at hw
  split at hw
  case h_1 l' rest hp =>
    cases hw
    rw [hp] at ho
    exact ho.1 k ((hmem k).mpr hk)
  case h_2 => cases hw

end Machine

end Lib
