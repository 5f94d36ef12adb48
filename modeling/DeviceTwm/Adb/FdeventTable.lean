import Mathlib.Data.List.Nodup
import DeviceTwm.Adb.Fdevent
import Mathlib.Algebra.Group.Nat.Defs

/-!
# The table of descriptors

`fd_table` finds the fdevent of a descriptor, `select_n` is beyond the descriptors in use, and the
three sets for `select` mirror what the fdevents want.

`Inv` is what every call keeps, whatever was in the memory that the table grew into. `Consistent` says
besides that the table holds nothing else. When the table grows, only as many bytes are cleared as there
would be if a pointer were an `int`; and a set has no room for descriptors from `FD_SETSIZE` on. In
every run without these two, the calls succeed and leave the table consistent (`table_consistent`).
-/

open Lib

namespace Twm.Adb.Select

/-- A set has the descriptors whose fdevents want `bit`. -/
def Mirrors (fde : Nat → Fdevent) (fds : Nat → Bool) (bit : Word) : Prop :=
  ∀ i, fds i = true ↔ ∃ x, (fde x).Active ∧ (fde x).fd = i ∧ (fde x).wanted &&& bit ≠ 0

/-- The flag says which fdevents are on the pending list; these have events, and are installed. -/
structure Queue (fde : Nat → Fdevent) (list : List Nat) : Prop where
  mem : ∀ x, x ∈ list ↔ (fde x).Pending
  nodup : list.Nodup
  events : ∀ x, (fde x).Pending ↔ (fde x).events ≠ 0
  active : ∀ x, (fde x).Pending → (fde x).Active

structure Inv (s : Fdevents) : Prop where
  table : ∀ x, (s.fde x).Active → (s.fde x).fd < s.fdTableMax ∧ s.fdTable (s.fde x).fd = some x
  select : ∀ x, (s.fde x).Active → (s.fde x).fd < s.selectN
  read : Mirrors s.fde s.readFds fdeRead
  write : Mirrors s.fde s.writeFds fdeWrite
  error : Mirrors s.fde s.errorFds fdeError
  queue : Queue s.fde s.listPending

theorem Inv.inj {s : Fdevents} (h : Inv s) {x y : Nat} (hx : (s.fde x).Active)
    (hy : (s.fde y).Active) (hfd : (s.fde x).fd = (s.fde y).fd) : x = y := by
  have htx := (h.table x hx).2
  rw [hfd, (h.table y hy).2] at htx
  exact (Option.some.inj htx).symm

/-- What a new fdevent `x` has in common with the old one, no fdevent loses. -/
theorem update_field {β : Type} (field : Fdevent → β) {fde : Nat → Fdevent} {x : Nat} {f : Fdevent}
    (h : field f = field (fde x)) (y : Nat) :
    field (Function.update fde x f y) = field (fde y) := by
  by_cases hyx : y = x
  · rw [hyx, Function.update_self, h]
  · rw [Function.update_of_ne hyx]

/-! ## The sets -/

namespace Mirrors

variable {fde : Nat → Fdevent} {fds : Nat → Bool} {bit : Word} {x : Nat} {f : Fdevent}

/-- The fdevents of another descriptor than that of `x` are the same as before. -/
theorem elsewhere (hfd : f.Active → f.fd = (fde x).fd) {i : Nat} (hi : i ≠ (fde x).fd) :
    (∃ y, (Function.update fde x f y).Active ∧ (Function.update fde x f y).fd = i ∧
      (Function.update fde x f y).wanted &&& bit ≠ 0) ↔
    ∃ y, (fde y).Active ∧ (fde y).fd = i ∧ (fde y).wanted &&& bit ≠ 0 := by
  constructor
  · rintro ⟨y, hy, hyfd, hw⟩
    have hyx : y ≠ x := by
      rintro rfl
      rw [Function.update_self] at hy hyfd
      exact hi (hyfd ▸ hfd hy)
    rw [Function.update_of_ne hyx] at hy hyfd hw
    exact ⟨y, hy, hyfd, hw⟩
  · rintro ⟨y, hy, hyfd, hw⟩
    have hyx : y ≠ x := fun hyx => hi (by rw [← hyfd, hyx])
    exact ⟨y, by simpa [Function.update_of_ne hyx] using ⟨hy, hyfd, hw⟩⟩

/-- What the fdevent `x` wants has changed. -/
theorem set (h : Mirrors fde fds bit)
    (hinj : ∀ y, (fde y).Active → (fde y).fd = (fde x).fd → y = x) (hfd : f.fd = (fde x).fd)
    (hf : f.Active) :
    Mirrors (Function.update fde x f)
      (Function.update fds (fde x).fd (decide (f.wanted &&& bit ≠ 0))) bit := by
  intro i
  by_cases hi : i = (fde x).fd
  · subst hi
    rw [Function.update_self, decide_eq_true_iff]
    constructor
    · intro hw
      exact ⟨x, by simpa using ⟨hf, hfd, hw⟩⟩
    · rintro ⟨y, hy, hyfd, hw⟩
      by_cases hyx : y = x
      · simpa [hyx] using hw
      · rw [Function.update_of_ne hyx] at hy hyfd
        exact absurd (hinj y hy hyfd) hyx
  · rw [Function.update_of_ne hi, h i]
    exact (elsewhere (fun _ => hfd) hi).symm

/-- The fdevent `x` is gone. -/
theorem clear (h : Mirrors fde fds bit)
    (hinj : ∀ y, (fde y).Active → (fde y).fd = (fde x).fd → y = x) (hf : ¬ f.Active) :
    Mirrors (Function.update fde x f) (Function.update fds (fde x).fd false) bit := by
  intro i
  by_cases hi : i = (fde x).fd
  · subst hi
    rw [Function.update_self]
    refine iff_of_false Bool.false_ne_true ?_
    rintro ⟨y, hy, hyfd, -⟩
    by_cases hyx : y = x
    · subst hyx
      rw [Function.update_self] at hy
      exact hf hy
    · rw [Function.update_of_ne hyx] at hy hyfd
      exact hyx (hinj y hy hyfd)
  · rw [Function.update_of_ne hi, h i]
    exact (elsewhere (fun ha => absurd ha hf) hi).symm

/-- What the fdevent `x` wants is the same as before. -/
theorem same (h : Mirrors fde fds bit)
    (hf : ∀ i, (f.Active ∧ f.fd = i ∧ f.wanted &&& bit ≠ 0) ↔
      ((fde x).Active ∧ (fde x).fd = i ∧ (fde x).wanted &&& bit ≠ 0)) :
    Mirrors (Function.update fde x f) fds bit := by
  intro i
  rw [h i]
  refine exists_congr fun y => ?_
  by_cases hyx : y = x
  · subst hyx
    rw [Function.update_self]
    exact (hf i).symm
  · rw [Function.update_of_ne hyx]

end Mirrors

/-! ## The pending list -/

namespace Queue

variable {fde : Nat → Fdevent} {list : List Nat} {x : Nat} {f : Fdevent}

/-- The fdevent `x` has changed, and on the list no other has come or gone. -/
theorem update (h : Queue fde list) {list' : List Nat} (hnodup : list'.Nodup)
    (hne : ∀ y ≠ x, y ∈ list' ↔ y ∈ list) (hx : x ∈ list' ↔ f.Pending)
    (he : f.Pending ↔ f.events ≠ 0) (ha : f.Pending → f.Active) :
    Queue (Function.update fde x f) list' := by
  have hall : ∀ y, (y ∈ list' ↔ (Function.update fde x f y).Pending) ∧
      ((Function.update fde x f y).Pending ↔ (Function.update fde x f y).events ≠ 0) ∧
      ((Function.update fde x f y).Pending → (Function.update fde x f y).Active) := by
    intro y
    by_cases hyx : y = x
    · subst hyx
      rw [Function.update_self]
      exact ⟨hx, he, ha⟩
    · rw [Function.update_of_ne hyx]
      exact ⟨(hne y hyx).trans (h.mem y), h.events y, h.active y⟩
  exact ⟨fun y => (hall y).1, hnodup, fun y => (hall y).2.1, fun y => (hall y).2.2⟩

/-- The fdevent `x` leaves the list. -/
theorem erase (h : Queue fde list) (hf : ¬ f.Pending) (he : f.events = 0) :
    Queue (Function.update fde x f) (list.erase x) := by
  refine h.update (h.nodup.erase x) (fun y hy => List.mem_erase_of_ne hy) ?_ ?_ ?_
  · rw [h.nodup.mem_erase_iff]
    simp [hf]
  · simp [hf, he]
  · exact fun hp => absurd hp hf

/-- The fdevent `x` stays on the list, or off it. -/
theorem keep (h : Queue fde list) (hf : f.Pending ↔ (fde x).Pending)
    (he : f.Pending ↔ f.events ≠ 0) (ha : f.Pending → f.Active) :
    Queue (Function.update fde x f) list :=
  h.update h.nodup (fun _ _ => Iff.rfl) ((h.mem x).trans hf.symm) he ha

/-- The fdevent `x` goes to the tail of the list. -/
theorem append (h : Queue fde list) (hx : ¬ (fde x).Pending) (hf : f.Pending) (he : f.events ≠ 0)
    (ha : f.Active) : Queue (Function.update fde x f) (list ++ [x]) := by
  have hnot : x ∉ list := fun hmem => hx ((h.mem x).mp hmem)
  refine h.update ?_ (fun y hy => ?_) ?_ (iff_of_true hf he) fun _ => ha
  · exact List.nodup_append.mpr ⟨h.nodup, List.nodup_singleton x, by
      rintro a ha b hb rfl
      exact hnot (List.mem_singleton.mp hb ▸ ha)⟩
  · simp [hy]
  · simp [hf]

end Queue

/-! ## Calls that change what is wanted -/

theorem Fdevent.rearm_pending_iff {f : Fdevent} {e : BitVec 32} (hw : f.wanted ≠ mask e) :
    (f.rearm (mask e)).Pending ↔ f.Pending ∧ f.events &&& ~~~mask e ≠ 0 := by
  unfold rearm
  rw [if_neg hw]
  split
  · rename_i hp
    by_cases hz : f.events &&& ~~~mask e = 0
    · simp [Pending, hz]
    · simp only [if_neg hz]
      refine iff_of_true ?_ ⟨hp, hz⟩
      simpa [Pending, mask] using hp
  · rename_i hp
    refine iff_of_false ?_ (fun h => hp h.1)
    simpa [Pending, mask] using hp

namespace Inv

variable {s : Fdevents}

/-- The entries of the table and `select_n` have not changed, nor the descriptors. -/
theorem queue_rearmed (h : Queue s.fde s.listPending) (x : Nat) {e : BitVec 32}
    (hw : (s.fde x).wanted ≠ mask e) :
    Queue (s.rearmed x (mask e)).fde (s.rearmed x (mask e)).listPending := by
  have hiff := Fdevent.rearm_pending_iff hw
  have hev := (s.fde x).rearm_pending e (h.events x)
  unfold Fdevents.rearmed
  dsimp only
  split
  · rename_i hz
    have hno : ¬ ((s.fde x).rearm (mask e)).Pending := fun hp => (hiff.mp hp).2 hz.2
    exact h.erase hno (not_not.mp fun hne => hno (hev.mpr hne))
  · rename_i hz
    refine h.keep ?_ hev ?_
    · rw [hiff]
      exact ⟨And.left, fun hp => ⟨hp, fun hzero => hz ⟨hp, hzero⟩⟩⟩
    · intro hp
      rw [Fdevent.rearm_active]
      exact h.active x (hiff.mp hp).1

/-- What the fdevents are registered for has not changed. -/
theorem registered {s' : Fdevents} {x : Nat} {f : Fdevent} (h : Inv s)
    (hfde : s'.fde = Function.update s.fde x f) (hfd : f.fd = (s.fde x).fd)
    (ha : f.Active → (s.fde x).Active) :
    ∀ y, (s'.fde y).Active → ((s'.fde y).fd < s.fdTableMax ∧ s.fdTable (s'.fde y).fd = some y) ∧
      (s'.fde y).fd < s.selectN := by
  intro y hy
  rw [hfde] at hy ⊢
  by_cases hyx : y = x
  · subst hyx
    rw [Function.update_self] at hy ⊢
    rw [hfd]
    exact ⟨h.table y (ha hy), h.select y (ha hy)⟩
  · rw [Function.update_of_ne hyx] at hy ⊢
    exact ⟨h.table y hy, h.select y hy⟩

theorem set_active (h : Inv s) {x : Nat} {e : BitVec 32} (hw : (s.fde x).wanted ≠ mask e)
    (hact : (s.fde x).Active) :
    Inv ((s.setFds (s.fde x).fd (mask e)).rearmed x (mask e)) := by
  have hreg := @registered s ((s.setFds (s.fde x).fd (mask e)).rearmed x (mask e)) x
    ((s.fde x).rearm (mask e)) h rfl ((s.fde x).rearm_fd _) ((s.fde x).rearm_active e).mp
  have hset : ∀ fds bit, Mirrors s.fde fds bit →
      Mirrors (Function.update s.fde x ((s.fde x).rearm (mask e)))
        (Function.update fds (s.fde x).fd (decide (mask e &&& bit ≠ 0))) bit := by
    intro fds bit hm
    have := hm.set (fun y hy hfd => h.inj hy hact hfd) ((s.fde x).rearm_fd (mask e))
      (((s.fde x).rearm_active e).mpr hact)
    rwa [Fdevent.rearm_wanted] at this
  exact ⟨fun y hy => (hreg y hy).1, fun y hy => (hreg y hy).2, hset _ _ h.read, hset _ _ h.write,
    hset _ _ h.error, @queue_rearmed (s.setFds (s.fde x).fd (mask e)) h.queue x e hw⟩

/-- Of an fdevent that is not installed, only the word changes. -/
theorem set_idle (h : Inv s) {x : Nat} {e : BitVec 32} (hw : (s.fde x).wanted ≠ mask e)
    (hact : ¬ (s.fde x).Active) : Inv (s.rearmed x (mask e)) := by
  have hidle : ¬ ((s.fde x).rearm (mask e)).Active := fun ha =>
    hact (((s.fde x).rearm_active e).mp ha)
  have hreg := @registered s (s.rearmed x (mask e)) x ((s.fde x).rearm (mask e)) h rfl
    ((s.fde x).rearm_fd _) ((s.fde x).rearm_active e).mp
  have hsame : ∀ fds bit, Mirrors s.fde fds bit →
      Mirrors (Function.update s.fde x ((s.fde x).rearm (mask e))) fds bit := fun fds bit hm =>
    hm.same fun i => iff_of_false (fun hf => hidle hf.1) (fun hf => hact hf.1)
  exact ⟨fun y hy => (hreg y hy).1, fun y hy => (hreg y hy).2, hsame _ _ h.read, hsame _ _ h.write,
    hsame _ _ h.error, queue_rearmed h.queue x hw⟩

theorem call {x : Nat} {c : Call} {s' : Fdevents} (h : Inv s) (hc : s.call x c = some s') :
    Inv s' := by
  rw [Fdevents.call_eq, Fdevents.fdeventSet_eq] at hc
  split at hc
  · cases hc
    exact h
  · rename_i hw
    split at hc
    · rename_i hact
      split at hc
      · cases hc
        exact h.set_active hw hact
      · cases hc
    · rename_i hact
      cases hc
      exact h.set_idle hw hact

end Inv

/-! ## Installing -/

theorem le_doubled (fd k m : Nat) : m ≤ Fdevents.doubled fd k m := by
  induction k generalizing m with
  | zero => exact Nat.le_refl m
  | succ k ih =>
    rw [Fdevents.doubled]
    split
    · exact Nat.le_trans (by omega) (ih (m * 2))
    · exact Nat.le_refl m

theorem lt_doubled {fd k m : Nat} (h : fd < m * 2 ^ k) : fd < Fdevents.doubled fd k m := by
  induction k generalizing m with
  | zero => simpa [Fdevents.doubled] using h
  | succ k ih =>
    rw [Fdevents.doubled]
    split
    · apply ih
      rwa [Nat.mul_assoc, ← Nat.pow_succ']
    · omega

namespace Fdevents

variable (s : Fdevents)

/-- The table has room for `fd` once it has grown. -/
theorem lt_newMax (fd : Nat) : fd < s.newMax fd := by
  apply lt_doubled
  have hpow : fd + 1 < 2 ^ (fd + 1) := Nat.lt_two_pow_self
  have hpos : 1 ≤ if s.fdTableMax = 0 then 256 else s.fdTableMax := by
    split <;> omega
  calc fd < 1 * 2 ^ (fd + 1) := by omega
    _ ≤ _ := Nat.mul_le_mul_right _ hpos

theorem le_newMax (fd : Nat) : s.fdTableMax ≤ s.newMax fd := by
  refine Nat.le_trans ?_ (le_doubled fd (fd + 1) _)
  split <;> omega

/-- The size of the table after an fdevent was installed for `fd`. -/
def maxAfter (fd : Nat) : Nat := if s.fdTableMax ≤ fd then s.newMax fd else s.fdTableMax

/-- The table after an fdevent was installed for `fd`, with another entry at `fd`. -/
def tableAfter (host : Host) (fd : Nat) (fresh : Nat → Option Nat) : Nat → Option Nat :=
  if s.fdTableMax ≤ fd then (s.grown host (s.newMax fd) fresh).fdTable else s.fdTable

/-- The state after `fdevent_install`. -/
def installed (host : Host) (x fd : Nat) (fresh : Nat → Option Nat) : Fdevents :=
  { fde := Function.update s.fde x ⟨fd, fdeActive, 0⟩
    fdTable := Function.update (s.tableAfter host fd fresh) fd (some x)
    fdTableMax := s.maxAfter fd
    readFds := if s.fdTableMax = 0 then fun _ => false else s.readFds
    writeFds := if s.fdTableMax = 0 then fun _ => false else s.writeFds
    errorFds := if s.fdTableMax = 0 then fun _ => false else s.errorFds
    selectN := if s.selectN ≤ fd then fd + 1 else s.selectN
    listPending := s.listPending }

theorem fdeventInstall_eq (host : Host) (x : Nat) {fd : Nat} (fresh : Nat → Option Nat)
    (hfd : fd ≤ 32000) :
    s.fdeventInstall host x fd fresh = some (s.installed host x fd fresh) := by
  unfold fdeventInstall fdeventRegister installed fdeventConnect tableAfter maxAfter
  have hfd' : ¬ 32000 < fd := Nat.not_lt.mpr hfd
  by_cases hmax : s.fdTableMax ≤ fd
  · by_cases h0 : s.fdTableMax = 0 <;> by_cases hn : s.selectN ≤ fd <;>
      simp [setFde, grown, newMax, hmax, h0, hn, hfd']
  · have h0 : s.fdTableMax ≠ 0 := by omega
    by_cases hn : s.selectN ≤ fd <;> simp [setFde, hmax, h0, hn]

/-- The entries of the table before stay. -/
theorem tableAfter_of_lt (host : Host) (fd : Nat) (fresh : Nat → Option Nat) {i : Nat}
    (hi : i < s.fdTableMax) : s.tableAfter host fd fresh i = s.fdTable i := by
  unfold tableAfter
  split
  · simp [grown, hi]
  · rfl

theorem lt_maxAfter (fd : Nat) : fd < s.maxAfter fd := by
  unfold maxAfter
  split
  · exact s.lt_newMax fd
  · omega

theorem le_maxAfter (fd : Nat) : s.fdTableMax ≤ s.maxAfter fd := by
  unfold maxAfter
  split
  · exact s.le_newMax fd
  · exact Nat.le_refl _

end Fdevents

/-- With no fdevent installed, the sets are empty. -/
theorem Mirrors.empty {fde : Nat → Fdevent} {fds : Nat → Bool} {bit : Word}
    (h : Mirrors fde fds bit) (hno : ∀ x, ¬ (fde x).Active) : fds = fun _ => false := by
  funext i
  rw [← Bool.not_eq_true, h i]
  rintro ⟨x, hx, -⟩
  exact hno x hx

namespace Inv

variable {s : Fdevents}

theorem install (h : Inv s) (host : Host) {x fd : Nat} (fresh : Nat → Option Nat)
    (hx : ¬ (s.fde x).Active) (hfresh : ∀ y, (s.fde y).Active → (s.fde y).fd ≠ fd) :
    Inv (s.installed host x fd fresh) := by
  -- a new fdevent wants nothing, and the first one finds the sets empty
  have hsets : ∀ fds bit, Mirrors s.fde fds bit →
      Mirrors (Function.update s.fde x ⟨fd, fdeActive, 0⟩)
        (if s.fdTableMax = 0 then fun _ => false else fds) bit := by
    intro fds bit hm
    have hfds : (if s.fdTableMax = 0 then fun _ => false else fds) = fds := by
      split
      · rename_i h0
        refine (hm.empty fun y hy => ?_).symm
        have := (h.table y hy).1
        omega
      · rfl
    rw [hfds]
    refine hm.same fun i => iff_of_false (fun hf => hf.2.2 ?_) (fun hf => hx hf.1)
    simp [Fdevent.wanted, fdeActive, fdeEventMask]
  refine ⟨fun y hy => ?_, fun y hy => ?_, hsets _ _ h.read, hsets _ _ h.write, hsets _ _ h.error, ?_⟩
  · simp only [Fdevents.installed] at hy ⊢
    by_cases hyx : y = x
    · subst hyx
      rw [Function.update_self]
      exact ⟨s.lt_maxAfter fd, Function.update_self ..⟩
    · rw [Function.update_of_ne hyx] at hy ⊢
      have hlt := (h.table y hy).1
      refine ⟨Nat.lt_of_lt_of_le hlt (s.le_maxAfter fd), ?_⟩
      rw [Function.update_of_ne (hfresh y hy), s.tableAfter_of_lt host fd fresh hlt]
      exact (h.table y hy).2
  · simp only [Fdevents.installed] at hy ⊢
    by_cases hyx : y = x
    · subst hyx
      rw [Function.update_self]
      split <;> dsimp only <;> omega
    · rw [Function.update_of_ne hyx] at hy ⊢
      have hlt := h.select y hy
      split <;> omega
  · have hidle : ¬ (s.fde x).Pending := fun hp => hx (h.queue.active x hp)
    have hnew : ¬ Fdevent.Pending ⟨fd, fdeActive, 0⟩ := by
      simp [Fdevent.Pending, fdeActive, fdePending]
    exact h.queue.keep (iff_of_false hnew hidle) (iff_of_false hnew (by simp))
      (fun hp => absurd hp hnew)

end Inv

/-! ## Removing -/

/-- Every entry below `select_n` that is in use is found. -/
theorem le_lastUsed {fdTable : Nat → Option Nat} {n i : Nat} (hi : i < n)
    (hused : (fdTable i).isSome) : i ≤ Fdevents.lastUsed fdTable n := by
  induction n with
  | zero => omega
  | succ n ih =>
    unfold Fdevents.lastUsed at ih ⊢
    rw [List.range_succ, List.foldl_append]
    simp only [List.foldl_cons, List.foldl_nil]
    split
    · omega
    · rename_i hn
      have hne : i ≠ n := by
        rintro rfl
        exact hn hused
      exact ih (by omega)

namespace Fdevents

variable (s : Fdevents)

/-- The state after an installed fdevent was removed. -/
def removed (x : Nat) : Fdevents :=
  { fde := Function.update s.fde x { s.fde x with state := 0, events := 0 }
    fdTable := Function.update s.fdTable (s.fde x).fd none
    fdTableMax := s.fdTableMax
    readFds := Function.update s.readFds (s.fde x).fd false
    writeFds := Function.update s.writeFds (s.fde x).fd false
    errorFds := Function.update s.errorFds (s.fde x).fd false
    selectN := lastUsed s.fdTable s.selectN + 1
    listPending := s.listPending.erase x }

end Fdevents

namespace Inv

variable {s : Fdevents}

/-- All that `fdevent_remove` does. -/
theorem fdeventRemove_eq (h : Inv s) (x : Nat) :
    s.fdeventRemove x =
      if (s.fde x).Active then
        if (s.fde x).fd < fdSetSize then some (s.removed x) else none
      else some (s.setFde x { s.fde x with state := 0, events := 0 }) := by
  -- to take off the list what is not on it changes nothing
  have hlist : (if (s.fde x).Pending then { s with listPending := s.listPending.erase x } else s) =
      { s with listPending := s.listPending.erase x } := by
    split
    · rfl
    · rename_i hp
      rw [List.erase_of_not_mem (fun hmem => hp ((h.queue.mem x).mp hmem))]
  unfold Fdevents.fdeventRemove
  rw [hlist]
  dsimp only
  split
  · rename_i hact
    obtain ⟨hmax, htable⟩ := h.table x hact
    unfold Fdevents.fdeventDisconnect Fdevents.fdeventUnregister Fdevents.fdPut
    split
    · simp [Fdevents.removed, Fdevents.setFde, Nat.not_le.mpr hmax, htable]
    · rfl
  · rename_i hact
    have hnot : x ∉ s.listPending := fun hmem =>
      hact (h.queue.active x ((h.queue.mem x).mp hmem))
    simp [List.erase_of_not_mem hnot, Fdevents.setFde]

/-- An fdevent that is not there any more. -/
theorem gone_idle (fd : Nat) : ¬ Fdevent.Active ⟨fd, 0, 0⟩ ∧ ¬ Fdevent.Pending ⟨fd, 0, 0⟩ :=
  ⟨by simp [Fdevent.Active], by simp [Fdevent.Pending]⟩

theorem remove {x : Nat} {s' : Fdevents} (h : Inv s) (hs : s.fdeventRemove x = some s') :
    Inv s' := by
  obtain ⟨hact', hpend'⟩ := gone_idle (s.fde x).fd
  have hqueue := h.queue.erase (x := x) hpend' rfl
  rw [h.fdeventRemove_eq] at hs
  split at hs
  · rename_i hact
    split at hs
    · cases hs
      have hother : ∀ y, (Function.update s.fde x ⟨(s.fde x).fd, 0, 0⟩ y).Active → y ≠ x := by
        rintro y hy rfl
        rw [Function.update_self] at hy
        exact hact' hy
      have hclear := fun fds bit (hm : Mirrors s.fde fds bit) =>
        hm.clear (f := ⟨(s.fde x).fd, 0, 0⟩) (fun y hy hfd => h.inj hy hact hfd) hact'
      refine ⟨fun y hy => ?_, fun y hy => ?_, hclear _ _ h.read, hclear _ _ h.write,
        hclear _ _ h.error, hqueue⟩
      · simp only [Fdevents.removed] at hy ⊢
        have hyx := hother y hy
        rw [Function.update_of_ne hyx] at hy ⊢
        have hfd : (s.fde y).fd ≠ (s.fde x).fd := fun hfd => hyx (h.inj hy hact hfd)
        rw [Function.update_of_ne hfd]
        exact h.table y hy
      · simp only [Fdevents.removed] at hy ⊢
        have hyx := hother y hy
        rw [Function.update_of_ne hyx] at hy ⊢
        have hused : (s.fdTable (s.fde y).fd).isSome := by rw [(h.table y hy).2]; rfl
        have hle := le_lastUsed (h.select y hy) hused
        omega
    · cases hs
  · rename_i hact
    cases hs
    have hsame : ∀ fds bit, Mirrors s.fde fds bit →
        Mirrors (Function.update s.fde x ⟨(s.fde x).fd, 0, 0⟩) fds bit := fun fds bit hm =>
      hm.same fun i => iff_of_false (fun hf => hact' hf.1) (fun hf => hact hf.1)
    have hreg := @registered s (s.setFde x ⟨(s.fde x).fd, 0, 0⟩) x ⟨(s.fde x).fd, 0, 0⟩ h rfl rfl
      (fun ha => absurd ha hact')
    have hidle : ¬ (s.fde x).Pending := fun hp => hact (h.queue.active x hp)
    exact ⟨fun y hy => (hreg y hy).1, fun y hy => (hreg y hy).2, hsame _ _ h.read,
      hsame _ _ h.write, hsame _ _ h.error, h.queue.keep (iff_of_false hpend' hidle)
        (iff_of_false hpend' (by simp)) (fun hp => absurd hp hpend')⟩

/-- What an fdevent wants is the same, and so is what it is registered for. -/
theorem touched {s' : Fdevents} {x : Nat} {f : Fdevent} (h : Inv s)
    (hs : s' = { s with fde := Function.update s.fde x f, listPending := s'.listPending })
    (hfd : f.fd = (s.fde x).fd) (hw : f.wanted = (s.fde x).wanted)
    (ha : f.Active ↔ (s.fde x).Active) (hq : Queue (Function.update s.fde x f) s'.listPending) :
    Inv s' := by
  have hsame : ∀ fds bit, Mirrors s.fde fds bit →
      Mirrors (Function.update s.fde x f) fds bit := fun fds bit hm =>
    hm.same fun i => by rw [hfd, hw, ha]
  have hreg := @registered s s' x f h (by rw [hs]) hfd ha.mp
  rw [hs] at hreg ⊢
  exact ⟨fun y hy => (hreg y hy).1, fun y hy => (hreg y hy).2, hsame _ _ h.read, hsame _ _ h.write,
    hsame _ _ h.error, hq⟩

end Inv

/-! ## The loop -/

/-- The events of the descriptors below `k` are collected. -/
structure Collected (s t : Fdevents) (r : Fdevents.Ready) (k : Nat) : Prop where
  inv : Inv t
  table : t.fdTable = s.fdTable ∧ t.fdTableMax = s.fdTableMax ∧ t.selectN = s.selectN
  fd : ∀ y, (t.fde y).fd = (s.fde y).fd
  wanted : ∀ y, (t.fde y).wanted = (s.fde y).wanted
  active : ∀ y, (t.fde y).Active ↔ (s.fde y).Active
  events : ∀ y, (s.fde y).Active → (t.fde y).events =
    if (s.fde y).fd < k then (s.fde y).events ||| s.eventsOf r (s.fde y).fd else (s.fde y).events

theorem Inv.eventsOf {s : Fdevents} (h : Inv s) {r : Fdevents.Ready} {i : Nat}
    (he : s.eventsOf r i ≠ 0) : ∃ x, (s.fde x).Active ∧ (s.fde x).fd = i := by
  by_contra hno
  have hout : ∀ {fds bit}, Mirrors s.fde fds bit → fds i = false := by
    intro fds bit hm
    rw [← Bool.not_eq_true, hm i]
    rintro ⟨x, hx, hfd, -⟩
    exact hno ⟨x, hx, hfd⟩
  apply he
  simp [Fdevents.eventsOf, hout h.read, hout h.write, hout h.error]

namespace Collected

variable {s t : Fdevents} {r : Fdevents.Ready} {k : Nat}

/-- A descriptor with nothing to report. -/
theorem skip (h : Collected s t r k) (he : s.eventsOf r k = 0) : Collected s t r (k + 1) := by
  refine ⟨h.inv, h.table, h.fd, h.wanted, h.active, fun y hy => ?_⟩
  rw [h.events y hy]
  by_cases hk : (s.fde y).fd = k
  · rw [hk, he, if_neg (by omega), if_pos (by omega)]
    exact BitVec.or_zero.symm
  · simp only [show (s.fde y).fd < k + 1 ↔ (s.fde y).fd < k by omega]

/-- The fdevent of the descriptor `k` has its events. -/
theorem note (h : Collected s t r k) (hs : Inv s) {x : Nat} (hx : (s.fde x).Active)
    (hk : (s.fde x).fd = k) {f : Fdevent} {list : List Nat} (hfd : f.fd = (t.fde x).fd)
    (hw : f.wanted = (t.fde x).wanted) (ha : f.Active ↔ (t.fde x).Active)
    (he : f.events = (t.fde x).events ||| s.eventsOf r k)
    (hq : Queue (Function.update t.fde x f) list) :
    Collected s { t with fde := Function.update t.fde x f, listPending := list } r (k + 1) := by
  refine ⟨h.inv.touched rfl hfd hw ha hq, h.table, fun y => ?_, fun y => ?_, fun y => ?_,
    fun y hy => ?_⟩
  · exact (update_field Fdevent.fd hfd y).trans (h.fd y)
  · exact (update_field Fdevent.wanted hw y).trans (h.wanted y)
  · exact (iff_of_eq (update_field Fdevent.Active (propext ha) y)).trans (h.active y)
  · have hold := h.events y hy
    by_cases hyx : y = x
    · subst hyx
      rw [if_neg (by omega)] at hold
      simp only [Function.update_self]
      rw [he, hold, if_pos (by omega), hk]
    · have hne : (s.fde y).fd ≠ k := fun hfd => hyx (hs.inj hy hx (hfd.trans hk.symm))
      simp only [Function.update_of_ne hyx]
      rw [hold]
      simp only [show (s.fde y).fd < k + 1 ↔ (s.fde y).fd < k by omega]

/-- The fdevent of a descriptor gets its events. -/
theorem collect (h : Collected s t r k) (hs : Inv s) (he : s.eventsOf r k ≠ 0) :
    ∃ t', t.collect k (s.eventsOf r k) = some t' ∧ Collected s t' r (k + 1) := by
  obtain ⟨x, hx, hk⟩ := hs.eventsOf he
  have hactive := (h.active x).mpr hx
  have hentry : t.fdTable k = some x := by
    rw [h.table.1, ← hk]
    exact (hs.table x hx).2
  have hne : (t.fde x).events ||| s.eventsOf r k ≠ 0 := fun hzero =>
    he (BitVec.or_eq_zero_iff.mp hzero).2
  unfold Fdevents.collect
  rw [hentry]
  simp only [Option.bind_eq_bind, Option.bind_some, Fdevents.setFde, Function.update_self,
    Function.update_idem]
  by_cases hp : (t.fde x).Pending
  · refine ⟨_, if_pos hp, ?_⟩
    exact h.note hs hx hk rfl rfl Iff.rfl rfl (h.inv.queue.keep Iff.rfl (iff_of_true hp hne)
      (fun _ => hactive))
  · refine ⟨_, if_neg hp, ?_⟩
    have hflag : Fdevent.Pending ⟨(t.fde x).fd, (t.fde x).state ||| fdePending,
        (t.fde x).events ||| s.eventsOf r k⟩ := by
      rw [Fdevent.Pending, or_pending_pending]
      decide
    refine h.note hs hx hk rfl ?_ ?_ rfl (h.inv.queue.append hp hflag hne ?_)
    · simp [Fdevent.wanted]
    · simp [Fdevent.Active]
    · simpa [Fdevent.Active] using hactive

theorem process (hs : Inv s) (r : Fdevents.Ready) (k : Nat) :
    ∃ t, (List.range k).foldlM
      (fun t i => if s.eventsOf r i = 0 then some t else t.collect i (s.eventsOf r i)) s = some t ∧
      Collected s t r k := by
  induction k with
  | zero =>
    exact ⟨s, rfl, hs, ⟨rfl, rfl, rfl⟩, fun _ => rfl, fun _ => rfl, fun _ => Iff.rfl,
      fun y _ => (if_neg (Nat.not_lt_zero _)).symm⟩
  | succ k ih =>
    obtain ⟨t, hrun, ht⟩ := ih
    rw [List.range_succ, List.foldlM_append, hrun]
    simp only [Option.bind_eq_bind, Option.bind_some, List.foldlM_cons, List.foldlM_nil]
    by_cases he : s.eventsOf r k = 0
    · exact ⟨t, by rw [if_pos he]; rfl, ht.skip he⟩
    · obtain ⟨t', hcollect, ht'⟩ := ht.collect hs he
      exact ⟨t', by rw [if_neg he, hcollect]; rfl, ht'⟩

end Collected

namespace Inv

variable {s : Fdevents}

/-- A round of `select` never finds a descriptor without an fdevent. -/
theorem process (h : Inv s) (ready : Option Fdevents.Ready) :
    ∃ s', s.fdeventProcess ready = some s' ∧ Inv s' ∧ s'.fdTable = s.fdTable ∧
      s'.fdTableMax = s.fdTableMax ∧ (∀ y, (s'.fde y).fd = (s.fde y).fd) ∧
      (∀ y, (s'.fde y).Active ↔ (s.fde y).Active) := by
  cases ready with
  | none => exact ⟨s, rfl, h, rfl, rfl, fun _ => rfl, fun _ => Iff.rfl⟩
  | some r =>
    obtain ⟨t, hrun, ht⟩ := Collected.process h r s.selectN
    exact ⟨t, hrun, ht.inv, ht.table.1, ht.table.2.1, ht.fd, ht.active⟩

theorem dequeue {x : Nat} {ev : Word} {s' : Fdevents} (h : Inv s)
    (hs : s.dequeue = some ((x, ev), s')) : Inv s' := by
  unfold Fdevents.dequeue at hs
  split at hs
  · cases hs
  · rename_i rest hlist
    cases hs
    have hq := h.queue.erase (x := x) (f := { s.fde x with
      events := 0, state := (s.fde x).state &&& ~~~fdePending }) (by simp [Fdevent.Pending]) rfl
    rw [hlist, List.erase_cons_head] at hq
    exact h.touched rfl rfl (by simp [Fdevent.wanted]) (by simp [Fdevent.Active]) hq

end Inv

/-! ## The table -/

/-- The table holds the fdevents that are installed, and nothing else; `select_n` is beyond them, and
the sets mirror what they want. -/
structure Consistent (s : Fdevents) : Prop where
  room : ∀ x, (s.fde x).Active → (s.fde x).fd < s.fdTableMax
  table : ∀ i < s.fdTableMax, ∀ x,
    s.fdTable i = some x ↔ (s.fde x).Active ∧ (s.fde x).fd = i
  select : ∀ x, (s.fde x).Active → (s.fde x).fd < s.selectN
  read : Mirrors s.fde s.readFds fdeRead
  write : Mirrors s.fde s.writeFds fdeWrite
  error : Mirrors s.fde s.errorFds fdeError

/-- What a call must not run into. When the table grows, the new memory is null where it is not
cleared; and the descriptor of an fdevent that changes what it wants, or is removed, fits in a set. -/
def Sound (host : Host) (s : Fdevents) : Op → Prop
  | .install _ fd fresh => s.fdTableMax ≤ fd → ∀ i, s.fdTableMax ≤ i → i < s.newMax fd → i ≠ fd →
      Fdevents.Cleared host s.fdTableMax (s.newMax fd) i ∨ fresh i = none
  | .call x c => (s.fde x).Active → (s.fde x).wanted ≠ mask (c.word (s.fde x).wanted) →
      (s.fde x).fd < fdSetSize
  | .remove x => (s.fde x).Active → (s.fde x).fd < fdSetSize
  | _ => True

/-- No entry of the table is left over. -/
def Clean (s : Fdevents) : Prop :=
  ∀ i < s.fdTableMax, ∀ x, s.fdTable i = some x → (s.fde x).Active ∧ (s.fde x).fd = i

theorem Inv.consistent {s : Fdevents} (h : Inv s) (hc : Clean s) : Consistent s := by
  refine ⟨fun x hx => (h.table x hx).1, fun i hi x => ⟨hc i hi x, ?_⟩, h.select, h.read, h.write,
    h.error⟩
  rintro ⟨hx, rfl⟩
  exact (h.table x hx).2

namespace Clean

variable {s s' : Fdevents}

/-- The table is the same, and so is what is installed. -/
theorem same (h : Clean s) (ht : s'.fdTable = s.fdTable) (hm : s'.fdTableMax = s.fdTableMax)
    (hfd : ∀ y, (s'.fde y).fd = (s.fde y).fd)
    (ha : ∀ y, (s'.fde y).Active ↔ (s.fde y).Active) : Clean s' := by
  intro i hi x hx
  rw [hm] at hi
  rw [ht] at hx
  rw [ha, hfd]
  exact h i hi x hx

theorem install (h : Clean s) {host : Host} {x fd : Nat} {fresh : Nat → Option Nat}
    (hx : ¬ (s.fde x).Active) (hs : Sound host s (.install x fd fresh)) :
    Clean (s.installed host x fd fresh) := by
  intro i hi y hy
  simp only [Fdevents.installed] at hi hy ⊢
  by_cases hfd : i = fd
  · subst hfd
    rw [Function.update_self] at hy
    cases hy
    rw [Function.update_self]
    exact ⟨by simp [Fdevent.Active, fdeActive], rfl⟩
  · rw [Function.update_of_ne hfd] at hy
    by_cases hold : i < s.fdTableMax
    · rw [s.tableAfter_of_lt host fd fresh hold] at hy
      obtain ⟨hact, hyfd⟩ := h i hold y hy
      have hyx : y ≠ x := by
        rintro rfl
        exact hx hact
      rw [Function.update_of_ne hyx]
      exact ⟨hact, hyfd⟩
    · -- an entry that is new
      exfalso
      unfold Fdevents.maxAfter at hi
      split at hi
      · rename_i hgrow
        simp only [Fdevents.tableAfter, if_pos hgrow, Fdevents.grown, if_neg hold] at hy
        rcases hs hgrow i (by omega) hi hfd with hclear | hnull
        · rw [if_pos hclear] at hy
          cases hy
        · rw [hnull, ite_self] at hy
          cases hy
      · exact hold hi

theorem call (h : Clean s) {x : Nat} {c : Call}
    (hs : (s.fde x).Active → (s.fde x).wanted ≠ mask (c.word (s.fde x).wanted) →
      (s.fde x).fd < fdSetSize) :
    ∃ s', s.call x c = some s' ∧ Clean s' := by
  have hkeep : ∀ m, Clean (s.rearmed x (mask m)) := by
    intro m
    refine h.same rfl rfl (fun y => ?_) (fun y => ?_)
    · exact update_field Fdevent.fd ((s.fde x).rearm_fd _) y
    · exact iff_of_eq (update_field Fdevent.Active (propext ((s.fde x).rearm_active m)) y)
  rw [Fdevents.call_eq, Fdevents.fdeventSet_eq]
  by_cases hw : (s.fde x).wanted = mask (c.word (s.fde x).wanted)
  · exact ⟨s, if_pos hw, h⟩
  · rw [if_neg hw]
    by_cases ha : (s.fde x).Active
    · rw [if_pos ha, if_pos (hs ha hw)]
      exact ⟨_, rfl, (hkeep (c.word (s.fde x).wanted)).same rfl rfl (fun _ => rfl) (fun _ => Iff.rfl)⟩
    · rw [if_neg ha]
      exact ⟨_, rfl, hkeep (c.word (s.fde x).wanted)⟩

theorem remove (h : Clean s) (hi : Inv s) {x : Nat}
    (hs : (s.fde x).Active → (s.fde x).fd < fdSetSize) :
    ∃ s', s.fdeventRemove x = some s' ∧ Clean s' := by
  rw [hi.fdeventRemove_eq]
  by_cases ha : (s.fde x).Active
  · rw [if_pos ha, if_pos (hs ha)]
    refine ⟨_, rfl, fun i hi' y hy => ?_⟩
    simp only [Fdevents.removed] at hi' hy ⊢
    by_cases hfd : i = (s.fde x).fd
    · rw [hfd, Function.update_self] at hy
      cases hy
    · rw [Function.update_of_ne hfd] at hy
      obtain ⟨hact, hyfd⟩ := h i hi' y hy
      have hyx : y ≠ x := by
        rintro rfl
        exact hfd hyfd.symm
      rw [Function.update_of_ne hyx]
      exact ⟨hact, hyfd⟩
  · rw [if_neg ha]
    refine ⟨_, rfl, fun i hi' y hy => ?_⟩
    obtain ⟨hact, hyfd⟩ := h i hi' y hy
    have hyx : y ≠ x := by
      rintro rfl
      exact ha hact
    simp only [Fdevents.setFde, Function.update_of_ne hyx]
    exact ⟨hact, hyfd⟩

end Clean

/-! ## Runs -/

theorem inv_init : Inv Fdevents.init := by
  obtain ⟨hact, hpend⟩ := Inv.gone_idle 0
  have hm : ∀ bit, Mirrors Fdevents.init.fde (fun _ => false) bit := fun bit i =>
    iff_of_false Bool.false_ne_true (fun ⟨_, hx, _⟩ => hact hx)
  exact ⟨fun x hx => absurd hx hact, fun x hx => absurd hx hact, hm _, hm _, hm _,
    ⟨fun x => iff_of_false List.not_mem_nil hpend, List.nodup_nil,
      fun x => iff_of_false hpend (by simp [Fdevents.init]), fun x hx => absurd hx hpend⟩⟩

/-- Every step of a program that keeps to the rules keeps what `Inv` says. -/
theorem Inv.step {host : Host} {s s' : Fdevents} {op : Op} (h : Inv s) (hl : Legal s op)
    (hs : step host s op = some s') : Inv s' := by
  cases op with
  | install x fd fresh =>
    obtain ⟨hx, hfd, hfresh⟩ := hl
    rw [Select.step, s.fdeventInstall_eq host x fresh hfd] at hs
    cases hs
    exact h.install host fresh hx hfresh
  | call x c => exact h.call hs
  | remove x => exact h.remove hs
  | process ready =>
    obtain ⟨t, ht, hinv, -⟩ := h.process ready
    rw [Select.step, ht] at hs
    cases hs
    exact hinv
  | dequeue =>
    obtain ⟨⟨p, t⟩, hd, rfl⟩ := Option.map_eq_some_iff.mp hs
    exact h.dequeue hd

/-- And it can be taken, if it is sound besides. -/
theorem sound_step {host : Host} {s : Fdevents} {op : Op} (h : Inv s) (hc : Clean s)
    (hl : Legal s op) (hs : Sound host s op) :
    ∃ s', step host s op = some s' ∧ Inv s' ∧ Clean s' := by
  have hsome : ∃ s', step host s op = some s' ∧ Clean s' := by
    cases op with
    | install x fd fresh =>
      exact ⟨_, s.fdeventInstall_eq host x fresh hl.2.1, hc.install hl.1 hs⟩
    | call x c => exact hc.call hs
    | remove x => exact hc.remove h hs
    | process ready =>
      obtain ⟨t, ht, -, htable, hmax, hfd, ha⟩ := h.process ready
      exact ⟨t, ht, hc.same htable hmax hfd ha⟩
    | dequeue =>
      obtain ⟨x, rest, hlist⟩ := List.exists_cons_of_ne_nil hl
      simp only [Select.step, Fdevents.dequeue, hlist, Option.map_some]
      refine ⟨_, rfl, hc.same rfl rfl (fun y => ?_) (fun y => ?_)⟩
      · refine update_field Fdevent.fd ?_ y
        rfl
      · refine iff_of_eq (update_field Fdevent.Active ?_ y)
        simp [Fdevent.Active]
  obtain ⟨s', hstep, hc'⟩ := hsome
  exact ⟨s', hstep, h.step hl hstep, hc'⟩

/-- **The table of descriptors.** A run in which every step is legal and sound gets to its end, and
leaves the table consistent. -/
theorem table_consistent (host : Host) {ops : List Op}
    (hok : RunOk (step host) (fun s op => Legal s op ∧ Sound host s op) Fdevents.init ops) :
    ∃ s, run (step host) Fdevents.init ops = some s ∧ Consistent s := by
  obtain ⟨s, hrun, hinv, hclean⟩ := @run_exists Fdevents Op (step host)
    (fun s op => Legal s op ∧ Sound host s op) (fun s => Inv s ∧ Clean s)
    (fun s op hI hlegal => sound_step hI.1 hI.2 hlegal.1 hlegal.2) Fdevents.init ops
    ⟨inv_init, fun i hi => absurd hi (Nat.not_lt_zero i)⟩ hok
  exact ⟨s, hrun, hinv.consistent hclean⟩

theorem legal_install {x fd : Nat} {fresh : Nat → Option Nat} (hfd : fd ≤ 32000) :
    Legal Fdevents.init (.install x fd fresh) :=
  ⟨(Inv.gone_idle 0).1, hfd, fun _ hy => absurd hy (Inv.gone_idle 0).1⟩

/-- An fdevent that is installed for descriptor 5 and then wants to read. -/
theorem table_consistent_read :
    ∃ s, run (step .bits64) Fdevents.init [.install 1 5 (fun _ => none), .call 1 (.set 1)] = some s ∧
      Consistent s := by
  refine table_consistent .bits64 ⟨⟨legal_install (by decide), fun _ i _ _ _ => .inr rfl⟩, ?_⟩
  rw [Select.step, Fdevents.init.fdeventInstall_eq .bits64 1 (fun _ => none) (by decide)]
  refine ⟨⟨trivial, fun _ _ => by decide⟩, ?_⟩
  split <;> trivial

/-- With pointers of eight bytes, half of a new table keeps what was in the memory: descriptor 200 has
an entry without being installed. And an fdevent for descriptor 1024 that wants to read is none that
`FD_SET` has room for. -/
theorem table_inconsistent :
    (∃ s, RunOk (step .bits64) Legal Fdevents.init [.install 1 0 (fun _ => some 7)] ∧
      run (step .bits64) Fdevents.init [.install 1 0 (fun _ => some 7)] = some s ∧
      s.fdTable 200 = some 7 ∧ ¬ Consistent s) ∧
    RunOk (step .bits32) Legal Fdevents.init [.install 1 1024 (fun _ => none), .call 1 (.set 1)] ∧
    run (step .bits32) Fdevents.init [.install 1 1024 (fun _ => none), .call 1 (.set 1)] = none := by
  have hrun := Fdevents.init.fdeventInstall_eq .bits64 1 (fun _ => some 7) (Nat.zero_le 32000)
  have hfar := @Fdevents.fdeventInstall_eq Fdevents.init .bits32 1 1024 (fun _ => none) (by decide)
  refine ⟨⟨_, ⟨legal_install (Nat.zero_le _), ?_⟩, by rw [run, Select.step, hrun]; rfl, by decide,
    fun h => ?_⟩, ⟨legal_install (by decide), ?_⟩, ?_⟩
  · split <;> trivial
  · have hfd := ((h.table 200 (by decide) 7).mp (by decide)).2
    exact absurd hfd (by decide)
  · rw [Select.step, hfar]
    refine ⟨trivial, ?_⟩
    split <;> trivial
  · rw [run, Select.step, hfar, Option.bind_some, run, Select.step, Fdevents.call_eq,
      Fdevents.fdeventSet_eq, if_neg (by decide), if_pos (by decide), if_neg (by decide)]
    rfl

end Twm.Adb.Select
