import Mathlib.Data.List.Nodup
import DeviceTwm.Adb.Listener

/-!
# The listeners as a list, and the hooks as one list for each transport

* `Hooked`: the disconnect lists of the transports are rings, and a hook is in the list of its owner only.
* `Represents s b hs`: `listener_list` runs through the listeners of `b`, and the disconnect list of each
  transport `t` through the hooks of `hs t`. One lemma for each operation says what it does to `b` and
  `hs`.
-/

open Lib

namespace Twm.Adb.Listener

variable {s : Registry} {hs : Nat → List Hook} {l r t n : Nat} {a : AListener} {x y : Hook}

theorem ok_bind {ε α β : Type} (a : α) (f : α → Except ε β) : (Except.ok a >>= f) = f a := rfl

theorem error_bind {ε α β : Type} (e : ε) (f : α → Except ε β) : (Except.error e >>= f) = .error e := rfl

/-! ## Hooks -/

section Hooks

variable {L : Links Hook} {owner : Hook → Option Nat}

/-- The disconnect lists hold `hs`, and each hook is in the list of its owner only. -/
structure Hooked (L : Links Hook) (owner : Hook → Option Nat) (hs : Nat → List Hook) : Prop where
  rings : Rings L .disconnects hs
  mem : ∀ t x, x ∈ hs t ↔ owner x = some t
  heads : ∀ t, owner (.disconnects t) = none

namespace Hooked

theorem notMem (h : Hooked L owner hs) (hx : owner x = none) (t : Nat) : x ∉ hs t := by
  intro hmem
  rw [h.mem, hx] at hmem
  cases hmem

theorem notMem_ring (h : Hooked L owner hs) (hx : owner x = none) (hhead : ∀ t, x ≠ .disconnects t)
    (t : Nat) : x ∉ .disconnects t :: hs t := by
  rw [List.mem_cons, not_or]
  exact ⟨hhead t, h.notMem hx t⟩

theorem nodup (h : Hooked L owner hs) (t : Nat) : (hs t).Nodup := (h.rings.ring t).items_nodup

/-- The writes that take a hook out of its list. -/
theorem drop (h : Hooked L owner hs) (hx : owner x = some t) :
    Hooked ((L.unlink x).link x x) (Function.update owner x none) fun j => (hs j).erase x where
  rings := h.rings.remove ((h.mem t x).mpr hx)
  mem j y := by
    rw [(h.nodup j).mem_erase_iff, h.mem]
    by_cases hy : y = x
    · subst hy
      simp
    · rw [Function.update_of_ne hy]
      simp [hy]
  heads j := by
    by_cases hj : Hook.disconnects j = x
    · rw [hj, Function.update_self]
    · rw [Function.update_of_ne hj, h.heads]

/-- The writes that put a hook into a list. -/
theorem add (h : Hooked L owner hs) (hx : owner x = none) (hhead : ∀ j, x ≠ .disconnects j) (t : Nat) :
    Hooked ((L.link (L.prev (.disconnects t)) x).link x (.disconnects t))
      (Function.update owner x (some t)) (Function.update hs t (hs t ++ [x])) where
  rings := h.rings.append t (h.notMem_ring hx hhead)
  mem j y := by
    by_cases hy : y = x
    · subst hy
      rw [Function.update_self]
      by_cases hj : j = t
      · subst hj
        simp
      · rw [Function.update_of_ne hj]
        simp [h.notMem hx j, Ne.symm hj]
    · rw [Function.update_of_ne hy]
      by_cases hj : j = t
      · subst hj
        rw [Function.update_self, ← h.mem]
        simp [hy]
      · rw [Function.update_of_ne hj, h.mem]
  heads j := by rw [Function.update_of_ne (Ne.symm (hhead j)), h.heads]

/-- Pointers of a hook in no list may change. -/
theorem frame (h : Hooked L owner hs) (hx : owner x = none) (hhead : ∀ j, x ≠ .disconnects j)
    (p q : Hook) : Hooked ⟨Function.update L.next x p, Function.update L.prev x q⟩ owner hs := by
  have hne (j : Nat) (y : Hook) (hy : y ∈ Hook.disconnects j :: hs j) : y ≠ x := by
    rintro rfl
    exact h.notMem_ring hx hhead j hy
  refine ⟨h.rings.congr (fun j y hy => ?_) fun j y hy => ?_, h.mem, h.heads⟩
  · exact Function.update_of_ne (hne j y hy) _ _
  · exact Function.update_of_ne (hne j y hy) _ _

/-- In the lists without `x` the other lists are as they were. -/
theorem erase_of_ne (h : Hooked L owner hs) (hx : owner x = some t) {j : Nat} (hj : j ≠ t) :
    (hs j).erase x = hs j := by
  refine List.erase_of_not_mem ?_
  rw [h.mem, hx]
  exact fun heq => hj (Option.some.inj heq).symm

end Hooked

end Hooks

/-- The transport in whose list a hook is. -/
def Registry.owner (s : Registry) : Hook → Option Nat
  | .listener l => (s.listeners.lookup l).bind (·.transport)
  | .remote r => s.remotes.lookup r
  | _ => none

theorem allocated_of_owner (h : s.owner x = some t) : s.Allocated x = true := by
  cases x with
  | null => cases h
  | disconnects t => rfl
  | listener l =>
    obtain ⟨a, ha, -⟩ := Option.bind_eq_some_iff.mp h
    simp [Registry.Allocated, ha]
  | remote r =>
    have hr : s.remotes.lookup r = some t := h
    simp [Registry.Allocated, hr]

section Writes

variable {owner : Hook → Option Nat} (h : Hooked s.hooks owner hs)
  (hall : ∀ y j, owner y = some j → s.Allocated y = true)
include h hall

theorem Hooked.allocated (hx : x ∈ Hook.disconnects t :: hs t) : s.Allocated x = true := by
  rcases List.mem_cons.mp hx with rfl | hx
  · rfl
  · exact hall x t ((h.mem t x).mp hx)

theorem Hooked.removeTransportDisconnect (hx : owner x = some t) :
    s.removeTransportDisconnect x = .ok { s with hooks := (s.hooks.unlink x).link x x } := by
  have hmem : x ∈ Hook.disconnects t :: hs t := List.mem_cons_of_mem _ ((h.mem t x).mpr hx)
  have hring := h.rings.ring t
  exact if_pos ⟨h.allocated hall (hring.prev_mem hmem), h.allocated hall (hring.next_mem hmem)⟩

theorem Hooked.addTransportDisconnect (x : Hook) (t : Nat) :
    s.addTransportDisconnect (some t) x =
      .ok { s with hooks := (s.hooks.link (s.hooks.prev (.disconnects t)) x).link x (.disconnects t) } :=
  if_pos (h.allocated hall ((h.rings.ring t).prev_mem List.mem_cons_self))

end Writes

/-! ## The listeners as a list -/

/-- The listeners with their addresses, in the order of the list. -/
abbrev Book := List (Nat × AListener)

variable {b b₁ b₂ : Book}

/-- The pointers of `listener_list` and of the disconnect lists. -/
structure Represents (s : Registry) (b : Book) (hs : Nat → List Hook) : Prop where
  ring : Ring s.links .list (b.map fun e => .listener e.1)
  listeners : ∀ l a, s.listeners.lookup l = some a ↔ (l, a) ∈ b
  hooked : Hooked s.hooks s.owner hs
  /-- The hook of a listener without a transport is as `calloc` made it. -/
  bare : ∀ l a, (l, a) ∈ b → a.transport = none → s.hooks.prev (.listener l) = .null

namespace Represents

theorem keys_nodup (h : Represents s b hs) : (b.map Prod.fst).Nodup := by
  have hnodup : ((b.map Prod.fst).map Node.listener).Nodup := by
    rw [List.map_map]
    exact h.ring.items_nodup
  exact hnodup.of_map _

theorem owner_eq (h : Represents s b hs) (hmem : (l, a) ∈ b) : s.owner (.listener l) = a.transport := by
  rw [← h.listeners] at hmem
  simp [Registry.owner, hmem]

theorem allocatedNode (h : Represents s b hs) {x : Node}
    (hx : x ∈ Node.list :: b.map fun e => Node.listener e.1) : s.AllocatedNode x = true := by
  rcases List.mem_cons.mp hx with rfl | hx
  · rfl
  · obtain ⟨⟨l, a⟩, hmem, rfl⟩ := List.mem_map.mp hx
    rw [← h.listeners] at hmem
    simp [Registry.AllocatedNode, hmem]

theorem mem_keys (h : Represents s b hs) (l : Nat) : l ∈ b.map Prod.fst ↔ l ∈ s.listeners := by
  rw [List.mem_map, Finmap.mem_iff]
  constructor
  · rintro ⟨⟨l, a⟩, hmem, rfl⟩
    exact ⟨a, (h.listeners l a).mpr hmem⟩
  · rintro ⟨a, ha⟩
    exact ⟨(l, a), (h.listeners l a).mp ha, rfl⟩

/-- As many listeners as there are blocks for them. -/
theorem length_eq (h : Represents s b hs) : b.length = s.listeners.keys.card := by
  have hset : (b.map Prod.fst).toFinset = s.listeners.keys := by
    ext l
    rw [List.mem_toFinset, Finmap.mem_keys, h.mem_keys]
  rw [← hset, List.toFinset_card_of_nodup h.keys_nodup, List.length_map]

/-- A disconnect list is no longer than there are listeners and remote sockets. -/
theorem length_hooks_le (h : Represents s b hs) (t : Nat) :
    (hs t).length ≤ s.listeners.keys.card + s.remotes.keys.card := by
  have hsub : (hs t).toFinset ⊆
      s.listeners.keys.image Hook.listener ∪ s.remotes.keys.image Hook.remote := by
    intro x hx
    rw [List.mem_toFinset, h.hooked.mem] at hx
    have hall := allocated_of_owner hx
    rw [Finset.mem_union, Finset.mem_image, Finset.mem_image]
    cases x with
    | null => cases hx
    | disconnects t => cases hx
    | listener l => exact .inl ⟨l, Finmap.mem_keys.mpr (Finmap.lookup_isSome.mp hall), rfl⟩
    | remote r => exact .inr ⟨r, Finmap.mem_keys.mpr (Finmap.lookup_isSome.mp hall), rfl⟩
  calc (hs t).length = (hs t).toFinset.card := (List.toFinset_card_of_nodup (h.hooked.nodup t)).symm
    _ ≤ _ := Finset.card_le_card hsub
    _ ≤ _ := Finset.card_union_le _ _
    _ ≤ _ := Nat.add_le_add Finset.card_image_le Finset.card_image_le

/-! ## Searches -/

/-- The search finds the first listener, in the order of the list. -/
theorem find (h : Represents s b hs) (p : AListener → Bool) :
    s.find p = .ok (b.find? fun e => p e.2) := by
  rw [← foldr_search _ Except.ok]
  refine h.ring.linked.loop (Nat.le_of_eq h.length_eq) (fun n => by cases n <;> rfl) fun n e he => ?_
  simp only [Registry.findLoop, (h.listeners e.1 e.2).mpr he]

end Represents

/-! ## Owners after a write to the memory -/

section Owners

variable (s) (l r t : Nat) (a : AListener) (links : Links Node) (hooks : Links Hook)

theorem owner_erase : Registry.owner ⟨s.listeners.erase l, links, s.remotes, hooks⟩ =
    Function.update s.owner (.listener l) none := by
  refine Function.eq_update_iff.mpr ⟨by simp [Registry.owner], fun x hx => ?_⟩
  cases x with
  | listener l' =>
    have hne : l' ≠ l := fun heq => hx (heq ▸ rfl)
    simp [Registry.owner, Finmap.lookup_erase_ne hne]
  | _ => rfl

theorem owner_insert : Registry.owner ⟨s.listeners.insert l a, links, s.remotes, hooks⟩ =
    Function.update s.owner (.listener l) a.transport := by
  refine Function.eq_update_iff.mpr ⟨by simp [Registry.owner], fun x hx => ?_⟩
  cases x with
  | listener l' =>
    have hne : l' ≠ l := fun heq => hx (heq ▸ rfl)
    simp [Registry.owner, Finmap.lookup_insert_of_ne _ hne]
  | _ => rfl

theorem owner_eraseRemote : Registry.owner ⟨s.listeners, links, s.remotes.erase r, hooks⟩ =
    Function.update s.owner (.remote r) none := by
  refine Function.eq_update_iff.mpr ⟨by simp [Registry.owner], fun x hx => ?_⟩
  cases x with
  | remote r' =>
    have hne : r' ≠ r := fun heq => hx (heq ▸ rfl)
    simp [Registry.owner, Finmap.lookup_erase_ne hne]
  | _ => rfl

theorem owner_insertRemote : Registry.owner ⟨s.listeners, links, s.remotes.insert r t, hooks⟩ =
    Function.update s.owner (.remote r) (some t) := by
  refine Function.eq_update_iff.mpr ⟨by simp [Registry.owner], fun x hx => ?_⟩
  cases x with
  | remote r' =>
    have hne : r' ≠ r := fun heq => hx (heq ▸ rfl)
    simp [Registry.owner, Finmap.lookup_insert_of_ne _ hne]
  | _ => rfl

end Owners

/-! ## The end of a listener -/

theorem filter_key (hnodup : (b.map Prod.fst).Nodup) (hb : b = b₁ ++ (l, a) :: b₂) :
    b.filter (fun e => e.1 ≠ l) = b₁ ++ b₂ := by
  subst hb
  have hout : ∀ e ∈ b₁ ++ b₂, e.1 ≠ l := by
    intro e he heq
    have hmem : l ∈ (b₁ ++ b₂).map Prod.fst := List.mem_map.mpr ⟨e, he, heq⟩
    simp only [List.map_append, List.map_cons, List.nodup_append, List.nodup_cons, List.mem_append] at *
    grind
  have hkeep : (b₁ ++ b₂).filter (fun e => e.1 ≠ l) = b₁ ++ b₂ :=
    List.filter_eq_self.mpr fun e he => by simpa using hout e he
  rw [List.filter_append] at hkeep ⊢
  rw [List.filter_cons_of_neg (by simp)]
  exact hkeep

namespace Represents

theorem unlinkListener (h : Represents s b hs) (hmem : (l, a) ∈ b) : s.unlinkListener l =
    .ok { s with links := (s.links.unlink (.listener l)).link (.listener l) (.listener l) } := by
  have hnode : Node.listener l ∈ Node.list :: b.map fun e => Node.listener e.1 :=
    List.mem_cons_of_mem _ (List.mem_map.mpr ⟨(l, a), hmem, rfl⟩)
  have hnext := h.allocatedNode (h.ring.next_mem hnode)
  have hprev := h.allocatedNode (h.ring.prev_mem hnode)
  have hnull : s.links.next (.listener l) ≠ .null := by
    intro heq
    rw [heq] at hnext
    cases hnext
  unfold Registry.unlinkListener
  rw [if_neg hnull, if_pos ⟨hprev, hnext⟩]

/-- The list without a listener. -/
theorem ring_filter (h : Represents s b hs) (hmem : (l, a) ∈ b) :
    Ring ((s.links.unlink (.listener l)).link (.listener l) (.listener l)) .list
      ((b.filter fun e => e.1 ≠ l).map fun e => .listener e.1) := by
  obtain ⟨b₁, b₂, hb⟩ := List.append_of_mem hmem
  have hring := h.ring
  rw [hb, List.map_append, List.map_cons] at hring
  have hout : Node.listener l ∉
      Node.list :: (b₁.map (fun e => Node.listener e.1) ++ b₂.map fun e => Node.listener e.1) := by
    have := hring.nodup
    grind
  rw [filter_key h.keys_nodup hb, List.map_append]
  exact hring.remove.frame hout hout

/-- A listener that is in the list can be freed. -/
theorem freeListener (h : Represents s b hs) (hmem : (l, a) ∈ b) : ∃ s', s.freeListener l = .ok s' ∧
    Represents s' (b.filter fun e => e.1 ≠ l) (fun t => (hs t).erase (.listener l)) := by
  have howner := h.owner_eq hmem
  have hlookup := (h.listeners l a).mpr hmem
  have hlisteners (l' : Nat) (a' : AListener) : (s.listeners.erase l).lookup l' = some a' ↔
      (l', a') ∈ b.filter fun e => e.1 ≠ l := by
    rw [List.mem_filter, ← h.listeners]
    by_cases hl : l' = l
    · subst hl
      simp
    · simp [hl, Finmap.lookup_erase_ne hl]
  have hne {l' : Nat} {a' : AListener} (hmem' : (l', a') ∈ b.filter fun e => e.1 ≠ l) :
      (l', a') ∈ b ∧ l' ≠ l := by simpa using List.mem_filter.mp hmem'
  unfold Registry.freeListener
  simp only [hlookup, h.unlinkListener hmem, ok_bind]
  cases ht : a.transport with
  | none =>
    rw [ht] at howner
    simp only [if_true]
    have herase (j : Nat) : (hs j).erase (.listener l) = hs j :=
      List.erase_of_not_mem (h.hooked.notMem howner j)
    refine ⟨_, rfl, h.ring_filter hmem, hlisteners, ?_, fun l' a' hmem' hnone => ?_⟩
    · rw [owner_erase]
      simp only [herase]
      have hsame : Function.update s.owner (.listener l) none = s.owner := by
        rw [← howner, Function.update_eq_self]
      rw [hsame]
      exact h.hooked
    · exact h.bare l' a' (hne hmem').1 hnone
  | some t =>
    rw [ht] at howner
    have hrm := Hooked.removeTransportDisconnect
      (s := { s with links := (s.links.unlink (.listener l)).link (.listener l) (.listener l) })
      h.hooked (fun y j => allocated_of_owner) howner
    simp only [reduceCtorEq, if_false, hrm, ok_bind]
    refine ⟨_, rfl, h.ring_filter hmem, hlisteners, ?_, fun l' a' hmem' hnone => ?_⟩
    · rw [owner_erase]
      exact h.hooked.drop howner
    · obtain ⟨hmem', hl⟩ := hne hmem'
      refine (h.hooked.rings.remove_prev ((h.hooked.mem t _).mpr howner) ?_).trans (h.bare l' a' hmem' hnone)
      exact h.hooked.notMem_ring ((h.owner_eq hmem').trans hnone) (fun _ => nofun) t

/-- So can a remote socket. -/
theorem freeRemote (h : Represents s b hs) (hlookup : s.remotes.lookup r = some t) :
    ∃ s', s.freeRemote r = .ok s' ∧ Represents s' b (fun t => (hs t).erase (.remote r)) := by
  have howner : s.owner (.remote r) = some t := hlookup
  have hrm := h.hooked.removeTransportDisconnect (fun y j => allocated_of_owner) howner
  unfold Registry.freeRemote
  simp only [hlookup, hrm, ok_bind]
  refine ⟨_, rfl, h.ring, h.listeners, ?_, fun l' a' hmem' hnone => ?_⟩
  · rw [owner_eraseRemote]
    exact h.hooked.drop howner
  · refine (h.hooked.rings.remove_prev ((h.hooked.mem t _).mpr howner) ?_).trans (h.bare l' a' hmem' hnone)
    exact h.hooked.notMem_ring ((h.owner_eq hmem').trans hnone) (fun _ => nofun) t

/-! ## `run_transport_disconnects` -/

/-- What a hook calls takes the hook out of its list, and the listener it is in out of the list of the
listeners. -/
theorem func (h : Represents s b hs) (hx : s.owner x = some t) : ∃ s', s.func x = .ok s' ∧
    Represents s' (b.filter fun e => .listener e.1 ≠ x) (fun j => (hs j).erase x) := by
  cases x with
  | listener l =>
    obtain ⟨a, hlookup, -⟩ := Option.bind_eq_some_iff.mp hx
    simpa [Registry.func] using h.freeListener ((h.listeners l a).mp hlookup)
  | remote r => simpa [Registry.func] using h.freeRemote hx
  | _ => cases hx

/-- The listeners of a transport are gone when its hooks have run. -/
theorem runLoop (h : Represents s b hs) (hn : (hs t).length ≤ n) :
    ∃ s', Registry.runLoop t n (s.hooks.next (.disconnects t)) s = .ok s' ∧
      Represents s' (b.filter fun e => e.2.transport ≠ some t) (Function.update hs t []) := by
  obtain ⟨xs, hxs⟩ : ∃ xs, hs t = xs := ⟨_, rfl⟩
  have hring := h.hooked.rings.ring t
  rw [hxs] at hring hn
  induction xs generalizing s b hs n with
  | nil =>
    have hnone : ∀ e ∈ b, e.2.transport ≠ some t := by
      intro e he htr
      have hmem := (h.hooked.mem t (.listener e.1)).mpr ((h.owner_eq he).trans htr)
      rw [hxs] at hmem
      cases hmem
    have hkeep : b.filter (fun e => e.2.transport ≠ some t) = b :=
      List.filter_eq_self.mpr fun e he => by simpa using hnone e he
    have hsame : Function.update hs t [] = hs := by rw [← hxs, Function.update_eq_self]
    rw [hring.next_head, hkeep, hsame]
    exact ⟨s, by cases n <;> simp [Registry.runLoop], h⟩
  | cons x xs ih =>
    obtain _ | n := n
    · simp at hn
    have howner : s.owner x = some t := (h.hooked.mem t x).mp (hxs ▸ List.mem_cons_self)
    obtain ⟨s', hfunc, h'⟩ := h.func howner
    have hhead : x ≠ .disconnects t := by
      have := hring.nodup
      grind
    have hrest : (hs t).erase x = xs := by rw [hxs, List.erase_cons_head]
    have hring' := h'.hooked.rings.ring t
    rw [hrest] at hring'
    -- `next` was read before the hook was run, and it is the first hook that is left.
    have hnext : s.hooks.next x = s'.hooks.next (.disconnects t) := by
      have haround : Ring s.hooks (.disconnects t) ([] ++ x :: xs) := hring
      rw [haround.around.1, hring'.next_head]
    obtain ⟨s'', hrun, h''⟩ := ih h' (by simpa using hn) hrest hring'
    refine ⟨s'', ?_, ?_⟩
    · rw [hring.next_head]
      simp only [List.headD_cons, Registry.runLoop, if_neg hhead, allocated_of_owner howner, if_true, hfunc,
        ok_bind, hnext, hrun]
    · have hbook : (b.filter fun e => Hook.listener e.1 ≠ x).filter (fun e => e.2.transport ≠ some t) =
          b.filter fun e => e.2.transport ≠ some t := by
        rw [List.filter_filter]
        refine List.filter_congr fun e he => ?_
        by_cases htr : e.2.transport = some t
        · simp [htr]
        · have hne : Hook.listener e.1 ≠ x := by
            rintro rfl
            exact htr ((h.owner_eq he).symm.trans howner)
          simp [htr, hne]
      have hhooks : Function.update (fun j => (hs j).erase x) t [] = Function.update hs t [] := by
        funext j
        by_cases hj : j = t
        · rw [hj, Function.update_self, Function.update_self]
        · rw [Function.update_of_ne hj, Function.update_of_ne hj, h.hooked.erase_of_ne howner hj]
      rwa [hbook, hhooks] at h''

theorem runTransportDisconnects (h : Represents s b hs) (t : Nat) :
    ∃ s', s.runTransportDisconnects t = .ok s' ∧
      Represents s' (b.filter fun e => e.2.transport ≠ some t) (Function.update hs t []) :=
  h.runLoop (h.length_hooks_le t)

/-! ## `install_listener` -/

theorem mem_insert (h : Represents s b hs) (l : Nat) (a : AListener) (l' : Nat) (a' : AListener) :
    (s.listeners.insert l a).lookup l' = some a' ↔
      l' = l ∧ a' = a ∨ l' ≠ l ∧ (l', a') ∈ b := by
  by_cases hl : l' = l
  · subst hl
    simp [eq_comm]
  · rw [Finmap.lookup_insert_of_ne _ hl, h.listeners]
    simp [hl]

end Represents

/-- The listener at an address with other contents. -/
def rebound (b : Book) (l : Nat) (a : AListener) : Book := b.map fun e => if e.1 = l then (l, a) else e

theorem map_fst_rebound {β : Type} (f : Nat → β) (b : Book) (l : Nat) (a : AListener) :
    (rebound b l a).map (fun e => f e.1) = b.map fun e => f e.1 := by
  rw [rebound, List.map_map]
  refine List.map_congr_left fun e _ => ?_
  by_cases he : e.1 = l <;> simp [he]

theorem mem_rebound {a₀ a' : AListener} (hmem : (l, a₀) ∈ b) (l' : Nat) :
    (l', a') ∈ rebound b l a ↔ l' = l ∧ a' = a ∨ l' ≠ l ∧ (l', a') ∈ b := by
  rw [rebound, List.mem_map]
  constructor
  · rintro ⟨e, he, heq⟩
    by_cases hl : e.1 = l
    · rw [if_pos hl] at heq
      cases heq
      exact .inl ⟨rfl, rfl⟩
    · rw [if_neg hl] at heq
      subst heq
      exact .inr ⟨hl, he⟩
  · rintro (⟨rfl, rfl⟩ | ⟨hl, he⟩)
    · exact ⟨_, hmem, if_pos rfl⟩
    · exact ⟨_, he, if_neg hl⟩

/-- What is allocated stays so when a listener is written. -/
theorem allocated_insert (h : s.owner x = some t) (l : Nat) (a : AListener) (links : Links Node)
    (hooks : Links Hook) : Registry.Allocated ⟨s.listeners.insert l a, links, s.remotes, hooks⟩ x = true := by
  have hall := allocated_of_owner h
  cases x with
  | listener l' =>
    by_cases hl : l' = l
    · subst hl
      simp [Registry.Allocated]
    · simpa [Registry.Allocated, Finmap.lookup_insert_of_ne _ hl] using hall
  | _ => exact hall

/-- A listener is rebound without touching its hook, or from one transport to another. -/
def CanMove (a : AListener) (transport : Option Nat) : Prop :=
  a.transport = transport ∨ a.transport ≠ none ∧ transport ≠ none

namespace Represents

variable {connectTo : List UInt8} {transport : Option Nat}

theorem rebind (h : Represents s b hs) (hmem : (l, a) ∈ b) (hmove : CanMove a transport) :
    ∃ s' hs', s.rebind l a connectTo transport = .ok s' ∧
      Represents s' (rebound b l { a with connectTo := connectTo, transport := transport }) hs' := by
  have howner := h.owner_eq hmem
  have hring (links : Links Node) (hlinks : links = s.links) (a' : AListener) :
      Ring links .list ((rebound b l a').map fun e => Node.listener e.1) := by
    rw [hlinks, map_fst_rebound]
    exact h.ring
  unfold Registry.rebind
  by_cases htr : a.transport = transport
  · subst htr
    simp only [ne_eq, not_true_eq_false, if_false]
    refine ⟨_, hs, rfl, hring _ rfl _, fun l' a' => ?_, ?_, fun l' a' hmem' hnone => ?_⟩
    · rw [h.mem_insert, mem_rebound hmem]
    · rw [owner_insert, ← howner, Function.update_eq_self]
      exact h.hooked
    · rcases (mem_rebound hmem l').mp hmem' with ⟨rfl, rfl⟩ | ⟨-, hmem'⟩
      · exact h.bare l' a hmem hnone
      · exact h.bare l' a' hmem' hnone
  obtain ⟨hold, hnew⟩ := hmove.resolve_left htr
  obtain ⟨t, ht⟩ := Option.ne_none_iff_exists'.mp hold
  obtain ⟨t', rfl⟩ := Option.ne_none_iff_exists'.mp hnew
  rw [ht] at howner
  have hdrop := h.hooked.drop howner
  have hbetween : Function.update s.owner (.listener l) none (.listener l) = none := Function.update_self ..
  have hadd := hdrop.add hbetween (fun _ => nofun) t'
  rw [Function.update_idem] at hadd
  have hrm := Hooked.removeTransportDisconnect
    (s := { s with listeners := s.listeners.insert l { a with connectTo := connectTo } }) h.hooked
    (fun y j hy => allocated_insert hy l _ _ _) howner
  have hall (y : Hook) (j : Nat) (hy : Function.update s.owner (.listener l) none y = some j) :
      s.owner y = some j := by
    by_cases hne : y = .listener l
    · rw [hne, Function.update_self] at hy
      cases hy
    · rwa [Function.update_of_ne hne] at hy
  have hput := Hooked.addTransportDisconnect
    (s := ⟨s.listeners.insert l { a with connectTo := connectTo, transport := some t' }, s.links, s.remotes,
      (s.hooks.unlink (.listener l)).link (.listener l) (.listener l)⟩) hdrop
    (fun y j hy => allocated_insert (hall y j hy) l _ _ _) (.listener l) t'
  simp only [ne_eq, htr, not_false_eq_true, if_true, hrm, ok_bind, Finmap.insert_insert, hput]
  refine ⟨_, Function.update (fun j => (hs j).erase (.listener l)) t'
    ((hs t').erase (.listener l) ++ [.listener l]), rfl, hring _ rfl _, fun l' a' => ?_, ?_,
    fun l' a' hmem' hnone => ?_⟩
  · rw [h.mem_insert, mem_rebound hmem]
  · rw [owner_insert]
    exact hadd
  · rcases (mem_rebound hmem l').mp hmem' with ⟨rfl, rfl⟩ | ⟨hl, hmem'⟩
    · cases hnone
    · have hnone' := (h.owner_eq hmem').trans hnone
      have hne : Hook.listener l' ≠ .listener l := fun heq => hl (Hook.listener.inj heq)
      refine (Rings.append_prev hne (by nofun)).trans
        ((h.hooked.rings.remove_prev ((h.hooked.mem t _).mpr howner) ?_).trans (h.bare l' a' hmem' hnone))
      exact h.hooked.notMem_ring hnone' (fun _ => nofun) t

/-- A listener with a transport is not rebound to none, nor one without to any: the hook of that one has no
list, and there is no list for the other. -/
theorem rebind_fault (h : Represents s b hs) (hmem : (l, a) ∈ b) (hmove : ¬ CanMove a transport) :
    s.rebind l a connectTo transport = .error .fault := by
  have howner := h.owner_eq hmem
  have htr : a.transport ≠ transport := fun heq => hmove (.inl heq)
  unfold Registry.rebind
  simp only [ne_eq, htr, not_false_eq_true, if_true]
  cases hold : a.transport with
  | none =>
    have hbare := h.bare l a hmem hold
    have hrm : Registry.removeTransportDisconnect
        { s with listeners := s.listeners.insert l { a with connectTo := connectTo } } (.listener l) =
        .error .fault := by
      refine if_neg fun hall => ?_
      rw [show s.hooks.prev (.listener l) = .null from hbare] at hall
      exact Bool.noConfusion hall.1
    rw [hold] at hrm
    rw [hrm, error_bind]
  | some t =>
    rw [hold] at howner
    have hrm := Hooked.removeTransportDisconnect
      (s := { s with listeners := s.listeners.insert l { a with connectTo := connectTo } }) h.hooked
      (fun y j hy => allocated_insert hy l _ _ _) howner
    rw [hold] at hrm
    have hnew : transport = none := by
      by_contra hne
      exact hmove (.inr ⟨by simp [hold], hne⟩)
    simp only [hrm, ok_bind, hnew]
    rfl

/-- A new listener comes last in the list, and its hook last in that of its transport. -/
theorem linkListener (h : Represents s b hs) (hfree : s.listeners.lookup l = none) (a : AListener) :
    ∃ s' hs', s.linkListener l a = .ok s' ∧ Represents s' (b ++ [(l, a)]) hs' := by
  have hnot (a' : AListener) : (l, a') ∉ b := by
    rw [← h.listeners, hfree]
    exact nofun
  have howner : s.owner (.listener l) = none := by simp [Registry.owner, hfree]
  have hlast := h.allocatedNode (h.ring.prev_mem List.mem_cons_self)
  have hring : Ring ((s.links.link (s.links.prev .list) (.listener l)).link (.listener l) .list) .list
      ((b ++ [(l, a)]).map fun e => .listener e.1) := by
    have hold : Ring s.links .list ((b.map fun e => Node.listener e.1) ++ []) := by simpa using h.ring
    rw [List.map_append]
    refine hold.insert ?_ h.ring.prev_head rfl
    simpa using fun a' => hnot a'
  have hlisteners (l' : Nat) (a' : AListener) :
      (s.listeners.insert l a).lookup l' = some a' ↔ (l', a') ∈ b ++ [(l, a)] := by
    rw [h.mem_insert, List.mem_append, List.mem_singleton]
    constructor
    · rintro (⟨rfl, rfl⟩ | ⟨-, hmem⟩)
      · exact .inr rfl
      · exact .inl hmem
    · rintro (hmem | heq)
      · exact .inr ⟨fun hl => hnot a' (hl ▸ hmem), hmem⟩
      · cases heq
        exact .inl ⟨rfl, rfl⟩
  -- `calloc` has cleared the hook, which is in no list.
  have hframe := h.hooked.frame howner (fun _ => nofun) .null .null
  have hprev {l' : Nat} (hl : l' ≠ l) :
      Function.update s.hooks.prev (.listener l) .null (.listener l') = s.hooks.prev (.listener l') :=
    Function.update_of_ne (fun heq => hl (Hook.listener.inj heq)) _ _
  unfold Registry.linkListener
  simp only [hlast, if_true]
  cases htr : a.transport with
  | none =>
    simp only [if_true]
    refine ⟨_, hs, rfl, hring, hlisteners, ?_, fun l' a' hmem' hnone => ?_⟩
    · rw [owner_insert, htr, ← howner, Function.update_eq_self]
      exact hframe
    · by_cases hl : l' = l
      · rw [hl]
        exact Function.update_self ..
      · have hmem := (h.mem_insert l a l' a').mp ((hlisteners l' a').mpr hmem')
        exact (hprev hl).trans (h.bare l' a' (hmem.resolve_left fun heq => hl heq.1).2 hnone)
  | some t =>
    have hput := Hooked.addTransportDisconnect
      (s := ⟨s.listeners.insert l a, (s.links.link (s.links.prev .list) (.listener l)).link (.listener l) .list,
        s.remotes, ⟨Function.update s.hooks.next (.listener l) .null,
          Function.update s.hooks.prev (.listener l) .null⟩⟩) hframe
      (fun y j hy => allocated_insert hy l _ _ _) (.listener l) t
    simp only [reduceCtorEq, if_false, hput]
    refine ⟨_, Function.update hs t (hs t ++ [.listener l]), rfl, hring, hlisteners, ?_,
      fun l' a' hmem' hnone => ?_⟩
    · rw [owner_insert, htr]
      exact hframe.add howner (fun _ => nofun) t
    · by_cases hl : l' = l
      · subst hl
        have heq := (h.mem_insert l' a l' a').mp ((hlisteners l' a').mpr hmem')
        obtain ⟨-, rfl⟩ := heq.resolve_right fun hne => hne.1 rfl
        rw [htr] at hnone
        cases hnone
      · have hmem := (h.mem_insert l a l' a').mp ((hlisteners l' a').mpr hmem')
        have hold := (hmem.resolve_left fun heq => hl heq.1).2
        refine (Rings.append_prev (fun heq => hl (Hook.listener.inj heq)) (by nofun)).trans ?_
        exact (hprev hl).trans (h.bare l' a' hold hnone)

/-- A new remote socket puts its hook last in the list of its transport. -/
theorem createRemote (h : Represents s b hs) (hfree : s.remotes.lookup r = none) (t : Nat) :
    ∃ s' hs', Registry.addTransportDisconnect { s with remotes := s.remotes.insert r t } (some t) (.remote r) =
      .ok s' ∧ Represents s' b hs' := by
  have howner : s.owner (.remote r) = none := hfree
  have hput := Hooked.addTransportDisconnect (s := { s with remotes := s.remotes.insert r t }) h.hooked
    (fun y j hy => ?_) (.remote r) t
  · refine ⟨_, Function.update hs t (hs t ++ [.remote r]), hput, h.ring, h.listeners, ?_,
      fun l' a' hmem' hnone => ?_⟩
    · show Hooked _ (Registry.owner ⟨s.listeners, s.links, s.remotes.insert r t, _⟩) _
      rw [owner_insertRemote]
      exact h.hooked.add howner (fun _ => nofun) t
    · exact (Rings.append_prev (by nofun) (by nofun)).trans (h.bare l' a' hmem' hnone)
  · have hall := allocated_of_owner hy
    cases y with
    | remote r' =>
      by_cases hr : r' = r
      · subst hr
        simp [Registry.Allocated]
      · simpa [Registry.Allocated, Finmap.lookup_insert_of_ne _ hr] using hall
    | _ => exact hall

end Represents

end Twm.Adb.Listener
