import Mathlib.Data.List.Perm.Basic
import DeviceTwm.Lib.Loop
import DeviceTwm.Lib.Rings
import DeviceTwm.Lib.Run
import Mathlib.Algebra.Group.Nat.Defs

/-!
# The ids of local sockets (`sockets.c`)

`install_local_socket` takes the id of a new socket from a counter of 32 bits, and never asks whether a
socket of `local_socket_list` has it.

* `State`: the two lists as pointers, the ids and the counter. Sockets are numbered in the order in
  which they are installed.
* `Inv`: the id of the socket `n` in the list is `n + 1` modulo `2 ^ 32`.
* `unique_iff`: in a run the ids stay unique and are not 0 if and only if no socket is the last of
  `2 ^ 32 * k` ones, or is installed `2 ^ 32 * k` sockets after one that is still in the list.
-/

open Lib

namespace Twm.Adb.SocketIds

/-- `asocket *`: null, the head of a list, or a socket. -/
inductive Node
  | null
  /-- `&local_socket_list`. -/
  | list
  /-- `&local_socket_closing_list`. -/
  | closing
  | sock (n : Nat)
  deriving DecidableEq

structure State where
  links : Links Node
  /-- `s->id`. -/
  id : Nat → UInt32
  /-- `local_socket_next_id`. -/
  nextId : UInt32
  /-- The sockets installed so far. -/
  made : Nat

/-- Both lists are empty, and the pointers of the sockets are null. -/
def State.init : State where
  links :=
    { next := fun
        | .list => .list
        | .closing => .closing
        | _ => .null
      prev := fun
        | .list => .list
        | .closing => .closing
        | _ => .null }
  id := fun _ => 0
  nextId := 1
  made := 0

namespace State

variable (st : State)

/-- A round of the loop of `find_local_socket` at the node `s`; `none`: it is not a socket. -/
def findRound (id : UInt32) (s : Node) : Option (Node ⊕ Option Nat) :=
  if s = .list then some (.inr none)
  else
    match s with
    | .sock n => if st.id n = id then some (.inr (some n)) else some (.inl (st.links.next s))
    | _ => none

/-- `find_local_socket`, for `k` rounds. -/
def findLocalSocket (id : UInt32) (k : Nat) : Outcome Node (Option Nat) :=
  loop (st.findRound id) k (st.links.next .list)

def insertLocalSocket (s head : Node) : State :=
  { st with links := (st.links.link (st.links.prev head) s).link s head }

def installLocalSocket : State :=
  let n := st.made
  let st := { st with
    id := Function.update st.id n st.nextId, nextId := st.nextId + 1, made := n + 1 }
  st.insertLocalSocket (.sock n) .list

def removeSocket (n : Nat) : State :=
  let s := Node.sock n
  if st.links.prev s ≠ .null ∧ st.links.next s ≠ .null then
    let links := st.links.unlink s
    { st with
      links :=
        { next := Function.update links.next s .null, prev := Function.update links.prev s .null }
      id := Function.update st.id n 0 }
  else st

end State

inductive Step
  | install
  /-- A socket is destroyed. -/
  | remove (n : Nat)
  /-- `local_socket_close_locked` puts a socket on the closing list. -/
  | close (n : Nat)

/-- Only a socket that is in a list is put on the closing list. -/
def step (st : State) : Step → Option State
  | .install => some st.installLocalSocket
  | .remove n => some (st.removeSocket n)
  | .close n =>
    if st.links.next (.sock n) = .null then none
    else some ((st.removeSocket n).insertLocalSocket (.sock n) .closing)

/-! ## What is promised -/

/-- The sockets of `local_socket_list`, in order. -/
def State.Lists (st : State) (live : List Nat) : Prop := Ring st.links .list (live.map .sock)

/-- The ids of the sockets in the list are not 0, and different; and `find_local_socket` finds the one
that has an id. -/
structure Unique (st : State) (live : List Nat) : Prop where
  nonzero : ∀ n ∈ live, st.id n ≠ 0
  distinct : ∀ m ∈ live, ∀ n ∈ live, st.id m = st.id n → m = n
  found : ∀ id, ∃ k r, st.findLocalSocket id k = .left r ∧ ∀ n, r = some n ↔ n ∈ live ∧ st.id n = id
  unnamed : ∀ k n, st.findLocalSocket 0 k ≠ .left (some n)

/-- After the step the ids are unique. -/
def KeepsUnique (st : State) (s : Step) : Prop :=
  ∀ st', step st s = some st' → ∀ live, st'.Lists live → Unique st' live

/-- A socket that is installed is not the last of `2 ^ 32 * k`, and none of those in the list was
installed `2 ^ 32 * k` sockets before it. -/
def InTime (st : State) : Step → Prop
  | .install => ¬ 2 ^ 32 ∣ st.made + 1 ∧ ∀ live, st.Lists live → ∀ n ∈ live, ¬ 2 ^ 32 ∣ st.made - n
  | _ => True

/-! ## The lists -/

inductive Side
  | live | closing
  deriving DecidableEq

def Side.head : Side → Node
  | live => .list
  | closing => .closing

/-- The two lists have these sockets. The ids of those that are not closing follow the counter. -/
structure Inv (st : State) (items : Side → List Nat) : Prop where
  rings : Rings st.links Side.head fun i => (items i).map .sock
  out : ∀ n, (∀ i, n ∉ items i) → st.links.next (.sock n) = .null
  bound : ∀ i, ∀ n ∈ items i, n < st.made
  id_eq : ∀ n ∈ items .live, st.id n = UInt32.ofNat (n + 1)
  nextId_eq : st.nextId = UInt32.ofNat (st.made + 1)

variable {st st' : State} {items : Side → List Nat} {i : Side} {n m : Nat} {live : List Nat}

theorem inv_init : Inv .init fun _ => [] where
  rings := by
    refine ⟨fun i => ?_, fun i j x hx hx' => ?_⟩
    · cases i <;> exact ⟨⟨rfl, rfl⟩, List.nodup_singleton _⟩
    · obtain rfl := List.mem_singleton.mp hx
      have hij := List.mem_singleton.mp hx'
      cases i <;> cases j <;> first | rfl | cases hij
  out _ _ := rfl
  bound _ _ hn := absurd hn List.not_mem_nil
  id_eq _ hn := absurd hn List.not_mem_nil
  nextId_eq := rfl

theorem mem_ring_iff : Node.sock n ∈ i.head :: live.map .sock ↔ n ∈ live := by
  have hhead : Node.sock n ≠ i.head := by cases i <;> exact nofun
  simp [hhead]

theorem null_not_mem (i : Side) : Node.null ∉ i.head :: (items i).map .sock := by
  cases i <;> simp [Side.head]

namespace Inv

theorem lists_iff (h : Inv st items) : st.Lists live ↔ live = items .live := by
  constructor
  · intro hl
    have hnodes := Ring.unique hl (h.rings.ring .live)
    exact List.map_injective_iff.mpr (fun _ _ h => Node.sock.inj h) hnodes
  · rintro rfl
    exact h.rings.ring .live

/-- The pointers of a socket in a list are not null. -/
theorem linked (h : Inv st items) (hn : n ∈ items i) :
    st.links.prev (.sock n) ≠ .null ∧ st.links.next (.sock n) ≠ .null := by
  have hmem : Node.sock n ∈ i.head :: (items i).map .sock := mem_ring_iff.mpr hn
  constructor
  · intro hnull
    exact null_not_mem i (hnull ▸ (h.rings.ring i).prev_mem hmem)
  · intro hnull
    exact null_not_mem i (hnull ▸ (h.rings.ring i).next_mem hmem)

/-- What is in a list after a socket is put at the end of one of the two. -/
theorem mem_append_side {items : Side → List Nat} {i j : Side} {m n : Nat} :
    m ∈ Function.update items i (items i ++ [n]) j ↔ m ∈ items j ∨ j = i ∧ m = n := by
  by_cases hj : j = i
  · subst hj
    rw [Function.update_self, List.mem_append, List.mem_singleton]
    simp only [true_and]
  · rw [Function.update_of_ne hj]
    simp only [hj, false_and, or_false]

/-- A socket that is in no list is put at the end of one. -/
theorem insert (h : Inv st items) (i : Side) (hout : ∀ j, n ∉ items j) (hn : n < st.made)
    (hid : i = .live → st.id n = UInt32.ofNat (n + 1)) :
    Inv (st.insertLocalSocket (.sock n) i.head) (Function.update items i (items i ++ [n])) where
  rings := by
    have hr := h.rings.append i (x := .sock n) fun j hj => hout j (mem_ring_iff.mp hj)
    have hmap : Function.update (fun i => (items i).map Node.sock) i
        ((items i).map Node.sock ++ [.sock n]) =
          fun j => (Function.update items i (items i ++ [n]) j).map .sock := by
      funext j
      by_cases hj : j = i
      · subst hj
        rw [Function.update_self, Function.update_self, List.map_append]
        rfl
      · rw [Function.update_of_ne hj, Function.update_of_ne hj]
    rwa [hmap] at hr
  out m hm := by
    have hne : m ≠ n := fun heq => hm i (mem_append_side.mpr (.inr ⟨rfl, heq⟩))
    have hmout (j : Side) : m ∉ items j := fun hmem => hm j (mem_append_side.mpr (.inl hmem))
    have hprev : Node.sock m ≠ st.links.prev i.head := by
      intro heq
      have := (h.rings.ring i).prev_mem List.mem_cons_self
      rw [← heq] at this
      exact hmout i (mem_ring_iff.mp this)
    show (Function.update (Function.update st.links.next _ _) _ _) _ = _
    rw [Function.update_of_ne fun heq => hne (Node.sock.inj heq), Function.update_of_ne hprev]
    exact h.out m hmout
  bound j m hm := by
    rcases mem_append_side.mp hm with hm | ⟨-, rfl⟩
    · exact h.bound j m hm
    · exact hn
  id_eq m hm := by
    rcases mem_append_side.mp hm with hm | ⟨hlive, rfl⟩
    · exact h.id_eq m hm
    · exact hid hlive.symm
  nextId_eq := h.nextId_eq

theorem remove_of_not_mem (h : Inv st items) (hout : ∀ i, n ∉ items i) : st.removeSocket n = st := by
  unfold State.removeSocket
  exact if_neg fun hne => hne.2 (h.out n hout)

theorem remove (h : Inv st items) (hn : n ∈ items i) :
    Inv (st.removeSocket n) fun j => (items j).erase n := by
  unfold State.removeSocket
  dsimp only
  rw [if_pos (h.linked hn)]
  have herase (j : Side) : ((items j).erase n).map Node.sock = ((items j).map .sock).erase (.sock n) :=
    List.map_erase (fun _ _ h => Node.sock.inj h) _
  have hnd (j : Side) : (items j).Nodup := (h.rings.ring j).items_nodup.of_map _
  have hgone (j : Side) : Node.sock n ∉ j.head :: ((items j).erase n).map .sock := by
    rw [mem_ring_iff]
    exact (hnd j).not_mem_erase
  have hr := h.rings.remove (List.mem_map_of_mem (f := Node.sock) hn)
  simp only [← herase] at hr
  constructor
  · refine hr.congr (fun j y hy => ?_) fun j y hy => ?_
    · have hne : y ≠ .sock n := fun heq => hgone j (heq ▸ hy)
      show Function.update _ _ _ _ = Function.update _ _ _ _
      rw [Function.update_of_ne hne, Function.update_of_ne hne]
    · have hne : y ≠ .sock n := fun heq => hgone j (heq ▸ hy)
      show Function.update _ _ _ _ = Function.update _ _ _ _
      rw [Function.update_of_ne hne, Function.update_of_ne hne]
  · intro m hm
    show Function.update _ _ _ _ = _
    by_cases hmn : m = n
    · rw [hmn, Function.update_self]
    · have hmout (j : Side) : m ∉ items j := fun hmem => hm j ((List.mem_erase_of_ne hmn).mpr hmem)
      have hprev : Node.sock m ≠ st.links.prev (.sock n) := by
        intro heq
        have := (h.rings.ring i).prev_mem (mem_ring_iff.mpr hn)
        rw [← heq] at this
        exact hmout i (mem_ring_iff.mp this)
      rw [Function.update_of_ne fun heq => hmn (Node.sock.inj heq), Links.unlink, Links.link_next,
        Function.update_of_ne hprev]
      exact h.out m hmout
  · exact fun j m hm => h.bound j m (List.mem_of_mem_erase hm)
  · intro m hm
    have hmn : m ≠ n := by
      rintro rfl
      exact (hnd .live).not_mem_erase hm
    show Function.update _ _ _ _ = _
    rw [Function.update_of_ne hmn]
    exact h.id_eq m (List.mem_of_mem_erase hm)
  · exact h.nextId_eq

theorem install (h : Inv st items) :
    Inv st.installLocalSocket (Function.update items .live (items .live ++ [st.made])) := by
  have hout (j : Side) : st.made ∉ items j := fun hmem => Nat.lt_irrefl _ (h.bound j _ hmem)
  let st₁ : State :=
    { st with
      id := Function.update st.id st.made st.nextId, nextId := st.nextId + 1, made := st.made + 1 }
  have h₁ : Inv st₁ items := by
    refine ⟨h.rings, h.out, fun j n hn => Nat.lt_succ_of_lt (h.bound j n hn), fun n hn => ?_, ?_⟩
    · have hne : n ≠ st.made := Nat.ne_of_lt (h.bound _ n hn)
      exact (Function.update_of_ne hne ..).trans (h.id_eq n hn)
    · show st.nextId + 1 = _
      rw [h.nextId_eq]
      exact (UInt32.ofNat_add (st.made + 1) 1).symm
  exact h₁.insert .live hout (Nat.lt_succ_self _) fun _ =>
    (Function.update_self ..).trans h.nextId_eq

theorem close (h : Inv st items) (hn : n ∈ items i) :
    Inv ((st.removeSocket n).insertLocalSocket (.sock n) .closing)
      (Function.update (fun j => (items j).erase n) .closing ((items .closing).erase n ++ [n])) := by
  have hgone (j : Side) : n ∉ (items j).erase n :=
    ((h.rings.ring j).items_nodup.of_map _).not_mem_erase
  have hmade : (st.removeSocket n).made = st.made := by
    unfold State.removeSocket
    dsimp only
    split <;> rfl
  exact (h.remove hn).insert .closing hgone (hmade ▸ h.bound i n hn) nofun

end Inv

/-- What a step does to the sockets of `local_socket_list`. -/
inductive Changes (st : State) (items items' : Side → List Nat) : Step → Prop
  | install (h : items' .live = items .live ++ [st.made]) : Changes st items items' .install
  | drop (n : Nat) (s : Step) (hs : s ≠ .install) (h : items' .live = (items .live).erase n) :
      Changes st items items' s

theorem step_inv {s : Step} (h : Inv st items) (hs : step st s = some st') :
    ∃ items', Inv st' items' ∧ Changes st items items' s := by
  cases s with
  | install =>
    cases hs
    exact ⟨_, h.install, .install (Function.update_self ..)⟩
  | remove n =>
    cases hs
    by_cases hn : ∃ i, n ∈ items i
    · obtain ⟨i, hn⟩ := hn
      exact ⟨_, h.remove hn, .drop n _ nofun rfl⟩
    · have hout : ∀ i, n ∉ items i := not_exists.mp hn
      rw [h.remove_of_not_mem hout]
      exact ⟨items, h, .drop n _ nofun (List.erase_of_not_mem (hout .live)).symm⟩
  | close n =>
    unfold step at hs
    dsimp only at hs
    split at hs
    · cases hs
    · next hnext =>
      cases hs
      have hn : ∃ i, n ∈ items i := by
        by_contra hn
        exact hnext (h.out n (not_exists.mp hn))
      obtain ⟨i, hn⟩ := hn
      have hside : Side.live ≠ .closing := nofun
      exact ⟨_, h.close hn, .drop n _ nofun (Function.update_of_ne hside ..)⟩

/-! ## The search -/

/-- `find_local_socket` returns the first socket in the list with the id. -/
theorem findLocalSocket_eq (hl : st.Lists live) (id : UInt32) {k : Nat} (hk : live.length ≤ k) :
    st.findLocalSocket id (k + 1) = .left (live.find? fun n => st.id n = id) := by
  have h := hl.linked.loop (f := fun k s => loop (st.findRound id) (k + 1) s)
    (g := fun n r => if st.id n = id then .left (some n) else r) (z := .left none) hk
    (fun _ => rfl) fun k n _ => by
      rw [loop, State.findRound, if_neg Node.noConfusion]
      by_cases hid : st.id n = id
      · simp only [if_pos hid]
      · simp only [if_neg hid]
  rw [State.findLocalSocket, h]
  exact (foldr_search (fun n => decide (st.id n = id)) (Outcome.left (σ := Node)) live).symm ▸ by
    simp only [decide_eq_true_eq]

/-! ## Ids -/

/-- The numbers of the sockets in the list give different ids, and not 0. -/
structure Spread (live : List Nat) : Prop where
  nonzero : ∀ n ∈ live, ¬ 2 ^ 32 ∣ n + 1
  apart : ∀ m ∈ live, ∀ n ∈ live, m < n → ¬ 2 ^ 32 ∣ n - m

theorem id_eq_iff :
    UInt32.ofNat (m + 1) = UInt32.ofNat (n + 1) ↔ (m + 1) % 2 ^ 32 = (n + 1) % 2 ^ 32 := by
  rw [← UInt32.toNat_inj, UInt32.toNat_ofNat', UInt32.toNat_ofNat']

theorem id_eq_zero_iff : UInt32.ofNat (n + 1) = 0 ↔ 2 ^ 32 ∣ n + 1 := by
  rw [← UInt32.toNat_inj, UInt32.toNat_ofNat', Nat.dvd_iff_mod_eq_zero]
  rfl

theorem Inv.unique_iff_spread (h : Inv st items) :
    Unique st (items .live) ↔ Spread (items .live) := by
  constructor
  · intro hu
    refine ⟨fun n hn hdvd => ?_, fun m hm n hn hlt hdvd => ?_⟩
    · refine hu.nonzero n hn ?_
      rw [h.id_eq n hn, id_eq_zero_iff]
      exact hdvd
    · refine Nat.ne_of_lt hlt (hu.distinct m hm n hn ?_)
      rw [h.id_eq m hm, h.id_eq n hn, id_eq_iff]
      omega
  · intro hs
    have hnonzero : ∀ n ∈ items .live, st.id n ≠ 0 := by
      intro n hn
      rw [h.id_eq n hn, ne_eq, id_eq_zero_iff]
      exact hs.nonzero n hn
    have hdistinct : ∀ m ∈ items .live, ∀ n ∈ items .live, st.id m = st.id n → m = n := by
      intro m hm n hn heq
      rw [h.id_eq m hm, h.id_eq n hn, id_eq_iff] at heq
      rcases Nat.lt_trichotomy m n with hlt | heq' | hlt
      · exact absurd (by omega) (hs.apart m hm n hn hlt)
      · exact heq'
      · exact absurd (by omega) (hs.apart n hn m hm hlt)
    have hl : st.Lists (items .live) := h.lists_iff.mpr rfl
    refine ⟨hnonzero, hdistinct,
      fun id => ⟨_, _, findLocalSocket_eq hl id (Nat.le_refl _), fun n => ?_⟩, ?_⟩
    · constructor
      · intro hfind
        exact ⟨List.mem_of_find?_eq_some hfind, by simpa using List.find?_some hfind⟩
      · rintro ⟨hn, rfl⟩
        have hsome : ((items .live).find? fun m => st.id m = st.id n).isSome := by
          rw [List.find?_isSome]
          exact ⟨n, hn, decide_eq_true rfl⟩
        obtain ⟨m, hm⟩ := Option.isSome_iff_exists.mp hsome
        have hid : st.id m = st.id n := by simpa using List.find?_some hm
        rw [hm, hdistinct m (List.mem_of_find?_eq_some hm) n hn hid]
    · intro k n hk
      have hlong := loop_left_of_le hk (Nat.le_add_right k (items .live).length.succ)
      rw [Nat.add_succ] at hlong
      have hfind := (findLocalSocket_eq hl 0 (Nat.le_add_left _ k)).symm.trans hlong
      have hsome := Outcome.left.inj hfind
      exact hnonzero n (List.mem_of_find?_eq_some hsome) (by simpa using List.find?_some hsome)

theorem spread_nil : Spread [] :=
  ⟨fun _ hn => absurd hn List.not_mem_nil, fun _ hn => absurd hn List.not_mem_nil⟩

theorem Spread.erase (h : Spread live) (n : Nat) : Spread (live.erase n) where
  nonzero m hm := h.nonzero m (List.mem_of_mem_erase hm)
  apart m hm k hk := h.apart m (List.mem_of_mem_erase hm) k (List.mem_of_mem_erase hk)

/-- A new socket has the highest number. -/
theorem spread_append_iff (h : Spread live) (hbound : ∀ n ∈ live, n < m) :
    Spread (live ++ [m]) ↔ ¬ 2 ^ 32 ∣ m + 1 ∧ ∀ n ∈ live, ¬ 2 ^ 32 ∣ m - n := by
  have hm : m ∈ live ++ [m] := List.mem_append_right _ (List.mem_singleton_self m)
  constructor
  · intro hs
    exact ⟨hs.nonzero m hm, fun n hn => hs.apart n (List.mem_append_left _ hn) m hm (hbound n hn)⟩
  · rintro ⟨hzero, hapart⟩
    constructor
    · intro n hn
      rcases List.mem_append.mp hn with hn | hn
      · exact h.nonzero n hn
      · rwa [List.mem_singleton.mp hn]
    · intro n hn k hk hlt
      rcases List.mem_append.mp hn with hn | hn
      · rcases List.mem_append.mp hk with hk | hk
        · exact h.apart n hn k hk hlt
        · rw [List.mem_singleton.mp hk]
          exact hapart n hn
      · obtain rfl := List.mem_singleton.mp hn
        rcases List.mem_append.mp hk with hk | hk
        · exact absurd (hbound k hk) (Nat.lt_asymm hlt)
        · exact absurd (List.mem_singleton.mp hk) (Nat.ne_of_gt hlt)

theorem keepsUnique_iff_spread {items' : Side → List Nat} {s : Step} (h' : Inv st' items')
    (hs : step st s = some st') : KeepsUnique st s ↔ Spread (items' .live) := by
  rw [← h'.unique_iff_spread]
  constructor
  · intro hk
    exact hk st' hs _ (h'.lists_iff.mpr rfl)
  · intro hu st'' hs'' live hlive
    cases hs.symm.trans hs''
    rwa [h'.lists_iff.mp hlive]

/-- A step keeps the ids unique exactly when it is in time. -/
theorem keepsUnique_iff (h : Inv st items) (hsp : Spread (items .live)) (s : Step) :
    KeepsUnique st s ↔ InTime st s := by
  cases hs : step st s with
  | none =>
    have hin : InTime st s := by
      cases s with
      | install => cases hs
      | remove n => trivial
      | close n => trivial
    exact iff_of_true (fun st' hs' => nomatch hs.symm.trans hs') hin
  | some st' =>
    obtain ⟨items', h', hchange⟩ := step_inv h hs
    rw [keepsUnique_iff_spread h' hs]
    cases hchange with
    | install heq =>
      rw [heq, spread_append_iff hsp (h.bound .live)]
      refine and_congr_right fun _ => ⟨fun hin live hlive => ?_, fun hin => ?_⟩
      · rwa [h.lists_iff.mp hlive]
      · exact hin _ (h.lists_iff.mpr rfl)
    | drop n _ hne heq =>
      rw [heq]
      refine iff_of_true (hsp.erase n) ?_
      cases s with
      | install => exact absurd rfl hne
      | remove n => trivial
      | close n => trivial

/-- **The ids of the sockets in the list are unique** after every step of a run, if and only if every
socket is installed in time. -/
theorem unique_iff (ls : List Step) :
    RunOk step KeepsUnique .init ls ↔ RunOk step InTime .init ls := by
  have hinit : ∃ items, Inv .init items ∧ Spread (items .live) :=
    ⟨_, inv_init, spread_nil⟩
  have hkeep (st : State) (s : Step) (st' : State) (h : ∃ items, Inv st items ∧ Spread (items .live))
      (hk : KeepsUnique st s) (hs : step st s = some st') :
      ∃ items, Inv st' items ∧ Spread (items .live) := by
    obtain ⟨items, hI, -⟩ := h
    obtain ⟨items', hI', -⟩ := step_inv hI hs
    exact ⟨items', hI', (keepsUnique_iff_spread hI' hs).mp hk⟩
  constructor
  · exact RunOk.imp_of_invariant hkeep (fun st s ⟨_, hI, hsp⟩ => (keepsUnique_iff hI hsp s).mp) hinit
  · have hiff (st : State) (s : Step) (h : ∃ items, Inv st items ∧ Spread (items .live))
        (hin : InTime st s) : KeepsUnique st s := by
      obtain ⟨items, hI, hsp⟩ := h
      exact (keepsUnique_iff hI hsp s).mpr hin
    exact RunOk.imp_of_invariant (fun st s st' h hin => hkeep st s st' h (hiff st s h hin)) hiff hinit

/-! ## The end of the counter -/

/-- `k` sockets are installed, each removed before the next one. -/
def oneByOne (k : Nat) : List Step := (List.range k).flatMap fun n => [.install, .remove n]

theorem run_oneByOne (k : Nat) :
    ∃ st items, run step .init (oneByOne k) = some st ∧ Inv st items ∧ items .live = [] ∧
      st.made = k := by
  induction k with
  | zero => exact ⟨_, _, rfl, inv_init, rfl, rfl⟩
  | succ k ih =>
    obtain ⟨st, items, hrun, h, hnil, rfl⟩ := ih
    have h₁ := h.install
    have hmem : st.made ∈ Function.update items .live (items .live ++ [st.made]) .live := by
      rw [Function.update_self]
      exact List.mem_append_right _ (List.mem_singleton_self _)
    refine ⟨_, _, ?_, h₁.remove hmem, ?_, ?_⟩
    · rw [oneByOne, List.range_succ, List.flatMap_append, run_append]
      show (run step .init (oneByOne st.made)).bind _ = _
      rw [hrun]
      rfl
    · show (Function.update items .live (items .live ++ [st.made]) .live).erase st.made = []
      rw [Function.update_self, hnil, List.nil_append, List.erase_cons_head]
    · unfold State.removeSocket
      dsimp only
      split <;> rfl

theorem not_unique {k : Nat} (hk : 2 ^ 32 ∣ k + 1) :
    ¬ RunOk step KeepsUnique .init (oneByOne k ++ [.install]) := by
  intro hok
  obtain ⟨st, items, hrun, h, hnil, hmade⟩ := run_oneByOne k
  have hlast := (hok.of_append_right hrun).1
  have hspread : Spread (items .live) := by
    rw [hnil]
    exact spread_nil
  have hin := ((keepsUnique_iff h hspread .install).mp hlast).1
  rw [hmade] at hin
  exact hin hk

/-- The last of `2 ^ 32` sockets has the id 0, also when there is never more than one. -/
theorem not_unique_wrap : ¬ RunOk step KeepsUnique .init (oneByOne (2 ^ 32 - 1) ++ [.install]) :=
  not_unique (by decide)

end Twm.Adb.SocketIds
