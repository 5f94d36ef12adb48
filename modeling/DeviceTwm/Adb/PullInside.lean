import DeviceTwm.Adb.PullDir

/-!
# A pull stays inside its target

Every path that the pull of a directory opens for writing or makes should be the local path, followed
by components that are not `..` (`Inside`).

The names come from the server and are not looked at, but for directories called `.` and `..`: a
name may have slashes in it, and a file may be called `../x`. And `mkdirs` makes the directories above
the local path too, when they are missing. `pull_inside_iff`: there is no other way out.
-/

open Lib

namespace Twm.Adb

/-- The components of a path. It is cut at `/` only, as on the Unix side of `sysdeps.h`. -/
def comps (path : List UInt8) : List (List UInt8) := (path.splitOn 47).filter (· ≠ [])

/-- The component `..`. -/
def dotDot : List UInt8 := [46, 46]

/-- `path` is `lpath`, followed by components other than `..`. -/
def Inside (lpath path : List UInt8) : Prop :=
  path.head? = lpath.head? ∧ ∃ cs, comps path = comps lpath ++ cs ∧ dotDot ∉ cs

/-- A directory above `lpath` that `mkdirs` comes by. -/
def Above (lpath d : List UInt8) : Prop :=
  d ≠ [] ∧ (∃ rest, withSlash lpath = d ++ 47 :: rest) ∧ comps d ≠ comps lpath

/-- The directories that are made were missing. -/
def Pull.Makes (p : Pull) (missing : List UInt8 → Bool) : Prop :=
  ∀ n d, p.mkdir n d = .made → missing d = true

/-- Whatever the server replies to the requests for the files, and whatever the local calls do, the
pull stays inside `lpath`. -/
def StaysInside (w : Nat) (c : Conn) (rpath lpath : List UInt8) (missing : List UInt8 → Bool) : Prop :=
  ∀ p : Pull, p.Makes missing → ∀ q ∈ copyRemoteDirLocal w p c rpath lpath, Inside lpath q

/-- The names on the way to the files that are asked for. -/
def fetched (w : Nat) (c : Conn) (rpath lpath : List UInt8) : List (List (List UInt8)) :=
  if rpath = [] ∨ lpath = [] then []
  else
    match (listed w 1025 c (withSlash rpath)).1 with
    | none => []
    | some nss => nss.takeWhile fun ns => (withSlash rpath ++ joinNames ns).length ≤ 1024

/-! ## Paths -/

@[simp] theorem comps_nil : comps [] = [] := rfl

theorem comps_append (a b : List UInt8) : comps (a ++ 47 :: b) = comps a ++ comps b := by
  rw [comps, List.splitOn_eq_splitOnP, List.splitOnP_append_cons a b (by decide), List.filter_append]
  rfl

theorem withSlash_eq (path : List UInt8) : ∃ a, withSlash path = a ++ [47] ∧ comps a = comps path := by
  unfold withSlash
  split
  · rename_i h
    obtain ⟨a, rfl⟩ := List.getLast?_eq_some_iff.mp h
    refine ⟨a, rfl, ?_⟩
    rw [comps_append, comps_nil, List.append_nil]
  · exact ⟨path, rfl, rfl⟩

theorem comps_below (path rel : List UInt8) :
    comps (withSlash path ++ rel) = comps path ++ comps rel := by
  obtain ⟨a, ha, hc⟩ := withSlash_eq path
  rw [ha, List.append_assoc, List.singleton_append, comps_append, hc]

theorem comps_withSlash (path : List UInt8) : comps (withSlash path) = comps path := by
  have h := comps_below path []
  rwa [List.append_nil, comps_nil, List.append_nil] at h

theorem head?_withSlash {path : List UInt8} (h : path ≠ []) (rel : List UInt8) :
    (withSlash path ++ rel).head? = path.head? := by
  obtain ⟨b, path, rfl⟩ := List.exists_cons_of_ne_nil h
  unfold withSlash
  split <;> rfl

theorem comps_joinNames (ns : List (List UInt8)) : comps (joinNames ns) = ns.flatMap comps := by
  induction ns with
  | nil => rfl
  | cons n ns ih =>
    cases ns with
    | nil => simp [joinNames]
    | cons m ms =>
      rw [joinNames_cons (by simp), List.append_assoc, List.singleton_append, comps_append, ih]
      rfl

/-- A file is inside when no name on the way has a component `..`. -/
theorem inside_file_iff {lpath : List UInt8} (hl : lpath ≠ []) (ns : List (List UInt8)) :
    Inside lpath (withSlash lpath ++ joinNames ns) ↔ ∀ n ∈ ns, dotDot ∉ comps n := by
  unfold Inside
  rw [comps_below, comps_joinNames, head?_withSlash hl]
  constructor
  · rintro ⟨-, cs, hcs, hno⟩ n hn hdot
    rw [← List.append_cancel_left hcs] at hno
    exact hno (List.mem_flatMap.mpr ⟨n, hn, hdot⟩)
  · intro h
    refine ⟨rfl, _, rfl, ?_⟩
    intro hdot
    obtain ⟨n, hn, hdot⟩ := List.mem_flatMap.mp hdot
    exact h n hn hdot

/-- No directory above is inside. -/
theorem not_inside_of_above {lpath d : List UInt8} (h : Above lpath d) : ¬ Inside lpath d := by
  obtain ⟨-, ⟨rest, hrest⟩, hne⟩ := h
  rintro ⟨-, cs, hcs, -⟩
  have hall := comps_withSlash lpath
  rw [hrest, comps_append, hcs, List.append_assoc] at hall
  have hnil : cs ++ comps rest = [] := List.append_right_eq_self.mp hall
  rw [(List.append_eq_nil_iff.mp hnil).1, List.append_nil] at hcs
  exact hne hcs

/-- What `mkdirs` comes by for a file: a directory above, or one that is inside if the file is. -/
theorem part_cases {lpath d rest : List UInt8} (hl : lpath ≠ []) (hd : d ≠ []) {ns : List (List UInt8)}
    (hns : ∀ n ∈ ns, dotDot ∉ comps n) (h : withSlash lpath ++ joinNames ns = d ++ 47 :: rest) :
    Above lpath d ∨ Inside lpath d := by
  have hhead : d.head? = lpath.head? := by
    obtain ⟨b, d, rfl⟩ := List.exists_cons_of_ne_nil hd
    rw [← head?_withSlash hl (joinNames ns), h]
    rfl
  have hlong : ∀ a, d = withSlash lpath ++ a → joinNames ns = a ++ 47 :: rest → Inside lpath d := by
    intro a hda hrel
    have hcomps := comps_joinNames ns
    rw [hrel, comps_append] at hcomps
    refine ⟨hhead, comps a, by rw [hda, comps_below], ?_⟩
    intro hdot
    have hmem : dotDot ∈ ns.flatMap comps := by
      rw [← hcomps]
      exact List.mem_append_left _ hdot
    obtain ⟨n, hn, hdot⟩ := List.mem_flatMap.mp hmem
    exact hns n hn hdot
  rcases List.append_eq_append_iff.mp h with ⟨a, hda, hrel⟩ | ⟨b, hlp, hrest⟩
  · exact .inr (hlong a hda hrel)
  · cases b with
    | nil => exact .inr (hlong [] (by simpa using hlp.symm) (by simpa using hrest.symm))
    | cons x b =>
      rw [List.cons_append, List.cons.injEq] at hrest
      obtain ⟨rfl, -⟩ := hrest
      by_cases hc : comps d = comps lpath
      · exact .inr ⟨hhead, [], by rw [hc, List.append_nil], by simp⟩
      · exact .inl ⟨hd, ⟨b, hlp⟩, hc⟩

/-! ## What is made -/

theorem mem_mkdirs {mkdir : List UInt8 → Mkdir} {d : List UInt8} (rest before : List UInt8)
    (h : d ∈ mkdirs mkdir before rest) :
    mkdir d = .made ∧ ∃ a b, rest = a ++ 47 :: b ∧ d = before ++ a := by
  induction rest generalizing before with
  | nil => cases h
  | cons x rest ih =>
    have hlater : d ∈ mkdirs mkdir (before ++ [x]) rest →
        mkdir d = .made ∧ ∃ a b, x :: rest = a ++ 47 :: b ∧ d = before ++ a := by
      intro h
      obtain ⟨hm, a, b, rfl, rfl⟩ := ih _ h
      exact ⟨hm, x :: a, b, rfl, by simp⟩
    unfold mkdirs at h
    split at h
    · rename_i hx
      cases hmk : mkdir before with
      | made =>
        rw [hmk] at h
        rcases List.mem_cons.mp h with rfl | h
        · exact ⟨hmk, [], rest, by rw [hx]; rfl, by simp⟩
        · exact hlater h
      | existed =>
        rw [hmk] at h
        exact hlater h
      | failed =>
        rw [hmk] at h
        cases h
    · exact hlater h

/-- Without a failure, everything that is missing is made. -/
theorem mem_mkdirs_of_made {mkdir : List UInt8 → Mkdir} (hno : ∀ d, mkdir d ≠ .failed)
    (a : List UInt8) {b before : List UInt8} (hm : mkdir (before ++ a) = .made) :
    before ++ a ∈ mkdirs mkdir before (a ++ 47 :: b) := by
  induction a generalizing before with
  | nil =>
    rw [List.append_nil] at hm ⊢
    simp [mkdirs, hm]
  | cons x a ih =>
    rw [List.append_cons before x a] at hm ⊢
    have hrest := ih hm
    rw [List.cons_append, mkdirs]
    split
    · cases hmk : mkdir before with
      | made => exact List.mem_cons_of_mem _ hrest
      | existed => exact hrest
      | failed => exact absurd hmk (hno before)
    · exact hrest

theorem mem_openLocal {mkdir : List UInt8 → Mkdir} {created : Bool} {path q : List UInt8}
    (hp : path ≠ []) (h : q ∈ openLocal mkdir created path) :
    q = path ∨ (mkdir q = .made ∧ q ≠ [] ∧ ∃ rest, path = q ++ 47 :: rest) := by
  rcases List.mem_append.mp h with h | h
  · obtain ⟨hm, a, b, hab, rfl⟩ := mem_mkdirs _ _ h
    refine .inr ⟨hm, ?_, b, ?_⟩
    · obtain ⟨x, path, rfl⟩ := List.exists_cons_of_ne_nil hp
      simp
    · rw [List.append_assoc, ← hab, List.take_append_drop]
  · left
    split at h
    · exact List.mem_singleton.mp h
    · cases h

/-- What is made for a file that is asked for. -/
theorem mem_copyFiles {p : Pull} {q : List UInt8} (cis : List CopyInfo) (n : Nat)
    (h : q ∈ copyFiles p n cis) :
    ∃ m created, ∃ ci ∈ cis.takeWhile fun ci => ci.src.length ≤ 1024,
      q ∈ openLocal (p.mkdir m) created ci.dst := by
  induction cis generalizing n with
  | nil => cases h
  | cons c cis ih =>
    unfold copyFiles at h
    split at h
    · cases h
    · rename_i hlen
      have htake : (c :: cis).takeWhile (fun ci => ci.src.length ≤ 1024) =
          c :: cis.takeWhile fun ci => ci.src.length ≤ 1024 := by
        rw [List.takeWhile_cons, if_pos (by simpa using hlen)]
      rw [htake]
      have hlater : q ∈ copyFiles p (n + 1) cis → ∃ m created,
          ∃ ci ∈ c :: cis.takeWhile fun ci => ci.src.length ≤ 1024,
            q ∈ openLocal (p.mkdir m) created ci.dst := by
        intro h
        obtain ⟨m, created, ci', hci, hq⟩ := ih _ h
        exact ⟨m, created, ci', List.mem_cons_of_mem _ hci, hq⟩
      dsimp only at h
      split at h
      · rcases List.mem_append.mp h with h | h
        · exact ⟨n, _, c, List.mem_cons_self, h⟩
        · split at h
          · exact hlater h
          · cases h
      · split at h
        · exact hlater h
        · cases h

/-- A pull in which every call succeeds and everything missing is made. -/
def Pull.full (missing : List UInt8 → Bool) : Pull where
  fetch := fun _ => ⟨true, true, true⟩
  mkdir := fun _ d => if missing d then .made else .existed

theorem Pull.full_makes (missing : List UInt8 → Bool) : (Pull.full missing).Makes missing := by
  intro n d h
  unfold Pull.full at h
  cases hm : missing d with
  | true => rfl
  | false => simp [hm] at h

theorem openLocal_subset_copyFiles (missing : List UInt8 → Bool) {q : List UInt8} {ci : CopyInfo}
    (cis : List CopyInfo) (n : Nat) (hci : ci ∈ cis.takeWhile fun ci => ci.src.length ≤ 1024)
    (hq : q ∈ openLocal ((Pull.full missing).mkdir 0) true ci.dst) :
    q ∈ copyFiles (Pull.full missing) n cis := by
  induction cis generalizing n with
  | nil => cases hci
  | cons c cis ih =>
    rw [List.takeWhile_cons] at hci
    split at hci
    · rename_i hlen
      have hno : ¬ 1024 < c.src.length := by simpa using hlen
      unfold copyFiles
      rw [if_neg hno]
      simp only [Pull.full, if_true, and_self]
      rcases List.mem_cons.mp hci with rfl | hci
      · exact List.mem_append_left _ hq
      · exact List.mem_append_right _ (ih (n + 1) hci)
    · cases hci

/-- **Pull stays inside its target** exactly when no name on the way to a file that is asked for has a
component `..`, and no directory above the local path is missing. -/
theorem pull_inside_iff (w : Nat) (c : Conn) (rpath lpath : List UInt8) (missing : List UInt8 → Bool) :
    StaysInside w c rpath lpath missing ↔
      ∀ ns ∈ fetched w c rpath lpath, (∀ n ∈ ns, dotDot ∉ comps n) ∧
        ∀ d, Above lpath d → missing d = false := by
  unfold StaysInside fetched copyRemoteDirLocal
  by_cases hnil : rpath = [] ∨ lpath = []
  · simp [hnil]
  have hl : lpath ≠ [] := fun h => hnil (.inr h)
  simp only [if_neg hnil, remoteBuildList_eq]
  cases (listed w 1025 c (withSlash rpath)).1 with
  | none => simp
  | some nss =>
    simp only [Option.map_some, List.append_nil]
    have htake : (nss.map (CopyInfo.ofNames (withSlash rpath) (withSlash lpath))).takeWhile
        (fun ci => ci.src.length ≤ 1024) =
        (nss.takeWhile fun ns => (withSlash rpath ++ joinNames ns).length ≤ 1024).map
          (CopyInfo.ofNames (withSlash rpath) (withSlash lpath)) := by
      rw [List.takeWhile_map]
      rfl
    have hdst : ∀ ns, withSlash lpath ++ joinNames ns ≠ [] := by
      intro ns
      obtain ⟨a, ha, -⟩ := withSlash_eq lpath
      simp [ha]
    constructor
    · intro h ns hns
      have hall : ∀ q ∈ openLocal ((Pull.full missing).mkdir 0) true (withSlash lpath ++ joinNames ns),
          Inside lpath q := by
        intro q hq
        have hci : CopyInfo.ofNames (withSlash rpath) (withSlash lpath) ns ∈
            (nss.map (CopyInfo.ofNames (withSlash rpath) (withSlash lpath))).takeWhile
              fun ci => ci.src.length ≤ 1024 := by
          rw [htake]
          exact List.mem_map_of_mem hns
        exact h _ (Pull.full_makes missing) q (openLocal_subset_copyFiles missing _ 0 hci hq)
      refine ⟨(inside_file_iff hl ns).mp (hall _ (List.mem_append_right _ (by simp))), ?_⟩
      intro d hd
      by_contra hmiss
      refine not_inside_of_above hd (hall d (List.mem_append_left _ ?_))
      -- the first byte of the path is not a place where `mkdirs` stops
      obtain ⟨hne, ⟨rest, hrest⟩, -⟩ := hd
      obtain ⟨x, d, rfl⟩ := List.exists_cons_of_ne_nil hne
      have hno : ∀ d, (Pull.full missing).mkdir 0 d ≠ .failed := by
        intro d
        unfold Pull.full
        dsimp only
        split <;> simp
      have hmade : (Pull.full missing).mkdir 0 ([x] ++ d) = .made := by
        simpa [Pull.full] using hmiss
      have hmem := mem_mkdirs_of_made hno d (b := rest ++ joinNames ns) hmade
      rw [hrest]
      simpa using hmem
    · intro h p hp q hq
      obtain ⟨m, created, ci, hci, hq⟩ := mem_copyFiles _ _ hq
      rw [htake] at hci
      obtain ⟨ns, hns, rfl⟩ := List.mem_map.mp hci
      obtain ⟨hsafe, habove⟩ := h ns hns
      rcases mem_openLocal (hdst ns) hq with rfl | ⟨hmade, hne, rest, hrest⟩
      · exact (inside_file_iff hl ns).mpr hsafe
      · rcases part_cases hl hne hsafe hrest with ha | hin
        · have hmissing := hp m q hmade
          rw [habove q ha] at hmissing
          cases hmissing
        · exact hin

/-- A server that lists one file, called `../x`. -/
def escapingServer : Conn :=
  ⟨le32 ID_DENT ++ le32 0o100644 ++ le32 0 ++ le32 0 ++ le32 4 ++ [46, 46, 47, 120] ++
    (le32 ID_DONE ++ zeros 16), ⟨[], none⟩, []⟩

/-- Pulling `/r` to `l` opens `l/../x`. -/
theorem pull_escapes :
    copyRemoteDirLocal 64 (Pull.full fun _ => false) escapingServer [47, 114] [108] =
        [[108, 47, 46, 46, 47, 120]] ∧
      ¬ StaysInside 64 escapingServer [47, 114] [108] fun _ => false := by
  have hrun : copyRemoteDirLocal 64 (Pull.full fun _ => false) escapingServer [47, 114] [108] =
      [[108, 47, 46, 46, 47, 120]] := by decide +kernel
  refine ⟨hrun, fun h => ?_⟩
  have hin := h _ (Pull.full_makes _) [108, 47, 46, 46, 47, 120] (by rw [hrun]; simp)
  have hns : ∀ n ∈ [dotDot ++ [47, 120]], dotDot ∉ comps n :=
    (inside_file_iff (by simp) [dotDot ++ [47, 120]]).mp hin
  exact hns _ List.mem_cons_self (by decide +kernel)

end Twm.Adb
