import DeviceTwm.Adb.SyncTransfer

/-!
# Listing a directory

`sync_ls` on one end of a connection and `do_list` on the other.

* `Puts`: what a computation of the service sends. It goes on in just the case in which the connection
  takes all of it.
* `doList_puts`: the listing is a `DENT` with its name for each entry that can be looked at, and a `DONE`.
* `syncLsLoop_listing`: the client takes it apart again.
* `syncLs_command`: both together, with the request.
-/

open Lib

namespace Twm.Adb.FileSync

open Act

variable {φ δ : Type}

/-! ## What is sent -/

/-- The computation sends `b` and does nothing else. -/
def Puts (m : Act (World φ) Unit) (b : List UInt8) : Prop :=
  ∀ w : World φ, Attempts w.conn b ((m w).1.isSome, (m w).2.conn) ∧ (m w).2.fs = w.fs

theorem Puts.nil : Puts (pure () : Act (World φ) Unit) [] := by
  intro w
  refine ⟨⟨?_, Sends.nil w.conn⟩, rfl⟩
  exact iff_of_true rfl fun k _ => Nat.zero_le k

theorem Puts.send (b : List UInt8) : Puts (send b : Act (World φ) Unit) b := by
  intro w
  have hw := Attempts.writex w.conn b
  refine ⟨⟨?_, ?_⟩, send_fs b w⟩
  · rw [send_eq, ← hw.ok]
    cases (w.conn.writex b).1 <;> simp
  · rw [send_eq]
    exact hw.sends

theorem Puts.bind {m : Act (World φ) Unit} {f : Unit → Act (World φ) Unit} {a b : List UInt8}
    (hm : Puts m a) (hf : Puts (f ()) b) : Puts (m >>= f) (a ++ b) := by
  intro w
  obtain ⟨hok, hfs⟩ := hm w
  rcases hr : m w with ⟨_ | u, v⟩
  · rw [hr] at hok hfs
    rw [bind_none hr]
    have ha : ¬ w.conn.sink.Takes a.length := fun h => by simpa using hok.ok.mpr h
    refine ⟨⟨iff_of_false (by simp) fun hab => ha (Sink.takes_left hab), ?_⟩, hfs⟩
    exact hok.sends.append_of_broken ha b
  · rw [hr] at hok hfs
    rw [bind_some hr]
    obtain ⟨hok', hfs'⟩ := hf v
    refine ⟨⟨?_, hok.sends.trans hok'.sends⟩, hfs'.trans hfs⟩
    exact hok'.ok.trans (hok.sends.takes (hok.ok.mp rfl))

theorem Puts.forM {γ : Type} {f : γ → Act (World φ) PUnit} {g : γ → List UInt8}
    (h : ∀ x, Puts (f x) (g x)) (xs : List γ) : Puts (xs.forM f) (xs.flatMap g) := by
  induction xs with
  | nil => exact Puts.nil
  | cons x xs ih => exact (h x).bind ih

/-- A connection that takes all that comes. -/
theorem Puts.sent {m : Act (World φ) Unit} {b : List UInt8} (h : Puts m b) {w : World φ}
    (hroom : w.conn.sink.room = none) : ∃ v, m w = (some (), v) ∧ v.fs = w.fs ∧
      v.conn.inp = w.conn.inp ∧ v.conn.sink.out = w.conn.sink.out ++ b := by
  obtain ⟨hok, hfs⟩ := h w
  have htakes : w.conn.sink.Takes b.length := by
    intro k hk
    rw [hroom] at hk
    cases hk
  rcases hr : m w with ⟨_ | u, v⟩
  · rw [hr] at hok
    simpa using hok.ok.mpr htakes
  · rw [hr] at hok hfs
    exact ⟨v, rfl, hfs, hok.sends.inp, by rw [hok.sends.sent htakes]⟩

/-! ## `do_list` -/

section List

variable (os : Os φ δ) (fs : φ) (path : List UInt8)

/-- What `do_list` sends for an entry. -/
def entryBytes (name : List UInt8) : List UInt8 :=
  if 256 < name.length then []
  else
    match os.lstat fs (path ++ 47 :: name) with
    | none => []
    | some st => fields [ID_DENT, st.mode, st.size, st.mtime, name.length] ++ name

/-- What `do_list` sends. -/
def listingBytes : List UInt8 :=
  ((os.readdir fs path).getD []).flatMap (entryBytes os fs path) ++ fields [ID_DONE, 0, 0, 0, 0]

/-- The loop of `do_list`, for one entry. -/
def listEntry (name : List UInt8) : Act (World φ) PUnit :=
  if 256 < name.length then pure ()
  else
    match os.lstat fs (path ++ 47 :: name) with
    | none => pure ()
    | some st => do
      send (fields [ID_DENT, st.mode, st.size, st.mtime, name.length])
      send name

theorem listEntry_puts (name : List UInt8) :
    Puts (listEntry os fs path name) (entryBytes os fs path name) := by
  unfold listEntry entryBytes
  split
  · exact Puts.nil
  · split
    · exact Puts.nil
    · exact (Puts.send _).bind (Puts.send _)

theorem doList_eq (w : World φ) : doList os path w = (do
    ((os.readdir w.fs path).getD []).forM (listEntry os w.fs path)
    send (fields [ID_DONE, 0, 0, 0, 0])) w := by
  unfold doList Act.reading
  dsimp only
  cases os.readdir w.fs path <;> rfl

theorem listing_puts : Puts (do
    ((os.readdir fs path).getD []).forM (listEntry os fs path)
    send (fields [ID_DONE, 0, 0, 0, 0])) (listingBytes os fs path) :=
  (Puts.forM (listEntry_puts os fs path) _).bind (Puts.send _)

end List

/-! ## `sync_ls` -/

theorem cstr_eq_self {b : List UInt8} (h : 0 ∉ b) : cstr b = b := takeWhile_ne_self h

theorem length_fields (ns : List Nat) : (fields ns).length = 4 * ns.length := by
  induction ns with
  | nil => rfl
  | cons n ns ih =>
    rw [fields, List.flatMap_cons, List.length_append, length_le32, List.length_cons]
    rw [fields] at ih
    omega

theorem word_fields {ns : List Nat} {i n : Nat} (h : ns[i]? = some n) :
    word (fields ns) (4 * i) = n % 2 ^ 32 := by
  induction ns generalizing i with
  | nil => cases h
  | cons m ns ih =>
    rw [fields, List.flatMap_cons, ← fields]
    obtain _ | i := i
    · cases h
      exact ofLe32_le32 _ _
    · rw [word, show 4 * (i + 1) = (le32 m).length + 4 * i by rw [length_le32]; omega, List.drop_append,
        List.drop_eq_nil_of_le (by omega), Nat.add_sub_cancel_left, List.nil_append]
      exact ih h

/-- What the callback of `sync_ls` gets for an entry. -/
def dentOf (name : List UInt8) (st : PushDir.Stat) : Dent :=
  ⟨st.mode % 2 ^ 32, st.size % 2 ^ 32, st.mtime % 2 ^ 32, name⟩

/-- The entries that `lstat` can read, as `readdir` gives them. -/
def dents (os : Os φ δ) (fs : φ) (path : List UInt8) (names : List (List UInt8)) : List Dent :=
  names.filterMap fun name => (os.lstat fs (path ++ 47 :: name)).map (dentOf name)

section Client

variable {width : Nat} {c : Conn} {rest : List UInt8}

/-- A round of the loop takes an entry. -/
theorem syncLsLoop_dent (hw : 32 ≤ width) (fuel : Nat) (es : List Dent) {name : List UInt8}
    {st : PushDir.Stat} (hlen : name.length ≤ 255) (h0 : 0 ∉ name)
    (hinp : c.inp = fields [ID_DENT, st.mode, st.size, st.mtime, name.length] ++ (name ++ rest)) :
    ∃ c' : Conn, c'.inp = rest ∧ c'.sink = c.sink ∧ syncLsLoop width (fuel + 1) c es =
      syncLsLoop width fuel c' (es ++ [dentOf name st]) := by
  generalize hm : fields [ID_DENT, st.mode, st.size, st.mtime, name.length] = m at hinp
  have hword : ∀ {i n : Nat}, [ID_DENT, st.mode, st.size, st.mtime, name.length][i]? = some n →
      word m (4 * i) = n % 2 ^ 32 := by
    intro i n h
    rw [← hm]
    exact word_fields h
  have hid : word m 0 = ID_DENT := by
    rw [hword (i := 0) rfl]
    decide
  have hn : word m 16 = name.length := by
    rw [hword (i := 4) rfl]
    exact Nat.mod_eq_of_lt (by omega)
  have hml : m.length = 20 := by rw [← hm, length_fields]; rfl
  obtain ⟨c₁, h₁, hi₁, hs₁⟩ := readx_get (.msg 20) (Nat.le_of_eq hml) hinp
  rw [hml] at h₁
  have hcap : name.length ≤ Buf.name.capacity := by
    simp only [Buf.capacity]
    omega
  obtain ⟨c₂, h₂, hi₂, hs₂⟩ := readx_get .name hcap hi₁
  have hint : int (word m 16) = name.length := by
    rw [hn, int, if_pos (by omega)]
  have hsize : sizeT width (int (word m 16)) = name.length := by
    rw [hn]
    exact sizeT_int_of_lt hw (by omega)
  have hstr : cstr name = name := cstr_eq_self h0
  refine ⟨c₂, hi₂, hs₂.trans hs₁, ?_⟩
  rw [syncLsLoop, h₁]
  dsimp only
  rw [if_neg (by rw [hid]; decide), if_neg (not_not_intro hid), if_neg (by rw [hint]; omega), hsize, h₂]
  dsimp only
  rw [hstr, show word m 4 = _ from hword (i := 1) rfl, show word m 8 = _ from hword (i := 2) rfl,
    show word m 12 = _ from hword (i := 3) rfl]
  rfl

/-- The loop takes a listing apart, to the end of its `DONE`. -/
theorem syncLsLoop_listing (hw : 32 ≤ width) (os : Os φ δ) (fs : φ) (path : List UInt8)
    (names : List (List UInt8)) (hnames : ∀ n ∈ names, n.length ≤ 255 ∧ 0 ∉ n) {fuel : Nat}
    (es : List Dent) (hf : c.inp.length < fuel)
    (hinp : c.inp = names.flatMap (entryBytes os fs path) ++ (fields [ID_DONE, 0, 0, 0, 0] ++ rest)) :
    ∃ c' : Conn, c'.inp = rest ∧ c'.sink = c.sink ∧
      syncLsLoop width fuel c es = ⟨0, es ++ dents os fs path names, c'⟩ := by
  induction names generalizing c fuel es with
  | nil =>
    obtain _ | fuel := fuel
    · omega
    have hml : (fields [ID_DONE, 0, 0, 0, 0]).length = 20 := length_fields _
    rw [List.flatMap_nil, List.nil_append] at hinp
    obtain ⟨c₁, h₁, hi₁, hs₁⟩ := readx_get (.msg 20) (Nat.le_of_eq hml) hinp
    rw [hml] at h₁
    have hid : word (fields [ID_DONE, 0, 0, 0, 0]) 0 = ID_DONE := by
      rw [show (0 : Nat) = 4 * 0 from rfl, word_fields rfl]
      decide
    refine ⟨c₁, hi₁, hs₁, ?_⟩
    rw [syncLsLoop, h₁]
    dsimp only
    rw [if_pos hid, dents, List.filterMap_nil, List.append_nil]
  | cons name names ih =>
    obtain ⟨hlen, h0⟩ := hnames name (by simp)
    have hrest : ∀ n ∈ names, n.length ≤ 255 ∧ 0 ∉ n := fun n hn =>
      hnames n (List.mem_cons_of_mem _ hn)
    rw [List.flatMap_cons, List.append_assoc, entryBytes, if_neg (by omega)] at hinp
    cases hst : os.lstat fs (path ++ 47 :: name) with
    | none =>
      -- the entry is skipped
      simp only [hst, List.nil_append] at hinp
      obtain ⟨c', hi, hs, hloop⟩ := ih hrest es hf hinp
      refine ⟨c', hi, hs, ?_⟩
      rw [hloop, dents, dents, List.filterMap_cons, hst]
      rfl
    | some st =>
      simp only [hst, List.append_assoc] at hinp
      obtain _ | fuel := fuel
      · omega
      obtain ⟨c₁, hi₁, hs₁, hround⟩ := syncLsLoop_dent hw fuel es hlen h0 hinp
      have hlt : c₁.inp.length < fuel := by
        rw [hi₁]
        rw [hinp, List.length_append, List.length_append, length_fields] at hf
        simp only [List.length_cons, List.length_nil] at hf
        omega
      obtain ⟨c', hi, hs, hloop⟩ := ih hrest (es ++ [dentOf name st]) hlt hi₁
      refine ⟨c', hi, hs.trans hs₁, ?_⟩
      rw [hround, hloop, dents, dents, List.filterMap_cons, hst]
      simp

end Client

/-! ## A request and its listing -/

/-- The request of `sync_ls`. -/
def listRequest (path : List UInt8) : List UInt8 := msg ID_LIST path.length ++ path

/-- The service answers a request with the listing. -/
theorem command_list (os : Os φ δ) (haveSymlinks : Bool) {w : World φ} {path rest : List UInt8}
    (hinp : w.conn.inp = listRequest path ++ rest) (h0 : 0 ∉ path) (hlen : path.length ≤ 1024)
    (hroom : w.conn.sink.room = none) : ∃ v : World φ,
      command os haveSymlinks w = (some (), v) ∧ v.conn.inp = rest ∧
        v.conn.sink.out = w.conn.sink.out ++ listingBytes os w.fs path := by
  rw [listRequest, List.append_assoc] at hinp
  obtain ⟨x, hfs, -, hi, hs, hread⟩ := command_read os haveSymlinks hinp (length_msg _ _)
    (word_msg_len (by omega) _) hlen
  have hid : word (msg ID_LIST path.length) 0 = ID_LIST := word_msg_id (by decide) _
  obtain ⟨v, hv, -, hvi, hout⟩ := (listing_puts os x.fs path).sent (w := x) (by rw [hs, hroom])
  refine ⟨v, ?_, hvi.trans hi, ?_⟩
  · rw [hread, hid, dispatch, if_neg (by decide), if_pos rfl, cstr_eq_self h0, doList_eq, hv]
  · rw [hout, hs, hfs]

/-- **A listing.** The client asks for a directory and the service answers: the callback gets the entries
that `lstat` can read, in the order of `readdir`, `sync_ls` returns 0, and both ends have read all of what
was sent, and nothing after it. -/
theorem syncLs_command {width : Nat} (hw : 32 ≤ width) (os : Os φ δ) (haveSymlinks : Bool) {w : World φ}
    {path rest rest' : List UInt8} {names : List (List UInt8)} {c : Conn}
    (hdir : names = (os.readdir w.fs path).getD [])
    (hnames : ∀ n ∈ names, 1 ≤ n.length ∧ n.length ≤ 255 ∧ 0 ∉ n)
    (h0 : 0 ∉ path) (hlen : path.length + 1 + 255 + 1 ≤ 1024 + 256 + 1)
    (hroom : w.conn.sink.room = none) (hroom' : c.sink.room = none)
    (hask : w.conn.inp = listRequest path ++ rest) : ∃ v : World φ, ∃ reply,
      command os haveSymlinks w = (some (), v) ∧ v.conn.inp = rest ∧
      v.conn.sink.out = w.conn.sink.out ++ reply ∧
      (c.inp = reply ++ rest' → ∃ c', c'.inp = rest' ∧ c'.sink.out = c.sink.out ++ listRequest path ∧
        syncLs width path c = ⟨0, dents os w.fs path names, c'⟩) := by
  subst hdir
  obtain ⟨v, hv, hvi, hout⟩ := command_list os haveSymlinks hask h0 (by omega) hroom
  refine ⟨v, _, hv, hvi, hout, fun hinp => ?_⟩
  have hsmall : ∀ n ∈ (os.readdir w.fs path).getD [], n.length ≤ 255 ∧ 0 ∉ n :=
    fun n hn => (hnames n hn).2
  have hw₁ : c.writex (msg ID_LIST path.length) =
      (true, { c with sink := ⟨c.sink.out ++ msg ID_LIST path.length, none⟩ }) := by
    rw [Conn.writex, Sink.writex, hroom']
  have hw₂ : Conn.writex { c with sink := ⟨c.sink.out ++ msg ID_LIST path.length, none⟩ } path =
      (true, { c with sink := ⟨c.sink.out ++ msg ID_LIST path.length ++ path, none⟩ }) := rfl
  rw [listingBytes, List.append_assoc] at hinp
  obtain ⟨c', hi, hs, hloop⟩ := syncLsLoop_listing hw os w.fs path _ hsmall
    (c := { c with sink := ⟨c.sink.out ++ msg ID_LIST path.length ++ path, none⟩ }) []
    (Nat.lt_succ_self _) hinp
  refine ⟨c', hi, ?_, ?_⟩
  · rw [hs, listRequest, ← List.append_assoc]
  · rw [syncLs, if_neg (by omega), hw₁]
    dsimp only
    rw [hw₂]
    dsimp only
    rw [hloop, List.nil_append]

/-- `readdir` gives `f`, `g` and `h`, and `g` is gone when `lstat` looks at it. -/
def threeNames : Os Unit Unit where
  strerror _ := []
  lstat _ p :=
    if p = [47, 47, 102] then some ⟨0o100644, 3, 2 ^ 32 + 5⟩
    else if p = [47, 47, 104] then some ⟨0o040755, 4, 4096⟩ else none
  readdir _ _ := some [[102], [103], [104]]
  mkdir _ fs := (some EEXIST, fs)
  unlink _ fs := (some 13, fs)
  create _ _ fs := (.error 13, fs)
  reopen _ _ fs := (.error 13, fs)
  writex _ _ fs := (none, fs)
  close _ fs := (none, fs)
  utime _ _ fs := fs
  symlink _ _ fs := (some EEXIST, fs)
  read _ _ := .error 13

/-- The service with the request for `/`. -/
def askRoot : World Unit := ⟨(), [], [], ⟨listRequest [47], ⟨[], none⟩, []⟩⟩

theorem syncLs_threeNames : ∃ reply c',
    (command threeNames true askRoot).2.conn.sink.out = reply ∧ c'.inp = [1] ∧
    syncLs 32 [47] ⟨reply ++ [1], ⟨[], none⟩, []⟩ =
      ⟨0, [⟨0o100644, 5, 3, [102]⟩, ⟨0o040755, 4096, 4, [104]⟩], c'⟩ := by
  obtain ⟨v, reply, hv, -, hout, hls⟩ := 
    @syncLs_command _ _ 32 (Nat.le_refl 32) threeNames true askRoot [47] [] [1] [[102], [103], [104]]
      ⟨listingBytes threeNames () [47] ++ [1], ⟨[], none⟩, []⟩ rfl (by decide) (by decide) (by decide)
      rfl rfl rfl
  have hreply : reply = listingBytes threeNames () [47] := by
    have hsent : (command threeNames true askRoot).2.conn.sink.out = listingBytes threeNames () [47] := by
      decide +kernel
    rw [← hsent, hv, hout]
    rfl
  subst hreply
  obtain ⟨c', hi, -, hrun⟩ := hls rfl
  exact ⟨_, c', by rw [hv, hout]; rfl, hi, hrun⟩

end Twm.Adb.FileSync
