import DeviceTwm.Ril.Requests

/-!
# Requests with a count

The payload of five kinds of request starts with the number of elements of the argument: strings,
numbers, bytes, or entries of a broadcast configuration. The number is signed and comes from the
socket; it goes into the size of arrays on the stack, into the bound of a loop, and into `datalen`.

`Backed` is what the vendor's `onRequest` relies on: `datalen` is the size of an argument with as
many elements as the payload says, each one read from the payload. `Sound` says for which payloads a
dispatch function keeps to this (`trusted_iff`):

* A negative count is not refused.
* `dispatchStrings` and `dispatchRaw` do not refuse a payload that ends early, and pass null pointers.
* An array that does not fit on the stack, or whose size does not fit in a word, is written anyway.
-/

open Lib

namespace Twm.Ril

variable {P : Type}

/-- The dispatch functions whose payload starts with a count. -/
inductive Counted
  | strings | ints | raw | gsmBrSmsCnf | cdmaBrSmsCnf
  deriving DecidableEq

def Counted.function : Counted → DispatchFunction
  | .strings => .strings
  | .ints => .ints
  | .raw => .raw
  | .gsmBrSmsCnf => .gsmBrSmsCnf
  | .cdmaBrSmsCnf => .cdmaBrSmsCnf

section

variable (lib : Parcel P)

/-- A string whose bytes are in the payload; a null string is written with the length -1. -/
def Fields.presentString : StateT P Option CString := fun p =>
  match lib.readString16Inplace p with
  | (some s, p') => some (some (lib.strndup16to8 s), p')
  | (none, p') => if (lib.readInt32 p).1 = some (-1) then some (none, p') else none

/-- `readInplace` gives as many bytes as it is asked for. -/
structure Parcel.Exact : Prop where
  inplace : ∀ len p bytes, 0 ≤ len.toInt → (lib.readInplace len p).1 = some bytes →
    bytes.length = len.toNatClampNeg

/-- The payload `p` starts with the number of elements of `l`, and the elements follow. -/
def Block {α : Type} (x : StateT P Option α) (p : P) (l : List α) : Prop :=
  ∃ count p' q, lib.readInt32 p = (some count, p') ∧ count.toInt = l.length ∧
    (Fields.times l.length x).run p' = some (l, q)

/-- What `onRequest` gets is backed by the payload `p`, and `datalen` is its size. -/
def Backed (p : P) : Data → Prop
  -- the array is null
  | .null => (lib.readInt32 p).1 = some (-1)
  | .strings l datalen => datalen = 4 * l.length ∧ Block lib (Fields.presentString lib) p l
  | .ints l datalen => datalen = 4 * l.length ∧ Block lib (Fields.int lib) p l
  | .raw data len =>
    (len = 0 ∧ ((lib.readInt32 p).1 = some 0 ∨ (lib.readInt32 p).1 = some (-1))) ∨
    ((lib.readInt32 p).1 = some len ∧ ∃ bytes, data = some bytes ∧ len.toInt = bytes.length)
  -- `datalen` is `num * sizeof(RIL_GSM_BroadcastSmsConfigInfo *)`, as a `size_t`
  | .gsmBrSmsCnf l => 4 * l.length % 2 ^ 32 = 4 * l.length ∧ Block lib (Fields.gsmBroadcast lib) p l
  | .cdmaBrSmsCnf l =>
    4 * l.length % 2 ^ 32 = 4 * l.length ∧ Block lib (Fields.cdmaBroadcast lib) p l
  | _ => False

/-- `onRequest` is called with an argument that is backed, or not at all. -/
def Outcome.Trusted (p : P) : Outcome → Prop
  | .request data => Backed lib p data
  | .invalid => True
  | .fault => False

variable (cfg : Config)

/-- What a dispatch function needs of the payload after the count. -/
def SoundCount : Counted → Int32 → P → Prop
  | .strings, count, p => count = 0 ∨ count = -1 ∨ 0 < count ∧ Fields.Fits cfg count ∧
    ((Fields.times count.toNatClampNeg (Fields.presentString lib)).run p).isSome
  -- with an array that is too short, the payload has to end before the array does
  | .ints, count, p => count = 0 ∨ 0 < count ∧ size4 count ≤ cfg.stack ∧
    (4 * count.toNatClampNeg ≤ size4 count ∨
      (Fields.times (size4 count / 4) (Fields.int lib)).run p = none)
  | .raw, len, p => len = 0 ∨ len = -1 ∨ 0 < len ∧ (lib.readInplace len p).1.isSome
  | .gsmBrSmsCnf, num, p => ¬ noRoom cfg num cfg.gsmInfoSize ∧
    (4 * num.toNatClampNeg < 2 ^ 32 ∨
      (Fields.times num.toNatClampNeg (Fields.gsmBroadcast lib)).run p = none)
  | .cdmaBrSmsCnf, num, p => ¬ noRoom cfg num cfg.cdmaInfoSize ∧
    (4 * num.toNatClampNeg < 2 ^ 32 ∨
      (Fields.times num.toNatClampNeg (Fields.cdmaBroadcast lib)).run p = none)

def Sound (f : Counted) (p : P) : Prop :=
  match lib.readInt32 p with
  | (none, _) => True
  | (some count, p') => SoundCount lib cfg f count p'

end

/-! ## Counts -/

theorem toUInt32_eq_clamp {count : Int32} (h : 0 ≤ count.toInt) :
    count.toUInt32.toNat = count.toNatClampNeg := by
  have hcond := BitVec.toInt_eq_toNat_cond count.toBitVec
  have hlt := count.toBitVec.isLt
  rw [← Int32.toNat_toInt]
  show count.toBitVec.toNat = count.toBitVec.toInt.toNat
  change 0 ≤ count.toBitVec.toInt at h
  split at hcond <;> omega

theorem size4_eq {count : Int32} (h : 0 ≤ count.toInt) :
    size4 count = 4 * count.toNatClampNeg % 2 ^ 32 := by
  rw [size4, UInt32.toNat_mul, toUInt32_eq_clamp h]
  rfl

theorem toInt_eq_clamp (count : Int32) :
    count.toInt = (count.toNatClampNeg : Int) ↔ 0 ≤ count.toInt := by
  rw [← Int32.toNat_toInt]
  omega

theorem pos_iff_of_ne {count : Int32} (h : count ≠ 0) : 0 < count ↔ 0 ≤ count.toInt := by
  have h0 : count.toInt ≠ 0 := fun h1 => h (Int32.toInt_inj.mp (by simpa using h1))
  rw [Int32.lt_iff_toInt_lt, Int32.toInt_zero]
  omega

theorem nonneg_of_clamp {count : Int32} (h : count.toNatClampNeg ≠ 0) : 0 ≤ count.toInt := by
  rw [← Int32.toNat_toInt] at h
  omega

/-! ## Outcomes -/

section

variable {lib : Parcel P} {p : P} {o : Outcome}

theorem trusted_of_request {d : Data} (h : o.accepted = some d) :
    o.Trusted lib p ↔ Backed lib p d := by
  cases o <;> cases h
  rfl

/-- `onRequest` is not called. -/
theorem trusted_of_none (h : o.accepted = none) : o.Trusted lib p ↔ o ≠ .fault := by
  cases o <;> simp_all [Outcome.Trusted, Outcome.accepted]

theorem not_trusted_of_none (h : o.accepted = none) (hi : o ≠ .invalid) : ¬ o.Trusted lib p := by
  cases o <;> simp_all [Outcome.Trusted, Outcome.accepted]

theorem block_iff {α : Type} {x : StateT P Option α} {count : Int32} {p' : P} {l : List α}
    (hr : lib.readInt32 p = (some count, p')) : Block lib x p l ↔
      count.toInt = l.length ∧ ∃ q, (Fields.times l.length x).run p' = some (l, q) := by
  constructor
  · rintro ⟨c, p₁, q, hc, hl, hq⟩
    rw [hr] at hc
    cases hc
    exact ⟨hl, q, hq⟩
  · rintro ⟨hl, q, hq⟩
    exact ⟨count, p', q, hr, hl, hq⟩

/-- The elements that a loop reads are as many as it runs. -/
theorem length_of_times {α : Type} {x : StateT P Option α} {n : Nat} {p q : P} {l : List α}
    (h : (Fields.times n x).run p = some (l, q)) : l.length = n := by
  induction n generalizing p l with
  | zero =>
    cases h
    rfl
  | succ n ih =>
    rw [times_succ, StateT.run_bind] at h
    obtain ⟨⟨a, p₁⟩, -, h⟩ := Option.bind_eq_some_iff.mp h
    rw [StateT.run_bind] at h
    obtain ⟨⟨as, p₂⟩, has, h⟩ := Option.bind_eq_some_iff.mp h
    cases h
    simp [ih has]

/-- Elements that are read strictly are read the same way without the check. -/
theorem times_of_le {α : Type} {x y : StateT P Option α}
    (hxy : ∀ p a q, x.run p = some (a, q) → y.run p = some (a, q)) {n : Nat} {p q : P} {l : List α}
    (h : (Fields.times n x).run p = some (l, q)) : (Fields.times n y).run p = some (l, q) := by
  induction n generalizing p l with
  | zero => exact h
  | succ n ih =>
    rw [times_succ, StateT.run_bind] at h ⊢
    obtain ⟨⟨a, p₁⟩, ha, h⟩ := Option.bind_eq_some_iff.mp h
    rw [StateT.run_bind] at h
    obtain ⟨⟨as, p₂⟩, has, h⟩ := Option.bind_eq_some_iff.mp h
    cases h
    rw [hxy p a p₁ ha]
    show ((Fields.times n y >>= fun as => pure (a :: as)).run p₁) = _
    rw [StateT.run_bind, ih has]
    rfl

theorem presentString_run {p q : P} {s : CString}
    (h : (Fields.presentString lib).run p = some (s, q)) :
    (Fields.string lib).run p = some (s, q) := by
  simp only [StateT.run, Fields.presentString] at h
  simp only [StateT.run, Fields.string]
  split at h
  · next s' p' hr =>
    cases h
    simp [hr]
  · next p' hr =>
    split at h
    · cases h
      simp [hr]
    · cases h

end

/-! ## The loops -/

section

variable {lib : Parcel P}

theorem stringsLoop_ne_invalid (datalen n : Nat) (l : List CString) (s : Locals P) :
    ((stringsLoop lib datalen n l).run s).1 ≠ .invalid := by
  induction n generalizing l s with
  | zero => simp [stringsLoop]
  | succ n ih =>
    rw [stringsLoop, StateT.run_bind]
    by_cases hfull : datalen < 4 * (l.length + 1)
    · simp only [if_pos hfull]
      exact Outcome.noConfusion
    · simp only [if_neg hfull]
      exact ih _ _

theorem times_succ_none {α : Type} {x : StateT P Option α} {p p₁ : P} {a : α} (n : Nat)
    (h : x.run p = some (a, p₁)) :
    (Fields.times (n + 1) x).run p = none ↔ (Fields.times n x).run p₁ = none := by
  rw [times_succ, StateT.run_bind, h]
  show (Fields.times n x >>= fun as => pure (a :: as)).run p₁ = none ↔ _
  rw [StateT.run_bind]
  cases (Fields.times n x).run p₁ <;> simp

/-- The loop stays in an array that is large enough, and in one that is not when the payload ends
first. -/
theorem intsLoop_ne_fault (lib : Parcel P) (datalen n : Nat) (l : List Int32) (s : Locals P)
    (h : 4 * l.length ≤ datalen) :
    ((intsLoop lib datalen n l).run s).1 ≠ .fault ↔ 4 * (l.length + n) ≤ datalen ∨
      (Fields.times (datalen / 4 - l.length) (Fields.int lib)).run s.p = none := by
  induction n generalizing l s with
  | zero => exact iff_of_true Outcome.noConfusion (.inl h)
  | succ n ih =>
    rw [intsLoop, StateT.run_bind]
    by_cases hfull : datalen < 4 * (l.length + 1)
    · have h0 : datalen / 4 - l.length = 0 := by omega
      simp only [if_pos hfull, h0]
      refine iff_of_false (fun hne => hne rfl) ?_
      rintro (hle | hnone)
      · omega
      · cases hnone
    · have hk : datalen / 4 - l.length = datalen / 4 - (l.length + 1) + 1 := by omega
      simp only [if_neg hfull, hk]
      rcases hr : lib.readInt32 s.p with ⟨_ | v, p₁⟩
      · -- the read fails, and the check of `status` ends the loop
        have hint : (Fields.int lib).run s.p = none := by simp [StateT.run, Fields.int, hr]
        refine iff_of_true ?_ (.inr ?_)
        · have hrun : (readInt32 lib).run s = (s.t, { s with p := p₁, status := false }) := by
            simp [StateT.run, readInt32, hr]
          rw [hrun]
          exact Outcome.noConfusion
        · rw [times_succ, StateT.run_bind, hint]
          rfl
      · have hint : (Fields.int lib).run s.p = some (v, p₁) := by
          simp [StateT.run, Fields.int, hr]
        have hrun : (readInt32 lib).run s = (v, { s with p := p₁, status := true, t := v }) := by
          simp [StateT.run, readInt32, hr]
        rw [hrun, times_succ_none _ hint]
        have hlen : (l ++ [v]).length = l.length + 1 := by simp
        have := ih (l ++ [v]) { s with p := p₁, status := true, t := v } (by rw [hlen]; omega)
        rw [hlen, Nat.add_assoc, Nat.add_comm 1 n] at this
        exact this

theorem times_string (lib : Parcel P) (n : Nat) (p : P) :
    ∃ l q, (Fields.times n (Fields.string lib)).run p = some (l, q) := by
  induction n generalizing p with
  | zero => exact ⟨[], p, rfl⟩
  | succ n ih =>
    obtain ⟨l, q, h⟩ := ih (lib.readString16Inplace p).2
    refine ⟨(lib.readString16Inplace p).1.map lib.strndup16to8 :: l, q, ?_⟩
    rw [times_succ, StateT.run_bind]
    show ((Fields.times n (Fields.string lib) >>= fun as => pure (_ :: as)).run _) = _
    rw [StateT.run_bind, h]
    rfl

/-- The strings that are passed on are in the payload exactly when they can be read strictly. -/
theorem strings_present {n : Nat} {p q : P} {l : List CString}
    (h : (Fields.times n (Fields.string lib)).run p = some (l, q)) :
    (∃ q', (Fields.times l.length (Fields.presentString lib)).run p = some (l, q')) ↔
      ((Fields.times n (Fields.presentString lib)).run p).isSome := by
  rw [length_of_times h, Option.isSome_iff_exists]
  constructor
  · rintro ⟨q', h'⟩
    exact ⟨_, h'⟩
  · rintro ⟨⟨l', q'⟩, h'⟩
    have hl := times_of_le (fun _ _ _ => presentString_run) h'
    rw [h] at hl
    cases hl
    exact ⟨q, h'⟩

end

/-! ## The functions -/

section

variable {lib : Parcel P} (cfg : Config) {l : Locals P} {count : Int32} {p' : P}

theorem int_run (hr : lib.readInt32 l.p = (some count, p')) :
    (Fields.int lib).run l.p = some (count, p') := by
  simp [StateT.run, Fields.int, hr]

theorem strings_trusted (hs : l.status = true) (hr : lib.readInt32 l.p = (some count, p')) :
    ((dispatchStrings lib cfg).run l).1.Trusted lib l.p ↔ SoundCount lib cfg .strings count p' := by
  have haccepts : Accepts (dispatchStrings lib cfg) (Fields.strings lib cfg) :=
    dispatchStrings_accepts cfg
  have ha := haccepts l hs
  rw [Fields.strings, StateT.run_bind, int_run hr] at ha
  simp only [Option.bind_eq_bind, Option.bind_some] at ha
  simp only [SoundCount]
  by_cases h0 : count = 0
  · subst h0
    rw [if_pos rfl] at ha
    rw [trusted_of_request ha]
    refine iff_of_true ⟨rfl, (block_iff hr).mpr ⟨rfl, p', rfl⟩⟩ (.inl rfl)
  by_cases h1 : count = -1
  · subst h1
    rw [if_neg h0, if_pos rfl] at ha
    rw [trusted_of_request ha]
    refine iff_of_true ?_ (.inr (.inl rfl))
    rw [Backed, hr]
  rw [if_neg h0, if_neg h1] at ha
  simp only [h0, h1, false_or, pos_iff_of_ne h0]
  by_cases hf : Fields.Fits cfg count
  · obtain ⟨strs, q, ht⟩ := times_string lib count.toNatClampNeg p'
    rw [if_pos hf, StateT.run_bind, ht] at ha
    rw [trusted_of_request ha, Backed, block_iff hr, strings_present ht, length_of_times ht,
      toInt_eq_clamp]
    constructor
    · rintro ⟨-, hpos, hp⟩
      exact ⟨hpos, hf, hp⟩
    · rintro ⟨hpos, -, hp⟩
      refine ⟨?_, hpos, hp⟩
      have h4 := hf.2
      rw [size4_eq hpos] at h4 ⊢
      omega
  · rw [if_neg hf] at ha
    refine iff_of_false (not_trusted_of_none ha ?_) fun h => hf h.2.1
    rw [dispatchStrings, StateT.run_bind, readCount_some hr]
    show ((ite (count = 0) _ _ : StateM (Locals P) Outcome).run _).1 ≠ _
    rw [if_neg h0, if_neg h1]
    by_cases hstack : cfg.stack < size4 count
    · rw [if_pos hstack]
      exact Outcome.noConfusion
    · rw [if_neg hstack]
      exact stringsLoop_ne_invalid _ _ _ _

theorem ints_trusted (hl : lib.Lawful) (hs : l.status = true)
    (hr : lib.readInt32 l.p = (some count, p')) :
    ((dispatchInts lib cfg).run l).1.Trusted lib l.p ↔ SoundCount lib cfg .ints count p' := by
  have ha := dispatchInts_accepts cfg hl l hs
  rw [Fields.ints, StateT.run_bind, int_run hr] at ha
  simp only [Option.bind_eq_bind, Option.bind_some] at ha
  simp only [SoundCount]
  have hrun : ((dispatchInts lib cfg).run l).1 = if count = 0 then .invalid
      else if cfg.stack < size4 count then .fault
      else ((intsLoop lib (size4 count) count.toNatClampNeg []).run
        { l with p := p', status := true }).1 := by
    rw [dispatchInts, StateT.run_bind, readCount_some hr]
    show ((ite (count = 0) _ _ : StateM (Locals P) Outcome).run _).1 = _
    split
    · rfl
    · split <;> rfl
  by_cases h0 : count = 0
  · rw [hrun, if_pos h0]
    exact iff_of_true trivial (.inl h0)
  simp only [h0, false_or, pos_iff_of_ne h0]
  rw [if_neg h0] at hrun
  by_cases hstack : cfg.stack < size4 count
  · rw [hrun, if_pos hstack]
    exact iff_of_false id fun h => absurd h.2.1 (by omega)
  rw [if_neg hstack] at hrun
  have hloop := intsLoop_ne_fault lib (size4 count) count.toNatClampNeg []
    { l with p := p', status := true } (Nat.zero_le _)
  rw [← hrun, List.length_nil, Nat.zero_add, Nat.sub_zero] at hloop
  by_cases hf : 4 * count.toNatClampNeg ≤ size4 count
  · rw [if_pos ⟨h0, by omega, hf⟩, StateT.run_bind] at ha
    rcases ht : (Fields.times count.toNatClampNeg (Fields.int lib)).run p' with _ | ⟨ints, q⟩
    · rw [ht] at ha
      rw [trusted_of_none ha, hloop]
      -- a loop that fails runs at least once
      have hpos : count.toNatClampNeg ≠ 0 := by
        intro hz
        rw [hz] at ht
        cases ht
      exact iff_of_true (.inl hf) ⟨nonneg_of_clamp hpos, by omega, .inl hf⟩
    · rw [ht] at ha
      have hlen := length_of_times ht
      rw [trusted_of_request ha, Backed, block_iff hr, hlen, toInt_eq_clamp]
      constructor
      · rintro ⟨-, hpos, -⟩
        exact ⟨hpos, by omega, .inl hf⟩
      · rintro ⟨hpos, -, -⟩
        refine ⟨?_, hpos, q, ht⟩
        rw [size4_eq hpos] at hf ⊢
        omega
  · rw [if_neg fun h => hf h.2.2] at ha
    rw [trusted_of_none ha, hloop]
    have hpos : count.toNatClampNeg ≠ 0 := by omega
    exact ⟨fun h => ⟨nonneg_of_clamp hpos, by omega, h⟩, fun h => h.2.2⟩

theorem raw_trusted (hin : lib.Exact) (hs : l.status = true)
    (hr : lib.readInt32 l.p = (some count, p')) :
    ((dispatchRaw lib).run l).1.Trusted lib l.p ↔ SoundCount lib cfg .raw count p' := by
  have haccepts : Accepts (dispatchRaw lib) (Fields.raw lib) := dispatchRaw_accepts
  have ha := haccepts l hs
  rw [Fields.raw, StateT.run_bind, int_run hr] at ha
  simp only [Option.bind_eq_bind, Option.bind_some] at ha
  rw [trusted_of_request (d := .raw (lib.readInplace (if count = -1 then 0 else count) p').1
    (if count = -1 then 0 else count)) ha]
  simp only [Backed, hr, SoundCount, Option.some.injEq]
  by_cases h0 : count = 0
  · subst h0
    simp
  by_cases h1 : count = -1
  · subst h1
    simp
  simp only [h0, h1, if_false, or_self, and_false, false_or, true_and, pos_iff_of_ne h0]
  constructor
  · rintro ⟨bytes, hb, hlen⟩
    exact ⟨by omega, by rw [hb]; rfl⟩
  · rintro ⟨hpos, hsome⟩
    obtain ⟨bytes, hb⟩ := Option.isSome_iff_exists.mp hsome
    refine ⟨bytes, hb, ?_⟩
    rw [hin.inplace count p' bytes hpos hb]
    exact (toInt_eq_clamp count).mpr hpos

/-- A function that looks at `status` after its last read and then calls `onRequest`. -/
theorem checked_ne_fault {α : Type} (x : StateM (Locals P) α) (mk : α → Data) (s : Locals P) :
    ((do let a ← x; checkStatus (return .request (mk a))).run s).1 ≠ .fault := by
  rw [StateT.run_bind]
  show ((checkStatus (pure (.request (mk (x.run s).1)))).run (x.run s).2).1 ≠ .fault
  rw [run_checkStatus]
  split
  · exact Outcome.noConfusion
  · exact Outcome.noConfusion

/-- Such a function faults where it has no room for what it reads. -/
theorem fault_iff_full {α : Type} (full : Prop) [Decidable full] (x : StateM (Locals P) α)
    (mk : α → Data) (s : Locals P) :
    ((if full then return .fault
      else do let a ← x; checkStatus (return .request (mk a)) : StateM (Locals P) Outcome).run s).1 =
      .fault ↔ full := by
  by_cases hf : full
  · rw [if_pos hf]
    exact iff_of_true rfl hf
  · rw [if_neg hf]
    exact iff_of_false (checked_ne_fault x mk s) hf

/-- The two broadcast configurations: an array of entries that the strict reader `item` reads. -/
theorem broadcast_trusted {α : Type} {o : Outcome} {full : Prop} [Decidable full]
    {item : StateT P Option α} {mk : List α → Data}
    (hr : lib.readInt32 l.p = (some count, p'))
    (ha : o.accepted = ((if full then failure else do
      let items ← Fields.times count.toNatClampNeg item
      return mk items : StateT P Option Data).run p').map Prod.fst)
    (hfull : o = .fault ↔ full) (hneg : ¬ full → 0 ≤ count.toInt)
    (hmk : ∀ items, Backed lib l.p (mk items) ↔
      4 * items.length % 2 ^ 32 = 4 * items.length ∧ Block lib item l.p items) :
    o.Trusted lib l.p ↔ ¬ full ∧ (4 * count.toNatClampNeg < 2 ^ 32 ∨
      (Fields.times count.toNatClampNeg item).run p' = none) := by
  by_cases hf : full
  · rw [hfull.mpr hf]
    exact iff_of_false id fun h => h.1 hf
  rw [if_neg hf, StateT.run_bind] at ha
  rcases ht : (Fields.times count.toNatClampNeg item).run p' with _ | ⟨items, q⟩
  · rw [ht] at ha
    rw [trusted_of_none ha]
    exact iff_of_true (fun h => hf (hfull.mp h)) ⟨hf, .inr rfl⟩
  · rw [ht] at ha
    have hlen := length_of_times ht
    rw [trusted_of_request ha, hmk, block_iff hr, hlen, toInt_eq_clamp]
    constructor
    · rintro ⟨hmod, -⟩
      exact ⟨hf, .inl (by omega)⟩
    · rintro ⟨-, hlt | hnone⟩
      · exact ⟨Nat.mod_eq_of_lt hlt, hneg hf, q, ht⟩
      · cases hnone

theorem nonneg_of_room {infoSize : Nat} (h : ¬ noRoom cfg count infoSize) : 0 ≤ count.toInt := by
  rw [noRoom, not_or, Int32.lt_iff_toInt_lt] at h
  simpa using h.1

theorem gsmBrSmsCnf_trusted (hl : lib.Lawful) (hs : l.status = true)
    (hr : lib.readInt32 l.p = (some count, p')) :
    ((dispatchGsmBrSmsCnf lib cfg).run l).1.Trusted lib l.p ↔
      SoundCount lib cfg .gsmBrSmsCnf count p' := by
  have ha := dispatchGsmBrSmsCnf_accepts cfg hl l hs
  rw [Fields.gsmBrSmsCnf, StateT.run_bind, int_run hr] at ha
  refine broadcast_trusted hr ha ?_ (nonneg_of_room cfg) fun _ => Iff.rfl
  rw [dispatchGsmBrSmsCnf, StateT.run_bind, readCount_some hr]
  exact fault_iff_full (noRoom cfg count cfg.gsmInfoSize) _ Data.gsmBrSmsCnf _

theorem cdmaBrSmsCnf_trusted (hl : lib.Lawful) (hs : l.status = true)
    (hr : lib.readInt32 l.p = (some count, p')) :
    ((dispatchCdmaBrSmsCnf lib cfg).run l).1.Trusted lib l.p ↔
      SoundCount lib cfg .cdmaBrSmsCnf count p' := by
  have ha := dispatchCdmaBrSmsCnf_accepts cfg hl l hs
  rw [Fields.cdmaBrSmsCnf, StateT.run_bind, int_run hr] at ha
  refine broadcast_trusted hr ha ?_ (nonneg_of_room cfg) fun _ => Iff.rfl
  rw [dispatchCdmaBrSmsCnf, StateT.run_bind, readCount_some hr]
  exact fault_iff_full (noRoom cfg count cfg.cdmaInfoSize) _ Data.cdmaBrSmsCnf _

end

/-- **Arguments with a count.** A dispatch function that reads a count passes on an argument that the
payload backs, or refuses the payload, exactly when the payload is sound. -/
theorem trusted_iff {lib : Parcel P} (hl : lib.Lawful) (hin : lib.Exact) (cfg : Config)
    (f : Counted) (p : P) (t : Int32) (ut : UInt8) :
    ((dispatchFunction lib cfg f.function).run ⟨p, true, t, ut⟩).1.Trusted lib p ↔
      Sound lib cfg f p := by
  rw [Sound]
  split
  · next q hr =>
    have hcount : (readCount lib).run (⟨p, true, t, ut⟩ : Locals P) = (none, ⟨q, false, t, ut⟩) :=
      readCount_none hr
    refine iff_of_true ?_ trivial
    cases f with
    | strings =>
      rw [Counted.function, dispatchFunction, dispatchStrings, StateT.run_bind, hcount]
      trivial
    | ints =>
      rw [Counted.function, dispatchFunction, dispatchInts, StateT.run_bind, hcount]
      trivial
    | raw =>
      rw [Counted.function, dispatchFunction, dispatchRaw, StateT.run_bind, hcount]
      trivial
    | gsmBrSmsCnf =>
      rw [Counted.function, dispatchFunction, dispatchGsmBrSmsCnf, StateT.run_bind, hcount]
      trivial
    | cdmaBrSmsCnf =>
      rw [Counted.function, dispatchFunction, dispatchCdmaBrSmsCnf, StateT.run_bind, hcount]
      trivial
  · next count p' hr =>
    cases f with
    | strings => exact strings_trusted cfg rfl hr
    | ints => exact ints_trusted cfg hl rfl hr
    | raw => exact raw_trusted cfg hin rfl hr
    | gsmBrSmsCnf => exact gsmBrSmsCnf_trusted cfg hl rfl hr
    | cdmaBrSmsCnf => exact cdmaBrSmsCnf_trusted cfg hl rfl hr

/-! ## Payloads -/

theorem bytesParcel_exact : Requests.bytesParcel.Exact where
  inplace len p bytes hpos h := by
    simp only [Requests.bytesParcel, toUInt32_eq_clamp hpos] at h
    split at h
    · next hle =>
      cases h
      rw [List.length_take]
      simp only [Requests.padSize] at hle
      omega
    · cases h

/-- Two numbers are announced, and two follow. -/
theorem trusted_twoInts :
    ((dispatchFunction Requests.bytesParcel Requests.exampleConfig Counted.ints.function).run
      ⟨[2, 0, 0, 0, 5, 0, 0, 0, 7, 0, 0, 0], true, 0, 0⟩).1.Trusted Requests.bytesParcel
        [2, 0, 0, 0, 5, 0, 0, 0, 7, 0, 0, 0] :=
  (trusted_iff Requests.bytesParcel_lawful bytesParcel_exact Requests.exampleConfig .ints _ 0 0).mpr
    (.inr ⟨by decide, by decide, .inl (by decide)⟩)

/-- Two strings are announced and none follows: two null pointers are passed on. -/
theorem not_trusted_missingStrings :
    ((dispatchFunction Requests.bytesParcel Requests.exampleConfig Counted.strings.function).run
      ⟨[2, 0, 0, 0], true, 0, 0⟩).1 = .request (.strings [none, none] 8) ∧
    ¬ ((dispatchFunction Requests.bytesParcel Requests.exampleConfig Counted.strings.function).run
      ⟨[2, 0, 0, 0], true, 0, 0⟩).1.Trusted Requests.bytesParcel [2, 0, 0, 0] := by
  have ho : ((dispatchFunction Requests.bytesParcel Requests.exampleConfig
      Counted.strings.function).run ⟨[2, 0, 0, 0], true, 0, 0⟩).1 =
      .request (.strings [none, none] 8) := by decide +kernel
  refine ⟨ho, ?_⟩
  rw [ho]
  rintro ⟨-, count, p', q, hr, -, ht⟩
  cases hr
  cases ht

end Twm.Ril
