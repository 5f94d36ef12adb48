import DeviceTwm.Lib.Buffer
import DeviceTwm.Adb.DeviceList
import DeviceTwm.Adb.Wire

/-!
# The banner of `A_CNXN`

`parse_banner` takes the payload of an `A_CNXN` for a C string. `check_header` and `check_data` do not ask
for a terminator, and the `data` of an `apacket` is its last member, so a search may run on into what an
earlier packet left there, and past the packet.

`parseBanner_inside_iff`: it stays inside the payload, and what it stores is what the payload says,
exactly when there is a zero in the payload, or two colons and no tracing.
-/

open Lib Lib.Buffer

namespace Twm.Adb.Banner

open DeviceList (ConnectionState)
open Wire (Packet)

/-- The colon. -/
abbrev colon : UInt8 := 58

/-- What `t->product` points to. -/
abbrev Product := { s : List UInt8 // 0 ∉ s }

/-- What `parse_banner` stores in the transport. -/
structure Stored where
  product : List UInt8
  connectionState : ConnectionState
  deriving DecidableEq

/-! ## `parse_banner` -/

/-- `D("parse_banner: %s\n", banner)`. -/
def trace (tracing : Bool) : Act Buffer Unit :=
  if tracing then do
    let _ ← strdup 0
    pure ()
  else pure ()

/-- `product`, with a zero for the colon before it; `none` is the literal `""`. -/
def cutProduct : Act Buffer (Option Nat) := do
  match ← strchr colon 0 with
  | some product => do
    write product 0
    pure (some (product + 1))
  | none => pure none

/-- Remove the trailing colon. -/
def cutEnd : Option Nat → Act Buffer Unit
  | some product => do
    match ← strchr colon product with
    | some stop => write stop 0
    | none => pure ()
  | none => pure ()

/-- `strdup(product)`, which finds the memory it asks for. -/
def dupProduct : Option Nat → Act Buffer (List UInt8)
  | some product => strdup product
  | none => pure []

/-- `strcmp(product, s) == 0`. -/
def sameProduct : Option Nat → List UInt8 → Act Buffer Bool
  | some product, s => strcmp product s
  | none, s => pure (decide ([] = s))

/-- Save the product name in the device structure, where there may be one already. -/
def saveProduct (product : Option Nat) : Option Product → Act Buffer (List UInt8)
  | none => dupProduct product
  | some old => do
    let same ← sameProduct product old
    if same then pure old else dupProduct product

def connectionState : Act Buffer ConnectionState := do
  let bootloader ← strcmp 0 (str "bootloader")
  if bootloader then pure .bootloader
  else do
    let device ← strcmp 0 (str "device")
    if device then pure .device
    else do
      let recovery ← strcmp 0 (str "recovery")
      if recovery then pure .recovery else pure .host

/-- `parse_banner`, on a transport with this `product`. -/
def parseBanner (tracing : Bool) (old : Option Product) : Act Buffer Stored := do
  trace tracing
  let product ← cutProduct
  cutEnd product
  let name ← saveProduct product old
  let state ← connectionState
  pure ⟨name, state⟩

/-! ## Packets -/

/-- `A_CNXN`. -/
def cnxn : UInt32 := 0x4e584e43

/-- An `A_CNXN` that `check_header` and `check_data` let through. -/
structure Accepted (p : Packet) : Prop where
  command : p.msg.command = cnxn
  header : p.checkHeader = true
  data : p.checkData = true

instance (p : Packet) : Decidable (Accepted p) :=
  decidable_of_iff (p.msg.command = cnxn ∧ p.checkHeader = true ∧ p.checkData = true)
    ⟨fun ⟨h, h', h''⟩ => ⟨h, h', h''⟩, fun ⟨h, h', h''⟩ => ⟨h, h', h''⟩⟩

/-- `parse_banner` on a packet, with the memory `after` behind it. -/
def run (tracing : Bool) (old : Option Product) (p : Packet) (after : List UInt8) :
    Option Stored × Buffer :=
  parseBanner tracing old ⟨p.data ++ after, []⟩

/-- The offsets from `p->data` on that are read or written. -/
def touched (tracing : Bool) (old : Option Product) (p : Packet) (after : List UInt8) : List Nat :=
  (run tracing old p after).2.log

def stored (tracing : Bool) (old : Option Product) (p : Packet) (after : List UInt8) : Option Stored :=
  (run tracing old p after).1

/-- Only the first `data_length` bytes are read or written. -/
def StaysInside (tracing : Bool) (p : Packet) : Prop :=
  ∀ old after, ∀ i ∈ touched tracing old p after, i < p.msg.dataLength.toNat

/-! ## What a payload says -/

/-- Neither the colon nor the end of the string. -/
abbrev Plain (c : UInt8) : Prop := c ≠ colon ∧ c ≠ 0

def stateOf (type : List UInt8) : ConnectionState :=
  if type = str "bootloader" then .bootloader
  else if type = str "device" then .device
  else if type = str "recovery" then .recovery
  else .host

/-- The product between the first two colons. -/
def productOf (b : List UInt8) : List UInt8 :=
  match b.dropWhile fun c => decide (Plain c) with
  | [] => []
  | c :: t => if c = colon then t.takeWhile fun c => decide (Plain c) else []

/-- What is in the banner `b`. -/
def announced (b : List UInt8) : Stored where
  product := productOf b
  connectionState := stateOf (b.takeWhile fun c => decide (Plain c))

/-- What is stored is what the first `data_length` bytes say, whatever is behind them and whatever was
stored before. -/
def OfPayload (tracing : Bool) (p : Packet) : Prop :=
  ∀ q old after, Accepted q → q.payload = p.payload →
    stored tracing old q after = some (announced p.payload)

variable {b t type product rest : List UInt8} {x : UInt8} {n : Nat} {tracing : Bool} {p : Packet}
  {old : Option Product}

/-- Bytes up to the first colon or zero, if there is one. -/
theorem plain_or_split (b : List UInt8) : (∀ y ∈ b, Plain y) ∨
    ∃ type x t, b = type ++ x :: t ∧ (∀ y ∈ type, Plain y) ∧ (x = colon ∨ x = 0) := by
  induction b with
  | nil => exact .inl (by simp)
  | cons y b ih =>
    by_cases hy : Plain y
    · rcases ih with h | ⟨type, x, t, rfl, htype, hx⟩
      · exact .inl (by simpa using ⟨hy, h⟩)
      · exact .inr ⟨y :: type, x, t, rfl, by simpa using ⟨hy, htype⟩, hx⟩
    · exact .inr ⟨[], y, b, rfl, by simp, by unfold Plain at hy; tauto⟩

theorem zero_notMem (h : ∀ y ∈ b, Plain y) : 0 ∉ b := fun hmem => (h 0 hmem).2 rfl

theorem zero_notMem_split (h : ∀ y ∈ type, Plain y) (ht : ∀ y ∈ t, Plain y) :
    0 ∉ type ++ colon :: t := by
  rw [List.mem_append, List.mem_cons]
  rintro (hmem | hmem | hmem)
  · exact zero_notMem h hmem
  · exact absurd hmem (by decide)
  · exact zero_notMem ht hmem

theorem colon_notMem (h : ∀ y ∈ b, Plain y) : colon ∉ b := fun hmem => (h colon hmem).1 rfl

theorem takeWhile_plain (h : ∀ y ∈ type, Plain y) (hx : x = colon ∨ x = 0) (t : List UInt8) :
    (type ++ x :: t).takeWhile (fun c => decide (Plain c)) = type := by
  have hstop : decide (Plain x) = false := by
    rcases hx with rfl | rfl <;> decide
  rw [List.takeWhile_append_of_pos (by simpa using h), List.takeWhile_cons_of_neg (by simp [hstop]),
    List.append_nil]

theorem dropWhile_plain (h : ∀ y ∈ type, Plain y) (hx : x = colon ∨ x = 0) (t : List UInt8) :
    (type ++ x :: t).dropWhile (fun c => decide (Plain c)) = x :: t := by
  have hstop : decide (Plain x) = false := by
    rcases hx with rfl | rfl <;> decide
  rw [List.dropWhile_append_of_pos (by simpa using h), List.dropWhile_cons_of_neg (by simp [hstop])]

theorem announced_zero (h : ∀ y ∈ type, Plain y) (t : List UInt8) :
    announced (type ++ 0 :: t) = ⟨[], stateOf type⟩ := by
  unfold announced productOf
  rw [takeWhile_plain h (.inr rfl), dropWhile_plain h (.inr rfl)]
  rfl

theorem announced_colon (h : ∀ y ∈ type, Plain y) (hproduct : ∀ y ∈ product, Plain y)
    (hx : x = colon ∨ x = 0) (t : List UInt8) :
    announced (type ++ colon :: (product ++ x :: t)) = ⟨product, stateOf type⟩ := by
  unfold announced productOf
  rw [takeWhile_plain h (.inl rfl), dropWhile_plain h (.inl rfl)]
  dsimp only
  rw [if_pos rfl, takeWhile_plain hproduct hx]

/-! ## A banner that ends in time -/

theorem trace_within (h : tracing = true → ∃ s t, b = s ++ 0 :: t ∧ 0 ∉ s ∧ s.length < n) :
    Within n (trace tracing) b () b := by
  cases tracing with
  | false => exact .pure _
  | true =>
    obtain ⟨s, t, rfl, hs, hn⟩ := h rfl
    exact (strdup_within [] t (by simpa using hn) hs).bind (.pure _)

theorem connectionState_within (htype : 0 ∉ type) (hn : type.length < n) :
    Within n connectionState (type ++ 0 :: rest) (stateOf type) (type ++ 0 :: rest) := by
  have hcmp (s : List UInt8) (hs : 0 ∉ s) :
      Within n (strcmp 0 s) (type ++ 0 :: rest) (decide (type = s)) (type ++ 0 :: rest) :=
    strcmp_within [] rest (by simpa using hn) htype hs
  unfold connectionState stateOf
  refine (hcmp _ (by decide)).bind ?_
  by_cases hb : type = str "bootloader"
  · simp only [hb, decide_true, if_true]
    exact .pure _
  simp only [hb, decide_false, if_false, Bool.false_eq_true]
  refine (hcmp _ (by decide)).bind ?_
  by_cases hd : type = str "device"
  · simp only [hd, decide_true, if_true]
    exact .pure _
  simp only [hd, decide_false, if_false, Bool.false_eq_true]
  refine (hcmp _ (by decide)).bind ?_
  by_cases hr : type = str "recovery"
  · simp only [hr, decide_true, if_true]
    exact .pure _
  simp only [hr, decide_false, if_false, Bool.false_eq_true]
  exact .pure _

/-- The product that is stored, when the string at `at?` is `s`. -/
theorem saveProduct_within {at? : Option Nat} {s : List UInt8}
    (hdup : Within n (dupProduct at?) b s b)
    (hsame : ∀ o : Product, Within n (sameProduct at? o) b (decide (s = o)) b) :
    Within n (saveProduct at? old) b s b := by
  rcases old with _ | o
  · exact hdup
  · refine (hsame o).bind ?_
    by_cases h : s = o
    · simp only [h, decide_true, if_true]
      exact .pure _
    · simp only [h, decide_false, if_false, Bool.false_eq_true]
      exact hdup

/-- Without a colon. -/
theorem parseBanner_zero (htype : ∀ y ∈ type, Plain y) (hn : type.length < n) :
    Within n (parseBanner tracing old) (type ++ 0 :: rest) ⟨[], stateOf type⟩
      (type ++ 0 :: rest) := by
  have hzero := zero_notMem htype
  refine (trace_within fun _ => ⟨type, rest, rfl, hzero, hn⟩).bind ?_
  have hcut : Within n cutProduct (type ++ 0 :: rest) none (type ++ 0 :: rest) := by
    have hchr := strchr_within [] rest (by simpa using hn) htype (.inr rfl)
    rw [if_neg (by decide)] at hchr
    exact hchr.bind (.pure _)
  refine hcut.bind ((Within.pure ()).bind ?_)
  refine (saveProduct_within (.pure _) fun o => .pure _).bind ?_
  exact (connectionState_within hzero hn).bind (.pure _)

/-- The first colon is overwritten. -/
theorem cutProduct_within (rest : List UInt8) (htype : ∀ y ∈ type, Plain y) (hn : type.length < n) :
    Within n cutProduct (type ++ colon :: rest) (some (type.length + 1)) (type ++ 0 :: rest) := by
  have hchr := strchr_within [] rest (by simpa using hn) htype (.inl rfl)
  have hset := write_within_mid [] type rest colon 0 (by simpa using hn)
  rw [List.length_nil, Nat.zero_add] at hset
  rw [if_pos rfl, List.length_nil, Nat.zero_add] at hchr
  exact hchr.bind (hset.bind (.pure _))

/-- With a product. -/
theorem parseBanner_colon (htype : ∀ y ∈ type, Plain y) (hproduct : ∀ y ∈ product, Plain y)
    (hx : x = colon ∨ x = 0) (hn : type.length + (1 + product.length) < n)
    (htrace : tracing = true → ∃ s t, type ++ colon :: (product ++ x :: rest) = s ++ 0 :: t ∧
      0 ∉ s ∧ s.length < n) :
    Within n (parseBanner tracing old) (type ++ colon :: (product ++ x :: rest))
      ⟨product, stateOf type⟩ (type ++ 0 :: (product ++ 0 :: rest)) := by
  have hzero := zero_notMem htype
  have hzero' := zero_notMem hproduct
  refine (trace_within htrace).bind ?_
  refine (cutProduct_within _ htype (by omega)).bind ?_
  -- The product starts after the zero that was a colon.
  have hpre : (type ++ [0]).length = type.length + 1 := by simp
  have hmem (c : UInt8) : type ++ 0 :: (product ++ c :: rest) =
      (type ++ [0]) ++ (product ++ c :: rest) := by simp
  have hlen : (type ++ [0]).length + product.length < n := by omega
  have hend : Within n (cutEnd (some (type.length + 1))) (type ++ 0 :: (product ++ x :: rest)) ()
      (type ++ 0 :: (product ++ 0 :: rest)) := by
    have hchr := strchr_within _ rest hlen hproduct hx
    rw [hmem, hmem, ← hpre]
    refine hchr.bind ?_
    by_cases hc : x = colon
    · rw [if_pos hc]
      exact write_within_mid _ product rest x 0 hlen
    · rw [if_neg hc, hx.resolve_left hc]
      exact .pure _
  refine hend.bind ?_
  have hsave : Within n (saveProduct (some (type.length + 1)) old)
      (type ++ 0 :: (product ++ 0 :: rest)) product (type ++ 0 :: (product ++ 0 :: rest)) := by
    rw [hmem, ← hpre]
    exact saveProduct_within (strdup_within _ rest hlen hzero') fun o =>
      strcmp_within _ rest hlen hzero' o.2
  refine hsave.bind ?_
  exact (connectionState_within hzero (by omega)).bind (.pure _)

/-- A zero in the banner, or two colons and no tracing. -/
theorem parseBanner_ends (h : 0 ∈ b ∨ tracing = false ∧ 2 ≤ b.count colon)
    (old : Option Product) (rest : List UInt8) :
    ∃ b', Within b.length (parseBanner tracing old) (b ++ rest) (announced b) b' := by
  rcases plain_or_split b with hplain | ⟨type, x, t, rfl, htype, hx⟩
  · have hcount := List.count_eq_zero_of_not_mem (colon_notMem hplain)
    rcases h with h | ⟨-, h⟩
    · exact absurd h (zero_notMem hplain)
    · omega
  have htrace (htr : tracing = true) : 0 ∈ type ++ x :: t := h.resolve_right fun h' => by
    rw [htr] at h'
    exact Bool.noConfusion h'.1
  rcases hx with rfl | rfl
  · rcases plain_or_split t with hplain | ⟨product, x, t, rfl, hproduct, hx⟩
    · have hcount := List.count_eq_zero_of_not_mem (colon_notMem hplain)
      have hcount' := List.count_eq_zero_of_not_mem (colon_notMem htype)
      rcases h with h | ⟨-, h⟩
      · exact absurd h (zero_notMem_split htype hplain)
      · rw [List.count_append, List.count_cons_self] at h
        omega
    · rw [announced_colon htype hproduct hx, List.append_assoc, List.cons_append, List.append_assoc,
        List.cons_append]
      refine ⟨_, parseBanner_colon htype hproduct hx ?_ fun htr => ?_⟩
      · simp
        omega
      · obtain ⟨s, u, heq, hs⟩ := List.eq_append_cons_of_mem (htrace htr)
        refine ⟨s, u ++ rest, ?_, hs, ?_⟩
        · simpa using congrArg (· ++ rest) heq
        · rw [heq]
          simp
  · rw [announced_zero htype, List.append_assoc, List.cons_append]
    exact ⟨_, parseBanner_zero htype (by simp)⟩

/-! ## A banner that does not -/

theorem grows_cutEnd (product : Option Nat) : Grows (cutEnd product) := by
  cases product with
  | none => exact .pure _
  | some i =>
    refine (grows_strchr colon i).bind fun stop => ?_
    cases stop with
    | none => exact .pure _
    | some stop => exact grows_write stop 0

theorem grows_cutProduct : Grows cutProduct := by
  refine (grows_strchr colon 0).bind fun product => ?_
  cases product with
  | none => exact .pure _
  | some product => exact (grows_write product 0).bind fun _ => .pure _

theorem grows_dupProduct (product : Option Nat) : Grows (dupProduct product) := by
  cases product with
  | none => exact .pure _
  | some i => exact grows_strdup i

theorem grows_saveProduct (product : Option Nat) (old : Option Product) :
    Grows (saveProduct product old) := by
  cases old with
  | none => exact grows_dupProduct product
  | some o =>
    refine .bind ?_ fun same => .ite (.pure _) (grows_dupProduct product)
    cases product with
    | none => exact .pure _
    | some i => exact grows_strcmp i o

theorem grows_connectionState : Grows connectionState :=
  (grows_strcmp 0 _).bind fun _ => .ite (.pure _) <|
    (grows_strcmp 0 _).bind fun _ => .ite (.pure _) <|
      (grows_strcmp 0 _).bind fun _ => .ite (.pure _) (.pure _)

/-- What comes after the product is cut. -/
theorem grows_save (product : Option Nat) (old : Option Product) :
    Grows (saveProduct product old >>= fun name => connectionState >>= fun state =>
      (pure ⟨name, state⟩ : Act Buffer Stored)) :=
  (grows_saveProduct product old).bind fun _ => grows_connectionState.bind fun _ => .pure _

/-- The first byte behind the banner is touched. -/
theorem parseBanner_touches (h : ¬ (0 ∈ b ∨ tracing = false ∧ 2 ≤ b.count colon)) (old : Option Product)
    (rest : List UInt8) : Touches b.length (parseBanner tracing old) (b ++ rest) := by
  rw [not_or] at h
  obtain ⟨hzero, hcount⟩ := h
  cases tracing with
  | true =>
    have hdup := strdup_touches [] rest hzero
    rw [List.length_nil, Nat.zero_add] at hdup
    refine (hdup.bind fun _ => .pure _).bind fun _ => ?_
    exact grows_cutProduct.bind fun product => (grows_cutEnd product).bind fun _ => grows_save product old
  | false =>
    refine (Within.pure (n := 0) ()).bind_touches ?_
    rcases plain_or_split b with hplain | ⟨type, x, t, rfl, htype, rfl | rfl⟩
    · have hchr := strchr_touches [] rest hplain
      rw [List.length_nil, Nat.zero_add] at hchr
      refine ((hchr.bind fun product => ?_)).bind fun product =>
        (grows_cutEnd product).bind fun _ => grows_save product old
      cases product with
      | none => exact .pure _
      | some product => exact (grows_write product 0).bind fun _ => .pure _
    · -- The search for the second colon starts behind the first one.
      have hplain : ∀ y ∈ t, Plain y := by
        rcases plain_or_split t with hplain | ⟨product, x, u, rfl, -, rfl | rfl⟩
        · exact hplain
        · simp at hcount
          omega
        · simp at hzero
      have hchr := strchr_touches (type ++ [0]) rest hplain
      have hcut := cutProduct_within (t ++ rest) htype (Nat.lt_succ_self _)
      rw [List.append_assoc, List.cons_append]
      refine hcut.bind_touches (Touches.bind ?_ fun _ => grows_save _ old)
      have hlen : (type ++ colon :: t).length = (type ++ [0]).length + t.length := by
        simp only [List.length_append, List.length_cons, List.length_nil]
        omega
      have hpre : type.length + 1 = (type ++ [(0 : UInt8)]).length := by simp
      have hmem : type ++ 0 :: (t ++ rest) = (type ++ [0]) ++ (t ++ rest) := by simp
      rw [hlen, hpre, hmem]
      refine hchr.bind fun stop => ?_
      cases stop with
      | none => exact .pure _
      | some stop => exact grows_write stop 0
    · simp at hzero

/-! ## Packets again -/

theorem length_payload (hp : Accepted p) : p.payload.length = p.msg.dataLength.toNat := by
  refine Wire.Packet.length_payload ?_
  have hheader := hp.header
  unfold Packet.checkHeader at hheader
  split at hheader
  · cases hheader
  · split at hheader
    · cases hheader
    · omega

/-- The payload, and what is behind it. -/
theorem run_eq (tracing : Bool) (old : Option Product) (p : Packet) (after : List UInt8) :
    ∃ rest, run tracing old p after = parseBanner tracing old ⟨p.payload ++ rest, []⟩ := by
  refine ⟨p.data.drop p.msg.dataLength.toNat ++ after, ?_⟩
  rw [run, ← List.append_assoc, Packet.payload, List.take_append_drop]

/-- `parse_banner` stays inside the payload, and stores what the payload says, exactly when there is a
zero in the payload, or two colons and no tracing. -/
theorem parseBanner_inside_iff (tracing : Bool) (p : Packet) (hp : Accepted p) :
    StaysInside tracing p ∧ OfPayload tracing p ↔
      0 ∈ p.payload ∨ tracing = false ∧ 2 ≤ p.payload.count colon := by
  constructor
  · rintro ⟨hinside, -⟩
    by_contra h
    obtain ⟨rest, hrun⟩ := run_eq tracing none p []
    have hmem := parseBanner_touches h none rest ⟨p.payload ++ rest, []⟩ rfl
    have hlt := hinside none [] p.payload.length (by unfold touched; rwa [hrun])
    rw [length_payload hp] at hlt
    exact Nat.lt_irrefl _ hlt
  · intro h
    have hends (q : Packet) (old : Option Product) (after : List UInt8) (hq : q.payload = p.payload) :
        ∃ s', run tracing old q after = (some (announced p.payload), s') ∧
          ∀ i ∈ s'.log, i < p.payload.length := by
      obtain ⟨rest, hrun⟩ := run_eq tracing old q after
      obtain ⟨b', hwithin⟩ := parseBanner_ends h old rest
      rw [hq] at hrun
      obtain ⟨s', hs', -, hall⟩ := hwithin ⟨p.payload ++ rest, []⟩ rfl
      exact ⟨s', hrun.trans hs', hall (by simp [Logged.All])⟩
    refine ⟨fun old after i hi => ?_, fun q old after _ hq => ?_⟩
    · obtain ⟨s', hrun, hlt⟩ := hends p old after rfl
      unfold touched at hi
      rw [hrun] at hi
      exact length_payload hp ▸ hlt i hi
    · obtain ⟨s', hrun, -⟩ := hends q old after hq
      rw [stored, hrun]

/-- An `A_CNXN` with this payload, and this memory behind it. -/
def packet (payload behind : List UInt8) (h : (payload ++ behind).length = maxPayload) : Packet where
  msg :=
    { command := cnxn
      arg0 := 0x01000000
      arg1 := 4096
      dataLength := UInt32.ofNat payload.length
      dataCheck := Packet.sum payload payload.length
      magic := cnxn ^^^ 0xffffffff }
  data := payload ++ behind
  size := h

/-- What a device sends. -/
def terminated : Packet :=
  packet (str "device::" ++ [0]) (List.replicate 4087 7)
    (by rw [List.length_append, List.length_replicate]; rfl)

theorem parseBanner_inside_terminated : StaysInside true terminated ∧ OfPayload true terminated :=
  (parseBanner_inside_iff true terminated (by decide +kernel)).mpr (by decide +kernel)

/-- A payload without a terminator, and the byte behind it. -/
def bare (next : UInt8) : Packet :=
  packet (str "device") (next :: List.replicate 4089 0)
    (by rw [List.length_append, List.length_cons, List.length_replicate]; rfl)

/-- Without a terminator the byte behind the payload is read, and decides what is stored. -/
theorem banner_reads_on : Accepted (bare 0) ∧ Accepted (bare 7) ∧ (bare 0).payload = (bare 7).payload ∧
    ¬ StaysInside false (bare 0) ∧ stored false none (bare 0) [] = some ⟨[], .device⟩ ∧
      stored false none (bare 7) [] = some ⟨[], .host⟩ := by
  refine ⟨by decide +kernel, by decide +kernel, by decide +kernel, fun h => ?_, by decide +kernel,
    by decide +kernel⟩
  have hmem : 6 ∈ touched false none (bare 0) [] := by decide +kernel
  exact absurd (h none [] 6 hmem) (by decide +kernel)

end Twm.Adb.Banner
