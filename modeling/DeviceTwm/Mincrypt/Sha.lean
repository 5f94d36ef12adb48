import DeviceTwm.Mincrypt.Sha1
import Mathlib.Data.List.Basic
import Mathlib.Data.List.GetD

/-!
# The SHA-1 of mincrypt

`SHA_update` takes a message in any pieces, byte by byte; `SHA_final` pads it and leaves the digest at the
start of the buffer that the blocks were collected in.

* `SHA1_transform_state`: a full buffer is mixed in as a block of SHA-1 is.
* `Absorbed`: what a context is after a message; `SHA_update_absorbed` goes on from there.
* `SHA_final_digest`: whatever the pieces were, and whatever was in the context before `SHA_init`, the
  digest is that of the whole message.
-/

open Lib

namespace Twm.Mincrypt

structure SHA_CTX where
  count : BitVec 64
  buf : List UInt8
  state : Words5
  length_buf : buf.length = 64

/-- `rol(bits, value)` -/
def rol (bits : Nat) (value : Word) : Word := value <<< bits ||| value >>> (32 - bits)

/-- `W[t]`, made of words before it. -/
def shaExpand (W : List Word) (t : Nat) : List Word :=
  W ++ [rol 1 (W.getD (t - 3) 0 ^^^ W.getD (t - 8) 0 ^^^ W.getD (t - 14) 0 ^^^ W.getD (t - 16) 0)]

/-- The words `W`: the sixteen of the buffer, and those that are made of them. -/
def shaWords (buf : List UInt8) : List Word :=
  (List.range' 16 64).foldl shaExpand (beWords buf)

/-- One pass of the loop over the rounds. -/
def shaRound (W : List Word) (s : Words5) (t : Nat) : Words5 :=
  let ⟨A, B, C, D, E⟩ := s
  let tmp := rol 5 A + E + W.getD t 0
  let tmp :=
    if t < 20 then tmp + ((D ^^^ (B &&& (C ^^^ D))) + 0x5A827999)
    else if t < 40 then tmp + ((B ^^^ C ^^^ D) + 0x6ED9EBA1)
    else if t < 60 then tmp + (((B &&& C) ||| (D &&& (B ||| C))) + 0x8F1BBCDC)
    else tmp + ((B ^^^ C ^^^ D) + 0xCA62C1D6)
  ⟨tmp, A, rol 30 B, C, D⟩

def SHA1_transform (ctx : SHA_CTX) : SHA_CTX :=
  { ctx with state := ctx.state.add ((List.range 80).foldl (shaRound (shaWords ctx.buf)) ctx.state) }

def SHA_init (ctx : SHA_CTX) : SHA_CTX :=
  { ctx with
    state := ⟨0x67452301, 0xEFCDAB89, 0x98BADCFE, 0x10325476, 0xC3D2E1F0⟩
    count := 0 }

/-- `ctx->buf[i] = c` -/
def SHA_CTX.put (ctx : SHA_CTX) (i : Nat) (c : UInt8) : SHA_CTX :=
  { ctx with buf := ctx.buf.set i c, length_buf := by rw [List.length_set, ctx.length_buf] }

/-- The loop of `SHA_update`; the next byte goes to `i`. -/
def updateLoop : List UInt8 → Nat → SHA_CTX → SHA_CTX
  | [], _, ctx => ctx
  | p :: ps, i, ctx =>
    let ctx := ctx.put i p
    if i + 1 = 64 then updateLoop ps 0 (SHA1_transform ctx) else updateLoop ps (i + 1) ctx

/-- `data` is the `len` bytes of the argument. -/
def SHA_update (ctx : SHA_CTX) (data : List UInt8) : SHA_CTX :=
  let i := ctx.count.toNat % 64
  updateLoop data i { ctx with count := ctx.count + BitVec.ofNat 64 data.length }

/-- Zeros up to the place of the length; the first argument bounds the rounds. -/
def padLoop : Nat → SHA_CTX → SHA_CTX
  | 0, ctx => ctx
  | n + 1, ctx => if ctx.count.toNat % 64 ≠ 64 - 8 then padLoop n (SHA_update ctx [0]) else ctx

/-- `cnt >> ((7 - i) * 8)`, as a byte. -/
def countByte (cnt : BitVec 64) (i : Nat) : UInt8 := ⟨(cnt >>> ((7 - i) * 8)).setWidth 8⟩

/-- The digest is in the first bytes of the buffer. -/
def SHA_final (ctx : SHA_CTX) : SHA_CTX :=
  let cnt := ctx.count * 8
  let ctx := SHA_update ctx [0x80]
  let ctx := padLoop 64 ctx
  let ctx := (List.range 8).foldl (fun ctx i => SHA_update ctx [countByte cnt i]) ctx
  { ctx with
    buf := beBytes ctx.state.toList ++ ctx.buf.drop SHA_DIGEST_SIZE
    length_buf := by
      rw [List.length_append, length_beBytes, List.length_drop, ctx.length_buf]
      rfl }

/-- The convenience function, with whatever is in its context at first. -/
def SHA (uninit : SHA_CTX) (data : List UInt8) : List UInt8 :=
  (SHA_final (SHA_update (SHA_init uninit) data)).buf.take SHA_DIGEST_SIZE

/-! ## A block -/

theorem rol_eq (k : Nat) (hk : k < 32) (x : Word) : rol k x = x.rotateLeft k := by
  rw [rol, BitVec.rotateLeft, BitVec.rotateLeftAux, Nat.mod_eq_of_lt hk]

/-- The function of the first rounds is the choice. -/
theorem choice_eq (B C D : Word) : D ^^^ (B &&& (C ^^^ D)) = Sha1.choice B C D := by
  ext i hi
  simp only [Sha1.choice, BitVec.getElem_xor, BitVec.getElem_and, BitVec.getElem_not]
  cases B[i] <;> cases C[i] <;> cases D[i] <;> rfl

theorem majority_eq (B C D : Word) :
    (B &&& C) ||| (D &&& (B ||| C)) = Sha1.majority B C D := by
  ext i hi
  simp only [Sha1.majority, BitVec.getElem_xor, BitVec.getElem_and, BitVec.getElem_or]
  cases B[i] <;> cases C[i] <;> cases D[i] <;> rfl

theorem shaRound_eq {W M : List Word} {t : Nat} (hW : W.getD t 0 = Sha1.schedule M t) (s : Words5) :
    shaRound W s t = Sha1.round M s t := by
  simp only [shaRound, Sha1.round, rol_eq 5 (by decide), rol_eq 30 (by decide), hW, choice_eq,
    majority_eq, Sha1.mix, Sha1.constant, Words5.mk.injEq, and_true]
  split
  · ac_rfl
  · split
    · simp only [Sha1.parity]
      ac_rfl
    · split
      · ac_rfl
      · simp only [Sha1.parity]
        ac_rfl

theorem length_beWords {n : Nat} {b : List UInt8} (hb : b.length = 4 * n) :
    (beWords b).length = n := by
  obtain ⟨l, hl, rfl⟩ := exists_beBytes hb
  rw [beWords_beBytes, hl]

theorem shaExpand_spec {W M : List Word} {t : Nat} (ht : 16 ≤ t) (hlen : W.length = t)
    (h : ∀ u < t, W.getD u 0 = Sha1.schedule M u) :
    ∀ u < t + 1, (shaExpand W t).getD u 0 = Sha1.schedule M u := by
  intro u hu
  rcases Nat.lt_or_ge u t with hlt | hge
  · rw [shaExpand, List.getD_append _ _ _ _ (by omega)]
    exact h u hlt
  · have hut : u = t := by omega
    rw [shaExpand, List.getD_append_right _ _ _ _ (by omega), hut, hlen, Nat.sub_self,
      List.getD_cons_zero, h _ (by omega), h _ (by omega), h _ (by omega), h _ (by omega),
      rol_eq 1 (by decide)]
    conv_rhs => rw [Sha1.schedule, if_neg (by omega)]

/-- The words are those of the schedule. -/
theorem shaWords_spec {buf : List UInt8} (hbuf : buf.length = 64) :
    ∀ t < 80, (shaWords buf).getD t 0 = Sha1.schedule (beWords buf) t := by
  have hloop : ∀ k t W, 16 ≤ t → W.length = t →
      (∀ u < t, W.getD u 0 = Sha1.schedule (beWords buf) u) →
      ∀ u < t + k, ((List.range' t k).foldl shaExpand W).getD u 0 =
        Sha1.schedule (beWords buf) u := by
    intro k
    induction k with
    | zero => exact fun t W _ _ h => h
    | succ k ih =>
      intro t W ht hlen h u hu
      rw [List.range'_succ, List.foldl_cons]
      refine ih (t + 1) _ (by omega) ?_ (shaExpand_spec ht hlen h) u (by omega)
      rw [shaExpand, List.length_append, hlen, List.length_singleton]
  refine hloop 64 16 (beWords buf) (Nat.le_refl 16) (length_beWords hbuf) fun u hu => ?_
  rw [Sha1.schedule, if_pos hu]

/-- **A block**: the buffer is mixed in as SHA-1 does it. -/
theorem SHA1_transform_state (ctx : SHA_CTX) :
    (SHA1_transform ctx).state = Sha1.compress ctx.state ctx.buf := by
  have hW := shaWords_spec ctx.length_buf
  have hrounds : (List.range 80).foldl (shaRound (shaWords ctx.buf)) ctx.state =
      (List.range 80).foldl (Sha1.round (beWords ctx.buf)) ctx.state := by
    refine List.foldl_ext _ _ _ fun s t ht => ?_
    exact shaRound_eq (hW t (List.mem_range.mp ht)) s
  rw [SHA1_transform, hrounds, Sha1.compress]

/-! ## A message -/

/-- The state and the buffer when `m` has been taken in: what is left over is at the start of the
buffer. -/
def Collected (ctx : SHA_CTX) (m : List UInt8) : Prop :=
  ∃ b, Streamed Sha1.compress 64 Sha1.initial m ctx.state b ∧ ctx.buf.take b.length = b

/-- A context that has taken in `m`. -/
structure Absorbed (ctx : SHA_CTX) (m : List UInt8) : Prop where
  collected : Collected ctx m
  count : ctx.count = BitVec.ofNat 64 m.length

theorem SHA_init_absorbed (ctx : SHA_CTX) : Absorbed (SHA_init ctx) [] where
  collected := ⟨[], Streamed.init (by decide), rfl⟩
  count := rfl

/-- The place of the next byte is the number of those left over. -/
theorem Absorbed.place {ctx : SHA_CTX} {m : List UInt8} (h : Absorbed ctx m) :
    ctx.count.toNat % 64 = m.length % 64 := by
  rw [h.count, BitVec.toNat_ofNat]
  omega

/-- The next byte is put after those left over. -/
theorem take_put {ctx : SHA_CTX} {b : List UInt8} {c : UInt8} (hb : b.length < 64)
    (h : ctx.buf.take b.length = b) : (ctx.put b.length c).buf.take (b.length + 1) = b ++ [c] := by
  have hlen := ctx.length_buf
  rw [SHA_CTX.put, List.take_add_one, List.take_set_of_le (Nat.le_refl _), h,
    List.getElem?_set_self (by omega)]
  rfl

theorem updateLoop_collected {ctx : SHA_CTX} {m : List UInt8} (data : List UInt8)
    (h : Collected ctx m) :
    Collected (updateLoop data (m.length % 64) ctx) (m ++ data) ∧
      (updateLoop data (m.length % 64) ctx).count = ctx.count := by
  induction data generalizing ctx m with
  | nil => exact ⟨by rwa [List.append_nil], rfl⟩
  | cons c data ih =>
    obtain ⟨b, hs, hbuf⟩ := h
    have hmod := hs.length_mod
    have hput := take_put (c := c) hs.lt hbuf
    have happ : m ++ c :: data = m ++ [c] ++ data := by simp
    rw [updateLoop, hmod, happ]
    split
    case isTrue hfull =>
      have hall : (ctx.put b.length c).buf = b ++ [c] := by
        rwa [hfull, ← (ctx.put b.length c).length_buf, List.take_length] at hput
      have hnext : Collected (SHA1_transform (ctx.put b.length c)) (m ++ [c]) := by
        refine ⟨[], ?_, rfl⟩
        rw [SHA1_transform_state, hall]
        exact hs.block hfull
      have hzero : (m ++ [c]).length % 64 = 0 := by
        rw [List.length_append, List.length_singleton]
        omega
      have hrest := ih hnext
      rwa [hzero] at hrest
    case isFalse hfull =>
      have hnext : Collected (ctx.put b.length c) (m ++ [c]) :=
        ⟨b ++ [c], hs.push hfull, by rwa [List.length_append]⟩
      have hlt := hs.lt
      have hplace : (m ++ [c]).length % 64 = b.length + 1 := by
        rw [List.length_append, List.length_singleton]
        omega
      have hrest := ih hnext
      rwa [hplace] at hrest

/-- `SHA_update` goes on with the message. -/
theorem SHA_update_absorbed {ctx : SHA_CTX} {m : List UInt8} (h : Absorbed ctx m)
    (data : List UInt8) : Absorbed (SHA_update ctx data) (m ++ data) := by
  have hcount := h.count
  obtain ⟨hc, hn⟩ := updateLoop_collected data
    (show Collected { ctx with count := ctx.count + BitVec.ofNat 64 data.length } m from h.collected)
  rw [SHA_update, h.place]
  refine ⟨hc, hn.trans ?_⟩
  rw [hcount, List.length_append, BitVec.ofNat_add]

theorem foldl_update_absorbed {ctx : SHA_CTX} {m : List UInt8} (h : Absorbed ctx m)
    (pieces : List (List UInt8)) : Absorbed (pieces.foldl SHA_update ctx) (m ++ pieces.flatten) := by
  induction pieces generalizing ctx m with
  | nil => rwa [List.flatten_nil, List.append_nil]
  | cons p pieces ih =>
    have hrest := ih (SHA_update_absorbed h p)
    rwa [List.append_assoc] at hrest

/-- The loop ends at the place of the length. -/
theorem padLoop_absorbed {ctx : SHA_CTX} {m : List UInt8} (h : Absorbed ctx m) {n : Nat}
    (hn : (120 - m.length % 64) % 64 ≤ n) :
    Absorbed (padLoop n ctx) (m ++ List.replicate ((120 - m.length % 64) % 64) 0) := by
  induction n generalizing ctx m with
  | zero =>
    have hzero : (120 - m.length % 64) % 64 = 0 := by omega
    rw [hzero]
    rwa [List.replicate_zero, List.append_nil]
  | succ n ih =>
    rw [padLoop, h.place]
    split
    case isTrue hne =>
      have hstep := ih (SHA_update_absorbed h [0])
      rw [List.length_append, List.length_singleton] at hstep
      have hone : (120 - m.length % 64) % 64 = (120 - (m.length + 1) % 64) % 64 + 1 := by omega
      rw [hone, List.replicate_succ]
      have hrest := hstep (by omega)
      rwa [List.append_assoc] at hrest
    case isFalse heq =>
      have hzero : (120 - m.length % 64) % 64 = 0 := by omega
      rw [hzero]
      rwa [List.replicate_zero, List.append_nil]

theorem countByte_eq (n : Nat) {i : Nat} (hi : i < 8) :
    countByte (BitVec.ofNat 64 n * 8) i = UInt8.ofNat (8 * n / 2 ^ (8 * (7 - i))) := by
  apply UInt8.toNat_inj.mp
  have height : (8 : BitVec 64).toNat = 8 := rfl
  rw [countByte, ← UInt8.toNat_toBitVec, BitVec.toNat_setWidth, BitVec.toNat_ushiftRight,
    BitVec.toNat_mul, BitVec.toNat_ofNat, height, Nat.shiftRight_eq_div_pow, UInt8.toNat_ofNat',
    Nat.mul_comm (7 - i) 8]
  rcases (by omega : i = 0 ∨ i = 1 ∨ i = 2 ∨ i = 3 ∨ i = 4 ∨ i = 5 ∨ i = 6 ∨ i = 7) with
    rfl | rfl | rfl | rfl | rfl | rfl | rfl | rfl <;> omega

/-- The message with its padding is taken in before the digest is stored. -/
theorem SHA_final_state {ctx : SHA_CTX} {m : List UInt8} (h : Absorbed ctx m) :
    (SHA_final ctx).state = (chunks 64 (Sha1.padded m)).foldl Sha1.compress Sha1.initial := by
  have hone := SHA_update_absorbed h [0x80]
  have hpad := padLoop_absorbed hone (n := 64) (by omega)
  have hlen := foldl_update_absorbed hpad ((List.range 8).map fun i => [countByte (ctx.count * 8) i])
  rw [List.foldl_map] at hlen
  have hbytes : ((List.range 8).map fun i => [countByte (ctx.count * 8) i]).flatten =
      Sha1.lengthBytes m.length := by
    rw [← List.flatMap_def, ← List.map_eq_flatMap, Sha1.lengthBytes, h.count]
    refine List.map_congr_left fun i hi => ?_
    exact countByte_eq m.length (List.mem_range.mp hi)
  have hzeros : (120 - (m ++ [(0x80 : UInt8)]).length % 64) % 64 = (119 - m.length % 64) % 64 := by
    rw [List.length_append, List.length_singleton]
    omega
  have hdef : (SHA_final ctx).state = ((List.range 8).foldl (fun ctx' i =>
      SHA_update ctx' [countByte (ctx.count * 8) i]) (padLoop 64 (SHA_update ctx [0x80]))).state := by
    unfold SHA_final
    rfl
  rw [hbytes, hzeros, ← Sha1.padded] at hlen
  obtain ⟨b, hs, -⟩ := hlen.collected
  rw [hdef]
  exact hs.eq_foldl (Sha1.length_padded m)

theorem SHA_final_buf (ctx : SHA_CTX) :
    (SHA_final ctx).buf.take SHA_DIGEST_SIZE = beBytes (SHA_final ctx).state.toList := by
  have hlen : (beBytes (SHA_final ctx).state.toList).length = SHA_DIGEST_SIZE := length_beBytes _
  rw [← hlen]
  exact List.take_left

/-- What a context that has taken in `m` gives as its digest. -/
theorem Absorbed.digest {ctx : SHA_CTX} {m : List UInt8} (h : Absorbed ctx m) :
    (SHA_final ctx).buf.take SHA_DIGEST_SIZE = Sha1.digest m := by
  rw [SHA_final_buf, SHA_final_state h, Sha1.digest]

/-- **The digest**: however the message comes in pieces, and whatever the context held before, it is the
SHA-1 of the whole message. -/
theorem SHA_final_digest (uninit : SHA_CTX) (pieces : List (List UInt8)) :
    (SHA_final (pieces.foldl SHA_update (SHA_init uninit))).buf.take SHA_DIGEST_SIZE =
      Sha1.digest pieces.flatten :=
  (foldl_update_absorbed (SHA_init_absorbed uninit) pieces).digest

end Twm.Mincrypt
