import DeviceTwm.Lib.Bytes
import Mathlib.Data.List.Pairwise

/-!
# Frames of a recording (`libaudio/AudioHardware.cpp`)

`read` fills the buffer of the caller from the driver. When the format is AAC, the buffer gets a marker and
a number of frames, and each frame gets its size before it. The place for the size is set apart before the
driver is asked for a frame.

* `readData`: `read` of a stream that has been started.
* `parse`: the frames in such a buffer.
* `render`: what the loop leaves in the buffer after the number of frames.
-/

open Lib

namespace Twm.Audio.Capture

/-- What `::read` returns; no data is 0, and `again` is -1 with `EAGAIN`. -/
inductive Answer
  | data (b : List UInt8)
  | again
  | error
  deriving DecidableEq

/-- The local variables of `read`, and two fields of the stream. -/
structure Cursor where
  buf : List UInt8
  p : Nat
  count : Nat
  bytes : Nat
  firstread : Bool
  retryCount : Nat

inductive ReadEnd
  /-- `read` returns; `rest` are answers it has not asked for. -/
  | returns (r : Int) (c : Cursor) (rest : List Answer)
  /-- The driver has not answered, or not with what fits. -/
  | unfinished

/-- Number to identify the format as AAC by higher layers. -/
def MARKER : Nat := 0x51434F4D

/-- What a positive answer does. `none`: a store past the end of the buffer. -/
def storeFrame (aac : Bool) (slot : Nat) (b : List UInt8) (c : Cursor) : Option Cursor :=
  (blit c.buf c.p b).bind fun buf =>
    let c := { c with
      buf, p := c.p + b.length, count := c.count - b.length, bytes := c.bytes + b.length }
    if aac then
      (blit buf slot (le16 b.length)).bind fun buf =>
        (blit buf 4 (le16 (ofLe16 (buf.drop 4) + 1))).map fun buf => { c with buf }
    else some c

/-- The value that `read` returns after its loop. -/
def result (aac : Bool) (c : Cursor) : Int := if aac then c.buf.length else c.bytes

/-- The loop is over before it asks the driver. -/
def isFull (aac : Bool) (count : Nat) : Bool := count = 0 || (aac && !(2 < count))

/-- The place for the size of a frame. -/
def reserve (aac : Bool) (c : Cursor) : Cursor :=
  if aac then { c with p := c.p + 2, count := c.count - 2 } else c

def readLoop (aac : Bool) (c : Cursor) : List Answer → Option ReadEnd
  | [] => if isFull aac c.count then some (.returns (result aac c) c []) else some .unfinished
  | r :: rest =>
    if isFull aac c.count then some (.returns (result aac c) c (r :: rest))
    else
      let slot := c.p
      let c := reserve aac c
      match r with
      | .data [] => some (.returns (result aac c) c rest)
      | .data b =>
        if c.count < b.length then some .unfinished
        else
          (storeFrame aac slot b c).bind fun c =>
            if c.firstread then readLoop aac c rest
            else
              let c := { c with firstread := true }
              some (.returns (result aac c) c rest)
      | .again => readLoop aac { c with retryCount := c.retryCount + 1 } rest
      | .error => some (.returns (-1) c rest)

/-- `read` of a stream that has been started. -/
def readData (aac firstread : Bool) (retryCount : Nat) (buf : List UInt8) (answers : List Answer) :
    Option ReadEnd :=
  if aac then
    (blit buf 0 (le32 MARKER)).bind fun buf =>
      (blit buf 4 (le16 0)).bind fun buf =>
        readLoop true ⟨buf, 6, buf.length - 6, 0, firstread, retryCount⟩ answers
  else readLoop false ⟨buf, 0, buf.length, 0, firstread, retryCount⟩ answers

/-! ## What is wanted -/

/-- `n` records of a size and that many bytes. -/
def records : Nat → List UInt8 → Option (List (List UInt8))
  | 0, _ => some []
  | n + 1, s =>
    let t := s.drop 2
    if s.length < 2 ∨ t.length < ofLe16 s then none
    else (records n (t.drop (ofLe16 s))).map (t.take (ofLe16 s) :: ·)

/-- The frames in a buffer: the marker, their number, and a record for each. -/
def parse (out : List UInt8) : Option (List (List UInt8)) :=
  if out.length < 6 ∨ ofLe32 out ≠ MARKER then none
  else records (ofLe16 (out.drop 4)) (out.drop 6)

/-- The frame in an answer. -/
def Answer.frame? : Answer → Option (List UInt8)
  | .data [] => none
  | .data b => some b
  | .again => none
  | .error => none

/-- The frames among the answers, in order. -/
def frames (answers : List Answer) : List (List UInt8) := answers.filterMap Answer.frame?

/-- The answers are those of one call with `space` bytes after the number of frames, and each frame fits. -/
def OneCall (space : Nat) (firstread : Bool) : List Answer → Prop
  | [] => space ≤ 2
  | .data [] :: rest => 2 < space ∧ rest = []
  | .data b :: rest =>
    2 + b.length ≤ space ∧ if firstread then OneCall (space - (2 + b.length)) firstread rest else rest = []
  | .again :: rest => 2 < space ∧ OneCall (space - 2) firstread rest
  | .error :: _ => False

/-- No frame comes after a retry. -/
def NoRetryBeforeFrame (answers : List Answer) : Prop :=
  answers.Pairwise fun r r' => r = .again → r'.frame? = none

/-! ## What the loop writes -/

/-- The space after the number of frames when the loop is over; `free` was in it before. -/
def render (free : List UInt8) : List Answer → List UInt8
  | [] => free
  | .data [] :: _ => free
  | .data b :: rest => le16 b.length ++ (b ++ render (free.drop (2 + b.length)) rest)
  | .again :: rest => free.take 2 ++ render (free.drop 2) rest
  | .error :: _ => free

@[simp] theorem frames_nil : frames [] = [] := rfl

@[simp] theorem frames_frame (x : UInt8) (b : List UInt8) (rest : List Answer) :
    frames (.data (x :: b) :: rest) = (x :: b) :: frames rest := rfl

@[simp] theorem frames_zero (rest : List Answer) : frames (.data [] :: rest) = frames rest := rfl

@[simp] theorem frames_again (rest : List Answer) : frames (.again :: rest) = frames rest := rfl

theorem render_frame (free : List UInt8) (x : UInt8) (b : List UInt8) (rest : List Answer) :
    render free (.data (x :: b) :: rest) =
      le16 (x :: b).length ++ ((x :: b) ++ render (free.drop (2 + (x :: b).length)) rest) := rfl

theorem ne_nil_of_mem_frames {answers : List Answer} {b : List UInt8} (hb : b ∈ frames answers) :
    b ≠ [] := by
  obtain ⟨r, -, hr⟩ := List.mem_filterMap.mp hb
  rintro rfl
  cases r with
  | data b =>
    cases b with
    | nil => cases hr
    | cons x b => cases hr
  | again => cases hr
  | error => cases hr

variable {n : Nat} {done free b : List UInt8} {c : Cursor} {answers : List Answer}

/-- The loop has stored `n` frames, which are in `done`; `free` is left of the buffer. -/
structure At (c : Cursor) (n : Nat) (done free : List UInt8) : Prop where
  buf : c.buf = le32 MARKER ++ (le16 n ++ (done ++ free))
  p : c.p = 6 + done.length
  count : c.count = free.length

theorem isFull_iff {count : Nat} : isFull true count ↔ count ≤ 2 := by
  simp [isFull]
  omega

/-- The frame, its size and the number of frames are stored in their places. -/
theorem At.frame (h : At c n done free) (hb : 2 + b.length ≤ free.length) :
    ∃ c', storeFrame true c.p b (reserve true c) = some c' ∧
      At c' (n + 1) (done ++ (le16 b.length ++ b)) (free.drop (2 + b.length)) ∧
      c'.firstread = c.firstread := by
  obtain ⟨hbuf, hp, hcount⟩ := h
  -- the place for the size, that for the frame, and the rest
  obtain ⟨f₂, t, rfl, h₂⟩ : ∃ f₂ t, free = f₂ ++ t ∧ f₂.length = 2 :=
    ⟨free.take 2, free.drop 2, by simp, by simp; omega⟩
  obtain ⟨fb, f', rfl, hfb⟩ : ∃ fb f', t = fb ++ f' ∧ fb.length = b.length :=
    ⟨t.take b.length, t.drop b.length, by simp, by simp at hb ⊢; omega⟩
  have hdrop : (f₂ ++ (fb ++ f')).drop (2 + b.length) = f' := by
    rw [← List.append_assoc, List.drop_left' (by simp; omega)]
  have h₁ : blit c.buf (c.p + 2) b = some (le32 MARKER ++ (le16 n ++ (done ++ (f₂ ++ (b ++ f'))))) := by
    have hoff : c.p + 2 = (le32 MARKER ++ le16 n ++ done ++ f₂).length := by simp [h₂, hp]; omega
    simpa [hbuf] using blit_piece (c := f') hoff hfb.symm
  have h₂ : blit (le32 MARKER ++ (le16 n ++ (done ++ (f₂ ++ (b ++ f'))))) c.p (le16 b.length) =
      some (le32 MARKER ++ (le16 n ++ (done ++ (le16 b.length ++ (b ++ f'))))) := by
    have hoff : c.p = (le32 MARKER ++ le16 n ++ done).length := by simp [hp]; omega
    simpa using blit_piece (c := b ++ f') (d := le16 b.length) hoff h₂.symm
  have h₃ : blit (le32 MARKER ++ (le16 n ++ (done ++ (le16 b.length ++ (b ++ f'))))) 4 (le16 (n + 1)) =
      some (le32 MARKER ++ (le16 (n + 1) ++ (done ++ (le16 b.length ++ (b ++ f'))))) :=
    blit_piece rfl rfl
  have hn : le16 (ofLe16 ((le32 MARKER ++
      (le16 n ++ (done ++ (le16 b.length ++ (b ++ f'))))).drop 4) + 1) = le16 (n + 1) := by
    rw [List.drop_left' (length_le32 MARKER), ofLe16_le16, le16_mod]
  refine ⟨{ c with
    buf := le32 MARKER ++ (le16 (n + 1) ++ (done ++ (le16 b.length ++ (b ++ f'))))
    p := c.p + 2 + b.length, count := c.count - 2 - b.length, bytes := c.bytes + b.length }, ?_, ?_, rfl⟩
  · unfold storeFrame reserve
    dsimp only
    rw [if_pos rfl, h₁, Option.bind_some]
    dsimp only
    rw [if_pos rfl, h₂, Option.bind_some, hn, h₃]
    rfl
  · rw [hdrop]
    refine ⟨by simp, ?_, ?_⟩
    · simp [hp]
      omega
    · simp [hcount, hfb]
      omega

/-- A place for a size stays as it was. -/
theorem At.again (h : At c n done free) (hle : 2 ≤ free.length) :
    At { reserve true c with retryCount := c.retryCount + 1 } n (done ++ free.take 2) (free.drop 2) := by
  obtain ⟨hbuf, hp, hcount⟩ := h
  refine ⟨?_, ?_, ?_⟩
  · rw [List.append_assoc, List.take_append_drop]
    exact hbuf
  · simp [reserve, hp]
    omega
  · simp [reserve, hcount]

/-- What one call leaves in the buffer. -/
theorem readLoop_eq (h : At c n done free) (hcall : OneCall free.length c.firstread answers) :
    ∃ c', readLoop true c answers = some (.returns (result true c') c' []) ∧
      c'.buf = le32 MARKER ++ (le16 (n + (frames answers).length) ++ (done ++ render free answers)) := by
  induction answers generalizing c n done free with
  | nil =>
    refine ⟨c, ?_, h.buf⟩
    unfold readLoop
    rw [if_pos (isFull_iff.mpr (h.count ▸ hcall))]
  | cons r rest ih =>
    unfold readLoop
    cases r with
    | data b =>
      cases b with
      | nil =>
        obtain ⟨hle, rfl⟩ := hcall
        rw [if_neg (by rw [isFull_iff, h.count]; omega)]
        exact ⟨reserve true c, rfl, h.buf⟩
      | cons x b =>
        obtain ⟨hle, hrest⟩ := hcall
        obtain ⟨c', hstore, h', hfirst⟩ := h.frame hle
        rw [if_neg (by rw [isFull_iff, h.count]; simp at hle; omega)]
        dsimp only
        have hfits : ¬ (reserve true c).count < (x :: b).length := by
          simp only [reserve, if_true, h.count]
          omega
        rw [if_neg hfits, hstore, Option.bind_some]
        split
        · rename_i hf
          rw [hfirst] at hf
          rw [if_pos hf] at hrest
          rw [← List.length_drop] at hrest
          obtain ⟨c'', hend, hbuf⟩ := ih h' (hfirst ▸ hrest)
          refine ⟨c'', hend, ?_⟩
          rw [hbuf]
          simp [render, Nat.add_assoc, Nat.add_comm 1]
        · rename_i hf
          rw [hfirst] at hf
          rw [if_neg hf] at hrest
          subst hrest
          refine ⟨{ c' with firstread := true }, rfl, ?_⟩
          simp [h'.buf, render]
    | again =>
      obtain ⟨hle, hrest⟩ := hcall
      rw [if_neg (by rw [isFull_iff, h.count]; omega)]
      rw [← List.length_drop] at hrest
      obtain ⟨c', hend, hbuf⟩ := ih (h.again (by omega)) hrest
      refine ⟨c', hend, ?_⟩
      rw [hbuf]
      simp [render]
    | error => exact hcall.elim

/-- No store reaches past the end of the buffer, whatever the driver answers. -/
theorem readLoop_stays (h : At c n done free) : readLoop true c answers ≠ none := by
  induction answers generalizing c n done free with
  | nil =>
    unfold readLoop
    split
    · exact Option.some_ne_none _
    · exact Option.some_ne_none _
  | cons r rest ih =>
    unfold readLoop
    split
    · exact Option.some_ne_none _
    · rename_i hfull
      rw [isFull_iff, h.count] at hfull
      cases r with
      | data b =>
        cases b with
        | nil => exact Option.some_ne_none _
        | cons x b =>
          dsimp only
          split
          · exact Option.some_ne_none _
          · rename_i hfits
            have hle : 2 + (x :: b).length ≤ free.length := by
              simp only [reserve, if_true, h.count] at hfits
              omega
            obtain ⟨c', hstore, h', -⟩ := h.frame hle
            rw [hstore, Option.bind_some]
            split
            · exact ih h'
            · exact Option.some_ne_none _
      | again => exact ih (h.again (by omega))
      | error => exact Option.some_ne_none _

/-! ## Reading the records -/

theorem records_succ (s : List UInt8) : records (n + 1) s =
    if s.length < 2 ∨ (s.drop 2).length < ofLe16 s then none
    else (records n ((s.drop 2).drop (ofLe16 s))).map ((s.drop 2).take (ofLe16 s) :: ·) := rfl

theorem records_length {s : List UInt8} {bs : List (List UInt8)} (h : records n s = some bs) :
    bs.length = n := by
  induction n generalizing s bs with
  | zero =>
    cases h
    rfl
  | succ n ih =>
    rw [records_succ] at h
    split at h
    · cases h
    · obtain ⟨bs', h', rfl⟩ := Option.map_eq_some_iff.mp h
      rw [List.length_cons, ih h']

/-- A frame with its size in front is a record if the size is not cut. -/
theorem records_frame {t : List UInt8} {bs : List (List UInt8)} :
    records (n + 1) (le16 b.length ++ (b ++ t)) = some (b :: bs) ↔
      b.length < 2 ^ 16 ∧ records n t = some bs := by
  have hdrop : (le16 b.length ++ (b ++ t)).drop 2 = b ++ t := List.drop_left' (length_le16 _)
  rw [records_succ, hdrop, ofLe16_le16]
  constructor
  · intro h
    split at h
    · cases h
    · obtain ⟨bs', h', heq⟩ := Option.map_eq_some_iff.mp h
      obtain ⟨htake, rfl⟩ := List.cons.inj heq
      have hcut := congrArg List.length htake
      rw [List.length_take, List.length_append] at hcut
      have hb : b.length < 2 ^ 16 := by
        have := Nat.mod_lt b.length (Nat.two_pow_pos 16)
        omega
      rw [Nat.mod_eq_of_lt hb, List.drop_left' rfl] at h'
      exact ⟨hb, h'⟩
  · rintro ⟨hb, h⟩
    have hlong : ¬ ((le16 b.length ++ (b ++ t)).length < 2 ∨ (b ++ t).length < b.length) := by
      rw [List.length_append, List.length_append, length_le16]
      omega
    rw [Nat.mod_eq_of_lt hb, if_neg hlong, List.drop_left' rfl, List.take_left' rfl, h]
    rfl

/-- Two zeros are the size of no frame with data. -/
theorem records_zeros {t : List UInt8} {x : UInt8} {bs : List (List UInt8)} :
    records (n + 1) (zeros 2 ++ t) ≠ some ((x :: b) :: bs) := by
  intro h
  rw [records_succ] at h
  split at h
  · cases h
  · obtain ⟨bs', -, heq⟩ := Option.map_eq_some_iff.mp h
    cases heq

theorem OneCall.tail {space : Nat} {firstread : Bool} {r : Answer} {rest : List Answer}
    (h : OneCall space firstread (r :: rest)) :
    rest = [] ∨ ∃ space', OneCall space' firstread rest := by
  cases r with
  | data b =>
    cases b with
    | nil => exact .inl h.2
    | cons x b =>
      obtain ⟨-, h⟩ := h
      split at h
      · exact .inr ⟨_, h⟩
      · exact .inl h
  | again => exact .inr ⟨_, h.2⟩
  | error => exact h.elim

/-- Without a frame after a retry the records are the frames. -/
theorem records_render {space : Nat} {firstread : Bool} (hcall : OneCall space firstread answers)
    (hretry : NoRetryBeforeFrame answers) (hsize : ∀ b ∈ frames answers, b.length < 2 ^ 16)
    (free : List UInt8) :
    records (frames answers).length (render free answers) = some (frames answers) := by
  induction answers generalizing space free with
  | nil => rfl
  | cons r rest ih =>
    obtain ⟨hr, hpair⟩ := List.pairwise_cons.mp hretry
    cases r with
    | data b =>
      cases b with
      | nil =>
        obtain ⟨-, rfl⟩ := hcall
        rfl
      | cons x b =>
        obtain ⟨hb, hsize'⟩ := List.forall_mem_cons.mp hsize
        refine records_frame.mpr ⟨hb, ?_⟩
        rcases hcall.tail with rfl | ⟨space', hcall'⟩
        · rfl
        · exact ih hcall' hpair hsize' _
    | again =>
      have hnil : frames (.again :: rest) = [] :=
        List.filterMap_eq_nil_iff.mpr (List.forall_mem_cons.mpr ⟨rfl, fun r hm => hr r hm rfl⟩)
      rw [hnil]
      rfl
    | error => exact hcall.elim

/-- A buffer of zeros shows a frame after a retry, and a frame whose size is cut. -/
theorem render_zeros {space : Nat} {firstread : Bool} (hcall : OneCall space firstread answers)
    (h : records (frames answers).length (render (zeros space) answers) = some (frames answers)) :
    NoRetryBeforeFrame answers ∧ ∀ b ∈ frames answers, b.length < 2 ^ 16 := by
  induction answers generalizing space with
  | nil => exact ⟨List.Pairwise.nil, by simp [frames]⟩
  | cons r rest ih =>
    cases r with
    | data b =>
      cases b with
      | nil =>
        obtain ⟨-, rfl⟩ := hcall
        exact ⟨List.pairwise_singleton .., by simp [frames, Answer.frame?]⟩
      | cons x b =>
        obtain ⟨hb, h'⟩ := records_frame.mp h
        obtain ⟨hle, hrest⟩ := hcall
        have hboth : NoRetryBeforeFrame rest ∧ ∀ b ∈ frames rest, b.length < 2 ^ 16 := by
          split at hrest
          · refine ih hrest ?_
            rw [zeros, List.drop_replicate] at h'
            exact h'
          · subst hrest
            exact ⟨List.Pairwise.nil, by simp [frames]⟩
        exact ⟨List.pairwise_cons.mpr ⟨fun _ _ hr => (Answer.noConfusion hr), hboth.1⟩,
          List.forall_mem_cons.mpr ⟨hb, hboth.2⟩⟩
    | again =>
      obtain ⟨hle, hrest⟩ := hcall
      have htake : (zeros space).take 2 = zeros 2 := by
        rw [zeros, List.take_replicate, Nat.min_eq_left hle.le]
        rfl
      have hnil : frames rest = [] := by
        cases hf : frames rest with
        | nil => rfl
        | cons b bs =>
          obtain ⟨x, b, rfl⟩ := List.exists_cons_of_ne_nil
            (ne_nil_of_mem_frames (hf ▸ List.mem_cons_self : b ∈ frames rest))
          rw [frames_again, hf, render, htake] at h
          exact (records_zeros h).elim
      have hnone := List.filterMap_eq_nil_iff.mp hnil
      refine ⟨List.pairwise_cons.mpr ⟨fun r hr _ => hnone r hr, ?_⟩, by simp [hnil]⟩
      exact List.Pairwise.imp_of_mem (fun _ hb _ _ => hnone _ hb)
        (List.pairwise_of_forall (R := fun _ _ => True) (fun _ _ => trivial))
    | error => exact hcall.elim

/-! ## The buffer of one call -/

theorem readData_at {buf : List UInt8} (hbuf : 6 ≤ buf.length) (firstread : Bool) (retryCount : Nat)
    (answers : List Answer) :
    ∃ c, c.firstread = firstread ∧ At c 0 [] (buf.drop 6) ∧
      readData true firstread retryCount buf answers = readLoop true c answers := by
  obtain ⟨b₄, t, rfl, h₄⟩ : ∃ b₄ t, buf = b₄ ++ t ∧ b₄.length = 4 :=
    ⟨buf.take 4, buf.drop 4, by simp, by simp; omega⟩
  obtain ⟨b₂, f, rfl, h₂⟩ : ∃ b₂ f, t = b₂ ++ f ∧ b₂.length = 2 :=
    ⟨t.take 2, t.drop 2, by simp, by simp [h₄] at hbuf ⊢; omega⟩
  have hdrop : (b₄ ++ (b₂ ++ f)).drop 6 = f := by
    rw [← List.append_assoc, List.drop_left' (by simp [h₄, h₂])]
  have hmarker : blit (b₄ ++ (b₂ ++ f)) 0 (le32 MARKER) = some (le32 MARKER ++ (b₂ ++ f)) :=
    blit_piece (a := []) rfl h₄.symm
  have hcount : blit (le32 MARKER ++ (b₂ ++ f)) 4 (le16 0) = some (le32 MARKER ++ (le16 0 ++ f)) :=
    blit_piece rfl h₂.symm
  refine ⟨⟨le32 MARKER ++ (le16 0 ++ f), 6, (le32 MARKER ++ (le16 0 ++ f)).length - 6, 0, firstread,
    retryCount⟩, rfl, ?_, ?_⟩
  · rw [hdrop]
    exact ⟨rfl, rfl, by simp; omega⟩
  · unfold readData
    rw [if_pos rfl, hmarker, Option.bind_some, hcount, Option.bind_some]

theorem length_render {space : Nat} {firstread : Bool} (hcall : OneCall space firstread answers)
    (hfree : free.length = space) : (render free answers).length = space := by
  induction answers generalizing space free with
  | nil => exact hfree
  | cons r rest ih =>
    cases r with
    | data b =>
      cases b with
      | nil => exact hfree
      | cons x b =>
        obtain ⟨hle, hrest⟩ := hcall
        have hlen : (render (free.drop (2 + (x :: b).length)) rest).length =
            space - (2 + (x :: b).length) := by
          split at hrest
          · exact ih hrest (by rw [List.length_drop, hfree])
          · subst hrest
            rw [render, List.length_drop, hfree]
        rw [render_frame, List.length_append, List.length_append, length_le16, hlen]
        omega
    | again =>
      obtain ⟨hle, hrest⟩ := hcall
      rw [render, List.length_append, ih hrest (by rw [List.length_drop, hfree]), List.length_take]
      omega
    | error => exact hcall.elim

theorem parse_eq (n : Nat) (t : List UInt8) :
    parse (le32 MARKER ++ (le16 n ++ t)) = records (n % 2 ^ 16) t := by
  have h₄ : (le32 MARKER ++ (le16 n ++ t)).drop 4 = le16 n ++ t := List.drop_left' rfl
  have h₆ : (le32 MARKER ++ (le16 n ++ t)).drop 6 = t := by
    rw [← List.append_assoc, List.drop_left' (by simp)]
  unfold parse
  rw [if_neg, h₄, h₆, ofLe16_le16]
  rw [ofLe32_le32, not_or, not_not]
  exact ⟨by simp; omega, by decide⟩

/-- The buffer after one call. -/
theorem readData_eq {buf : List UInt8} {firstread : Bool} (hbuf : 6 ≤ buf.length)
    (hcall : OneCall (buf.length - 6) firstread answers) (retryCount : Nat) :
    ∃ c, readData true firstread retryCount buf answers = some (.returns buf.length c []) ∧
      c.buf.length = buf.length ∧
      c.buf = le32 MARKER ++ (le16 (frames answers).length ++ render (buf.drop 6) answers) := by
  obtain ⟨c, hfirst, hat, heq⟩ := readData_at hbuf firstread retryCount answers
  have hfree : (buf.drop 6).length = buf.length - 6 := List.length_drop
  obtain ⟨c', hend, hout⟩ := readLoop_eq hat (hfirst ▸ hfree ▸ hcall)
  rw [Nat.zero_add, List.nil_append] at hout
  have hlen : c'.buf.length = buf.length := by
    rw [hout]
    simp [length_render hcall hfree]
    omega
  refine ⟨c', ?_, hlen, hout⟩
  rw [heq, hend, result, if_pos rfl, hlen]

/-- What `read` makes of a buffer for AAC: no store leaves it, and it holds the frames, for every content it
had before, exactly when no frame comes after a retry and all sizes and the number of frames fit in 16
bits. -/
theorem aac_frames_iff (size : Nat) (firstread : Bool) (retryCount : Nat) (answers : List Answer)
    (hsize : 6 ≤ size) (hcall : OneCall (size - 6) firstread answers) :
    (∀ buf as, buf.length = size → readData true firstread retryCount buf as ≠ none) ∧
    ((∀ buf, buf.length = size → ∃ c,
        readData true firstread retryCount buf answers = some (.returns size c []) ∧
          c.buf.length = size ∧ parse c.buf = some (frames answers)) ↔
      (NoRetryBeforeFrame answers ∧ (∀ b ∈ frames answers, b.length < 2 ^ 16) ∧
        (frames answers).length < 2 ^ 16)) := by
  constructor
  · rintro buf as rfl
    obtain ⟨c, -, hat, heq⟩ := readData_at hsize firstread retryCount as
    rw [heq]
    exact readLoop_stays hat
  · constructor
    · intro h
      obtain ⟨c, hread, -, hparse⟩ := h (zeros size) (length_zeros size)
      have hlen : (zeros size).length = size := length_zeros size
      obtain ⟨c', hread', -, hout⟩ := readData_eq (hlen.symm ▸ hsize) (hlen.symm ▸ hcall) retryCount
      cases hread.symm.trans (hread'.trans (by rw [length_zeros]))
      rw [hout, parse_eq, zeros, List.drop_replicate] at hparse
      have hn := records_length hparse
      have hlt : (frames answers).length < 2 ^ 16 := by
        rw [hn]
        exact Nat.mod_lt _ (Nat.two_pow_pos 16)
      rw [Nat.mod_eq_of_lt hlt] at hparse
      obtain ⟨hretry, hframes⟩ := render_zeros hcall hparse
      exact ⟨hretry, hframes, hlt⟩
    · rintro ⟨hretry, hframes, hlt⟩ buf rfl
      obtain ⟨c, hread, hlen, hout⟩ := readData_eq hsize hcall retryCount
      refine ⟨c, hread, hlen, ?_⟩
      rw [hout, parse_eq, Nat.mod_eq_of_lt hlt]
      exact records_render hcall hretry hframes _

/-- Two frames and the end of the data. -/
theorem aac_frames_two :
    6 ≤ 20 ∧ OneCall (20 - 6) true [.data [1, 2, 3], .data [4], .data []] ∧
    ∀ buf, buf.length = 20 → ∃ c,
      readData true true 0 buf [.data [1, 2, 3], .data [4], .data []] = some (.returns 20 c []) ∧
        c.buf.length = 20 ∧ parse c.buf = some [[1, 2, 3], [4]] :=
  have hcall : OneCall (20 - 6) true [.data [1, 2, 3], .data [4], .data []] := by
    simp [OneCall]
  ⟨by decide, hcall,
    (aac_frames_iff 20 true 0 [.data [1, 2, 3], .data [4], .data []] (by decide) hcall).2.mpr
      ⟨by simp [NoRetryBeforeFrame, Answer.frame?], by decide, by decide⟩⟩

/-- After a retry the size of the frame is not where the records go on. -/
theorem aac_frame_after_retry :
    ¬ ∀ (size : Nat) (firstread : Bool) (retryCount : Nat) (answers : List Answer), 6 ≤ size →
      OneCall (size - 6) firstread answers → ∀ buf, buf.length = size → ∃ c,
        readData true firstread retryCount buf answers = some (.returns size c []) ∧
          c.buf.length = size ∧ parse c.buf = some (frames answers) := by
  intro hall
  obtain ⟨c, hread, -, hparse⟩ := hall 16 true 0 [.data [1, 2], .again, .data [3]] (by decide)
    (by simp [OneCall]) (zeros 16) rfl
  have heq : readData true true 0 (zeros 16) [.data [1, 2], .again, .data [3]] =
      some (.returns 16
        ⟨[0x4D, 0x4F, 0x43, 0x51, 2, 0, 2, 0, 1, 2, 0, 0, 1, 0, 3, 0], 15, 1, 3, true, 1⟩ []) := rfl
  cases hread.symm.trans heq
  exact absurd hparse (by decide)

end Twm.Audio.Capture
