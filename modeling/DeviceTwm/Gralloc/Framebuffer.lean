import Mathlib.Logic.Function.Basic
import DeviceTwm.Lib.Run

/-!
# Posting to the framebuffer

`fb_post` for framebuffer buffers and the display thread `disp_loop` of `framebuffer.cpp`. A step of
a thread is a critical section, a call of the kernel, or what it does between two of these. A thread
in `pthread_cond_wait` goes on when it has been signalled, or without a signal (`wakePoster`,
`wakeDisplay`).

`posted`, `panned` and `marked` count the buffers that were queued, given to `FBIOPUT_VSCREENINFO`, and
through a round of the display thread. When the call fails (`displayFails`) the round goes on, and the
buffer that was on screen stays there; `shown` is its number.
-/

namespace Twm.Gralloc.Framebuffer

def NUM_BUFFERS : Int := 2

/-- `qbuf_t`. -/
structure QBuf where
  buf : Nat
  idx : Nat
  deriving DecidableEq

/-- Where the thread in `fb_post` is; `b` is the buffer it posts. -/
inductive Post
  | idle
  /-- Before the test of `swapInterval`. -/
  | start (b : Nat)
  | lock (b : Nat)
  /-- Before `is_avail` of the new buffer is cleared. -/
  | clear (b : Nat)
  | push (b : Nat)
  /-- Before the test of `is_avail` of the current buffer. -/
  | test (b : Nat)
  /-- In `pthread_cond_wait`. -/
  | wait (b : Nat)
  | unlock (b : Nat)
  | finish (b : Nat)
  /-- The current buffer is reused: before it is unlocked, and before the new one is locked. -/
  | reuse (b : Nat)
  | relock (b : Nat)
  deriving DecidableEq

/-- Where the display thread is. -/
inductive Disp
  | top
  /-- In `pthread_cond_wait`. -/
  | wait
  /-- Before `FBIOPUT_VSCREENINFO`; `none` is the dummy of an empty queue. -/
  | pan (q : Option QBuf)
  /-- Before `is_avail` is set. -/
  | mark (q : QBuf)
  /-- It used the dummy: what it does is undefined. -/
  | wild
  deriving DecidableEq

/-- What shows outside. -/
inductive Event
  | lock (b : Nat)
  | unlock (b : Nat)
  | pan (b : Option Nat)
  deriving DecidableEq

structure Fb where
  swapInterval : Int
  currentBuffer : Option Nat
  currentIdx : Int
  avail : Nat → Bool
  queue : List QBuf
  post : Post
  disp : Disp
  /-- `cur_buf` of `disp_loop`. -/
  curBuf : Int
  /-- The thread in `pthread_cond_wait` has been signalled. -/
  postSignalled : Bool
  dispSignalled : Bool
  log : List Event
  posted : Nat
  panned : Nat
  marked : Nat
  /-- The number of the buffer on screen, counted from 1. -/
  shown : Nat
  /-- The last `FBIOPUT_VSCREENINFO` did not fail. -/
  panOk : Bool

namespace Fb

/-- After `mapFrameBufferLocked`. -/
def init (swapInterval : Int) : Fb where
  swapInterval := swapInterval
  currentBuffer := none
  currentIdx := -1
  avail := fun _ => true
  queue := []
  post := .idle
  disp := .top
  curBuf := -1
  postSignalled := false
  dispSignalled := false
  log := []
  posted := 0
  panned := 0
  marked := 0
  shown := 0
  panOk := true

variable (s : Fb)

def nxtIdx : Nat := ((s.currentIdx + 1) % NUM_BUFFERS).toNat

/-! ## `fb_post` -/

/-- `pthread_mutex_trylock` can fail: the display thread is about to set the same flag. -/
def contended (i : Nat) : Bool :=
  match s.disp with
  | .mark q => i == if s.curBuf = -1 then q.idx else s.curBuf.toNat
  | _ => false

/-- `reuse`; `busy` is whether the trylock fails. -/
def doReuse (busy : Bool) : Bool :=
  s.swapInterval == 0 && ((busy && s.contended s.nxtIdx) || !s.avail s.nxtIdx)

/-- The buffer is queued, and the display thread signalled. -/
def pushBuffer (b : Nat) : Fb :=
  { s with
    queue := s.queue ++ [⟨b, s.nxtIdx⟩]
    dispSignalled := s.dispSignalled || s.disp == .wait
    posted := s.posted + 1
    post := .test b }

/-- The test after `pthread_mutex_lock(&(m->avail[m->currentIdx].lock))`. -/
def testAvail (b : Nat) : Fb :=
  if s.currentBuffer = none then { s with post := .finish b }
  else if s.swapInterval = 0 ∨ s.avail s.currentIdx.toNat then { s with post := .unlock b }
  else { s with post := .wait b, postSignalled := false }

/-- After `pthread_cond_wait`. -/
def waited (b : Nat) : Fb :=
  { s with
    avail := Function.update s.avail s.currentIdx.toNat true
    postSignalled := false
    post := .unlock b }

/-- The unlock of the current buffer. -/
def unlockCurrent (p : Post) : Fb :=
  match s.currentBuffer with
  | none => { s with post := p }
  | some c => { s with log := s.log ++ [.unlock c], post := p }

/-- The next step of the thread in `fb_post`. -/
def poster (busy : Bool) : Option Fb :=
  match s.post with
  | .idle => none
  | .start b => some { s with post := if s.doReuse busy then .reuse b else .lock b }
  | .lock b => some { s with log := s.log ++ [.lock b], post := .clear b }
  | .clear b => some { s with avail := Function.update s.avail s.nxtIdx false, post := .push b }
  | .push b => some (s.pushBuffer b)
  | .test b => some (s.testAvail b)
  | .wait b => if s.postSignalled then some (s.waited b) else none
  | .unlock b => some (s.unlockCurrent (.finish b))
  | .finish b =>
    some { s with currentBuffer := some b, currentIdx := s.nxtIdx, post := .idle }
  | .reuse b => some (s.unlockCurrent (.relock b))
  | .relock b => some { s with log := s.log ++ [.lock b], currentBuffer := some b, post := .idle }

/-! ## `disp_loop` -/

/-- `getHeadValue` and `pop`. -/
def dequeue : Fb :=
  { s with queue := s.queue.tail, disp := .pan s.queue.head?, dispSignalled := false }

/-- `FBIOPUT_VSCREENINFO`; when it fails there is an error message and no more. -/
def panDisplay (q : Option QBuf) (ok : Bool) : Fb :=
  { s with
    log := s.log ++ [.pan (q.map QBuf.buf)]
    panned := s.panned + 1
    shown := if ok then s.panned + 1 else s.shown
    panOk := ok
    disp :=
      match q with
      | none => .wild
      | some q => .mark q }

/-- `is_avail` is set and its waiter signalled; at the first buffer it is that of the buffer
itself. -/
def markAvail (q : QBuf) : Fb :=
  let i := if s.curBuf = -1 then q.idx else s.curBuf.toNat
  { s with
    avail := Function.update s.avail i true
    postSignalled := s.postSignalled ||
      match s.post with
      | .wait _ => s.currentIdx.toNat == i
      | _ => false
    curBuf := q.idx
    marked := s.marked + 1
    disp := .top }

/-- The next step of the display thread. -/
def display : Option Fb :=
  match s.disp with
  | .top => some (if s.queue = [] then { s with disp := .wait, dispSignalled := false } else s.dequeue)
  | .wait => if s.dispSignalled then some s.dequeue else none
  | .pan q => some (s.panDisplay q true)
  | .mark q => some (s.markAvail q)
  | .wild => none

end Fb

inductive Label
  /-- A call of `fb_post`. -/
  | post (b : Nat)
  | poster (busy : Bool)
  | display
  /-- `FBIOPUT_VSCREENINFO` fails. -/
  | displayFails
  /-- `pthread_cond_wait` returns without a signal. -/
  | wakePoster
  | wakeDisplay
  | setSwapInterval (interval : Int)
  deriving DecidableEq

def step (s : Fb) : Label → Option Fb
  | .post b => if s.post = .idle then some { s with post := .start b } else none
  | .poster busy => s.poster busy
  | .display => s.display
  | .displayFails =>
    match s.disp with
    | .pan q => some (s.panDisplay q false)
    | _ => none
  | .wakePoster =>
    match s.post with
    | .wait b => some (s.waited b)
    | _ => none
  | .wakeDisplay => if s.disp = .wait then some s.dequeue else none
  | .setSwapInterval i =>
    if 0 ≤ i ∧ i ≤ 1 then some { s with swapInterval := i } else none

end Twm.Gralloc.Framebuffer
