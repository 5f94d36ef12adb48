import DeviceTwm.Fastboot.Download
import DeviceTwm.Fastboot.Main

/-!
# The queue on the device (`engine.c`, `protocol.c`)

`fb_execute_queue` goes through the queue of `main`: for every action it has one conversation with the
device, and it stops at the first action whose function does not return 0. `protocol.c` closes the
handle of the device when a conversation breaks off, and the function of the last action, a reboot,
returns 0 whatever happened.

* `Begun`: an action that was begun, with the device before it, and what its conversation came to.
* `Succeeded`: the device took what there was to take and answered `OKAY`, and its value passes.
* `Plan`: the shape of a queue: every command that flashes stands directly after the download of an
  image for that partition, and a reboot is the last action.
* `Plan.orderly`: on such a queue a closed handle is never used, and nothing is begun after an action
  that did not succeed.
-/

open Lib

namespace Twm.Fastboot.Main

open Protocol

/-- The conversation for an action: `fb_download_data`, `fb_command` or `fb_command_response`; `none`:
a call has not returned yet. -/
def exchange (w : Nat) (a : Queue.Action) (u : Usb) : Option (Response × Usb) :=
  match a.op with
  | .download data => commandSend w (download data.length) (some data) data.length u
  | .command | .query => fbCommand w a.cmd u
  | .notice => some (⟨0, none, false, []⟩, u)

def status (a : Queue.Action) (r : Response) : Int :=
  match a.op with
  | .download _ => if r.r < 0 then -1 else 0
  | _ => r.r

/-- `Action::func`, with the status and the text of the device. -/
def callback (f : Func) (status : Int) (resp : List UInt8) : Int :=
  match f with
  | .cbDefault | .cbDisplay => status
  | .cbRequire value => if status ≠ 0 then status else if cbCheck resp value false then 0 else -1
  | .cbReject value => if status ≠ 0 then status else if cbCheck resp value true then 0 else -1
  | .cbDoNothing => 0

/-- Whether the loop goes on after an action. -/
def proceeds (a : Queue.Action) (r : Response) : Bool :=
  match a.op with
  | .notice => true
  | .query => callback a.func (status a r) r.response = 0
  | _ => callback a.func (status a r) [] = 0

/-- An action that was begun. -/
structure Begun where
  action : Queue.Action
  before : Usb
  /-- What the conversation came to, if it has ended. -/
  result : Option (Response × Usb)

/-- `fb_execute_queue`: the actions that are begun; `none`: a handle is used that was closed. -/
def fbExecuteQueue (w : Nat) (closed : Bool) : Actions → Usb → Option (List Begun)
  | [], _ => some []
  | a :: as, u =>
    if closed ∧ a.op ≠ .notice then none
    else
      match exchange w a u with
      | none => some [⟨a, u, none⟩]
      | some (r, u') =>
        if proceeds a r then
          (fbExecuteQueue w (closed || r.closes) as u').map (⟨a, u, some (r, u')⟩ :: ·)
        else some [⟨a, u, some (r, u')⟩]

/-- The download sends the first bytes of the image: as many as `strtoul` makes of the number that the
device names, modulo `2 ^ 32`, and none after an `OKAY`. -/
def Delivers (w : Nat) (data : List UInt8) (u u' : Usb) : Prop :=
  ∃ n, Succeeds w n data u ∧
    u'.sent = u.sent ++ download data.length :: if n = 0 then [] else [data.take n]

/-- The value of the device passes the check of an action. -/
def Passes (f : Func) (text : List UInt8) : Prop :=
  match f with
  | .cbRequire value => matchValue text value = true
  | .cbReject value => matchValue text value = false
  | _ => True

/-- The command goes to the device, which answers `OKAY` and a value that passes. -/
def Acknowledged (a : Queue.Action) (u u' : Usb) : Prop :=
  u'.sent = u.sent ++ [a.cmd] ∧ ∃ s : Status, answers u.reads = some s :: answers u'.reads ∧
    s.answer = .okay ∧ (a.op = .query → Passes a.func s.text)

/-- What an action asks for was done. -/
def Succeeded (w : Nat) (b : Begun) : Prop :=
  ∃ r u', b.result = some (r, u') ∧
    match b.action.op with
    | .download data => Delivers w data b.before u'
    | .notice => u' = b.before
    | _ => Acknowledged b.action b.before u'

/-- The loop goes on after this action only if it succeeded. -/
def Checked (a : Queue.Action) : Prop :=
  a.func = .cbDefault ∨ a.op = .query ∧ a.func ≠ .cbDoNothing

/-- The text of a command that neither writes a partition nor reboots. -/
def Plain (cmd : List UInt8) : Prop := ¬ str "flash:" <+: cmd ∧ cmd ≠ str "reboot"

/-- A queue that flashes images of which `N` holds. -/
inductive Plan (N : Word → List UInt8 → Prop) : Actions → Prop
  | nil : Plan N []
  /-- A reboot, at the end. -/
  | reboot (a : Queue.Action) (cmd : a.cmd = str "reboot") (op : a.op = .command) : Plan N [a]
  | other (a : Queue.Action) (func : Checked a) (cmd : Plain a.cmd)
      {as : Actions} (rest : Plan N as) : Plan N (a :: as)
  | flash (d c : Queue.Action) (data : List UInt8) (ptn : Word) (download : d.op = .download data)
      (dcmd : d.cmd = []) (dfunc : d.func = .cbDefault) (op : c.op = .command)
      (cmd : c.cmd = str "flash:" ++ ptn) (func : c.func = .cbDefault) (image : N ptn data)
      {as : Actions} (rest : Plan N as) : Plan N (d :: c :: as)

/-- A run of a queue on a device. -/
structure InOrder (w : Nat) (q : Actions) (u : Usb) (run : List Begun) : Prop where
  /-- Actions are begun in the order of the queue, from its start. -/
  order : run.map Begun.action <+: q
  /-- Each finds the device as the one before it left it. -/
  start : ∀ b ∈ run.head?, b.before = u
  chain : run.IsChain fun b c => ∃ r, b.result = some (r, c.before)
  /-- Nothing is begun after an action that did not succeed. -/
  stops : ∀ b ∈ run.dropLast, Succeeded w b
  /-- And the queue comes to its end if all succeed. -/
  ends : (∀ b ∈ run, Succeeded w b) → run.map Begun.action = q

/-- A partition is written directly after the download of an image for it. -/
def FlashesImages (N : Word → List UInt8 → Prop) (run : List Begun) : Prop :=
  ∀ pre b post, run = pre ++ b :: post → str "flash:" <+: b.action.cmd →
    ∃ front d data ptn, pre = front ++ [d] ∧ d.action.op = .download data ∧ N ptn data ∧
      b.action.cmd = str "flash:" ++ ptn

/-- The device is rebooted after everything else was done. -/
def RebootsLast (w : Nat) (q : Actions) (run : List Begun) : Prop :=
  ∀ b ∈ run, b.action.cmd = str "reboot" →
    run.map Begun.action = q ∧ ∀ c ∈ run.dropLast, Succeeded w c

/-! ## One conversation -/

variable {w size : Nat} {dataOkay : Bool} {r : Response} {u u' : Usb} {a : Queue.Action}

/-- A call takes the `INFO` lines, and its result comes from the answer after them. -/
theorem checkResponse_turn {reads reads' : List (Option Status)}
    (h : checkResponse w size dataOkay reads = some (r, reads')) :
    ∃ s, answers reads = s :: answers reads' ∧ isInfo s = false ∧
      checkStatus w size dataOkay s = .returns r := by
  induction reads with
  | nil => cases h
  | cons s reads ih =>
    unfold checkResponse at h
    cases hi : isInfo s with
    | true =>
      rw [checkStatus_info hi] at h
      obtain ⟨s', hs', hr⟩ := ih h
      refine ⟨s', ?_, hr⟩
      rw [answers, List.filter_cons_of_neg (by simp [hi])]
      exact hs'
    | false =>
      obtain ⟨r', hr', -⟩ := checkStatus_answer w size dataOkay hi
      rw [hr'] at h
      cases h
      refine ⟨s, ?_, hi, hr'⟩
      rw [answers, List.filter_cons_of_pos (by simp [hi])]
      rfl

theorem respond_turn (h : respond w size dataOkay u = some (r, u')) :
    ∃ s, answers u.reads = s :: answers u'.reads ∧ isInfo s = false ∧
      checkStatus w size dataOkay s = .returns r ∧ u'.sent = u.sent := by
  obtain ⟨⟨r', reads'⟩, hc, heq⟩ := Option.map_eq_some_iff.mp h
  cases heq
  obtain ⟨s, hs, hi, hr⟩ := checkResponse_turn hc
  exact ⟨s, hs, hi, hr, rfl⟩

/-- When the handle is closed, -1 is returned. -/
theorem checkStatus_closes {s : Option Status} (h : checkStatus w size dataOkay s = .returns r)
    (hc : r.closes = true) : r.r = -1 := by
  have hfail {e : Error} (he : Turn.returns (.fail e) = .returns r) : r.r = -1 := by
    cases he
    rfl
  cases s with
  | none => exact hfail h
  | some s =>
    rw [checkStatus] at h
    split at h
    · exact hfail h
    split at h
    · cases h
    split at h
    · cases h
      cases hc
    split at h
    · cases h
      rfl
    split at h
    · dsimp only at h
      split at h
      · exact hfail h
      · rw [← Turn.returns.inj h] at hc
        exact absurd hc Bool.false_ne_true
    · exact hfail h

/-- An `OKAY`, with its text. -/
theorem checkStatus_okay {s : Status} (h : s.answer = .okay) :
    checkStatus w size dataOkay (some s) = .returns ⟨0, none, false, s.text⟩ := by
  have ho : s.bytes.take 4 = str "OKAY" := by
    by_contra hno
    rw [Status.answer, if_neg hno] at h
    split at h <;> cases h
  have hi : ¬ s.bytes.take 4 = str "INFO" := by
    rw [ho]
    decide
  have hlen : ¬ s.bytes.length < 4 := not_short (c := str "OKAY") rfl ho
  rw [checkStatus, if_neg hlen, if_neg hi, if_pos ho]

theorem respond_closes (h : respond w size dataOkay u = some (r, u')) (hc : r.closes = true) :
    r.r = -1 := by
  obtain ⟨s, -, -, hr, -⟩ := respond_turn h
  exact checkStatus_closes hr hc

theorem sendAck_closes (h : sendAck w size u = some (r, u')) (hc : r.closes = true) : r.r = -1 := by
  obtain ⟨⟨r₁, u₁⟩, hr, h⟩ := Option.bind_eq_some_iff.mp h
  cases h
  have hneg : r₁.r = -1 := respond_closes hr hc
  dsimp only
  rw [if_pos (by omega)]

theorem sendData_closes {data : List UInt8} (h : sendData w data size u = some (r, u'))
    (hc : r.closes = true) : r.r = -1 := by
  rw [sendData] at h
  split at h
  · exact sendAck_closes h hc
  · obtain ⟨⟨v, u₁⟩, -, h⟩ := Option.bind_eq_some_iff.mp h
    dsimp only at h
    split at h
    · cases h
      rfl
    split at h
    · cases h
      rfl
    · exact sendAck_closes h hc

/-- A conversation that closes the handle returns -1. -/
theorem commandSend_closes {cmd : List UInt8} {data : Option (List UInt8)}
    (h : commandSend w cmd data size u = some (r, u')) (hc : r.closes = true) : r.r = -1 := by
  rw [commandSend] at h
  split at h
  · cases h
    rfl
  obtain ⟨⟨v, u₁⟩, -, h⟩ := Option.bind_eq_some_iff.mp h
  dsimp only at h
  split at h
  · cases h
    rfl
  cases data with
  | none => exact respond_closes h hc
  | some data =>
    obtain ⟨⟨r₁, u₂⟩, -, h⟩ := Option.bind_eq_some_iff.mp h
    dsimp only at h
    split at h
    · cases h
      rfl
    · exact sendData_closes h hc

theorem exchange_closes (h : exchange w a u = some (r, u')) (hc : r.closes = true) : r.r = -1 := by
  unfold exchange at h
  split at h
  · exact commandSend_closes h hc
  · exact commandSend_closes h hc
  · exact commandSend_closes h hc
  · cases h
    cases hc

/-- A command: the device gets it and answers `OKAY`, or -1 is returned. -/
theorem fbCommand_cases {cmd : List UInt8} (hlen : cmd.length < Fastboot.cmdSize)
    (h : fbCommand w cmd u = some (r, u')) :
    (r.r = 0 ∧ u'.sent = u.sent ++ [cmd] ∧ ∃ s : Status,
        answers u.reads = some s :: answers u'.reads ∧ s.answer = .okay ∧ r.response = s.text) ∨
      r.r = -1 ∧ ¬ ∃ s : Status, answers u.reads = some s :: answers u'.reads ∧ s.answer = .okay ∧
        u'.sent = u.sent ++ [cmd] := by
  rw [fbCommand, commandSend, if_neg (by rw [Fastboot.cmdSize] at hlen; omega)] at h
  obtain ⟨⟨v, u₁⟩, hw, h⟩ := Option.bind_eq_some_iff.mp h
  obtain ⟨hwrites, hreads, hsent⟩ := usbWrite_cases hw
  dsimp only at h
  by_cases hv : v = cmd.length
  · rw [if_neg (not_not_intro hv)] at h
    rw [if_pos hv] at hsent
    obtain ⟨s, hs, hi, hr, hsent'⟩ := respond_turn h
    rw [hreads] at hs
    by_cases hok : answer s = .okay
    · cases s with
      | none => cases hok
      | some s =>
        rw [checkStatus_okay hok] at hr
        cases hr
        exact .inl ⟨rfl, hsent'.trans hsent, s, hs, hok, rfl⟩
    · obtain ⟨r', hr', hres⟩ := checkStatus_answer w 0 false hi
      cases hr.symm.trans hr'
      refine .inr ⟨?_, ?_⟩
      · rw [hres]
        cases ha : answer s with
        | okay => exact absurd ha hok
        | data n => rfl
        | other => rfl
      · rintro ⟨s', hs', hok', -⟩
        cases hs.symm.trans hs'
        exact hok hok'
  · rw [if_pos hv] at h
    cases h
    refine .inr ⟨rfl, ?_⟩
    rintro ⟨s, hs, -⟩
    rw [hreads] at hs
    exact absurd (congrArg List.length hs) (Nat.ne_of_lt (Nat.lt_succ_self _))

theorem callback_of_ne {f : Func} {n : Int} (text : List UInt8) (hf : f ≠ .cbDoNothing) (hn : n ≠ 0) :
    callback f n text ≠ 0 := by
  cases f with
  | cbDefault => exact hn
  | cbRequire value => rwa [callback, if_pos hn]
  | cbReject value => rwa [callback, if_pos hn]
  | cbDisplay => exact hn
  | cbDoNothing => exact absurd rfl hf

theorem callback_zero {f : Func} {text : List UInt8} : callback f 0 text = 0 ↔ Passes f text := by
  cases f with
  | cbRequire value =>
    rw [callback, if_neg (not_not_intro rfl), cbCheck, Passes]
    cases matchValue text value <;> decide
  | cbReject value =>
    rw [callback, if_neg (not_not_intro rfl), cbCheck, Passes]
    cases matchValue text value <;> decide
  | cbDefault => exact iff_of_true rfl trivial
  | cbDisplay => exact iff_of_true rfl trivial
  | cbDoNothing => exact iff_of_true rfl trivial

theorem Checked.ne (h : Checked a) : a.func ≠ .cbDoNothing := by
  rcases h with h | h
  · rw [h]
    nofun
  · exact h.2

theorem Checked.func_eq (h : Checked a) (hop : a.op ≠ .query) : a.func = .cbDefault :=
  h.resolve_right fun hq => hop hq.1

theorem succeeded_download {data : List UInt8} (hop : a.op = .download data) :
    Succeeded w ⟨a, u, some (r, u')⟩ ↔ Delivers w data u u' := by
  constructor
  · rintro ⟨r', u₁, hr, h⟩
    cases hr
    simpa only [hop] using h
  · exact fun h => ⟨r, u', rfl, by simpa only [hop] using h⟩

theorem succeeded_command (hop : a.op = .command ∨ a.op = .query) :
    Succeeded w ⟨a, u, some (r, u')⟩ ↔ Acknowledged a u u' := by
  constructor
  · rintro ⟨r', u₁, hr, h⟩
    cases hr
    rcases hop with hop | hop <;> simpa only [hop] using h
  · refine fun h => ⟨r, u', rfl, ?_⟩
    rcases hop with hop | hop <;> simpa only [hop] using h

/-- A conversation about a command, by what it returns. -/
theorem acknowledged_iff (hop : a.op = .command ∨ a.op = .query) (h : exchange w a u = some (r, u')) :
    Acknowledged a u u' ↔ r.r = 0 ∧ (a.op = .query → Passes a.func r.response) := by
  have h : fbCommand w a.cmd u = some (r, u') := by
    unfold exchange at h
    rcases hop with hop | hop <;> simpa only [hop] using h
  rcases fbCommand_cases a.fits h with ⟨hr, hsent, s, hs, hok, htext⟩ | ⟨hr, hno⟩
  · constructor
    · rintro ⟨-, s', hs', -, hpass⟩
      cases hs.symm.trans hs'
      exact ⟨hr, by rwa [htext]⟩
    · rintro ⟨-, hpass⟩
      exact ⟨hsent, s, hs, hok, by rwa [← htext]⟩
  · constructor
    · rintro ⟨hsent, s, hs, hok, -⟩
      exact absurd ⟨s, hs, hok, hsent⟩ hno
    · rintro ⟨h0, -⟩
      exact absurd (hr.symm.trans h0) (by decide)

/-- The loop goes on exactly after what succeeded. -/
theorem proceeds_iff (hf : Checked a) (h : exchange w a u = some (r, u')) :
    proceeds a r = true ↔ Succeeded w ⟨a, u, some (r, u')⟩ := by
  cases hop : a.op with
  | download data =>
    have hf := hf.func_eq (by rw [hop]; nofun)
    rw [succeeded_download hop]
    unfold exchange at h
    simp only [hop] at h
    unfold proceeds status
    simp only [hop, hf, callback, decide_eq_true_eq]
    rcases commandSend_cases h with ⟨n, hn, hS, hsent⟩ | ⟨hn, hS⟩
    · rw [hn, if_neg (by omega)]
      exact iff_of_true rfl ⟨n, hS, hsent⟩
    · rw [hn, if_pos (by decide)]
      exact iff_of_false (by decide) fun ⟨n, hS', _⟩ => hS n hS'
  | command =>
    rw [succeeded_command (.inl hop), acknowledged_iff (.inl hop) h]
    unfold proceeds status
    simp only [hop, hf.func_eq (by rw [hop]; nofun), callback, decide_eq_true_eq, reduceCtorEq,
      false_imp_iff, and_true]
  | query =>
    rw [succeeded_command (.inr hop), acknowledged_iff (.inr hop) h]
    unfold proceeds status
    simp only [hop, decide_eq_true_eq, true_imp_iff]
    by_cases h0 : r.r = 0
    · rw [h0, callback_zero, and_iff_right rfl]
    · exact iff_of_false (callback_of_ne _ hf.ne h0) fun hr => h0 hr.1
  | notice =>
    unfold exchange at h
    simp only [hop] at h
    cases h
    refine iff_of_true ?_ ⟨_, _, rfl, ?_⟩
    · unfold proceeds
      simp only [hop]
    · simp only [hop]

/-- And then the handle is open. -/
theorem proceeds_open (hf : Checked a) (h : exchange w a u = some (r, u'))
    (hp : proceeds a r = true) : r.closes = false := by
  by_contra hc
  have hneg := exchange_closes h (Bool.not_eq_false _ ▸ hc)
  unfold proceeds status at hp
  cases hop : a.op with
  | download data =>
    simp only [hop, hneg, decide_eq_true_eq] at hp
    exact callback_of_ne _ hf.ne (by decide) hp
  | command =>
    simp only [hop, hneg, decide_eq_true_eq] at hp
    exact callback_of_ne _ hf.ne (by decide) hp
  | query =>
    simp only [hop, hneg, decide_eq_true_eq] at hp
    exact callback_of_ne _ hf.ne (by decide) hp
  | notice =>
    unfold exchange at h
    simp only [hop] at h
    cases h
    exact hc rfl

theorem fbExecuteQueue_step (hf : Checked a) (as : Actions) (u : Usb) :
    (∃ b, fbExecuteQueue w false (a :: as) u = some [b] ∧ b.action = a ∧ b.before = u ∧
        ¬ Succeeded w b) ∨
      ∃ r u', Succeeded w ⟨a, u, some (r, u')⟩ ∧ fbExecuteQueue w false (a :: as) u =
        (fbExecuteQueue w false as u').map (⟨a, u, some (r, u')⟩ :: ·) := by
  rw [fbExecuteQueue, if_neg (fun h => absurd h.1 Bool.false_ne_true)]
  cases h : exchange w a u with
  | none =>
    refine .inl ⟨_, rfl, rfl, rfl, ?_⟩
    rintro ⟨r, u', hr, -⟩
    cases hr
  | some p =>
    obtain ⟨r, u'⟩ := p
    dsimp only
    by_cases hp : proceeds a r = true
    · rw [if_pos hp, proceeds_open hf h hp]
      exact .inr ⟨r, u', (proceeds_iff hf h).mp hp, rfl⟩
    · rw [if_neg hp]
      exact .inl ⟨_, rfl, rfl, rfl, fun hs => hp ((proceeds_iff hf h).mpr hs)⟩

/-! ## Runs -/

variable {q as : Actions} {run : List Begun} {b d : Begun} {N : Word → List UInt8 → Prop}

theorem InOrder.nil : InOrder w [] u [] where
  order := List.prefix_rfl
  start b hb := absurd hb (Option.not_mem_none b)
  chain := .nil
  stops _ hb := absurd hb List.not_mem_nil
  ends _ := rfl

/-- The last action that is begun. -/
theorem InOrder.last (ha : b.action = a) (hu : b.before = u) (h : ¬ Succeeded w b ∨ as = []) :
    InOrder w (a :: as) u [b] where
  order := by rw [List.map_singleton, ha]; exact ⟨as, rfl⟩
  start c hc := by cases hc; exact hu
  chain := .singleton b
  stops _ hb := absurd hb List.not_mem_nil
  ends hall := by
    rcases h with h | rfl
    · exact absurd (hall b List.mem_cons_self) h
    · rw [List.map_singleton, ha]

theorem InOrder.cons (hs : Succeeded w ⟨a, u, some (r, u')⟩) (hr : InOrder w as u' run) :
    InOrder w (a :: as) u (⟨a, u, some (r, u')⟩ :: run) where
  order := List.prefix_cons_inj a |>.mpr hr.order
  start c hc := by cases hc; rfl
  chain := List.isChain_cons.mpr ⟨fun c hc => ⟨r, by rw [hr.start c hc]⟩, hr.chain⟩
  stops c hc := by
    cases run with
    | nil => cases hc
    | cons b run =>
      rcases List.mem_cons.mp hc with rfl | hc
      · exact hs
      · exact hr.stops c hc
  ends hall := by
    rw [List.map_cons, hr.ends fun c hc => hall c (List.mem_cons_of_mem _ hc)]

theorem FlashesImages.cons (hb : ¬ str "flash:" <+: b.action.cmd) (hr : FlashesImages N run) :
    FlashesImages N (b :: run) := by
  intro pre c post heq hc
  cases pre with
  | nil =>
    cases heq
    exact absurd hc hb
  | cons x pre =>
    obtain ⟨rfl, hrest⟩ := List.cons.inj heq
    obtain ⟨front, d, data, ptn, rfl, h⟩ := hr pre c post hrest hc
    exact ⟨b :: front, d, data, ptn, rfl, h⟩

/-- A download and the command after it. -/
theorem FlashesImages.pair {data : List UInt8} {ptn : Word} (hd : d.action.op = .download data)
    (hcmd : d.action.cmd = []) (hb : b.action.cmd = str "flash:" ++ ptn) (hN : N ptn data)
    (hr : FlashesImages N run) : FlashesImages N (d :: b :: run) := by
  intro pre c post heq hc
  rcases pre with _ | ⟨x, _ | ⟨y, pre⟩⟩
  · cases heq
    rw [hcmd] at hc
    exact absurd hc (by decide)
  · cases heq
    exact ⟨[], d, data, ptn, rfl, hd, hN, hb⟩
  · obtain ⟨rfl, htail⟩ := List.cons.inj heq
    obtain ⟨rfl, hrest⟩ := List.cons.inj htail
    obtain ⟨front, d', data', ptn', rfl, h⟩ := hr pre c post hrest hc
    exact ⟨d :: b :: front, d', data', ptn', rfl, h⟩

theorem FlashesImages.nil : FlashesImages N [] := by
  intro pre b post h
  cases pre <;> cases h

theorem RebootsLast.nil : RebootsLast w q [] := fun _ hb => absurd hb List.not_mem_nil

theorem RebootsLast.cons (hb : b.action.cmd ≠ str "reboot") (hs : Succeeded w b)
    (hr : RebootsLast w q run) : RebootsLast w (b.action :: q) (b :: run) := by
  intro c hc hcmd
  rcases List.mem_cons.mp hc with rfl | hc
  · exact absurd hcmd hb
  obtain ⟨hmap, hall⟩ := hr c hc hcmd
  refine ⟨congrArg (b.action :: ·) hmap, fun x hx => ?_⟩
  rw [List.dropLast_cons_of_ne_nil (List.ne_nil_of_mem hc)] at hx
  rcases List.mem_cons.mp hx with rfl | hx
  · exact hs
  · exact hall x hx

theorem RebootsLast.single (hb : b.action.cmd ≠ str "reboot") : RebootsLast w q [b] := by
  intro c hc hcmd
  cases List.mem_singleton.mp hc
  exact absurd hcmd hb

/-- **On such a queue** a closed handle is never used, nothing is begun after an action that did not
succeed, what is written to a partition is an image for it, and a reboot comes after all else. -/
theorem Plan.orderly (hp : Plan N q) (w : Nat) (u : Usb) :
    ∃ run, fbExecuteQueue w false q u = some run ∧ InOrder w q u run ∧ FlashesImages N run ∧
      RebootsLast w q run := by
  induction hp generalizing u with
  | nil => exact ⟨[], rfl, .nil, .nil, .nil⟩
  | reboot a hcmd hop =>
    have hno : ¬ str "flash:" <+: a.cmd := by
      rw [hcmd]
      decide
    rw [fbExecuteQueue, if_neg (fun h => absurd h.1 Bool.false_ne_true)]
    have hrun (b : Begun) (hb : b.action = a) : RebootsLast w [a] [b] :=
      fun _ _ _ => ⟨by rw [List.map_singleton, hb], fun _ hc => absurd hc List.not_mem_nil⟩
    cases exchange w a u with
    | none => exact ⟨_, rfl, .last rfl rfl (.inr rfl), .cons hno .nil, hrun _ rfl⟩
    | some p =>
      obtain ⟨r, u'⟩ := p
      refine ⟨[⟨a, u, some (r, u')⟩], ?_, .last rfl rfl (.inr rfl), .cons hno .nil, hrun _ rfl⟩
      dsimp only
      split <;> rfl
  | other a hf hcmd _ ih =>
    rcases fbExecuteQueue_step hf _ u with ⟨b, he, rfl, hb, hs⟩ | ⟨r, u', hs, he⟩
    · exact ⟨[b], he, .last rfl hb (.inl hs), .cons hcmd.1 .nil, .single hcmd.2⟩
    · obtain ⟨run, hrun, ho, hflash, hlast⟩ := ih u'
      rw [hrun] at he
      exact ⟨_, he, .cons hs ho, .cons hcmd.1 hflash, .cons hcmd.2 hs hlast⟩
  | flash d c data ptn hd hdcmd hdf hop hcmd hf hN _ ih =>
    have hno : ¬ str "flash:" <+: d.cmd := by
      rw [hdcmd]
      decide
    have hdne : d.cmd ≠ str "reboot" := by
      rw [hdcmd]
      decide
    have hcne : c.cmd ≠ str "reboot" := by
      rw [hcmd]
      exact fun h => absurd (List.cons.inj h).1 (by decide)
    rcases fbExecuteQueue_step (.inl hdf) _ u with ⟨b, he, rfl, hb, hs⟩ | ⟨r, u₁, hs, he⟩
    · exact ⟨[b], he, .last rfl hb (.inl hs), .cons hno .nil, .single hdne⟩
    rcases fbExecuteQueue_step (.inl hf) _ u₁ with ⟨b, he', rfl, hb, hs'⟩ | ⟨r', u', hs', he'⟩
    · rw [he'] at he
      exact ⟨_, he, .cons hs (.last rfl hb (.inl hs')), .pair hd hdcmd hcmd hN .nil,
        .cons hdne hs (.single hcne)⟩
    · obtain ⟨run, hrun, ho, hflash, hlast⟩ := ih u'
      rw [he', hrun] at he
      exact ⟨_, he, .cons hs (.cons hs' ho), .pair hd hdcmd hcmd hN hflash,
        .cons hdne hs (.cons hcne hs' hlast)⟩

end Twm.Fastboot.Main
