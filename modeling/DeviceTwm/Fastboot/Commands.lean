import DeviceTwm.Lib.Sprintf
import DeviceTwm.Fastboot.Engine

/-!
# The texts of queued commands (`engine.c`, `fastboot.c`)

A request of the command line or of `android-info.txt` becomes a few actions. `queue_action` prints the
command of an action into 64 bytes, from a format and what the user gave. For `oem` the words of the
user, joined in 256 bytes, are the format.

* `Action`: with its text, which fits.
* `Request`: what can be asked with a text of the user; `Request.queue` is what the code makes of it.
* `exact_iff`: the queue holds what was asked if and only if every text fits, and no `%` is in a text
  for `oem`. Nothing else is refused: a text that does not fit is written past the end.
-/

open Lib

namespace Twm.Fastboot.Queue

open Twm.Adb (cstr)

/-! ## Actions -/

structure Action where
  op : Op
  cmd : List UInt8
  fits : cmd.length < cmdSize
  msg : Option (List UInt8)
  func : Func

/-- `mkmsg`. -/
def mkmsg (fmt : List UInt8) (args : List Arg) : Except Fault (List UInt8) := sprintf 256 fmt args

/-- The end of `queue_action`, when the text is printed. -/
def Action.new (op : Op) (cmd : List UInt8) : Except Fault Action :=
  if h : cmd.length < cmdSize then .ok ⟨op, cmd, h, none, .cbDefault⟩ else .error .overflow

def queueAction (op : Op) (fmt : List UInt8) (args : List Arg) : Except Fault Action :=
  vsprintf fmt args >>= Action.new op

def fbQueueErase (ptn : List UInt8) : Except Fault (List Action) := do
  let a ← queueAction .command (str "erase:%s") [.str ptn]
  let msg ← mkmsg (str "erasing '%s'") [.str ptn]
  .ok [{ a with msg := some msg }]

/-- `sz` is an `unsigned`. -/
def fbQueueFlash (ptn data : List UInt8) : Except Fault (List Action) := do
  let sz := data.length % 2 ^ 32
  let a ← queueAction (.download data) (str "") []
  let msg ← mkmsg (str "sending '%s' (%d KB)") [.str ptn, .int (sz / 1024 : Nat)]
  let b ← queueAction .command (str "flash:%s") [.str ptn]
  let msg' ← mkmsg (str "writing '%s'") [.str ptn]
  .ok [{ a with msg := some msg }, { b with msg := some msg' }]

def fbQueueRequire (var : List UInt8) (invert : Bool) (value : List (List UInt8)) :
    Except Fault Action := do
  let a ← queueAction .query (str "getvar:%s") [.str var]
  let msg ← mkmsg (str "checking %s") [.str var]
  .ok { a with msg := some msg, func := if invert then .cbReject value else .cbRequire value }

def fbQueueDisplay (var : List UInt8) : Except Fault (List Action) := do
  let a ← queueAction .query (str "getvar:%s") [.str var]
  .ok [{ a with func := .cbDisplay }]

def fbQueueCommand (cmd msg : List UInt8) : Except Fault (List Action) := do
  let a ← queueAction .command cmd []
  .ok [{ a with msg := some msg }]

/-- The loop of `do_oem_command`; `command` has 256 bytes. -/
def oemLoop (command : List UInt8) : List (List UInt8) → Except Fault (List UInt8)
  | [] => .ok command
  | [arg] => strcat 256 command arg
  | arg :: argv => do
    let command ← strcat 256 command arg
    let command ← strcat 256 command (str " ")
    oemLoop command argv

/-- `argv` begins with `oem`. -/
def doOemCommand (argv : List (List UInt8)) : Except Fault (List Action) :=
  if argv.length ≤ 1 then .ok []
  else do
    let command ← oemLoop [] argv
    fbQueueCommand command (str "")

/-! ## Requests -/

inductive Request
  | erase (ptn : List UInt8)
  | flash (ptn data : List UInt8)
  | getvar (var : List UInt8)
  /-- The words after `oem`. -/
  | oem (args : List (List UInt8))
  /-- A line of `android-info.txt`. -/
  | requirement (line : List UInt8)

/-- What is queued for a request. -/
def Request.queue : Request → Except Fault (List Action)
  | erase ptn => fbQueueErase ptn
  | flash ptn data => fbQueueFlash ptn data
  | getvar var => fbQueueDisplay var
  | oem args => doOemCommand (str "oem" :: args)
  | requirement line =>
    match setupRequirementLine line with
    | none => .ok []
    | some q => do .ok [← fbQueueRequire q.name q.invert q.value]

/-- The requests one after the other. -/
def queueAll : List Request → Except Fault (List Action)
  | [] => .ok []
  | r :: rs => do
    let as ← r.queue
    .ok (as ++ (← queueAll rs))

/-- The words of an `oem` command, with a blank between any two. -/
def joined (args : List (List UInt8)) : List UInt8 := [32].intercalate (str "oem" :: args)

/-- The texts that were asked for. An `oem` without words asks for nothing, and so does a line without
`=`. -/
def Request.intended : Request → List (List UInt8)
  | erase ptn => [str "erase:" ++ ptn]
  | flash ptn _ => [[], str "flash:" ++ ptn]
  | getvar var => [str "getvar:" ++ var]
  | oem args => if args = [] then [] else [joined args]
  | requirement line => ((setupRequirementLine line).map fun q => str "getvar:" ++ q.name).toList

/-- The text fits, with the zero after it, and is no format. -/
def Request.Fits : Request → Prop
  | erase ptn => (str "erase:" ++ ptn).length < cmdSize
  | flash ptn _ => (str "flash:" ++ ptn).length < cmdSize
  | getvar var => (str "getvar:" ++ var).length < cmdSize
  | oem args => args ≠ [] → (joined args).length < cmdSize ∧ 37 ∉ joined args
  | requirement line => ∀ q ∈ setupRequirementLine line, (str "getvar:" ++ q.name).length < cmdSize

/-- What is in the queue is what was asked for. -/
def Exact (rs : List Request) : Prop :=
  ∃ queue, queueAll rs = .ok queue ∧ queue.map (·.cmd) = rs.flatMap Request.intended

/-! ## Texts -/

variable {op : Op} {fmt pre post s var ptn data : List UInt8} {value : List (List UInt8)}
  {invert : Bool} {q : List Action}

theorem vsprintf_prefix (hfmt : fmt = pre ++ [37, 115]) (h : 37 ∉ pre) :
    vsprintf fmt [.str s] = .ok (pre ++ s) := by
  rw [hfmt, vsprintf_append h, vsprintf_str, vsprintf_plain List.not_mem_nil]
  change Except.ok (pre ++ (s ++ [])) = _
  rw [List.append_nil]

theorem queueAction_of_lt (hfmt : fmt = pre ++ [37, 115]) (h : 37 ∉ pre)
    (hlt : (pre ++ s).length < cmdSize) :
    queueAction op fmt [.str s] = .ok ⟨op, pre ++ s, hlt, none, .cbDefault⟩ := by
  rw [queueAction, vsprintf_prefix hfmt h]
  exact dif_pos hlt

/-- A text that does not fit is written past the end. -/
theorem queueAction_of_not_lt (hfmt : fmt = pre ++ [37, 115]) (h : 37 ∉ pre)
    (hlt : ¬ (pre ++ s).length < cmdSize) : queueAction op fmt [.str s] = .error .overflow := by
  rw [queueAction, vsprintf_prefix hfmt h]
  exact dif_neg hlt

/-- The message of an action whose text fits. -/
theorem mkmsg_of_lt (hs : s.length < 58) (hfmt : fmt = pre ++ (37 :: 115 :: post)) (h : 37 ∉ pre)
    (h' : 37 ∉ post) (hlen : pre.length + post.length ≤ 198) :
    mkmsg fmt [.str s] = .ok (pre ++ (s ++ post)) := by
  rw [mkmsg, sprintf, hfmt, vsprintf_append h, vsprintf_str, vsprintf_plain h']
  refine store_of_lt ?_
  rw [List.length_append, List.length_append]
  omega

/-! ## Requests with a name -/

theorem erase_format : str "erase:%s" = str "erase:" ++ [37, 115] := by decide

theorem flash_format : str "flash:%s" = str "flash:" ++ [37, 115] := by decide

theorem getvar_format : str "getvar:%s" = str "getvar:" ++ [37, 115] := by decide

theorem length_prefix (hp : pre.length = 6 ∨ pre.length = 7) (h : (pre ++ s).length < cmdSize) :
    s.length < 58 := by
  rw [List.length_append, cmdSize] at h
  omega

theorem fbQueueErase_of_lt (h : (str "erase:" ++ ptn).length < cmdSize) :
    ∃ a, fbQueueErase ptn = .ok [a] ∧ a.cmd = str "erase:" ++ ptn := by
  have hlen : ptn.length < 58 := length_prefix (.inl rfl) h
  have hmsg := mkmsg_of_lt hlen
    (show str "erasing '%s'" = str "erasing '" ++ (37 :: 115 :: str "'") by decide) (by decide)
    (by decide) (by decide)
  rw [fbQueueErase, queueAction_of_lt erase_format (by decide) h, hmsg]
  exact ⟨_, rfl, rfl⟩

theorem fbQueueErase_of_not_lt (h : ¬ (str "erase:" ++ ptn).length < cmdSize) :
    fbQueueErase ptn = .error .overflow := by
  rw [fbQueueErase, queueAction_of_not_lt erase_format (by decide) h]
  rfl

theorem sending_of_lt (h : ptn.length < 58) (n : Nat) (hn : n < 2 ^ 32) :
    ∃ msg, mkmsg (str "sending '%s' (%d KB)") [.str ptn, .int (n / 1024 : Nat)] = .ok msg := by
  have hfmt : str "sending '%s' (%d KB)" =
      str "sending '" ++ (37 :: 115 :: (str "' (" ++ (37 :: 100 :: str " KB)"))) := by decide
  have hd := length_decimalText_le (m := n / 1024) (k := 7) (by decide) (by omega)
  refine ⟨str "sending '" ++ (ptn ++ (str "' (" ++ (decimalText (n / 1024 : Nat) ++ str " KB)"))),
    ?_⟩
  rw [mkmsg, sprintf, hfmt, vsprintf_append (by decide), vsprintf_str, vsprintf_append (by decide),
    vsprintf_int, vsprintf_plain (by decide)]
  refine store_of_lt ?_
  simp only [List.length_append]
  rw [show (str "sending '").length = 9 from rfl, show (str "' (").length = 3 from rfl,
    show (str " KB)").length = 4 from rfl]
  omega

theorem fbQueueFlash_of_lt (data : List UInt8) (h : (str "flash:" ++ ptn).length < cmdSize) :
    ∃ a b, fbQueueFlash ptn data = .ok [a, b] ∧ a.cmd = [] ∧ b.cmd = str "flash:" ++ ptn := by
  have hlen : ptn.length < 58 := length_prefix (.inl rfl) h
  have hempty : queueAction (.download data) (str "") [] =
      .ok ⟨.download data, [], by decide, none, .cbDefault⟩ := rfl
  obtain ⟨msg, hsend⟩ := sending_of_lt hlen (data.length % 2 ^ 32) (Nat.mod_lt _ (by decide))
  have hmsg := mkmsg_of_lt hlen
    (show str "writing '%s'" = str "writing '" ++ (37 :: 115 :: str "'") by decide) (by decide)
    (by decide) (by decide)
  rw [fbQueueFlash, hempty, hsend, queueAction_of_lt flash_format (by decide) h, hmsg]
  exact ⟨_, _, rfl, rfl, rfl⟩

theorem fbQueueFlash_of_not_lt (data : List UInt8) (h : ¬ (str "flash:" ++ ptn).length < cmdSize)
    (hq : fbQueueFlash ptn data = .ok q) : False := by
  unfold fbQueueFlash at hq
  obtain ⟨a, -, hq⟩ := bind_ok_iff.mp hq
  obtain ⟨msg, -, hq⟩ := bind_ok_iff.mp hq
  rw [queueAction_of_not_lt flash_format (by decide) h] at hq
  cases hq

theorem fbQueueDisplay_of_lt (h : (str "getvar:" ++ var).length < cmdSize) :
    ∃ a, fbQueueDisplay var = .ok [a] ∧ a.cmd = str "getvar:" ++ var := by
  rw [fbQueueDisplay, queueAction_of_lt getvar_format (by decide) h]
  exact ⟨_, rfl, rfl⟩

theorem fbQueueDisplay_of_not_lt (h : ¬ (str "getvar:" ++ var).length < cmdSize) :
    fbQueueDisplay var = .error .overflow := by
  rw [fbQueueDisplay, queueAction_of_not_lt getvar_format (by decide) h]
  rfl

theorem fbQueueRequire_of_lt (invert : Bool) (value : List (List UInt8))
    (h : (str "getvar:" ++ var).length < cmdSize) :
    ∃ a, fbQueueRequire var invert value = .ok a ∧ a.cmd = str "getvar:" ++ var ∧ a.op = .query ∧
      a.func = if invert then .cbReject value else .cbRequire value := by
  have hlen : var.length < 58 := length_prefix (.inr rfl) h
  have hmsg := mkmsg_of_lt hlen
    (show str "checking %s" = str "checking " ++ (37 :: 115 :: []) by decide) (by decide) (by decide)
    (by decide)
  rw [fbQueueRequire, queueAction_of_lt getvar_format (by decide) h, hmsg]
  exact ⟨_, rfl, rfl, rfl, rfl⟩

theorem fbQueueRequire_of_not_lt (h : ¬ (str "getvar:" ++ var).length < cmdSize) :
    fbQueueRequire var invert value = .error .overflow := by
  rw [fbQueueRequire, queueAction_of_not_lt getvar_format (by decide) h]
  rfl

/-! ## `oem` -/

/-- The words are joined, if they fit. -/
theorem oemLoop_eq : ∀ (command : List UInt8) {argv : List (List UInt8)}, argv ≠ [] →
    oemLoop command argv = store 256 (command ++ [32].intercalate argv)
  | command, [arg], _ => by
    rw [oemLoop, strcat, List.intercalate_singleton]
  | command, arg :: arg' :: argv, _ => by
    have ih (c : List UInt8) := oemLoop_eq c (List.cons_ne_nil arg' argv)
    have happ (c : List UInt8) : (store 256 (c ++ str " ") >>= fun c => oemLoop c (arg' :: argv)) =
        store 256 (c ++ (str " " ++ [32].intercalate (arg' :: argv))) := by
      rw [funext ih, store_bind_store, List.append_assoc]
    rw [oemLoop]
    · dsimp only [strcat]
      rw [funext happ, store_bind_store, List.append_assoc]
      rfl
    · exact List.cons_ne_nil _ _

theorem doOemCommand_cons {args : List (List UInt8)} (h : args ≠ []) :
    doOemCommand (str "oem" :: args) =
      store 256 (joined args) >>= fun command => fbQueueCommand command (str "") := by
  have hlen : ¬ (str "oem" :: args).length ≤ 1 := by
    have := List.length_pos_iff.mpr h
    rw [List.length_cons]
    omega
  rw [doOemCommand, if_neg hlen, oemLoop_eq [] (List.cons_ne_nil _ _)]
  rfl

/-- The text of an `oem` command is what its words print as a format. -/
theorem doOemCommand_cases {args : List (List UInt8)} (hne : args ≠ [])
    (h : doOemCommand (str "oem" :: args) = .ok q) :
    ∃ a, q = [a] ∧ vsprintf (joined args) [] = .ok a.cmd := by
  rw [doOemCommand_cons hne] at h
  obtain ⟨command, hc, h⟩ := bind_ok_iff.mp h
  have hcommand : command = joined args := by
    by_cases hlt : (joined args).length < 256
    · rw [store_of_lt hlt] at hc
      exact (Except.ok.inj hc).symm
    · rw [store_of_le (Nat.not_lt.mp hlt)] at hc
      cases hc
  obtain ⟨a, ha, h⟩ := bind_ok_iff.mp h
  cases h
  obtain ⟨text, htext, ha⟩ := bind_ok_iff.mp ha
  refine ⟨_, rfl, ?_⟩
  rw [← hcommand, htext]
  unfold Action.new at ha
  split at ha
  · cases ha
    rfl
  · cases ha

theorem doOemCommand_of_lt {args : List (List UInt8)} (hne : args ≠ [])
    (hlt : (joined args).length < cmdSize) (hp : 37 ∉ joined args) :
    ∃ a, doOemCommand (str "oem" :: args) = .ok [a] ∧ a.cmd = joined args := by
  rw [doOemCommand_cons hne, store_of_lt (Nat.lt_trans hlt (by decide))]
  refine ⟨⟨.command, joined args, hlt, some (str ""), .cbDefault⟩, ?_, rfl⟩
  change fbQueueCommand (joined args) (str "") = _
  rw [fbQueueCommand, queueAction, vsprintf_plain hp]
  change (Action.new .command (joined args) >>= _) = _
  rw [Action.new, dif_pos hlt]
  rfl

/-! ## The queue -/

/-- A request whose text fits is queued as it was asked. -/
theorem queue_of_fits {r : Request} (h : r.Fits) :
    ∃ q, r.queue = .ok q ∧ q.map (·.cmd) = r.intended := by
  cases r with
  | erase ptn =>
    obtain ⟨a, hq, ha⟩ := fbQueueErase_of_lt h
    exact ⟨[a], hq, congrArg (fun c => [c]) ha⟩
  | flash ptn data =>
    obtain ⟨a, b, hq, ha, hb⟩ := fbQueueFlash_of_lt data h
    exact ⟨[a, b], hq, congrArg₂ (fun c d => [c, d]) ha hb⟩
  | getvar var =>
    obtain ⟨a, hq, ha⟩ := fbQueueDisplay_of_lt h
    exact ⟨[a], hq, congrArg (fun c => [c]) ha⟩
  | oem args =>
    by_cases hne : args = []
    · rw [hne]
      exact ⟨[], rfl, rfl⟩
    · obtain ⟨hlt, hp⟩ := h hne
      obtain ⟨a, hq, ha⟩ := doOemCommand_of_lt hne hlt hp
      refine ⟨[a], hq, ?_⟩
      rw [Request.intended, if_neg hne]
      exact congrArg (fun c => [c]) ha
  | requirement line =>
    rw [Request.queue, Request.intended]
    cases hline : setupRequirementLine line with
    | none => exact ⟨[], rfl, rfl⟩
    | some c =>
      obtain ⟨a, hq, ha, -⟩ := fbQueueRequire_of_lt c.invert c.value (h c hline)
      refine ⟨[a], ?_, congrArg (fun c => [c]) ha⟩
      dsimp only
      rw [hq]
      rfl

/-- What is queued for a request has as many actions as were asked for, and is something else if the
text does not fit. -/
theorem queue_cases {r : Request} (h : r.queue = .ok q) :
    q.length = r.intended.length ∧ (q.map (·.cmd) = r.intended → r.Fits) := by
  by_cases hfits : r.Fits
  · obtain ⟨q', hq', hcmd⟩ := queue_of_fits hfits
    cases hq'.symm.trans h
    rw [← hcmd, List.length_map]
    exact ⟨rfl, fun _ => hfits⟩
  cases r with
  | erase ptn => cases (fbQueueErase_of_not_lt hfits).symm.trans h
  | flash ptn data => exact (fbQueueFlash_of_not_lt data hfits h).elim
  | getvar var => cases (fbQueueDisplay_of_not_lt hfits).symm.trans h
  | oem args =>
    obtain ⟨hne, hno⟩ := Classical.not_imp.mp hfits
    obtain ⟨a, rfl, ha⟩ := doOemCommand_cases hne h
    rw [Request.intended, if_neg hne]
    refine ⟨rfl, fun heq => absurd ?_ hno⟩
    have hcmd : a.cmd = joined args := (List.cons.inj heq).1
    rw [hcmd] at ha
    exact ⟨hcmd ▸ a.fits, vsprintf_self_iff.mp ha⟩
  | requirement line =>
    rw [Request.queue] at h
    cases hline : setupRequirementLine line with
    | none => exact absurd (fun c hc => by rw [hline] at hc; cases hc) hfits
    | some c =>
      have hnot : ¬ (str "getvar:" ++ c.name).length < cmdSize := fun hlt => by
        refine hfits fun c' hc' => ?_
        cases hline.symm.trans hc'
        exact hlt
      rw [hline] at h
      dsimp only at h
      rw [fbQueueRequire_of_not_lt hnot] at h
      cases h

/-- **The queue holds what was asked for**, if and only if the text of every request fits and, for
`oem`, has no `%`. -/
theorem exact_iff (rs : List Request) : Exact rs ↔ ∀ r ∈ rs, r.Fits := by
  induction rs with
  | nil => exact ⟨fun _ r hr => absurd hr List.not_mem_nil, fun _ => ⟨[], rfl, rfl⟩⟩
  | cons r rs ih =>
    rw [List.forall_mem_cons, ← ih]
    constructor
    · rintro ⟨queue, hq, hcmd⟩
      obtain ⟨q, hr, hq⟩ := bind_ok_iff.mp hq
      obtain ⟨q', hrs, hq⟩ := bind_ok_iff.mp hq
      cases hq
      obtain ⟨hlen, hfits⟩ := queue_cases hr
      rw [List.map_append, List.flatMap_cons] at hcmd
      obtain ⟨h, h'⟩ := List.append_inj hcmd (by rw [List.length_map, hlen])
      exact ⟨hfits h, q', hrs, h'⟩
    · rintro ⟨hfits, q', hrs, h'⟩
      obtain ⟨q, hr, h⟩ := queue_of_fits hfits
      refine ⟨q ++ q', ?_, ?_⟩
      · rw [queueAll, hr, hrs]
        rfl
      · rw [List.map_append, List.flatMap_cons, h, h']

/-- Two percent signs of a user are printed as one, and a name of 58 bytes does not fit. -/
theorem not_exact : ¬ Exact [.oem [str "100%%"]] ∧ ¬ Exact [.erase (List.replicate 58 97)] := by
  constructor
  · rintro ⟨queue, hq, hcmd⟩
    obtain ⟨q, hr, hq⟩ := bind_ok_iff.mp hq
    cases hq
    obtain ⟨a, rfl, ha⟩ := doOemCommand_cases (List.cons_ne_nil _ _) hr
    have htext : vsprintf (joined [str "100%%"]) [] = .ok (str "oem 100%") := by decide
    rw [htext] at ha
    have hne : [str "oem 100%"] ≠ [Request.oem [str "100%%"]].flatMap Request.intended := by decide
    exact hne (by rw [Except.ok.inj ha]; exact hcmd)
  · rintro ⟨queue, hq, -⟩
    obtain ⟨q, hr, -⟩ := bind_ok_iff.mp hq
    have hlen : ¬ (str "erase:" ++ List.replicate 58 97).length < cmdSize := by decide
    cases (fbQueueErase_of_not_lt hlen).symm.trans hr

/-! ## The queue of `flashall` and `update` -/

/-- The action as `fb_execute_queue` sees it. -/
def Action.executed (a : Action) : Fastboot.Action := ⟨a.op, a.cmd, a.func⟩

/-- The lines of `android-info.txt`; `line` is what was read since the last newline. -/
def infoLines (line : List UInt8) : List UInt8 → List Request
  | [] => []
  | b :: s => if b = 10 then .requirement (cstr line) :: infoLines [] s else infoLines (line ++ [b]) s

theorem executed_fbQueueRequire (invert : Bool) (value : List (List UInt8))
    (h : (str "getvar:" ++ var).length < cmdSize) :
    ∃ a, fbQueueRequire var invert value = .ok a ∧
      Fastboot.fbQueueRequire var invert value = .ok a.executed := by
  obtain ⟨a, hq, ha, hop, hfunc⟩ := fbQueueRequire_of_lt invert value h
  refine ⟨a, hq, ?_⟩
  rw [Action.executed, ha, hop, hfunc]
  exact if_pos h

end Twm.Fastboot.Queue
