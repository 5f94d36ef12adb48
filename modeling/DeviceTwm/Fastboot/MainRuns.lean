import DeviceTwm.Fastboot.Execute

/-!
# What the command line flashes

Every queue of `main` has the shape of `Plan`: whatever the arguments are, an image that is flashed was
named by them (`Named`), and a reboot is the last action. So `Plan.orderly` is about every run of
`fastboot`.

* `Extends`: an operation only adds to the queue, and what it adds keeps the shape.
* `Settings.From`: the variables come from the arguments.
* `main_orderly`: the runs.
-/

open Lib

namespace Twm.Fastboot.Main

open Queue (queueAction joined)
open Protocol (Usb)

/-! ## What was asked for -/

/-- The variables are those of the program, or were given by the arguments. -/
structure Settings.From (h : Host) (argv : List Word) (s : Settings) : Prop where
  product : ∀ p ∈ s.product, [str "-p", p] <:+: argv
  cmdline : ∀ c ∈ s.cmdline, [str "-c", c] <:+: argv
  pageSize : s.pageSize = 2048 ∨
    ∃ v, [str "-n", v] <:+: argv ∧ s.pageSize = strtoul h.w 0 v % 2 ^ 32 ∧ s.pageSize ≠ 0
  baseAddr : s.baseAddr = 0x10000000 ∨
    ∃ v, [str "-b", v] <:+: argv ∧ s.baseAddr = strtoul h.w 16 v % 2 ^ 32

/-- The partitions of `flashall` and `update`. -/
def imagePartitions : List Word := [str "boot", str "recovery", str "system"]

/-- The arguments name this image for this partition. -/
inductive Named (h : Host) (argv : List Word) : Word → List UInt8 → Prop
  | file {ptn fname data} (words : [str "flash", ptn, fname] <:+: argv)
      (loaded : h.loadFile fname = some data) : Named h argv ptn data
  | item {ptn s fname data} (words : [str "flash", ptn] <:+: argv) (from' : Settings.From h argv s)
      (item : findItem h ptn s.product = .ok (some fname)) (loaded : h.loadFile fname = some data) :
      Named h argv ptn data
  | raw {ptn s kernel ramdisk data}
      (words : str "flash:raw" :: ptn :: kernel :: Option.toList ramdisk <:+: argv)
      (from' : Settings.From h argv s)
      (image : bootableImage h s (some kernel) ramdisk = .ok (some data)) : Named h argv ptn data
  | flashall {ptn s fname data} (word : str "flashall" ∈ argv) (mem : ptn ∈ imagePartitions)
      (from' : Settings.From h argv s) (item : findItem h ptn s.product = .ok (some fname))
      (loaded : h.loadFile fname = some data) : Named h argv ptn data
  | update {ptn fn zdata zip data}
      (word : [str "update", fn] <:+: argv ∨ str "update" ∈ argv ∧ fn = str "update.zip")
      (mem : ptn ∈ imagePartitions) (loaded : h.loadFile fn = some zdata)
      (package : h.package zdata = some zip) (image : zip (ptn ++ str ".img") = some data) :
      Named h argv ptn data

/-! ## What is added to the queue -/

/-- The queue is longer by actions that may stand before any others. -/
def Extends (N : Word → List UInt8 → Prop) (q q' : Actions) : Prop :=
  ∃ as, q' = q ++ as ∧ ∀ bs, Plan N bs → Plan N (as ++ bs)

variable {N : Word → List UInt8 → Prop} {q q' q'' as : Actions} {op : Op} {fmt : List UInt8}
  {args : List Arg} {a : Queue.Action}

theorem Extends.refl : Extends N q q := ⟨[], (List.append_nil q).symm, fun _ h => h⟩

theorem Extends.trans (h : Extends N q q') (h' : Extends N q' q'') : Extends N q q'' := by
  obtain ⟨as, rfl, has⟩ := h
  obtain ⟨bs, rfl, hbs⟩ := h'
  refine ⟨as ++ bs, List.append_assoc _ _ _, fun cs hcs => ?_⟩
  rw [List.append_assoc]
  exact has _ (hbs cs hcs)

/-- Another first letter than those of `flash` and `reboot`. -/
theorem plain_of_head {cmd : List UInt8} (h : cmd.head? ≠ some 102) (h' : cmd.head? ≠ some 114) :
    Plain cmd := by
  refine ⟨?_, ?_⟩
  · rintro ⟨s, rfl⟩
    exact h rfl
  · rintro rfl
    exact h' rfl

theorem queueAction_ok (h : queueAction op fmt args = .ok a) :
    a.op = op ∧ a.func = .cbDefault ∧ vsprintf fmt args = .ok a.cmd := by
  obtain ⟨text, htext, ha⟩ := bind_ok_iff.mp h
  rw [Queue.Action.new] at ha
  split at ha
  · cases ha
    exact ⟨rfl, rfl, htext⟩
  · cases ha

/-- The first letter of a format is that of its text. -/
theorem head_vsprintf {b : UInt8} {text : List UInt8} (hb : b ≠ 37)
    (h : vsprintf (b :: fmt) args = .ok text) : text.head? = some b := by
  rw [vsprintf_cons hb] at h
  cases hv : vsprintf fmt args with
  | error f =>
    rw [hv] at h
    cases h
  | ok t =>
    rw [hv] at h
    cases h
    rfl

theorem fbQueueCommand_ok {cmd msg : List UInt8} (h : Queue.fbQueueCommand cmd msg = .ok as) :
    ∃ a, as = [a] ∧ a.op = .command ∧ a.func = .cbDefault ∧ vsprintf cmd [] = .ok a.cmd := by
  obtain ⟨a, ha, h⟩ := bind_ok_iff.mp h
  cases h
  obtain ⟨hop, hf, hc⟩ := queueAction_ok ha
  exact ⟨_, rfl, hop, hf, hc⟩

/-- One action that is no download for a partition. -/
theorem extends_other (func : Checked a) (cmd : Plain a.cmd) : Extends N q (q ++ [a]) :=
  ⟨[a], rfl, fun _ h => .other a func cmd h⟩

theorem fbQueueErase_ok {ptn : Word} (h : Queue.fbQueueErase ptn = .ok as) :
    ∃ a, as = [a] ∧ Checked a ∧ Plain a.cmd := by
  obtain ⟨a, ha, h⟩ := bind_ok_iff.mp h
  obtain ⟨msg, -, h⟩ := bind_ok_iff.mp h
  cases h
  obtain ⟨-, hf, hc⟩ := queueAction_ok ha
  have hhead := head_vsprintf (b := 101) (by decide) hc
  exact ⟨_, rfl, .inl hf, plain_of_head (by rw [hhead]; decide) (by rw [hhead]; decide)⟩

theorem fbQueueDisplay_ok {var : Word} (h : Queue.fbQueueDisplay var = .ok as) :
    ∃ a, as = [a] ∧ Checked a ∧ Plain a.cmd := by
  obtain ⟨a, ha, h⟩ := bind_ok_iff.mp h
  cases h
  obtain ⟨hop, -, hc⟩ := queueAction_ok ha
  have hhead := head_vsprintf (b := 103) (by decide) hc
  exact ⟨_, rfl, .inr ⟨hop, nofun⟩, plain_of_head (by rw [hhead]; decide) (by rw [hhead]; decide)⟩

theorem fbQueueRequire_ok {var : Word} {invert : Bool} {value : List (List UInt8)}
    (h : Queue.fbQueueRequire var invert value = .ok a) : Checked a ∧ Plain a.cmd := by
  obtain ⟨a', ha, h⟩ := bind_ok_iff.mp h
  obtain ⟨msg, -, h⟩ := bind_ok_iff.mp h
  cases h
  obtain ⟨hop, -, hc⟩ := queueAction_ok ha
  have hhead := head_vsprintf (b := 103) (by decide) hc
  refine ⟨.inr ⟨hop, ?_⟩, plain_of_head (by rw [hhead]; decide) (by rw [hhead]; decide)⟩
  cases invert <;> nofun

theorem fbQueueFlash_ok {ptn : Word} {data : List UInt8} (h : Queue.fbQueueFlash ptn data = .ok as) :
    ∃ d c, as = [d, c] ∧ d.op = .download data ∧ d.cmd = [] ∧ d.func = .cbDefault ∧
      c.op = .command ∧ c.cmd = str "flash:" ++ ptn ∧ c.func = .cbDefault := by
  obtain ⟨d, hd, h⟩ := bind_ok_iff.mp h
  obtain ⟨msg, -, h⟩ := bind_ok_iff.mp h
  obtain ⟨c, hc, h⟩ := bind_ok_iff.mp h
  obtain ⟨msg', -, h⟩ := bind_ok_iff.mp h
  cases h
  obtain ⟨hdop, hdf, hdcmd⟩ := queueAction_ok hd
  obtain ⟨hcop, hcf, hccmd⟩ := queueAction_ok hc
  rw [Queue.vsprintf_prefix Queue.flash_format (by decide)] at hccmd
  exact ⟨_, _, rfl, hdop, (Except.ok.inj hdcmd).symm, hdf, hcop, (Except.ok.inj hccmd).symm, hcf⟩

theorem doOemCommand_ok {words : List Word} (h : Queue.doOemCommand (str "oem" :: words) = .ok as) :
    as = [] ∨ ∃ a, as = [a] ∧ Checked a ∧ Plain a.cmd := by
  by_cases hne : words = []
  · rw [hne] at h
    cases h
    exact .inl rfl
  rw [Queue.doOemCommand_cons hne] at h
  obtain ⟨command, hstore, h⟩ := bind_ok_iff.mp h
  obtain ⟨a, rfl, -, hf, hc⟩ := fbQueueCommand_ok h
  have hcommand : command = joined words := by
    by_cases hlt : (joined words).length < 256
    · rw [store_of_lt hlt] at hstore
      exact (Except.ok.inj hstore).symm
    · rw [store_of_le (Nat.not_lt.mp hlt)] at hstore
      cases hstore
  have hjoined : ∃ t, joined words = 111 :: t := by
    cases words with
    | nil => exact absurd rfl hne
    | cons x xs => exact ⟨_, rfl⟩
  obtain ⟨t, ht⟩ := hjoined
  rw [hcommand, ht] at hc
  have hhead := head_vsprintf (by decide) hc
  exact .inr ⟨a, rfl, .inl hf, plain_of_head (by rw [hhead]; decide) (by rw [hhead]; decide)⟩

/-- The text of a command that is no format. -/
theorem fbQueueCommand_plain {cmd msg : List UInt8} (hp : 37 ∉ cmd) (hcmd : Plain cmd)
    (h : Queue.fbQueueCommand cmd msg = .ok as) : ∃ a, as = [a] ∧ Checked a ∧ Plain a.cmd := by
  obtain ⟨a, rfl, -, hf, hc⟩ := fbQueueCommand_ok h
  rw [vsprintf_plain hp] at hc
  exact ⟨a, rfl, .inl hf, Except.ok.inj hc ▸ hcmd⟩

theorem fbQueueDownload_ok {name data : List UInt8} (h : fbQueueDownload name data = .ok as) :
    ∃ a, as = [a] ∧ Checked a ∧ Plain a.cmd := by
  obtain ⟨a, ha, h⟩ := bind_ok_iff.mp h
  obtain ⟨msg, -, h⟩ := bind_ok_iff.mp h
  cases h
  obtain ⟨-, hf, hc⟩ := queueAction_ok ha
  have hcmd : a.cmd = [] := (Except.ok.inj hc).symm
  exact ⟨_, rfl, .inl hf, plain_of_head (by rw [hcmd]; nofun) (by rw [hcmd]; nofun)⟩

theorem fbQueueNotice_ok (h : fbQueueNotice = .ok as) : ∃ a, as = [a] ∧ Checked a ∧ Plain a.cmd := by
  obtain ⟨a, ha, h⟩ := bind_ok_iff.mp h
  cases h
  obtain ⟨-, hf, hc⟩ := queueAction_ok ha
  have hcmd : a.cmd = [] := (Except.ok.inj hc).symm
  exact ⟨_, rfl, .inl hf, plain_of_head (by rw [hcmd]; nofun) (by rw [hcmd]; nofun)⟩

/-- The lines of `android-info.txt` are requirements. -/
theorem mem_infoLines {line s : List UInt8} {r : Queue.Request} (hr : r ∈ Queue.infoLines line s) :
    ∃ l, r = .requirement l := by
  induction s generalizing line with
  | nil => cases hr
  | cons b s ih =>
    rw [Queue.infoLines] at hr
    split at hr
    · rcases List.mem_cons.mp hr with rfl | hr
      · exact ⟨_, rfl⟩
      · exact ih hr
    · exact ih hr

/-- What may be put into the queue before its end. -/
def Job.Fits (N : Word → List UInt8 → Prop) : Job → Prop
  | request (.flash ptn data) => N ptn data
  | request _ => True
  | notice => True
  | send _ _ cmd _ => 37 ∉ cmd ∧ Plain cmd
  | command cmd _ => 37 ∉ cmd ∧ Plain cmd
  | reboot => False

theorem extends_single (h : ∃ a, as = [a] ∧ Checked a ∧ Plain a.cmd) : Extends N q (q ++ as) := by
  obtain ⟨a, rfl, hf, hc⟩ := h
  exact extends_other hf hc

theorem Job.extends {j : Job} (hj : j.Fits N) (h : j.queue = .ok as) : Extends N q (q ++ as) := by
  cases j with
  | request r =>
    cases r with
    | erase ptn => exact extends_single (fbQueueErase_ok h)
    | getvar var => exact extends_single (fbQueueDisplay_ok h)
    | oem words =>
      rcases doOemCommand_ok h with rfl | hs
      · rw [List.append_nil]
        exact .refl
      · exact extends_single hs
    | requirement line =>
      rw [Job.queue, Queue.Request.queue] at h
      split at h
      · cases h
        rw [List.append_nil]
        exact .refl
      · obtain ⟨a, ha, h⟩ := bind_ok_iff.mp h
        cases h
        exact extends_single ⟨a, rfl, fbQueueRequire_ok ha⟩
    | flash ptn data =>
      obtain ⟨d, c, rfl, hd, hdc, hdf, hop, hc, hf⟩ := fbQueueFlash_ok h
      exact ⟨[d, c], rfl, fun _ hb => .flash d c data ptn hd hdc hdf hop hc hf hj hb⟩
  | notice => exact extends_single (fbQueueNotice_ok h)
  | send name data cmd msg =>
    obtain ⟨ds, hd, h⟩ := bind_ok_iff.mp h
    obtain ⟨cs, hc, h⟩ := bind_ok_iff.mp h
    cases h
    rw [← List.append_assoc]
    exact (extends_single (fbQueueDownload_ok hd)).trans
      (extends_single (fbQueueCommand_plain hj.1 hj.2 hc))
  | command cmd msg => exact extends_single (fbQueueCommand_plain hj.1 hj.2 h)
  | reboot => exact hj.elim

theorem put_extends {j : Job} (hj : j.Fits N) (h : put j q = .ok q') : Extends N q q' := by
  rw [put] at h
  split at h
  · cases h
  · cases h
    exact j.extends hj ‹_›

theorem putAll_extends {js : List Job} (hj : ∀ j ∈ js, j.Fits N) (h : putAll q js = .ok q') :
    Extends N q q' := by
  induction js generalizing q with
  | nil =>
    cases h
    exact .refl
  | cons j js ih =>
    obtain ⟨q₁, hput, h⟩ := bind_ok_iff.mp h
    exact (put_extends (hj j List.mem_cons_self) hput).trans
      (ih (fun k hk => hj k (List.mem_cons_of_mem _ hk)) h)

/-! ## The functions of `main` -/

variable {h : Host} {fn item : Word} {data : List UInt8} {zip : Word → Option (List UInt8)}

theorem signature_fits : (signature data).Fits N :=
  ⟨by decide, plain_of_head (by decide) (by decide)⟩

theorem doSendSignature_extends (hs : doSendSignature h fn q = .ok q') : Extends N q q' := by
  rw [doSendSignature] at hs
  split at hs
  · cases hs
    exact .refl
  · exact put_extends signature_fits hs

theorem doUpdateSignature_extends (hs : doUpdateSignature zip fn q = .ok q') : Extends N q q' := by
  rw [doUpdateSignature] at hs
  split at hs
  · cases hs
    exact .refl
  · exact put_extends signature_fits hs

theorem flashItem_extends (hN : N item data) (hs : flashItem h item fn data q = .ok q') :
    Extends N q q' := by
  obtain ⟨q₁, hsig, hs⟩ := bind_ok_iff.mp hs
  exact (doSendSignature_extends hsig).trans (put_extends (j := flash item data) hN hs)

theorem updateItem_extends (hN : N item data) (hs : updateItem zip item data q = .ok q') :
    Extends N q q' := by
  obtain ⟨q₁, hsig, hs⟩ := bind_ok_iff.mp hs
  exact (doUpdateSignature_extends hsig).trans (put_extends (j := flash item data) hN hs)

theorem queueInfoDump_extends (hs : queueInfoDump q = .ok q') : Extends N q q' := by
  refine putAll_extends (fun j hj => ?_) hs
  simp only [List.mem_cons, List.not_mem_nil, or_false] at hj
  rcases hj with rfl | rfl | rfl | rfl | rfl <;> trivial

theorem setupRequirements_extends (hs : setupRequirements data q = .ok q') : Extends N q q' := by
  refine putAll_extends (fun j hj => ?_) hs
  obtain ⟨r, hr, rfl⟩ := List.mem_map.mp hj
  obtain ⟨line, rfl⟩ := mem_infoLines hr
  trivial

theorem load_ok {e : Exit} (hs : load h fn e = .ok data) : h.loadFile fn = some data := by
  rw [load] at hs
  split at hs
  · cases hs
  · cases hs
    assumption

theorem itemPath_ok {product : Option Word} {e : Exit} (hs : itemPath h item product e = .ok fn) :
    findItem h item product = .ok (some fn) := by
  obtain ⟨o, ho, hs⟩ := bind_ok_iff.mp hs
  cases o with
  | none => cases hs
  | some fname =>
    cases hs
    exact ho

theorem ifThere_extends {d : Option (List UInt8)} {k : List UInt8 → Except Exit Actions}
    (hk : ∀ data, d = some data → k data = .ok q' → Extends N q q') (hs : ifThere d q k = .ok q') :
    Extends N q q' := by
  cases d with
  | none =>
    cases hs
    exact .refl
  | some data => exact hk data rfl hs

theorem doFlashall_extends {product : Option Word}
    (hN : ∀ item ∈ imagePartitions, ∀ fname data, findItem h item product = .ok (some fname) →
      h.loadFile fname = some data → N item data)
    (hs : doFlashall h product q = .ok q') : Extends N q q' := by
  obtain ⟨q₁, hdump, hs⟩ := bind_ok_iff.mp hs
  obtain ⟨info, -, hs⟩ := bind_ok_iff.mp hs
  obtain ⟨text, -, hs⟩ := bind_ok_iff.mp hs
  obtain ⟨q₂, hreq, hs⟩ := bind_ok_iff.mp hs
  obtain ⟨boot, hboot, hs⟩ := bind_ok_iff.mp hs
  obtain ⟨bootData, hbootData, hs⟩ := bind_ok_iff.mp hs
  obtain ⟨q₃, hbootFlash, hs⟩ := bind_ok_iff.mp hs
  obtain ⟨recovery, hrec, hs⟩ := bind_ok_iff.mp hs
  obtain ⟨q₄, hrecFlash, hs⟩ := bind_ok_iff.mp hs
  obtain ⟨system, hsys, hs⟩ := bind_ok_iff.mp hs
  obtain ⟨sysData, hsysData, hs⟩ := bind_ok_iff.mp hs
  have hrecovery : Extends N q₃ q₄ := ifThere_extends
    (fun data hd hk => flashItem_extends (hN _ (by decide) _ data (itemPath_ok hrec) hd) hk) hrecFlash
  exact (queueInfoDump_extends hdump).trans <| (setupRequirements_extends hreq).trans <|
    (flashItem_extends (hN _ (by decide) _ _ (itemPath_ok hboot) (load_ok hbootData)) hbootFlash).trans <|
    hrecovery.trans <|
    flashItem_extends (hN _ (by decide) _ _ (itemPath_ok hsys) (load_ok hsysData)) hs

theorem doUpdate_extends
    (hN : ∀ item ∈ imagePartitions, ∀ zdata zip data, h.loadFile fn = some zdata →
      h.package zdata = some zip → zip (item ++ str ".img") = some data → N item data)
    (hs : doUpdate h fn q = .ok q') : Extends N q q' := by
  obtain ⟨q₁, hdump, hs⟩ := bind_ok_iff.mp hs
  obtain ⟨zdata, hz, hs⟩ := bind_ok_iff.mp hs
  cases hpkg : h.package zdata with
  | none =>
    rw [hpkg] at hs
    cases hs
  | some zip =>
    rw [hpkg] at hs
    obtain ⟨info, -, hs⟩ := bind_ok_iff.mp hs
    obtain ⟨q₂, hreq, hs⟩ := bind_ok_iff.mp hs
    have hN' (item : Word) {data : List UInt8} (hm : item ∈ imagePartitions)
        (hd : zip (item ++ str ".img") = some data) : N item data :=
      hN item hm zdata zip data (load_ok hz) hpkg hd
    cases hboot : zip (str "boot.img") with
    | none =>
      rw [hboot] at hs
      cases hs
    | some bootData =>
      rw [hboot] at hs
      obtain ⟨q₃, hbootFlash, hs⟩ := bind_ok_iff.mp hs
      obtain ⟨q₄, hrecFlash, hs⟩ := bind_ok_iff.mp hs
      have hrecovery : Extends N q₃ q₄ := ifThere_extends
        (fun data hd hk => updateItem_extends (hN' (str "recovery") (by decide) hd) hk) hrecFlash
      cases hsys : zip (str "system.img") with
      | none =>
        rw [hsys] at hs
        cases hs
      | some sysData =>
        rw [hsys] at hs
        exact (queueInfoDump_extends hdump).trans <| (setupRequirements_extends hreq).trans <|
          (updateItem_extends (hN' (str "boot") (by decide) hboot) hbootFlash).trans <|
          hrecovery.trans <| updateItem_extends (hN' (str "system") (by decide) hsys) hs

/-! ## The arguments -/

variable {argv rest : List Word} {arg val : Word} {s s' : Settings} {n : Nat}

theorem require2_ok {k : Word → Taken} {t : Settings × Actions × Nat}
    (hs : require2 rest k = .ok t) : ∃ val more, rest = val :: more ∧ k val = .ok t := by
  cases rest with
  | nil => cases hs
  | cons val more => exact ⟨val, more, rfl, hs⟩

/-- An argument that only adds to the queue. -/
theorem put_ok {j : Job} {m : Nat} (hs : s.From h argv)
    (hok : (do .ok (s, ← put j q, m) : Taken) = .ok (s', q', n)) (hj : j.Fits (Named h argv)) :
    s'.From h argv ∧ Extends (Named h argv) q q' := by
  obtain ⟨q₁, hput, hok⟩ := bind_ok_iff.mp hok
  cases hok
  exact ⟨hs, put_extends hj hput⟩

theorem command_ok (hsuf : arg :: rest <:+ argv) (hs : s.From h argv)
    (hok : command h s q arg rest = .ok (s', q', n)) :
    s'.From h argv ∧ Extends (Named h argv) q q' := by
  have hinfix {l : List Word} (hl : l <+: arg :: rest) : l <:+: argv := hl.isInfix.trans hsuf.isInfix
  have hmem : arg ∈ argv := hsuf.mem List.mem_cons_self
  unfold command at hok
  by_cases harg : arg = str "getvar"
  · rw [if_pos harg] at hok
    obtain ⟨val, more, rfl, hk⟩ := require2_ok hok
    exact put_ok hs hk trivial
  rw [if_neg harg] at hok
  by_cases harg : arg = str "erase"
  · rw [if_pos harg] at hok
    obtain ⟨val, more, rfl, hk⟩ := require2_ok hok
    exact put_ok hs hk trivial
  rw [if_neg harg] at hok
  by_cases harg : arg = str "signature"
  · rw [if_pos harg] at hok
    obtain ⟨val, more, rfl, hk⟩ := require2_ok hok
    obtain ⟨data, -, hk⟩ := bind_ok_iff.mp hk
    split at hk
    · cases hk
    · exact put_ok hs hk signature_fits
  rw [if_neg harg] at hok
  by_cases harg : arg = str "reboot"
  · rw [if_pos harg] at hok
    cases hok
    exact ⟨⟨hs.product, hs.cmdline, hs.pageSize, hs.baseAddr⟩, .refl⟩
  rw [if_neg harg] at hok
  by_cases harg : arg = str "reboot-bootloader"
  · rw [if_pos harg] at hok
    cases hok
    exact ⟨⟨hs.product, hs.cmdline, hs.pageSize, hs.baseAddr⟩, .refl⟩
  rw [if_neg harg] at hok
  by_cases harg : arg = str "continue"
  · rw [if_pos harg] at hok
    exact put_ok hs hok ⟨by decide, plain_of_head (by decide) (by decide)⟩
  rw [if_neg harg] at hok
  by_cases harg : arg = str "boot"
  · rw [if_pos harg] at hok
    obtain ⟨image, -, hk⟩ := bind_ok_iff.mp hok
    split at hk
    · cases hk
    · exact put_ok hs hk ⟨by decide, plain_of_head (by decide) (by decide)⟩
  rw [if_neg harg] at hok
  by_cases harg : arg = str "flash"
  · rw [if_pos harg] at hok
    obtain ⟨ptn, more, rfl, hk⟩ := require2_ok hok
    obtain ⟨⟨fname, m⟩, hfile, hk⟩ := bind_ok_iff.mp hk
    obtain ⟨data, hload, hk⟩ := bind_ok_iff.mp hk
    refine put_ok hs hk (?_ : Named h argv ptn data)
    cases more with
    | nil =>
      obtain ⟨fname', hpath, hfile⟩ := bind_ok_iff.mp hfile
      cases hfile
      exact .item (harg ▸ hinfix List.prefix_rfl) hs (itemPath_ok hpath) (load_ok hload)
    | cons f more =>
      cases hfile
      exact .file (harg ▸ hinfix ⟨more, rfl⟩) (load_ok hload)
  rw [if_neg harg] at hok
  by_cases harg : arg = str "flash:raw"
  · rw [if_pos harg] at hok
    split at hok
    case h_1 ptn kernel more =>
      obtain ⟨image, himage, hk⟩ := bind_ok_iff.mp hok
      cases image with
      | none => cases hk
      | some data =>
        refine put_ok hs hk (?_ : Named h argv ptn data)
        refine .raw (harg ▸ hinfix ?_) hs himage
        cases more with
        | nil => exact List.prefix_rfl
        | cons r more => exact ⟨more, rfl⟩
    case h_2 => cases hok
  rw [if_neg harg] at hok
  by_cases harg : arg = str "flashall"
  · rw [if_pos harg] at hok
    obtain ⟨q₁, hall, hk⟩ := bind_ok_iff.mp hok
    cases hk
    refine ⟨⟨hs.product, hs.cmdline, hs.pageSize, hs.baseAddr⟩, doFlashall_extends ?_ hall⟩
    exact fun item hm fname data hitem hload => .flashall (harg ▸ hmem) hm hs hitem hload
  rw [if_neg harg] at hok
  by_cases harg : arg = str "update"
  · rw [if_pos harg] at hok
    cases rest with
    | nil =>
      obtain ⟨q₁, hupd, hk⟩ := bind_ok_iff.mp hok
      cases hk
      refine ⟨⟨hs.product, hs.cmdline, hs.pageSize, hs.baseAddr⟩, doUpdate_extends ?_ hupd⟩
      exact fun item hm zdata zip data hz hpkg hi => .update (.inr ⟨harg ▸ hmem, rfl⟩) hm hz hpkg hi
    | cons fn more =>
      obtain ⟨q₁, hupd, hk⟩ := bind_ok_iff.mp hok
      cases hk
      refine ⟨⟨hs.product, hs.cmdline, hs.pageSize, hs.baseAddr⟩, doUpdate_extends ?_ hupd⟩
      exact fun item hm zdata zip data hz hpkg hi =>
        .update (.inl (harg ▸ hinfix ⟨more, rfl⟩)) hm hz hpkg hi
  rw [if_neg harg] at hok
  by_cases harg : arg = str "oem"
  · rw [if_pos harg] at hok
    exact put_ok hs hok trivial
  rw [if_neg harg] at hok
  cases hok

theorem argument_ok (hsuf : arg :: rest <:+ argv) (hs : s.From h argv)
    (hok : argument h s q arg rest = .ok (s', q', n)) :
    s'.From h argv ∧ Extends (Named h argv) q q' := by
  have hinfix {l : List Word} (hl : l <+: arg :: rest) : l <:+: argv := hl.isInfix.trans hsuf.isInfix
  have hmem : arg ∈ argv := hsuf.mem List.mem_cons_self
  unfold argument at hok
  by_cases harg : arg = str "-w"
  · rw [if_pos harg] at hok
    cases hok
    exact ⟨⟨hs.product, hs.cmdline, hs.pageSize, hs.baseAddr⟩, .refl⟩
  rw [if_neg harg] at hok
  by_cases harg : arg = str "-b"
  · rw [if_pos harg] at hok
    obtain ⟨val, more, rfl, hk⟩ := require2_ok hok
    cases hk
    have hwords : [str "-b", val] <:+: argv := harg ▸ hinfix ⟨more, rfl⟩
    exact ⟨⟨hs.product, hs.cmdline, hs.pageSize, .inr ⟨val, hwords, rfl⟩⟩, .refl⟩
  rw [if_neg harg] at hok
  by_cases harg : arg = str "-n"
  · rw [if_pos harg] at hok
    obtain ⟨val, more, rfl, hk⟩ := require2_ok hok
    dsimp only at hk
    split at hk
    · cases hk
    · cases hk
      have hwords : [str "-n", val] <:+: argv := harg ▸ hinfix ⟨more, rfl⟩
      exact ⟨⟨hs.product, hs.cmdline, .inr ⟨val, hwords, rfl, ‹_›⟩, hs.baseAddr⟩, .refl⟩
  rw [if_neg harg] at hok
  by_cases harg : arg = str "-s"
  · rw [if_pos harg] at hok
    obtain ⟨val, more, rfl, hk⟩ := require2_ok hok
    cases hk
    exact ⟨⟨hs.product, hs.cmdline, hs.pageSize, hs.baseAddr⟩, .refl⟩
  rw [if_neg harg] at hok
  by_cases harg : arg = str "-p"
  · rw [if_pos harg] at hok
    obtain ⟨val, more, rfl, hk⟩ := require2_ok hok
    cases hk
    have hwords : [str "-p", val] <:+: argv := harg ▸ hinfix ⟨more, rfl⟩
    exact ⟨⟨fun p hp => Option.some.inj hp ▸ hwords, hs.cmdline, hs.pageSize, hs.baseAddr⟩, .refl⟩
  rw [if_neg harg] at hok
  by_cases harg : arg = str "-c"
  · rw [if_pos harg] at hok
    obtain ⟨val, more, rfl, hk⟩ := require2_ok hok
    cases hk
    have hwords : [str "-c", val] <:+: argv := harg ▸ hinfix ⟨more, rfl⟩
    exact ⟨⟨hs.product, fun c hc => Option.some.inj hc ▸ hwords, hs.pageSize, hs.baseAddr⟩, .refl⟩
  rw [if_neg harg] at hok
  by_cases harg : arg = str "-i"
  · rw [if_pos harg] at hok
    obtain ⟨val, more, rfl, hk⟩ := require2_ok hok
    dsimp only at hk
    split at hk
    · cases hk
    · cases hk
      exact ⟨⟨hs.product, hs.cmdline, hs.pageSize, hs.baseAddr⟩, .refl⟩
  rw [if_neg harg] at hok
  exact command_ok hsuf hs hok

theorem mainLoop_ok {skip : Nat} {words : List Word} (hsuf : words <:+ argv) (hs : s.From h argv)
    (hok : mainLoop h s q skip words = .ok (s', q')) :
    s'.From h argv ∧ Extends (Named h argv) q q' := by
  induction words generalizing s q skip with
  | nil =>
    rw [mainLoop] at hok
    cases hok
    exact ⟨hs, .refl⟩
  | cons arg words ih =>
    have htail : words <:+ argv := (List.suffix_cons arg words).trans hsuf
    cases skip with
    | zero =>
      rw [mainLoop] at hok
      obtain ⟨⟨s₁, q₁, n⟩, harg, hok⟩ := bind_ok_iff.mp hok
      obtain ⟨hs₁, he⟩ := argument_ok hsuf hs harg
      obtain ⟨hs', he'⟩ := ih htail hs₁ hok
      exact ⟨hs', he.trans he'⟩
    | succ skip =>
      rw [mainLoop] at hok
      exact ih htail hs hok

theorem putReboot_plan (he : Extends N [] q) (hok : put .reboot q = .ok q') : Plan N q' := by
  obtain ⟨as, rfl, has⟩ := he
  cases hok
  exact has _ (.reboot _ rfl rfl)

theorem Extends.plan (he : Extends N [] q) : Plan N q := by
  obtain ⟨as, rfl, has⟩ := he
  have := has [] .nil
  rwa [List.append_nil] at this

theorem finish_plan (he : Extends N [] q) (hok : finish s q = .ok q') : Plan N q' := by
  obtain ⟨q₁, hwipe, hok⟩ := bind_ok_iff.mp hok
  have he₁ : Extends N [] q₁ := by
    rw [wipe] at hwipe
    split at hwipe
    · refine he.trans (putAll_extends (fun j hj => ?_) hwipe)
      simp only [List.mem_cons, List.not_mem_nil, or_false] at hj
      rcases hj with rfl | rfl <;> trivial
    · cases hwipe
      exact he
  split at hok
  · exact putReboot_plan he₁ hok
  split at hok
  · have hj : (Job.command (str "reboot-bootloader") (str "rebooting into bootloader")).Fits N :=
      ⟨by decide, by decide, by decide⟩
    exact (he₁.trans (put_extends hj hok)).plan
  · cases hok
    exact he₁.plan

/-- Every queue of `main` has the shape. -/
theorem main_plan (hq : main h argv = .ok q) : Plan (Named h argv) q := by
  cases argv with
  | nil => cases hq
  | cons arg argv' =>
    rw [main] at hq
    split at hq
    · cases hq
    obtain ⟨⟨s, q₁⟩, hloop, hq⟩ := bind_ok_iff.mp hq
    have hs : (Settings.init h).From h (arg :: argv') :=
      ⟨fun _ hp => absurd hp (Option.not_mem_none _), fun _ hc => absurd hc (Option.not_mem_none _),
        .inl rfl, .inl rfl⟩
    exact finish_plan (mainLoop_ok List.suffix_rfl hs hloop).2 hq

/-- **Every run of `fastboot`**: for all arguments, files and answers of the device, the actions are
begun in order, none after one that did not succeed, and no closed handle is used; a partition is
written directly after the download of an image that the arguments name for it; and a reboot comes when
all else was done. -/
theorem main_orderly (h : Host) (argv : List Word) (u : Usb) {q : Actions} (hq : main h argv = .ok q) :
    ∃ run, fbExecuteQueue h.w false q u = some run ∧ InOrder h.w q u run ∧
      FlashesImages (Named h argv) run ∧ RebootsLast h.w q run :=
  (main_plan hq).orderly h.w u

/-- A host with one file. -/
def oneFile : Host where
  loadFile fn := if fn = str "a.img" then some [1, 2, 3] else none
  package _ := none
  calloc _ := true
  productOut := none
  androidSerial := none
  myPath := []
  w := 64

theorem length_data : (str "DATA00000003").length ≤ 64 := by decide

theorem length_okay : (str "OKAY").length ≤ 64 := by decide

/-- A device that takes an image of three bytes. -/
def obliging : Usb where
  reads := [some ⟨str "DATA00000003", length_data⟩, some ⟨str "OKAY", length_okay⟩,
    some ⟨str "OKAY", length_okay⟩, some ⟨str "OKAY", length_okay⟩]
  writes := [17, 3, 10, 6]
  sent := []

/-- `fastboot reboot flash boot a.img`. -/
theorem main_orderly_boot : ∃ q run,
    main oneFile [str "reboot", str "flash", str "boot", str "a.img"] = .ok q ∧
      fbExecuteQueue 64 false q obliging = some run ∧
      run.map (fun b => b.action.cmd) = [[], str "flash:boot", str "reboot"] ∧
      RebootsLast 64 q run := by
  have hcmds : ((main oneFile [str "reboot", str "flash", str "boot", str "a.img"]).toOption.bind
      fun q => (fbExecuteQueue 64 false q obliging).map (·.map fun b => b.action.cmd)) =
        some [[], str "flash:boot", str "reboot"] := by decide +kernel
  cases hq : main oneFile [str "reboot", str "flash", str "boot", str "a.img"] with
  | error e =>
    rw [hq] at hcmds
    cases hcmds
  | ok q =>
    obtain ⟨run, hrun, -, -, hlast⟩ := main_orderly oneFile _ obliging hq
    rw [hq] at hcmds
    change (fbExecuteQueue 64 false q obliging).map _ = _ at hcmds
    rw [show oneFile.w = 64 from rfl] at hrun hlast
    rw [hrun] at hcmds
    exact ⟨q, run, rfl, hrun, Option.some.inj hcmds, hlast⟩

end Twm.Fastboot.Main
