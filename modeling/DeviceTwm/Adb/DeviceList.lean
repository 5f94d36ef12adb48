import DeviceTwm.Adb.SyncService
import DeviceTwm.Lib.CString

/-!
# The list of devices

`adb devices` asks the server for `host:devices`. The server prints a line for each transport into a
buffer (`list_transports`), prints that behind its length into a second one, and writes this to the
client; the client takes at most 1024 bytes (`adb_query`).

`list_transports` stays inside its buffer, and what it leaves there is a number of whole lines
(`listTransports_whole`). The client gets all the lines exactly when they are 1024 bytes or less
(`deviceList_iff`).
-/

open Lib

namespace Twm.Adb.DeviceList

/-- `connection_state`; `unknown` is any other value. -/
inductive ConnectionState
  | offline | bootloader | device | host | recovery | noperm | unknown
  deriving DecidableEq

/-- A transport in the list. -/
structure Entry where
  /-- `none`: the pointer is null. -/
  serial : Option (List UInt8)
  noNul : ∀ s, serial = some s → 0 ∉ s
  state : ConnectionState

def statename : ConnectionState → List UInt8
  | .offline => str "offline"
  | .bootloader => str "bootloader"
  | .device => str "device"
  | .host => str "host"
  | .recovery => str "recovery"
  | .noperm => str "no permissions"
  | .unknown => str "unknown"

/-- The serial that is printed. -/
def Entry.shown (t : Entry) : List UInt8 :=
  match t.serial with
  | none => str "????????????"
  | some s => if s = [] then str "????????????" else s

/-- `"%s\t%s\n"`. -/
def line (t : Entry) : List UInt8 := t.shown ++ 9 :: (statename t.state ++ [10])

/-- One line for each transport, in the order of the list. -/
def lines (ts : List Entry) : List UInt8 := ts.flatMap line

/-! ## The server -/

/-- The loop of `list_transports`, with `p` the offset in `buf`; `none`: it writes past the end. -/
def listLoop (bufsize : Nat) : List Entry → List UInt8 → Nat → Option (List UInt8 × Nat)
  | [], buf, p => (blit buf p [0]).map fun buf => (buf, p)
  | t :: ts, buf, p => do
    let buf ← snprintf buf p (bufsize - p) (line t)
    if bufsize ≤ p + (line t).length then
      -- discard last line if buffer is too short
      (blit buf p [0]).map fun buf => (buf, p)
    else listLoop bufsize ts buf (p + (line t).length)

/-- `list_transports`: the buffer and the result. -/
def listTransports (buf : List UInt8) (bufsize : Nat) (list : List Entry) :
    Option (List UInt8 × Nat) := listLoop bufsize list buf 0

/-- `handle_host_request` for `devices`: what is written to the client. -/
def hostDevices (list : List Entry) : Option (List UInt8) := do
  let (buffer, _) ← listTransports (zeros 4096) 4096 list
  let reply := str "OKAY" ++ hex4 (cString buffer).length ++ cString buffer
  let buf ← snprintf (zeros 4096) 0 4096 reply
  return cString buf

/-! ## The client -/

/-- `adb_status`: what follows an `OKAY`. -/
def adbStatus (s : List UInt8) : Option (List UInt8) :=
  if s.take 4 = str "OKAY" then some (s.drop 4) else none

/-- `strtoul` with base 16; four characters do not overflow. -/
def strtoul16 (s : List UInt8) : Nat :=
  let r := signPart (s.dropWhile fun b => b = 32 ∨ (9 ≤ b ∧ b ≤ 13))
  let n := match r.2 with
    | 48 :: x :: d :: s =>
      if (x = 120 ∨ x = 88) ∧ (digit d).any (· < 16) then digits 16 (d :: s) 0
      else digits 16 (48 :: x :: d :: s) 0
    | s => digits 16 s 0
  if r.1 then (2 ^ 32 - n) % 2 ^ 32 else n

/-- `adb_query` on what the server writes; `none` is a null pointer. -/
def adbQuery (reply : List UInt8) : Option (List UInt8) := do
  let s ← adbStatus reply
  if s.length < 4 then none
  else
    let n := strtoul16 (cString (s.take 4))
    if 1024 < n then none
    else if (s.drop 4).length < n then none
    else some (cString ((s.drop 4).take n))

/-! ## `list_transports` -/

@[simp] theorem lines_cons (t : Entry) (ts : List Entry) : lines (t :: ts) = line t ++ lines ts := rfl

/-- The loop prints so many whole lines behind `a`, and stops at one that does not fit. -/
theorem listLoop_spec (ts : List Entry) (a b : List UInt8) (hb : b ≠ []) :
    ∃ k rest, listLoop (a.length + b.length) ts (a ++ b) a.length =
        some (a ++ (lines (ts.take k) ++ 0 :: rest), a.length + (lines (ts.take k)).length) ∧
      (lines (ts.take k)).length + 1 + rest.length = b.length ∧
      (k = ts.length ∨ ∃ t, ts[k]? = some t ∧
        b.length ≤ (lines (ts.take k)).length + (line t).length) := by
  induction ts generalizing a b with
  | nil =>
    have hpos : 0 < b.length := List.length_pos_iff.mpr hb
    refine ⟨0, b.drop 1, ?_, ?_, .inl rfl⟩
    · rw [listLoop, blit_append a (d := [0]) hpos]
      rfl
    · simp only [List.take_nil, lines, List.flatMap_nil, List.length_nil, List.length_drop]
      omega
  | cons t ts ih =>
    simp only [listLoop, Nat.add_sub_cancel_left]
    by_cases hlen : b.length ≤ (line t).length
    · -- the line is cut, and the zero goes over its first byte
      have hpos : 0 < b.length := List.length_pos_iff.mpr hb
      have hl : ((line t).take (b.length - 1) ++ [0]).length = b.length := by
        rw [List.length_append, List.length_take, List.length_singleton]
        omega
      rw [snprintf_cut a hb hlen]
      refine ⟨0, ((line t).take (b.length - 1) ++ [0]).drop 1, ?_, ?_, .inr ⟨t, rfl, ?_⟩⟩
      · simp only [Option.bind_eq_bind, Option.bind_some]
        rw [if_pos (by omega), blit_append a (d := [0]) (by rw [hl]; exact hpos)]
        rfl
      · simp only [List.take_zero, lines, List.flatMap_nil, List.length_nil, List.length_drop, hl]
        omega
      · simp only [List.take_zero, lines, List.flatMap_nil, List.length_nil]
        omega
    · have hb' : (0 :: b.drop ((line t).length + 1)).length = b.length - (line t).length := by
        rw [List.length_cons, List.length_drop]
        omega
      have ha : a.length + (line t).length + (b.length - (line t).length) =
          a.length + b.length := by omega
      have hroom : ¬ a.length + b.length ≤ a.length + (line t).length := by omega
      rw [snprintf_fits a (by omega), ← List.append_assoc]
      obtain ⟨k, rest, hrun, hsize, hend⟩ :=
        ih (a ++ line t) (0 :: b.drop ((line t).length + 1)) (by simp)
      rw [hb', List.length_append, ha] at hrun
      rw [hb'] at hsize hend
      refine ⟨k + 1, rest, ?_, ?_, ?_⟩
      · simp only [Option.bind_eq_bind, Option.bind_some]
        rw [if_neg hroom, hrun]
        simp only [List.take_succ_cons, lines_cons, List.append_assoc, List.length_append,
          Nat.add_assoc]
      · simp only [List.take_succ_cons, lines_cons, List.length_append]
        omega
      · rcases hend with rfl | ⟨u, hu, hle⟩
        · exact .inl rfl
        · refine .inr ⟨u, hu, ?_⟩
          simp only [List.take_succ_cons, lines_cons, List.length_append]
          omega

/-- `list_transports` stays inside a buffer of any size but 0; it leaves a number of whole lines
there, ended by a zero, and returns their length. All lines are there when they fit. -/
theorem listTransports_whole (buf : List UInt8) (hbuf : buf ≠ []) (ts : List Entry) :
    ∃ k rest, listTransports buf buf.length ts =
        some (lines (ts.take k) ++ 0 :: rest, (lines (ts.take k)).length) ∧
      (lines (ts.take k)).length + 1 + rest.length = buf.length ∧
      ((lines ts).length < buf.length → lines (ts.take k) = lines ts) := by
  obtain ⟨k, rest, hrun, hsize, hend⟩ := listLoop_spec ts [] buf hbuf
  refine ⟨k, rest, ?_, hsize, fun hfit => ?_⟩
  · simpa [listTransports] using hrun
  · rcases hend with rfl | ⟨t, ht, hle⟩
    · rw [List.take_length]
    · -- a line that does not fit is one of the lines
      exfalso
      obtain ⟨hk, rfl⟩ := List.getElem?_eq_some_iff.mp ht
      have hts : lines ts = lines (ts.take k) ++ (line ts[k] ++ lines (ts.drop (k + 1))) := by
        rw [← lines_cons, ← List.drop_eq_getElem_cons hk, lines, lines, lines, ← List.flatMap_append,
          List.take_append_drop]
      rw [hts, List.length_append, List.length_append] at hfit
      omega

theorem zero_notMem_line (t : Entry) : 0 ∉ line t := by
  have hshown : 0 ∉ t.shown := by
    unfold Entry.shown
    split
    · decide
    · next s hs =>
      split
      · decide
      · exact t.noNul s hs
  have hstate : 0 ∉ statename t.state := by cases t.state <;> decide
  unfold line
  simp only [List.mem_append, List.mem_cons, List.not_mem_nil, or_false, not_or]
  exact ⟨hshown, by decide, hstate, by decide⟩

theorem zero_notMem_lines (ts : List Entry) : 0 ∉ lines ts := by
  intro h
  obtain ⟨t, -, ht⟩ := List.mem_flatMap.mp h
  exact zero_notMem_line t ht

/-! ## The length of the reply -/

/-- A digit of the header is read back, and is neither a blank, a sign nor the `x` of a prefix. -/
theorem hexDigit_spec {d : Nat} (h : d < 16) : digit (hexDigit d) = some d ∧ hexDigit d ≠ 0 ∧
    ¬ (hexDigit d = 32 ∨ (9 ≤ hexDigit d ∧ hexDigit d ≤ 13)) ∧ hexDigit d ≠ 45 ∧
    hexDigit d ≠ 43 ∧ hexDigit d ≠ 120 ∧ hexDigit d ≠ 88 := by
  have hall : ∀ d : Fin 16, digit (hexDigit d) = some d.val ∧ hexDigit d ≠ 0 ∧
      ¬ (hexDigit d = 32 ∨ (9 ≤ hexDigit d ∧ hexDigit d ≤ 13)) ∧ hexDigit d ≠ 45 ∧
      hexDigit d ≠ 43 ∧ hexDigit d ≠ 120 ∧ hexDigit d ≠ 88 := by decide
  exact hall ⟨d, h⟩

theorem zero_notMem_hex4 (n : Nat) : 0 ∉ hex4 n := by
  have hne : ∀ m, hexDigit (m % 16) ≠ 0 := fun m => (hexDigit_spec (Nat.mod_lt m (by decide))).2.1
  simp only [hex4, List.mem_cons, List.not_mem_nil, or_false, not_or]
  exact ⟨(hne _).symm, (hne _).symm, (hne _).symm, (hne _).symm⟩

theorem digits_hex4 {n : Nat} (h : n < 2 ^ 16) : digits 16 (hex4 n) 0 = n := by
  have hd : ∀ m, digit (hexDigit (m % 16)) = some (m % 16) := fun m =>
    (hexDigit_spec (Nat.mod_lt m (by decide))).1
  simp only [hex4, digits, hd, Nat.mod_lt _ (show 16 > 0 by decide), if_true]
  omega

/-- The client reads the header back. -/
theorem strtoul16_hex4 {n : Nat} (h : n < 2 ^ 16) : strtoul16 (hex4 n) = n := by
  have hs : ∀ m, _ := fun m => hexDigit_spec (Nat.mod_lt m (show 16 > 0 by decide))
  obtain ⟨-, -, hblank, h45, h43, -⟩ := hs (n / 4096)
  obtain ⟨-, -, -, -, -, h120, h88⟩ := hs (n / 256)
  have hdrop : (hex4 n).dropWhile (fun b => b = 32 ∨ (9 ≤ b ∧ b ≤ 13)) = hex4 n := by
    rw [hex4, List.dropWhile_cons_of_neg (by simpa using hblank)]
  have hsign : signPart (hex4 n) = (false, hex4 n) := by
    unfold signPart hex4
    split
    · next heq => exact absurd (List.cons.inj heq).1 h45
    · next heq => exact absurd (List.cons.inj heq).1 h43
    · rfl
  simp only [strtoul16, hdrop, hsign]
  rw [if_neg (by decide)]
  split
  · next x d s heq =>
    have hx : x = hexDigit (n / 256 % 16) := by
      have := (List.cons.inj (List.cons.inj heq).2).1
      exact this.symm
    rw [if_neg, ← heq]
    · exact digits_hex4 h
    · rintro ⟨hx' | hx', -⟩
      · exact h120 (hx ▸ hx')
      · exact h88 (hx ▸ hx')
  · exact digits_hex4 h

/-! ## The reply -/

/-- What the server writes for these lines, before the second buffer cuts it. -/
def okay (payload : List UInt8) : List UInt8 := str "OKAY" ++ (hex4 payload.length ++ payload)

theorem zero_notMem_okay (ts : List Entry) : 0 ∉ okay (lines ts) := by
  unfold okay
  rw [List.mem_append, List.mem_append, not_or, not_or]
  exact ⟨by decide, zero_notMem_hex4 _, zero_notMem_lines ts⟩

/-- The server prints a number of whole lines, all when they fit. -/
theorem hostDevices_eq (ts : List Entry) :
    ∃ k, ((lines ts).length < 4096 → lines (ts.take k) = lines ts) ∧
      hostDevices ts = some ((okay (lines (ts.take k))).take 4095) := by
  have hne : zeros 4096 ≠ [] := List.ne_nil_of_length_pos (by rw [length_zeros]; decide)
  obtain ⟨k, rest, hrun, -, hall⟩ := listTransports_whole (zeros 4096) hne ts
  rw [length_zeros] at hrun hall
  refine ⟨k, hall, ?_⟩
  have hcs : cString (lines (ts.take k) ++ 0 :: rest) = lines (ts.take k) :=
    cString_append (zero_notMem_lines _) rest
  have hokay := zero_notMem_okay (ts.take k)
  simp only [hostDevices, hrun, Option.bind_eq_bind, Option.bind_some, hcs, List.append_assoc]
  change (snprintf (zeros 4096) 0 4096 (okay (lines (ts.take k)))).bind _ = _
  by_cases hfit : (okay (lines (ts.take k))).length < 4096
  · have hprint := snprintf_fits [] (b := zeros 4096) (s := okay (lines (ts.take k)))
      (by rwa [length_zeros])
    rw [length_zeros, List.nil_append, List.nil_append] at hprint
    have hle : (okay (lines (ts.take k))).length ≤ 4095 := by
      clear hall
      omega
    rw [show 0 = ([] : List UInt8).length from rfl, hprint, List.take_of_length_le hle]
    show some (cString _) = _
    rw [cString_append hokay]
  · have hprint := snprintf_cut [] (b := zeros 4096) (s := okay (lines (ts.take k)))
      hne (by rw [length_zeros]; omega)
    rw [length_zeros, List.nil_append, List.nil_append] at hprint
    rw [show 0 = ([] : List UInt8).length from rfl, hprint]
    show some (cString _) = _
    rw [cString_append fun hm => hokay (List.mem_of_mem_take hm)]

theorem length_okay (payload : List UInt8) : (okay payload).length = payload.length + 8 := by
  simp only [okay, List.length_append, length_hex4]
  have : (str "OKAY").length = 4 := by decide
  omega

/-- The server prints all lines when they fit. -/
theorem hostDevices_fits {ts : List Entry} (h : (lines ts).length + 8 ≤ 4095) :
    hostDevices ts = some (okay (lines ts)) := by
  obtain ⟨k, hall, hreply⟩ := hostDevices_eq ts
  rw [hreply, hall (by omega), List.take_of_length_le (by rw [length_okay]; exact h)]

/-- What the client takes is at most 1024 bytes. -/
theorem adbQuery_length {reply r : List UInt8} (h : adbQuery reply = some r) : r.length ≤ 1024 := by
  unfold adbQuery at h
  obtain ⟨s, -, h⟩ := Option.bind_eq_some_iff.mp h
  simp only at h
  split at h
  · cases h
  · split at h
    · cases h
    · split at h
      · cases h
      · next hn _ =>
        cases h
        have h1 := (List.takeWhile_prefix (fun b : UInt8 => decide (b ≠ 0))
          (l := (s.drop 4).take (strtoul16 (cString (s.take 4))))).length_le
        rw [List.length_take] at h1
        unfold cString at *
        omega

/-- A reply that is not cut is read back when it is short enough. -/
theorem adbQuery_okay {payload : List UInt8} (hz : 0 ∉ payload) (hlen : payload.length < 2 ^ 16) :
    adbQuery (okay payload) = if 1024 < payload.length then none else some payload := by
  have hstatus : adbStatus (okay payload) = some (hex4 payload.length ++ payload) := rfl
  have htake : (hex4 payload.length ++ payload).take 4 = hex4 payload.length := rfl
  have hdrop : (hex4 payload.length ++ payload).drop 4 = payload := rfl
  have hn : strtoul16 (hex4 payload.length) = payload.length := strtoul16_hex4 hlen
  simp only [adbQuery, hstatus, Option.bind_eq_bind, Option.bind_some, htake, hdrop,
    cString_of_notMem (zero_notMem_hex4 _), hn]
  rw [if_neg (by simp), if_neg (Nat.lt_irrefl _), List.take_length, cString_of_notMem hz]

/-- What a client can rely on: it gets all lines, and the header is the length of what follows. -/
def Complete (ts : List Entry) : Prop :=
  ∃ reply, hostDevices ts = some reply ∧ adbQuery reply = some (lines ts) ∧
    (reply.drop 4).take 4 = hex4 (reply.drop 8).length

/-- **The list of devices.** The client gets the line of every transport, behind a header with their
length, exactly when the lines are 1024 bytes or less. In any case, and for a buffer of any size but
0, `list_transports` stays inside the buffer and leaves a number of whole lines in it. -/
theorem deviceList_iff (ts : List Entry) :
    (Complete ts ↔ (lines ts).length ≤ 1024) ∧
    ∀ buf : List UInt8, buf ≠ [] → ∃ buffer n, listTransports buf buf.length ts = some (buffer, n) ∧
      buffer.length = buf.length ∧ n = (cString buffer).length ∧
      ∃ k, cString buffer = lines (ts.take k) := by
  refine ⟨⟨?_, fun hlen => ?_⟩, fun buf hbuf => ?_⟩
  · rintro ⟨reply, -, hquery, -⟩
    exact adbQuery_length hquery
  · refine ⟨_, hostDevices_fits (by omega), ?_, rfl⟩
    rw [adbQuery_okay (zero_notMem_lines ts) (by omega), if_neg (by omega)]
  · obtain ⟨k, rest, hrun, hsize, -⟩ := listTransports_whole buf hbuf ts
    have hcs : cString (lines (ts.take k) ++ 0 :: rest) = lines (ts.take k) :=
      cString_append (zero_notMem_lines _) rest
    refine ⟨_, _, hrun, ?_, by rw [hcs], k, hcs⟩
    rw [List.length_append, List.length_cons]
    omega

/-- A device with a serial of twelve characters. -/
def handset : Entry where
  serial := some (str "HT9CTP812345")
  noNul s hs := by
    cases hs
    decide
  state := .device

/-- 52 such devices: their lines are 1040 bytes, and the client gets nothing. -/
theorem deviceList_tooLong : adbQuery ((hostDevices (List.replicate 52 handset)).getD []) = none ∧
    ¬ Complete (List.replicate 52 handset) := by
  have hlen : (lines (List.replicate 52 handset)).length = 1040 := by decide +kernel
  constructor
  · rw [hostDevices_fits (by omega), Option.getD_some,
      adbQuery_okay (zero_notMem_lines _) (by omega), if_pos (by omega)]
  · rintro ⟨reply, -, hquery, -⟩
    have := adbQuery_length hquery
    omega

end Twm.Adb.DeviceList
