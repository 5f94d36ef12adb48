import DeviceTwm.Adb.DeviceList
import DeviceTwm.Adb.Packet
import DeviceTwm.Adb.SyncReceive

/-!
# Requests for a device

A client that is told which device to use (`adb -s`) puts the serial into the text of its request,
`host-serial:<serial>:<command>` (`format_host_command`), and sends the text behind its length. On the
server a smart socket collects what arrives until the request is complete and takes the text apart
(`smart_socket_enqueue`): the serial ends at the first colon.

`addressed_iff`: the server gets the serial and the command that the client put together exactly when
the serial has no colon, or the request is so long that the client does not send it. The serials of
emulators have none (`emulatorSerial_noColon`); those that `connect_device` makes have one
(`connectSerial_colon`).
-/

open Lib

namespace Twm.Adb.SmartSocket

/-- A C string. -/
abbrev Text := { s : List UInt8 // 0 ∉ s }

inductive TransportType
  | usb | localEmulator | any | host
  deriving DecidableEq

/-! ## The client -/

/-- `format_host_command`: the string in `buffer`. -/
def formatHostCommand (buflen : Nat) (command : Text) (ttype : TransportType)
    (serial : Option Text) : List UInt8 :=
  match serial with
  | some serial => (str "host-serial:" ++ (serial.1 ++ 58 :: command.1)).take (buflen - 1)
  | none =>
    let host := match ttype with
      | .usb => str "host-usb"
      | .localEmulator => str "host-local"
      | _ => str "host"
    (host ++ 58 :: command.1).take (buflen - 1)

/-- The buffers of `adb_commandline` and `status_window`. -/
def bufferSize : Nat := 4096

/-- `_adb_connect`: what is written to the server; `none`: the service name is too long. -/
def adbConnect (service : List UInt8) : Option (List UInt8) :=
  if service.length < 1 ∨ 1024 < service.length then none
  else some (hex4 service.length ++ service)

/-! ## The server -/

/-- The value of a digit of `unhex`. -/
def unhexDigit (c : UInt8) : Option Nat :=
  if 48 ≤ c ∧ c ≤ 57 then some (c.toNat - 48)
  else if 97 ≤ c ∧ c ≤ 102 then some (c.toNat - 97 + 10)
  else if 65 ≤ c ∧ c ≤ 70 then some (c.toNat - 65 + 10)
  else none

/-- `unhex`; `n * 16 + c` is `(n << 4) | c`. -/
def unhex : List UInt8 → Nat → Nat
  | [], n => n
  | c :: s, n =>
    match unhexDigit c with
    | none => 0xffffffff
    | some c => unhex s (n * 16 + c)

/-- What a smart socket makes of what it has got. -/
inductive Result
  /-- It waits for more; `pkt_first` is what it has. -/
  | wait (pktFirst : Option (List UInt8))
  | fail
  /-- `handle_host_request` or `create_host_service_socket`. -/
  | host (ttype : TransportType) (serial : Option (List UInt8)) (service : List UInt8)
  /-- `connect_to_remote`, for a smart socket that has a transport. -/
  | remote (destination : List UInt8)
  deriving DecidableEq

/-- `strchr`: what is before and after the first `ch`. -/
def strchr (s : List UInt8) (ch : UInt8) : Option (List UInt8 × List UInt8) :=
  match s.dropWhile (· ≠ ch) with
  | [] => none
  | _ :: after => some (s.takeWhile (· ≠ ch), after)

/-- The text of a request, taken apart. -/
def parse (service : List UInt8) : Result :=
  if (str "host-serial:").isPrefixOf service then
    let service := service.drop (str "host-serial:").length
    -- serial number should follow "host:"
    match strchr service 58 with
    | some (serial, service) => .host .any (some serial) service
    | none => .host .any none service
  else if (str "host-usb:").isPrefixOf service then
    .host .usb none (service.drop (str "host-usb:").length)
  else if (str "host-local:").isPrefixOf service then
    .host .localEmulator none (service.drop (str "host-local:").length)
  else if (str "host:").isPrefixOf service then
    .host .any none (service.drop (str "host:").length)
  else .remote service

/-- `smart_socket_enqueue`, once the packet is part of `pkt_first`. -/
def smartSocketCheck (data : List UInt8) : Result :=
  -- don't bother if we can't decode the length
  if data.length < 4 then .wait (some data)
  else
    let len := unhex (data.take 4) 0
    if len < 1 ∨ 1024 < len then .fail
    -- can't do anything until we have the full header
    else if data.length < len + 4 then .wait (some data)
    else parse (cString ((data.drop 4).take len))

/-- `smart_socket_enqueue` of the packet `p`. -/
def smartSocketEnqueue (pktFirst : Option (List UInt8)) (p : List UInt8) : Result :=
  match pktFirst with
  | none => smartSocketCheck p
  | some first => if maxPayload < first.length + p.length then .fail else smartSocketCheck (first ++ p)

/-- The packets that the local socket reads from the client, one after the other. -/
def serve (pktFirst : Option (List UInt8)) : List (List UInt8) → Result
  | [] => .wait pktFirst
  | p :: ps =>
    match smartSocketEnqueue pktFirst p with
    | .wait pktFirst => serve pktFirst ps
    | r => r

/-! ## The text of a request -/

theorem parse_ne_wait (service : List UInt8) (first : Option (List UInt8)) :
    parse service ≠ .wait first := by
  unfold parse
  split
  · simp only
    split <;> exact Result.noConfusion
  · split
    · exact Result.noConfusion
    · split
      · exact Result.noConfusion
      · split <;> exact Result.noConfusion

theorem strchr_append {a : List UInt8} {ch : UInt8} (ha : ch ∉ a) (b : List UInt8) :
    strchr (a ++ ch :: b) ch = some (a, b) := by
  unfold strchr
  rw [dropWhile_ne_stop ha, takeWhile_ne_stop ha]

/-- The first colon ends the serial. -/
theorem parse_hostSerial {serial : List UInt8} (h : 58 ∉ serial) (service : List UInt8) :
    parse (str "host-serial:" ++ (serial ++ 58 :: service)) = .host .any (some serial) service := by
  unfold parse
  rw [if_pos (List.isPrefixOf_iff_prefix.mpr (List.prefix_append _ _))]
  simp only [List.drop_left, strchr_append h]

/-! ## A request in packets -/

theorem unhex_hex4 {n : Nat} (h : n < 2 ^ 16) : unhex (hex4 n) 0 = n := by
  have hall : ∀ d : Fin 16, unhexDigit (hexDigit d) = some d.val := by decide
  have hd : ∀ m, unhexDigit (hexDigit (m % 16)) = some (m % 16) := fun m =>
    hall ⟨m % 16, Nat.mod_lt m (by decide)⟩
  simp only [hex4, unhex, hd]
  omega

section

variable {text : List UInt8} (hz : 0 ∉ text) (h1 : 1 ≤ text.length) (h2 : text.length ≤ 1024)

include h1 h2 in
/-- A smart socket waits until it has the whole request. -/
theorem smartSocketCheck_short {a b : List UInt8} (hab : a ++ b = hex4 text.length ++ text)
    (ha : a.length < text.length + 4) : smartSocketCheck a = .wait (some a) := by
  unfold smartSocketCheck
  by_cases h4 : a.length < 4
  · rw [if_pos h4]
  · have htake : a.take 4 = hex4 text.length := by
      have := congrArg (List.take 4) hab
      rwa [List.take_append_of_le_length (by omega), List.take_left' (length_hex4 _)] at this
    have hlen : unhex (a.take 4) 0 = text.length := by
      rw [htake]
      exact unhex_hex4 (by omega)
    simp only [hlen]
    rw [if_neg h4, if_neg (by omega), if_pos ha]

include hz h1 h2 in
theorem smartSocketCheck_full : smartSocketCheck (hex4 text.length ++ text) = parse text := by
  have hlen : unhex ((hex4 text.length ++ text).take 4) 0 = text.length := by
    rw [List.take_left' (length_hex4 _)]
    exact unhex_hex4 (by omega)
  unfold smartSocketCheck
  simp only [hlen]
  rw [if_neg (by simp), if_neg (by omega), if_neg (by simp; omega),
    List.drop_left' (length_hex4 _), List.take_length, cString_of_notMem hz]

/-- A packet is added to what is there, as long as that fits. -/
theorem smartSocketEnqueue_eq {first : Option (List UInt8)} {p : List UInt8}
    (h : (first.getD [] ++ p).length ≤ maxPayload) :
    smartSocketEnqueue first p = smartSocketCheck (first.getD [] ++ p) := by
  cases first with
  | none => rfl
  | some first =>
    rw [Option.getD_some, List.length_append] at h
    rw [smartSocketEnqueue, if_neg (by omega)]
    rfl

include hz h1 h2 in
/-- However the request is cut into packets, the smart socket takes its text apart. -/
theorem serve_eq_parse {first : Option (List UInt8)} {ps : List (List UInt8)}
    (hps : first.getD [] ++ ps.flatten = hex4 text.length ++ text)
    (hfirst : (first.getD []).length < text.length + 4) : serve first ps = parse text := by
  have htotal : (hex4 text.length ++ text).length = text.length + 4 := by
    rw [List.length_append, length_hex4]
    omega
  induction ps generalizing first with
  | nil =>
    rw [List.flatten_nil, List.append_nil] at hps
    rw [hps, htotal] at hfirst
    omega
  | cons p ps ih =>
    rw [List.flatten_cons, ← List.append_assoc] at hps
    have hle : (first.getD [] ++ p).length ≤ text.length + 4 := by
      rw [← htotal, ← hps]
      simp
    rw [serve, smartSocketEnqueue_eq (by unfold maxPayload; omega)]
    by_cases hlt : (first.getD [] ++ p).length < text.length + 4
    · rw [smartSocketCheck_short h1 h2 hps hlt]
      exact @ih (some (first.getD [] ++ p)) hps hlt
    · -- nothing is left for the other packets
      have hall : first.getD [] ++ p = hex4 text.length ++ text := by
        have hlen := congrArg List.length hps
        rw [htotal, List.length_append] at hlen
        have hnil : ps.flatten = [] := List.length_eq_zero_iff.mp (by omega)
        rwa [hnil, List.append_nil] at hps
      rw [hall, smartSocketCheck_full hz h1 h2]
      cases hp : parse text with
      | wait pktFirst => exact absurd hp (parse_ne_wait text pktFirst)
      | _ => rfl

end

/-! ## Serials -/

/-- The text of a request, before the client's buffer cuts it. -/
def requestText (serial command : Text) : List UInt8 :=
  str "host-serial:" ++ (serial.1 ++ 58 :: command.1)

/-- However the request arrives, the server gets the serial and the command of the client; or the
client does not send it. -/
def Addressed (serial command : Text) (ttype : TransportType) : Prop :=
  ∀ request, adbConnect (formatHostCommand bufferSize command ttype (some serial)) = some request →
    ∀ packets : List (List UInt8), packets.flatten = request →
      serve none packets = .host .any (some serial.1) command.1

/-- What the client writes: the whole text, if it writes anything. -/
theorem adbConnect_request (serial command : Text) (ttype : TransportType) :
    adbConnect (formatHostCommand bufferSize command ttype (some serial)) =
      if 1024 < (requestText serial command).length then none
      else some (hex4 (requestText serial command).length ++ requestText serial command) := by
  have htext : formatHostCommand bufferSize command ttype (some serial) =
      (requestText serial command).take 4095 := rfl
  have hpos : 1 ≤ (requestText serial command).length := by
    simp only [requestText, List.length_append, List.length_cons]
    omega
  unfold adbConnect
  rw [htext, List.length_take]
  by_cases hlong : 1024 < (requestText serial command).length
  · rw [if_pos hlong, if_pos (by omega)]
  · rw [if_neg hlong, if_neg (by omega), List.take_of_length_le (by omega),
      Nat.min_eq_right (by omega)]

/-- What the server makes of a request that is sent. -/
theorem serve_request {serial command : Text} (hlen : (requestText serial command).length ≤ 1024)
    {packets : List (List UInt8)}
    (hp : packets.flatten =
      hex4 (requestText serial command).length ++ requestText serial command) :
    serve none packets = parse (requestText serial command) := by
  have hz : 0 ∉ requestText serial command := by
    simp only [requestText, List.mem_append, List.mem_cons, not_or]
    exact ⟨by decide, serial.2, by decide, command.2⟩
  have h1 : 1 ≤ (requestText serial command).length := by
    simp only [requestText, List.length_append, List.length_cons]
    omega
  have hall : (none : Option (List UInt8)).getD [] ++ packets.flatten =
      hex4 (requestText serial command).length ++ requestText serial command := hp
  exact serve_eq_parse hz h1 hlen hall (Nat.succ_pos _)

/-- **Requests for a device.** The serial and the command arrive as the client put them together
exactly when the serial has no colon, or the request is too long to be sent. -/
theorem addressed_iff (serial command : Text) (ttype : TransportType) :
    Addressed serial command ttype ↔
      58 ∉ serial.1 ∨ 1024 < (requestText serial command).length := by
  rw [Addressed, adbConnect_request]
  by_cases hlong : 1024 < (requestText serial command).length
  · rw [if_pos hlong]
    exact iff_of_true (fun _ h => nomatch h) (.inr hlong)
  rw [if_neg hlong]
  constructor
  · intro h
    refine .inl fun hcolon => ?_
    -- the server takes the serial up to its first colon
    obtain ⟨a, b, hs, ha⟩ := List.eq_append_cons_of_mem hcolon
    have hserve := h _ rfl [_] List.flatten_singleton
    rw [serve_request (Nat.not_lt.mp hlong) List.flatten_singleton, requestText, hs,
      List.append_assoc, List.cons_append, parse_hostSerial ha] at hserve
    have hlen := congrArg List.length (Option.some.inj (Result.host.inj hserve).2.1)
    rw [List.length_append, List.length_cons] at hlen
    omega
  · rintro (hno | hlong') request hreq packets hp
    · cases hreq
      rw [serve_request (Nat.not_lt.mp hlong) hp]
      exact parse_hostSerial hno command.1
    · exact absurd hlong' hlong

/-- `192.168.1.10:5555`. -/
def networkSerial : Text := ⟨str "192.168.1.10:5555", by decide⟩

def getState : Text := ⟨str "get-state", by decide⟩

/-- `adb connect 192.168.1.10` gives the device this serial; the server looks for the device
`192.168.1.10`, and takes the port for a part of the command. -/
theorem notAddressed_networkSerial :
    serve none [hex4 (requestText networkSerial getState).length ++
      requestText networkSerial getState] =
        .host .any (some (str "192.168.1.10")) (str "5555:get-state") ∧
    ¬ Addressed networkSerial getState .any := by
  refine ⟨by decide +kernel, fun h => ?_⟩
  have hserve := h (hex4 (requestText networkSerial getState).length ++
    requestText networkSerial getState) (by decide +kernel) [_] List.flatten_singleton
  exact absurd hserve (by decide +kernel)

/-- The serial of an emulator (`local_connect_arbitrary_ports`). -/
def emulatorSerial (consolePort : Nat) : List UInt8 :=
  (str "emulator-" ++ decimal consolePort).take 63

theorem emulatorSerial_noColon (consolePort : Nat) : 58 ∉ emulatorSerial consolePort := by
  intro h
  rcases List.mem_append.mp (List.mem_of_mem_take h) with h | h
  · exact absurd h (by decide)
  · exact absurd (decimal_bounds consolePort 58 h).2 (by decide)

/-- The serial that `connect_device` makes from the name of the host, without its colon, and the
port. -/
def connectSerial (hostbuf : List UInt8) (port : Nat) : List UInt8 :=
  (hostbuf ++ 58 :: decimal port).take 99

theorem connectSerial_colon {hostbuf : List UInt8} (h : hostbuf.length < 99) (port : Nat) :
    58 ∈ connectSerial hostbuf port := by
  obtain ⟨n, hn⟩ : ∃ n, 99 - hostbuf.length = n + 1 := ⟨98 - hostbuf.length, by omega⟩
  rw [connectSerial, List.take_append, hn, List.take_succ_cons]
  simp

end Twm.Adb.SmartSocket
