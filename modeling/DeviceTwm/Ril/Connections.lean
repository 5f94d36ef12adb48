import DeviceTwm.Ril.Responses

/-!
# Responses and connections

`onCommandsSocketClosed` cancels the requests on the list. A call of `RIL_onRequestComplete` that
has taken its request off the list is not stopped by that: if a new client is accepted before the
call reads `s_fdCommand`, or under the descriptor that the call has read, the response goes to the
new client (`response_crosses`).

* `Allowed`: no client is accepted while such a call is under way.
* `Inv`: then what a call still has to write goes to the request's own connection.
* `responses_stay`: so no response is written to another connection, and a request whose connection
  was closed is not answered any more.
-/

open Lib

namespace Twm.Ril

/-- The response that a call will still write bytes of, and the descriptor if it has read it. -/
def Call.reply : Call → Option (Request × Option (Option Nat))
  | .dequeued req e response =>
    if req.isLocal ∨ req.cancelled ∨
      maxCommandBytes < (solicited req.token e response).length then none else some (req, none)
  | .send (some req) data => if maxCommandBytes < data.length then none else some (req, none)
  | .test (some req) data fd => if maxCommandBytes < data.length then none else some (req, some fd)
  | .lock (some req) _ fd | .head (some req) _ _ fd => some (req, some fd)
  | .body (some req) left fd => if left = [] then none else some (req, some fd)
  | _ => none

/-- A client that is accepted under `fd` could get the response of the call. -/
def Call.exposed (fd : Nat) (k : Call) : Bool :=
  match k.reply with
  | none => false
  | some (_, none) => true
  | some (_, some fd') => fd' = some fd

/-- No client is accepted while a call could answer it. -/
def Allowed (s : State) : RStep → Prop
  | .accept fd => ∀ k ∈ s.calls, k.exposed fd = false
  | _ => True

instance (s : State) : (l : RStep) → Decidable (Allowed s l)
  | .accept fd => inferInstanceAs (Decidable (∀ k ∈ s.calls, k.exposed fd = false))
  | .receive .. | .issueLocal .. | .hangUp | .clear | .cancel | .welcome | .reject | .complete ..
  | .unsolicited .. | .call .. => .isTrue trivial

/-- No connection is open but the one that the request came on. -/
def Request.Own (req : Request) (s : State) : Prop :=
  ∀ fd conn, s.fds fd = some conn → req.origin = some conn

/-- What the call has to write goes to the connection of its request. -/
def Call.Faithful (k : Call) (s : State) : Prop :=
  match k.reply with
  | none => True
  | some (req, none) => req.Own s
  | some (req, some fd) => ∀ conn, fd.bind s.fds = some conn → req.origin = some conn

structure Inv (s : State) : Prop where
  /-- At most one connection is open. -/
  fds : ∀ fd conn, s.fds fd = some conn → s.fdCommand = some fd
  accepted : ∀ fd conn, s.fds fd = some conn → conn < s.accepted
  closed : s.dispatch = .closed → ∀ fd, s.fds fd = none
  pending : ∀ req ∈ s.pending, req.isLocal ∨ req.cancelled ∨ req.Own s
  /-- Between two connections, the requests on the list are cancelled. -/
  cancelled : s.fdCommand = none → s.dispatch ≠ .cleared →
    ∀ req ∈ s.pending, req.isLocal ∨ req.cancelled
  calls : ∀ k ∈ s.calls, k.Faithful s
  written : ∀ w ∈ s.written, w.req.origin = some w.conn

/-! ## Calls -/

section Calls

variable {s s' : State}

theorem Request.Own.mono {req : Request} (h : req.Own s)
    (hsub : ∀ fd conn, s'.fds fd = some conn → s.fds fd = some conn) : req.Own s' :=
  fun fd conn hc => h fd conn (hsub fd conn hc)

/-- With fewer connections open, a call is as faithful as before. -/
theorem Call.Faithful.mono {k : Call} (h : k.Faithful s)
    (hsub : ∀ fd conn, s'.fds fd = some conn → s.fds fd = some conn) : k.Faithful s' := by
  unfold Call.Faithful at h ⊢
  split at h
  · trivial
  · exact h.mono hsub
  · intro conn hc
    obtain ⟨fd, rfl, hfd⟩ := Option.bind_eq_some_iff.mp hc
    exact h conn (Option.bind_eq_some_iff.mpr ⟨fd, rfl, hsub fd conn hfd⟩)

/-- A new connection does not make an unexposed call unfaithful. -/
theorem Call.Faithful.accept {k : Call} (h : k.Faithful s) {fd : Nat} (hk : k.exposed fd = false)
    {conn : Nat} (hfds : s'.fds = Function.update s.fds fd (some conn)) : k.Faithful s' := by
  unfold Call.Faithful at h ⊢
  unfold Call.exposed at hk
  split at h
  · trivial
  · rename_i hr
    simp [hr] at hk
  · rename_i hr
    simp only [hr, decide_eq_false_iff_not] at hk
    intro c hc
    obtain ⟨f, rfl, hf⟩ := Option.bind_eq_some_iff.mp hc
    have hne : f ≠ fd := fun he => hk (by rw [he])
    rw [hfds, Function.update_of_ne hne] at hf
    exact h c (Option.bind_eq_some_iff.mpr ⟨f, rfl, hf⟩)

/-! A call stays faithful from one point of `RIL_onRequestComplete` to the next. -/

theorem Call.Faithful.send {req : Request} {e : Nat} {response : Option Payload}
    (h : (Call.dequeued req e response).Faithful s) (hl : ¬ req.isLocal) (hc : ¬ req.cancelled) :
    (Call.send (some req) (solicited req.token e response)).Faithful s := by
  simpa [Call.Faithful, Call.reply, hl, hc] using h

/-- `s_fdCommand` is the descriptor of the only connection. -/
theorem Call.Faithful.test {req : Option Request} {data : List UInt8}
    (h : (Call.send req data).Faithful s) : (Call.test req data s.fdCommand).Faithful s := by
  cases req with
  | none => trivial
  | some r =>
    by_cases hlen : maxCommandBytes < data.length
    · simp [Call.Faithful, Call.reply, hlen]
    · simp only [Call.Faithful, Call.reply, hlen, if_false] at h ⊢
      intro conn hc
      obtain ⟨fd, -, hfd⟩ := Option.bind_eq_some_iff.mp hc
      exact h fd conn hfd

theorem Call.Faithful.lock {req : Option Request} {data : List UInt8} {fd : Option Nat}
    (h : (Call.test req data fd).Faithful s) (hlen : ¬ maxCommandBytes < data.length) :
    (Call.lock req data fd).Faithful s := by
  cases req with
  | none => trivial
  | some r => simpa [Call.Faithful, Call.reply, hlen] using h

theorem Call.Faithful.head {req : Option Request} {data : List UInt8} {fd : Option Nat}
    (h : (Call.lock req data fd).Faithful s) (left : List UInt8) :
    (Call.head req left data fd).Faithful s := by
  cases req with
  | none => trivial
  | some r => exact h

theorem Call.Faithful.of_head {req : Option Request} {data left : List UInt8} {fd : Option Nat}
    (h : (Call.head req left data fd).Faithful s) : (Call.lock req data fd).Faithful s := by
  cases req with
  | none => trivial
  | some r => exact h

theorem Call.Faithful.body {req : Option Request} {data : List UInt8} {fd : Option Nat}
    (h : (Call.lock req data fd).Faithful s) (left : List UInt8) :
    (Call.body req left fd).Faithful s := by
  cases req with
  | none => trivial
  | some r =>
    by_cases hd : left = []
    · simp [Call.Faithful, Call.reply, hd]
    · simpa [Call.Faithful, Call.reply, hd] using h

/-- While there are bytes left, the call is as faithful as before it wrote. -/
theorem Call.Faithful.of_body {req : Option Request} {data left : List UInt8} {fd : Option Nat}
    (h : (Call.body req left fd).Faithful s) (hl : left ≠ []) :
    (Call.lock req data fd).Faithful s := by
  cases req with
  | none => trivial
  | some r => simpa [Call.Faithful, Call.reply, hl] using h

/-- A faithful call writes to the connection of its request. -/
theorem Call.Faithful.own {req : Option Request} {data : List UInt8} {fd : Option Nat}
    (h : (Call.lock req data fd).Faithful s) :
    ∀ r conn, req = some r → fd.bind s.fds = some conn → r.origin = some conn := by
  rintro r conn rfl hc
  exact h conn hc

end Calls

namespace Inv

variable {s s' : State}

theorem init : Inv State.init := by
  constructor <;> simp [State.init]

theorem setCall (h : Inv s) (v : Nat) {k : Call} (hk : k.Faithful s) : Inv (s.setCall v k) where
  fds := h.fds
  accepted := h.accepted
  closed := h.closed
  pending := h.pending
  cancelled := h.cancelled
  calls := by
    intro k' hk'
    rcases List.mem_or_eq_of_mem_set hk' with hm | rfl
    · exact h.calls k' hm
    · exact hk
  written := h.written

/-- A new call. -/
theorem call (h : Inv s) {k : Call} (hk : k.Faithful s) {pending : List Request}
    (hp : ∀ req ∈ pending, req ∈ s.pending) :
    Inv { s with pending := pending, calls := s.calls ++ [k] } where
  fds := h.fds
  accepted := h.accepted
  closed := h.closed
  pending := fun req hr => h.pending req (hp req hr)
  cancelled := fun hf hd req hr => h.cancelled hf hd req (hp req hr)
  calls := by
    intro k' hk'
    rcases List.mem_append.mp hk' with hm | hm
    · exact h.calls k' hm
    · rw [List.mem_singleton.mp hm]
      exact hk
  written := h.written

theorem close (h : Inv s) (fd : Option Nat) : Inv (s.close fd) := by
  cases fd with
  | none => exact h
  | some fd =>
    have hsub : ∀ f conn, (s.close (some fd)).fds f = some conn → s.fds f = some conn := by
      intro f conn hc
      by_cases hf : f = fd
      · subst hf
        simp [State.close] at hc
      · simpa [State.close, hf] using hc
    constructor
    · exact fun f conn hc => h.fds f conn (hsub f conn hc)
    · exact fun f conn hc => h.accepted f conn (hsub f conn hc)
    · intro hd f
      by_contra hne
      obtain ⟨c, hc⟩ := Option.ne_none_iff_exists'.mp hne
      have hn := h.closed hd f
      rw [hsub f c hc] at hn
      cases hn
    · intro req hr
      exact (h.pending req hr).imp_right fun hp => hp.imp_right fun ho => ho.mono hsub
    · exact h.cancelled
    · exact fun k hk => (h.calls k hk).mono hsub
    · exact h.written

/-- The dispatch thread closes the command socket. -/
theorem closeCommand (h : Inv s) (hd : s.dispatch ≠ .cleared) :
    Inv { s.close s.fdCommand with dispatch := .closed } := by
  have h₁ := h.close s.fdCommand
  have hfd : (s.close s.fdCommand).fdCommand = s.fdCommand ∧
      (s.close s.fdCommand).dispatch = s.dispatch := by
    unfold State.close
    split <;> exact ⟨rfl, rfl⟩
  refine ⟨h₁.fds, h₁.accepted, fun _ fd => ?_, h₁.pending, fun hf _ => ?_, h₁.calls, h₁.written⟩
  · by_contra hne
    obtain ⟨c, hc⟩ := Option.ne_none_iff_exists'.mp hne
    have hcmd := h₁.fds fd c hc
    rw [hfd.1] at hcmd
    simp [State.close, hcmd] at hc
  · exact h₁.cancelled hf (by rw [hfd.2]; exact hd)

/-- A `write` of a faithful call. -/
theorem write (h : Inv s) {v : Nat} {req : Option Request} {fd : Option Nat} {left : List UInt8}
    {next : List UInt8 → Call} {out : Option Nat}
    (hown : ∀ r conn, req = some r → fd.bind s.fds = some conn → r.origin = some conn)
    (hnext : ∀ left, (next left).Faithful s) (hs : s.write v req fd left next out = some s') :
    Inv s' := by
  cases out with
  | none =>
    cases hs
    exact h.setCall v trivial
  | some n =>
  simp only [State.write] at hs
  split at hs
  · cases hs
  rename_i conn hc
  split at hs
  swap
  · cases hs
  cases hs
  have h₁ := h.setCall v (hnext (left.drop n))
  cases req with
  | none => exact h₁
  | some r =>
    refine ⟨h₁.fds, h₁.accepted, h₁.closed, h₁.pending, h₁.cancelled, h₁.calls, fun w hw => ?_⟩
    rcases List.mem_append.mp hw with hm | hm
    · exact h₁.written w hm
    · rw [List.mem_singleton.mp hm]
      exact hown r conn rfl hc

/-- The next step of a call. -/
theorem callStep (h : Inv s) {v : Nat} {out : Option Nat} (hs : s.callStep v out = some s') :
    Inv s' := by
  have hmem : ∀ k, s.calls[v]? = some k → k.Faithful s :=
    fun k hk => h.calls k (List.mem_of_getElem? hk)
  unfold State.callStep at hs
  split at hs
  · rename_i req e response hk
    split at hs
    · cases hs
      exact h.setCall v trivial
    · rename_i hno
      obtain ⟨hl, hc⟩ := not_or.mp hno
      cases hs
      exact h.setCall v ((hmem _ hk).send hl hc)
  · rename_i req data hk
    cases hs
    exact h.setCall v (hmem _ hk).test
  · rename_i req data fd hk
    split at hs
    · cases hs
      exact h.setCall v trivial
    · rename_i hno
      cases hs
      exact h.setCall v ((hmem _ hk).lock (not_or.mp hno).2)
  · rename_i req data fd hk
    split at hs
    · cases hs
      have h₁ := h.setCall v ((hmem _ hk).head (header data))
      exact ⟨h₁.fds, h₁.accepted, h₁.closed, h₁.pending, h₁.cancelled, h₁.calls, h₁.written⟩
    · cases hs
  · rename_i req left data fd hk
    have hf := (hmem _ hk).of_head
    split at hs
    · cases hs
      exact h.setCall v (hf.body data)
    · exact h.write hf.own hf.head hs
  · rename_i req left fd hk
    split at hs
    · cases hs
      exact h.setCall v trivial
    · rename_i hl
      have hf : (Call.lock req left fd).Faithful s := (hmem _ hk).of_body hl
      exact h.write hf.own hf.body hs
  · cases hs
    exact (h.close _).setCall v trivial
  · cases hs
    have h₁ := h.setCall v (k := .done) trivial
    exact ⟨h₁.fds, h₁.accepted, h₁.closed, h₁.pending, h₁.cancelled, h₁.calls, h₁.written⟩
  · cases hs
  · cases hs

/-- A request is put on the list. -/
theorem push (h : Inv s) {req : Request} (hr : req.isLocal ∨ req.cancelled ∨ req.Own s)
    (hc : s.fdCommand = none → s.dispatch ≠ .cleared → req.isLocal ∨ req.cancelled) :
    Inv { s with pending := req :: s.pending } where
  fds := h.fds
  accepted := h.accepted
  closed := h.closed
  pending := List.forall_mem_cons.mpr ⟨hr, h.pending⟩
  cancelled := fun hf hd => List.forall_mem_cons.mpr ⟨hc hf hd, h.cancelled hf hd⟩
  calls := h.calls
  written := h.written

theorem receive (h : Inv s) {id token : Nat} (hs : rstep s (.receive id token) = some s') :
    Inv s' := by
  simp only [rstep] at hs
  split at hs
  · cases hs
  rename_i conn hconn
  split at hs
  swap
  · cases hs
  cases hs
  obtain ⟨fd, hcmd, hfd⟩ := Option.bind_eq_some_iff.mp hconn
  refine h.push (.inr (.inr ?_)) ?_
  · intro f c hc
    have hf := h.fds f c hc
    rw [hcmd] at hf
    cases hf
    rw [← hfd, hc]
  · intro hno
    rw [hcmd] at hno
    cases hno

/-- `onCommandsSocketClosed`. -/
theorem cancel (h : Inv s) (hs : rstep s .cancel = some s') : Inv s' := by
  simp only [rstep] at hs
  split at hs
  swap
  · cases hs
  cases hs
  have hall : ∀ req ∈ s.pending.map fun req => { req with cancelled := true },
      req.cancelled = true := by
    intro req hr
    obtain ⟨r, -, rfl⟩ := List.mem_map.mp hr
    rfl
  exact {
    fds := h.fds
    accepted := h.accepted
    closed := (nomatch ·)
    pending := fun req hr => .inr (.inl (hall req hr))
    cancelled := fun _ _ req hr => .inr (hall req hr)
    calls := h.calls
    written := h.written }

/-- A new client, while no call could answer it. -/
theorem accept (h : Inv s) {fd : Nat} (hok : Allowed s (.accept fd))
    (hs : rstep s (.accept fd) = some s') : Inv s' := by
  simp only [rstep] at hs
  split at hs
  swap
  · cases hs
  rename_i hg
  obtain ⟨hready, -, hnone, -⟩ := hg
  cases hs
  -- No connection was open, so the new one is the only one.
  have hclosed : ∀ f, s.fds f = none := by
    intro f
    by_contra hne
    obtain ⟨c, hc⟩ := Option.ne_none_iff_exists'.mp hne
    rw [h.fds f c hc] at hnone
    cases hnone
  have honly : ∀ f c, Function.update s.fds fd (some s.accepted) f = some c →
      f = fd ∧ c = s.accepted := by
    intro f c hc
    by_cases hf : f = fd
    · subst hf
      rw [Function.update_self] at hc
      cases hc
      exact ⟨rfl, rfl⟩
    · rw [Function.update_of_ne hf, hclosed] at hc
      cases hc
  constructor
  · intro f c hc
    rw [(honly f c hc).1]
  · intro f c hc
    rw [(honly f c hc).2]
    exact Nat.lt_succ_self _
  · intro hd
    cases hd
  · intro req hr
    exact (h.cancelled hnone (by rw [hready]; decide) req hr).imp_right .inl
  · intro hf
    cases hf
  · intro k hk
    exact (h.calls k hk).accept (hok k hk) rfl
  · exact h.written

/-- Every allowed step keeps the invariant. -/
theorem step {l : RStep} (h : Inv s) (hok : Allowed s l) (hs : rstep s l = some s') : Inv s' := by
  cases l with
  | receive id token => exact h.receive hs
  | issueLocal id =>
    simp only [rstep] at hs
    split at hs
    · cases hs
      exact h.push (.inl rfl) fun _ _ => .inl rfl
    · cases hs
  | hangUp =>
    simp only [rstep] at hs
    split at hs
    · rename_i hg
      cases hs
      exact h.closeCommand (by rw [hg.1]; decide)
    · cases hs
  | clear =>
    simp only [rstep] at hs
    split at hs
    swap
    · cases hs
    rename_i hd
    cases hs
    refine ⟨fun fd conn hc => ?_, h.accepted, (nomatch ·), h.pending,
      fun _ hd => absurd rfl hd, h.calls, h.written⟩
    rw [h.closed hd fd] at hc
    cases hc
  | cancel => exact h.cancel hs
  | accept fd => exact h.accept hok hs
  | welcome =>
    simp only [rstep] at hs
    split at hs
    swap
    · cases hs
    rename_i hd
    cases hs
    exact ⟨h.fds, h.accepted, (nomatch ·), h.pending,
      fun hf _ => h.cancelled hf (by rw [hd]; decide), h.calls, h.written⟩
  | reject =>
    simp only [rstep] at hs
    split at hs
    · rename_i hg
      cases hs
      exact h.closeCommand (by rw [hg]; decide)
    · cases hs
  | complete id e response =>
    simp only [rstep] at hs
    split at hs
    · cases hs
      exact h
    · rename_i req hreq
      cases hs
      refine h.call ?_ fun r hr => List.mem_of_mem_eraseP hr
      have hp := h.pending req (List.mem_of_find?_eq_some hreq)
      by_cases hno : req.isLocal ∨ req.cancelled ∨
          maxCommandBytes < (solicited req.token e response).length
      · simp only [Call.Faithful, Call.reply, if_pos hno]
      · simp only [Call.Faithful, Call.reply, if_neg hno]
        obtain ⟨hl, hc, -⟩ := by simpa only [not_or] using hno
        exact (hp.resolve_left hl).resolve_left hc
  | unsolicited data =>
    cases hs
    exact h.call (k := .send none data) trivial fun r hr => hr
  | call v out => exact h.callStep hs

end Inv

/-! ## Runs -/

/-- The connection was accepted and is closed. -/
def State.Closed (s : State) (conn : Nat) : Prop :=
  conn < s.accepted ∧ ∀ fd, s.fds fd ≠ some conn

/-- What was written for the requests of a connection. -/
def State.answers (s : State) (conn : Nat) : List Write :=
  s.written.filter (·.req.origin = some conn)

/-- What a step can do to the connections, and to what was written. -/
structure Grows (s s' : State) : Prop where
  accepted : s.accepted ≤ s'.accepted
  fds : ∀ fd conn, s'.fds fd = some conn → s.fds fd = some conn ∨ s.accepted ≤ conn
  written : s'.written = s.written ∨
    ∃ w fd, s'.written = s.written ++ [w] ∧ s.fds fd = some w.conn

namespace Grows

variable {s s' : State}

theorem quiet (ha : s'.accepted = s.accepted) (hf : s'.fds = s.fds)
    (hw : s'.written = s.written) : Grows s s' :=
  ⟨ha.ge, fun _ _ hc => .inl (hf ▸ hc), .inl hw⟩

theorem close (fd : Option Nat) : Grows s (s.close fd) := by
  cases fd with
  | none => exact .quiet rfl rfl rfl
  | some fd =>
    refine ⟨le_rfl, fun f conn hc => .inl ?_, .inl rfl⟩
    by_cases hf : f = fd
    · subst hf
      simp [State.close] at hc
    · simpa [State.close, hf] using hc

theorem write {v : Nat} {req : Option Request} {fd : Option Nat} {left : List UInt8}
    {next : List UInt8 → Call} {out : Option Nat}
    (hs : s.write v req fd left next out = some s') : Grows s s' := by
  cases out with
  | none =>
    cases hs
    exact .quiet rfl rfl rfl
  | some n =>
  simp only [State.write] at hs
  split at hs
  · cases hs
  rename_i conn hc
  split at hs
  swap
  · cases hs
  cases hs
  obtain ⟨f, -, hf⟩ := Option.bind_eq_some_iff.mp hc
  cases req with
  | none => exact .quiet rfl rfl rfl
  | some r => exact ⟨le_rfl, fun _ _ hc => .inl hc, .inr ⟨⟨r, conn, left.take n⟩, f, rfl, hf⟩⟩

theorem callStep {v : Nat} {out : Option Nat} (hs : s.callStep v out = some s') : Grows s s' := by
  unfold State.callStep at hs
  split at hs
  · split at hs <;> cases hs <;> exact .quiet rfl rfl rfl
  · cases hs
    exact .quiet rfl rfl rfl
  · split at hs <;> cases hs <;> exact .quiet rfl rfl rfl
  · split at hs <;> cases hs
    exact .quiet rfl rfl rfl
  · split at hs
    · cases hs
      exact .quiet rfl rfl rfl
    · exact .write hs
  · split at hs
    · cases hs
      exact .quiet rfl rfl rfl
    · exact .write hs
  · rename_i fd _
    cases hs
    have h := close (s := s) fd
    exact ⟨h.accepted, h.fds, h.written⟩
  · cases hs
    exact .quiet rfl rfl rfl
  · cases hs
  · cases hs

theorem step {l : RStep} (hs : rstep s l = some s') : Grows s s' := by
  cases l with
  | call v out => exact .callStep hs
  | unsolicited data =>
    cases hs
    exact .quiet rfl rfl rfl
  | receive id token =>
    simp only [rstep] at hs
    split at hs
    · cases hs
    split at hs <;> cases hs
    exact .quiet rfl rfl rfl
  | complete id e response =>
    simp only [rstep] at hs
    split at hs <;> cases hs <;> exact .quiet rfl rfl rfl
  | issueLocal _ | clear | cancel | welcome =>
    simp only [rstep] at hs
    split at hs <;> cases hs
    exact .quiet rfl rfl rfl
  | hangUp | reject =>
    simp only [rstep] at hs
    split at hs <;> cases hs
    have h := close (s := s) s.fdCommand
    exact ⟨h.accepted, h.fds, h.written⟩
  | accept fd =>
    simp only [rstep] at hs
    split at hs <;> cases hs
    refine ⟨Nat.le_succ _, fun f conn hc => ?_, .inl rfl⟩
    by_cases hf : f = fd
    · subst hf
      simp only [Function.update_self] at hc
      cases hc
      exact .inr le_rfl
    · simp only [Function.update_of_ne hf] at hc
      exact .inl hc

/-- A closed connection stays closed, and its requests get no answer: a write goes to an open
connection, which is the one of its request. -/
theorem closed (h : Grows s s') (hw : ∀ w ∈ s'.written, w.req.origin = some w.conn) {conn : Nat}
    (hc : s.Closed conn) : s'.Closed conn ∧ s'.answers conn = s.answers conn := by
  refine ⟨⟨hc.1.trans_le h.accepted, fun fd hfd => ?_⟩, ?_⟩
  · rcases h.fds fd conn hfd with ho | hn
    · exact hc.2 fd ho
    · exact absurd hc.1 (Nat.not_lt.mpr hn)
  · rcases h.written with he | ⟨w, fd, he, hfd⟩
    · rw [State.answers, he, State.answers]
    · have hwo : w.req.origin = some w.conn := hw w (by simp [he])
      have hne : w.conn ≠ conn := fun heq => hc.2 fd (heq ▸ hfd)
      simp [State.answers, he, hwo, hne]

end Grows

/-- In every run in which no client is accepted while a call could answer it, each response goes to
the connection that its request came on, and once a connection is closed no request of it is
answered. -/
theorem responses_stay (ls₁ ls₂ : List RStep) (s s' : State)
    (hok₁ : RunOk rstep Allowed State.init ls₁) (h₁ : run rstep State.init ls₁ = some s)
    (hok₂ : RunOk rstep Allowed s ls₂) (h₂ : run rstep s ls₂ = some s') :
    (∀ w ∈ s'.written, w.req.origin = some w.conn) ∧
      ∀ conn, s.Closed conn → s'.answers conn = s.answers conn := by
  have hstep : ∀ s l s', Inv s → Allowed s l → rstep s l = some s' → Inv s' :=
    fun s l s' h hl hs => h.step hl hs
  have hinv := run_invariant hstep Inv.init hok₁ h₁
  refine ⟨(run_invariant hstep hinv hok₂ h₂).written, fun conn hc => ?_⟩
  have hrun : Inv s' ∧ s'.Closed conn ∧ s'.answers conn = s.answers conn := by
    refine run_invariant (I := fun t => Inv t ∧ t.Closed conn ∧ t.answers conn = s.answers conn)
      (fun t l t' ht hl hs => ?_) ⟨hinv, hc, rfl⟩ hok₂ h₂
    obtain ⟨hi, hcl, ha⟩ := ht
    have hi' := hi.step hl hs
    obtain ⟨hcl', ha'⟩ := (Grows.step hs).closed hi'.written hcl
    exact ⟨hi', hcl', ha'.trans ha⟩
  exact hrun.2.2

/-- The phone connects and sends a request. The request is answered in two writes of the data, the
last one after other requests came in, and the connection is closed. -/
def answered : List RStep :=
  [.accept 5, .welcome, .receive 0 7, .complete 0 0 none, .call 0 none, .receive 1 8, .call 0 none,
    .call 0 none, .call 0 none, .call 0 (some 4), .call 0 none, .call 0 (some 6), .call 0 (some 6),
    .call 0 none, .call 0 none, .hangUp, .clear, .cancel]

/-- A second client comes under the same descriptor, and the request of the first that was left is
completed. -/
def reconnected : List RStep :=
  [.accept 5, .welcome, .complete 1 0 none, .call 1 none]

theorem responses_stay_reconnected :
    ∃ s s', run rstep State.init answered = some s ∧ run rstep s reconnected = some s' ∧
      s.Closed 0 ∧ s'.written.length = 3 ∧ s'.fds 5 = some 1 ∧
      s'.answers 0 = s.answers 0 ∧ ∀ w ∈ s'.written, w.req.origin = some w.conn := by
  have hclosed : ∀ fd, Function.update (Function.update (fun _ => none) 5 (some 0)) 5 none fd ≠
      some 0 := by
    intro fd
    by_cases hfd : fd = 5 <;> simp [hfd]
  have h := responses_stay answered reconnected _ _ (by decide) rfl (by decide) rfl
  exact ⟨_, _, rfl, rfl, ⟨by decide, hclosed⟩, rfl, rfl, h.2 0 ⟨by decide, hclosed⟩, h.1⟩

/-- The request is off the list when the first client goes, and the call reads `s_fdCommand` after
the second client has come. -/
def overtaken : List RStep :=
  [.accept 5, .welcome, .receive 0 7, .complete 0 0 none, .hangUp, .clear, .cancel, .accept 5,
    .welcome, .call 0 none, .call 0 none, .call 0 none, .call 0 none, .call 0 (some 4)]

/-- The second client gets the response to a request of the first. -/
theorem response_crosses :
    ∃ s, run rstep State.init overtaken = some s ∧
      ∃ w ∈ s.written, w.req.origin = some 0 ∧ w.conn = 1 :=
  ⟨_, rfl, _, List.mem_singleton.mpr rfl, rfl, rfl⟩

end Twm.Ril
