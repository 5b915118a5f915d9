import Mathlib.Data.List.Basic
import OpenFlux.Transport.DocsSession

/-!
# No packet is lost over reconnects

There is at most one connecting goroutine, because each starts its successor when it leaves.  So the
first session is published once, with the one channel and the one writer, and every later session
takes over that channel (`Good`).  A packet that `Send` accepted is written, or held by the writer,
or in the channel, in this order (`Settled`); what has been written is therefore a prefix of what
was accepted (`written_prefix_accepted`).
-/

namespace OpenFlux.Transport.Docs

/-! ### The invariant -/

/-- A connecting goroutine knows the session there is. -/
def ConnPc.Sees (session : Option Session) : ConnPc → Prop
  | .start _ | .sleeping _ => True
  | .fetching _ existing | .dialing _ existing => existing = session
  | .reading _ => session ≠ none

/-- The packet a writer holds. -/
def WriterPc.pending : WriterPc → List Bytes
  | .waiting | .receiving _ => []
  | .holding _ packet => [packet]

/-- A writer takes packets from this channel only. -/
def WriterPc.TakesFrom (queue : ℕ) : WriterPc → Prop
  | .waiting => True
  | .receiving q | .holding q _ => q = queue

/-- The call of `Send` has read no session but this. -/
def SendPc.Sees (session : Option Session) : SendPc → Prop
  | .checked _ => True
  | .loaded _ s => session = some s

/-- Before the first session nothing has happened, and with a session there is one channel and one
writer, and every accepted packet is accounted for. -/
def Settled (s : State) : Prop :=
  match s.session with
  | none => s.channels = [] ∧ s.writers = [] ∧ s.accepted = [] ∧ s.written = []
  | some session => session.writeQueue = 0 ∧ ∃ queue writer, s.channels = [queue] ∧
      s.writers = [writer] ∧ writer.TakesFrom 0 ∧ s.accepted = s.written ++ writer.pending ++ queue

/-- The invariant of a running transport. -/
structure Good (s : State) : Prop where
  connectors_le : s.connectors.length ≤ 1
  connectors_see : ∀ c ∈ s.connectors, c.Sees s.session
  sends_see : ∀ c ∈ s.sends, c.Sees s.session
  settled : Settled s

variable {cfg : SessionConfig} {s s' : State}

theorem good_init : Good {} where
  connectors_le := Nat.le_refl 1
  connectors_see := by simp [ConnPc.Sees]
  sends_see := by simp
  settled := ⟨rfl, rfl, rfl, rfl⟩

/-! ### Send -/

theorem good_call (h : Good s) (data : Bytes) : Good (s.call data) := by
  unfold State.call
  split_ifs
  · refine { h with sends_see := ?_, settled := h.settled }
    intro c hc
    rcases List.mem_append.mp hc with hold | hnew
    · exact h.sends_see c hold
    · rw [List.mem_singleton.mp hnew]
      trivial
  · exact h

/-- A call of `Send` that returns changes nothing for the others. -/
theorem good_sends {sends : List SendPc} (h : Good s) (hsends : ∀ c ∈ sends, c.Sees s.session) :
    Good { s with sends } :=
  { h with sends_see := hsends, settled := h.settled }

theorem Good.session_of_loaded (h : Good s) {i : ℕ} {data : Bytes} {session : Session}
    (hi : s.sends[i]? = some (.loaded data session)) : s.session = some session :=
  h.sends_see _ (List.mem_of_getElem? hi)

theorem good_stepSend (h : Good s) {i : ℕ} (hstep : s.stepSend cfg i = some s') : Good s' := by
  have herase : ∀ c ∈ s.sends.eraseIdx i, c.Sees s.session :=
    fun c hc => h.sends_see c (List.mem_of_mem_eraseIdx hc)
  rcases hi : s.sends[i]? with _ | (data | ⟨data, session⟩)
  · simp [State.stepSend, hi] at hstep
  · rcases hsession : s.session with _ | session
    · simp only [State.stepSend, hi, hsession, Option.some.injEq] at hstep
      rw [← hstep, ← hsession]
      exact good_sends h herase
    · simp only [State.stepSend, hi, hsession, Option.some.injEq] at hstep
      rw [← hstep, ← hsession]
      refine good_sends h fun c hc => ?_
      rcases List.mem_or_eq_of_mem_set hc with hold | rfl
      · exact h.sends_see c hold
      · exact hsession
  · have hsession := h.session_of_loaded hi
    have hsettled := h.settled
    rw [Settled, hsession] at hsettled
    obtain ⟨hzero, queue, writer, hchannels, hwriters, htakes, hacc⟩ := hsettled
    have hchannel : s.channels[session.writeQueue]? = some queue := by rw [hzero, hchannels]; rfl
    simp only [State.stepSend, hi, hchannel] at hstep
    split_ifs at hstep
    · rw [← Option.some.inj hstep]
      refine ⟨h.connectors_le, h.connectors_see, herase, ?_⟩
      show Settled { s with sends := _, channels := _, accepted := _ }
      simp only [Settled, hsession]
      refine ⟨hzero, queue ++ [data], writer, ?_, hwriters, htakes, ?_⟩
      · rw [hzero, hchannels]
        rfl
      · rw [hacc, List.append_assoc]
    · exact Option.some.inj hstep ▸ good_sends h herase

/-! ### Connecting -/

/-- A connecting goroutine that moves on, or leaves with or without a successor, if what comes after
it knows the session. -/
theorem good_connectors {connectors : List ConnPc} {connected : Bool} (h : Good s)
    (hle : connectors.length ≤ 1) (hsee : ∀ c ∈ connectors, c.Sees s.session) :
    Good { s with connectors, connected } :=
  ⟨hle, hsee, h.sends_see, h.settled⟩

theorem sees_set (h : Good s) {i : ℕ} {c : ConnPc} (hc : c.Sees s.session) :
    ∀ d ∈ s.connectors.set i c, d.Sees s.session := by
  intro d hd
  rcases List.mem_or_eq_of_mem_set hd with hold | rfl
  · exact h.connectors_see d hold
  · exact hc

theorem good_set (h : Good s) {i : ℕ} {c : ConnPc} {connected : Bool} (hc : c.Sees s.session) :
    Good { s with connectors := s.connectors.set i c, connected } :=
  good_connectors h (by rw [List.length_set]; exact h.connectors_le) (sees_set h hc)

theorem good_scheduleReconnect (h : Good s) (i : ℕ) (attempt : ℤ) :
    Good (s.scheduleReconnect cfg i attempt) := by
  unfold State.scheduleReconnect
  split_ifs
  · refine good_connectors h ?_ fun c hc => h.connectors_see c (List.mem_of_mem_eraseIdx hc)
    exact (List.length_eraseIdx_le ..).trans h.connectors_le
  · exact good_set h trivial

/-- The only connecting goroutine. -/
theorem Good.connectors_eq (h : Good s) {i : ℕ} {c : ConnPc} (hi : s.connectors[i]? = some c) :
    s.connectors = [c] ∧ i = 0 := by
  obtain ⟨hlt, hget⟩ := List.getElem?_eq_some_iff.mp hi
  have hle := h.connectors_le
  have hlen : s.connectors.length = 1 := by omega
  obtain ⟨d, hd⟩ := List.length_eq_one_iff.mp hlen
  have hzero : i = 0 := by omega
  subst hzero
  rw [hd, List.getElem?_cons_zero, Option.some.injEq] at hi
  exact ⟨hi ▸ hd, rfl⟩

/-- A session is published over the one before it, or it is the first. -/
theorem good_publish (h : Good s) {i : ℕ} {attempt : ℤ} {existing : Option Session}
    (hi : s.connectors[i]? = some (.dialing attempt existing)) :
    Good (s.publish i attempt existing) := by
  have hexisting : existing = s.session := h.connectors_see _ (List.mem_of_getElem? hi)
  obtain ⟨hconns, rfl⟩ := h.connectors_eq hi
  have hset : s.connectors.set 0 (.reading attempt) = [.reading attempt] := by rw [hconns]; rfl
  have hsettled := h.settled
  rcases existing with _ | session
  · rw [Settled, ← hexisting] at hsettled
    obtain ⟨hchannels, hwriters, hacc, hwritten⟩ := hsettled
    refine ⟨?_, ?_, ?_, ?_⟩
    · show (s.connectors.set 0 (.reading attempt)).length ≤ 1
      rw [hset]
      exact Nat.le_refl 1
    · show ∀ c ∈ s.connectors.set 0 (.reading attempt), _
      rw [hset]
      intro c hc
      rw [List.mem_singleton.mp hc]
      exact nofun
    · -- no call has read a session before
      intro c hc
      have hsee := h.sends_see c hc
      rcases c with data | ⟨data, session⟩
      · trivial
      · exact absurd (hexisting.trans hsee) nofun
    · refine ⟨?_, [], .waiting, ?_, ?_, trivial, ?_⟩
      · show s.channels.length = 0
        rw [hchannels]
        rfl
      · show s.channels ++ [[]] = [[]]
        rw [hchannels]
        rfl
      · show s.writers ++ [.waiting] = [.waiting]
        rw [hwriters]
        rfl
      · show s.accepted = s.written ++ [] ++ []
        rw [hacc, hwritten]
        rfl
  · have hsame : some (Session.mk session.writeQueue) = s.session := hexisting
    refine ⟨?_, ?_, ?_, ?_⟩
    · show (s.connectors.set 0 (.reading attempt)).length ≤ 1
      rw [hset]
      exact Nat.le_refl 1
    · show ∀ c ∈ s.connectors.set 0 (.reading attempt), _
      rw [hset]
      intro c hc
      rw [List.mem_singleton.mp hc]
      exact nofun
    · intro c hc
      show c.Sees (some ⟨session.writeQueue⟩)
      rw [hsame]
      exact h.sends_see c hc
    · rw [Settled, ← hsame] at hsettled
      exact hsettled

theorem good_stepConnect (h : Good s) {i : ℕ} {outcome : Outcome}
    (hstep : s.stepConnect cfg i outcome = some s') : Good s' := by
  rcases hi : s.connectors[i]? with _ | c
  · simp [State.stepConnect, hi] at hstep
  · have hsee := h.connectors_see c (List.mem_of_getElem? hi)
    rcases c with attempt | ⟨attempt, existing⟩ | ⟨attempt, existing⟩ | attempt | next
    · simp only [State.stepConnect, hi, Option.some.injEq] at hstep
      exact hstep ▸ good_set h rfl
    · rcases outcome with _ | late
      · simp only [State.stepConnect, hi, Option.some.injEq] at hstep
        exact hstep ▸ good_set h hsee
      · simp only [State.stepConnect, hi, Option.some.injEq] at hstep
        exact hstep ▸ good_scheduleReconnect h i attempt
    · rcases outcome with _ | late
      · simp only [State.stepConnect, hi, Option.some.injEq] at hstep
        exact hstep ▸ good_publish h hi
      · simp only [State.stepConnect, hi, Option.some.injEq] at hstep
        exact hstep ▸ good_scheduleReconnect h i attempt
    · rcases outcome with _ | late
      · simp only [State.stepConnect, hi, Option.some.injEq] at hstep
        exact hstep ▸ h
      · simp only [State.stepConnect, hi, Option.some.injEq] at hstep
        have hdown : Good { s with connected := false } :=
          good_connectors h h.connectors_le h.connectors_see
        exact hstep ▸ good_scheduleReconnect hdown i _
    · simp only [State.stepConnect, hi, Option.some.injEq] at hstep
      obtain ⟨hconns, rfl⟩ := h.connectors_eq hi
      have hnext : s.connectors.eraseIdx 0 ++ [.start next] = [.start next] := by rw [hconns]; rfl
      rw [← hstep, hnext]
      refine good_connectors h (Nat.le_refl 1) fun c hc => ?_
      rw [List.mem_singleton.mp hc]
      trivial

/-! ### Writing -/

/-- The only writer takes a step that leaves the accepted packets accounted for. -/
theorem good_writer {session : Session} {channels : List (List Bytes)} {writers : List WriterPc}
    {written queue : List Bytes} {writer : WriterPc} (h : Good s) (hsession : s.session = some session)
    (hzero : session.writeQueue = 0) (hchannels : channels = [queue]) (hwriters : writers = [writer])
    (htakes : writer.TakesFrom 0) (hacc : s.accepted = written ++ writer.pending ++ queue) :
    Good { s with channels, writers, written } := by
  refine ⟨h.connectors_le, h.connectors_see, h.sends_see, ?_⟩
  simp only [Settled, hsession]
  exact ⟨hzero, queue, writer, hchannels, hwriters, htakes, hacc⟩

theorem good_stepWriter (h : Good s) {i : ℕ} {outcome : Outcome}
    (hstep : s.stepWriter i outcome = some s') : Good s' := by
  have hsettled := h.settled
  rcases hsession : s.session with _ | session
  · -- there is no writer yet
    rw [Settled, hsession] at hsettled
    obtain ⟨-, hwriters, -⟩ := hsettled
    simp [State.stepWriter, hwriters] at hstep
  · rw [Settled, hsession] at hsettled
    obtain ⟨hzero, queue, writer, hchannels, hwriters, htakes, hacc⟩ := hsettled
    rcases i with _ | i
    · have hi : s.writers[0]? = some writer := by rw [hwriters]; rfl
      have hset : ∀ w, s.writers.set 0 w = [w] := fun w => by rw [hwriters]; rfl
      rcases writer with _ | q | ⟨q, packet⟩
      · -- it takes the channel of the session
        simp only [State.stepWriter, hi, hsession, Option.some.injEq] at hstep
        rw [← hstep, ← hsession]
        exact good_writer h hsession hzero hchannels (hset _) hzero hacc
      · obtain rfl : q = 0 := htakes
        rcases queue with _ | ⟨packet, rest⟩
        · simp [State.stepWriter, hi, hchannels] at hstep
        · -- it takes the oldest packet
          have hchannel : s.channels[0]? = some (packet :: rest) := by rw [hchannels]; rfl
          simp only [State.stepWriter, hi, hchannel, Option.some.injEq] at hstep
          have hrest : s.channels.set 0 rest = [rest] := by rw [hchannels]; rfl
          rw [← hstep]
          refine good_writer h hsession hzero hrest (hset _) rfl ?_
          rw [hacc]
          simp [WriterPc.pending]
      · obtain rfl : q = 0 := htakes
        rcases outcome with _ | late
        · -- a web socket takes the packet
          simp only [State.stepWriter, hi, hsession, Option.some.injEq] at hstep
          rw [← hstep, ← hsession]
          refine good_writer h hsession hzero hchannels (hset _) rfl ?_
          rw [hacc]
          simp [WriterPc.pending]
        · simp only [State.stepWriter, hi, hsession, Option.some.injEq] at hstep
          exact hstep ▸ h
    · simp [State.stepWriter, hwriters] at hstep

theorem good_step {e : Event} (h : Good s) (hstep : (sessions cfg).step s e = some s') : Good s' := by
  cases e with
  | call data => exact Option.some.inj hstep ▸ good_call h data
  | send i => exact good_stepSend h hstep
  | connect i outcome => exact good_stepConnect h hstep
  | write i outcome => exact good_stepWriter h hstep
  | keepAlive outcome =>
    rw [← Option.some.inj hstep]
    show Good (s.stepKeepAlive outcome)
    unfold State.stepKeepAlive
    split
    · exact good_connectors h h.connectors_le h.connectors_see
    · exact h

/-! ### Send as one step -/

/-- `Send` in one step is a run of its steps. -/
theorem run_sendNow (h : Good s) (hsends : s.sends = []) (data : Bytes) :
    ∃ es, (sessions cfg).run s es = some (s.sendNow cfg data).1 := by
  obtain ⟨connected, session, channels, connectors, writers, sends, accepted, written⟩ := s
  obtain rfl : sends = [] := hsends
  rcases connected with _ | _
  · exact ⟨[.call data], rfl⟩
  · rcases session with _ | session
    · exact ⟨[.call data, .send 0], rfl⟩
    · obtain ⟨hzero, queue, writer, hchannels, -⟩ := h.settled
      have hchannel : channels[session.writeQueue]? = some queue := by
        rw [hzero, show channels = [queue] from hchannels]
        rfl
      refine ⟨[.call data, .send 0, .send 0], ?_⟩
      show State.stepSend cfg ⟨true, some session, channels, connectors, writers,
        [.loaded data session], accepted, written⟩ 0 >>= some = _
      simp only [State.stepSend, State.sendNow, List.getElem?_cons_zero, hchannel, if_true]
      split_ifs <;> rfl

@[simp] theorem sends_sendNow (s : State) (data : Bytes) :
    (s.sendNow cfg data).1.sends = s.sends := by
  unfold State.sendNow
  repeat' split
  all_goals rfl

@[simp] theorem sends_scheduleReconnect (s : State) (i : ℕ) (attempt : ℤ) :
    (s.scheduleReconnect cfg i attempt).sends = s.sends := by
  unfold State.scheduleReconnect
  split_ifs <;> rfl

@[simp] theorem sends_publish (s : State) (i : ℕ) (attempt : ℤ) (existing : Option Session) :
    (s.publish i attempt existing).sends = s.sends := by
  cases existing <;> rfl

/-- Steps other than those of `Send` begin no call of it. -/
theorem sends_of_step {e : Event} (hsends : s.sends = []) (he : ∀ data, e ≠ .call data)
    (hstep : (sessions cfg).step s e = some s') : s'.sends = [] := by
  cases e with
  | call data => exact absurd rfl (he data)
  | send i => simp [sessions, State.stepSend, hsends] at hstep
  | connect i outcome =>
    replace hstep : s.stepConnect cfg i outcome = some s' := hstep
    unfold State.stepConnect at hstep
    rw [← hsends]
    split at hstep <;> cases hstep
    all_goals simp
  | write i outcome =>
    replace hstep : s.stepWriter i outcome = some s' := hstep
    unfold State.stepWriter at hstep
    rw [← hsends]
    repeat' split at hstep
    all_goals cases hstep <;> rfl
  | keepAlive outcome =>
    rw [← Option.some.inj hstep, ← hsends]
    show (s.stepKeepAlive outcome).sends = s.sends
    unfold State.stepKeepAlive
    split <;> rfl
/-! ### All runs -/

/-- **Nothing is lost**: in every state that a running transport reaches, what has been written to
web sockets is a prefix of the packets for which `Send` returned nil, and once there is a session
there is exactly one writer, and every other accepted packet is held by it or in the one queue, in
order. -/
theorem written_prefix_accepted (h : (sessions cfg).Reachable s) :
    s.written <+: s.accepted ∧ (s.session ≠ none → ∃ writer queue, s.writers = [writer] ∧
      s.channels = [queue] ∧ s.accepted = s.written ++ writer.pending ++ queue) := by
  have hsettled := (h.invariant good_init fun _ _ _ => good_step).settled
  rcases hsession : s.session with _ | session
  · rw [Settled, hsession] at hsettled
    obtain ⟨-, -, hacc, hwritten⟩ := hsettled
    rw [hacc, hwritten]
    exact ⟨List.prefix_rfl, fun hne => absurd rfl hne⟩
  · rw [Settled, hsession] at hsettled
    obtain ⟨-, queue, writer, hchannels, hwriters, -, hacc⟩ := hsettled
    refine ⟨?_, fun _ => ⟨writer, queue, hwriters, hchannels, hacc⟩⟩
    rw [hacc, List.append_assoc]
    exact List.prefix_append ..

/-- A packet whose write fails while the connection breaks, and goes out over the next session. -/
def reconnectRun : List Event :=
  [.connect 0 .ok, .connect 0 .ok, .connect 0 .ok, .call [1], .send 0, .send 0, .write 0 .ok,
    .write 0 .ok, .write 0 (.failed false), .connect 0 (.failed true), .connect 0 .ok,
    .connect 0 .ok, .connect 0 .ok, .connect 0 .ok, .write 0 .ok]

theorem written_prefix_accepted_reconnect :
    ∃ s, (sessions ⟨5, 1024⟩).run (sessions ⟨5, 1024⟩).init reconnectRun = some s ∧
      s.written = [[1]] ∧ s.written <+: s.accepted ∧ ∃ writer, s.writers = [writer] := by
  have hrun : (sessions ⟨5, 1024⟩).run (sessions ⟨5, 1024⟩).init reconnectRun =
      some ⟨true, some ⟨0⟩, [[]], [.reading 0], [.receiving 0], [], [[1]], [[1]]⟩ := rfl
  obtain ⟨hpre, hwriter⟩ := written_prefix_accepted ⟨reconnectRun, hrun⟩
  obtain ⟨writer, -, hone, -⟩ := hwriter nofun
  exact ⟨_, hrun, rfl, hpre, writer, hone⟩

end OpenFlux.Transport.Docs
