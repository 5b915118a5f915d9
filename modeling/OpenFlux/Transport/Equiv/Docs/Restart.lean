import OpenFlux.Transport.Equiv.Docs.Threads
import OpenFlux.Transport.Equiv.DocsSession

/-!
# Restarting the Mail.ru transport

`Stop` only clears the flags: the session stays, its reader waits for the next message, and its
writer for the next packet.  A `Start` adds a second reader if the old one is still there, and no
writer if the old one has left, because there is a session already.  So both are there once exactly
as long as each `Start` finds the reader gone and, with a session, the writer not
(`served_of_running`).
-/

namespace OpenFlux.Transport.Docs

/-- The packet a writer holds. -/
def Writer.pending : Writer → List Bytes
  | .looping _ pending => pending.toList
  | .loading _ packet | .sending _ packet _ => [packet]
  | _ => []

/-- A writer takes packets from this channel only. -/
def Writer.TakesFrom (queue : ℕ) : Writer → Prop
  | .waiting | .looking => True
  | .looping q _ | .receiving q | .loading q _ | .sending q _ _ => q = queue

/-- A connecting goroutine knows the session there is. -/
def Connector.Sees (session : Option DocSession) : Connector → Prop
  | .fetching _ existing | .dialing _ existing | .dialed _ existing _ => existing = session
  | _ => True

namespace Threads

variable {cfg : SessionConfig} {s s' : Threads}

/-- One writer consumes the queue of the session, one goroutine reads and reconnects, and every
accepted packet has been written, or is held by the writer, or is in the queue, in this order. -/
def Served (s : Threads) (session : DocSession) : Prop :=
  ∃ writer connector queue, s.writers = [writer] ∧ writer.TakesFrom session.writeQueue ∧
    s.connectors = [connector] ∧ s.channels[session.writeQueue]? = some queue ∧
      s.accepted = s.written ++ writer.pending ++ queue

/-- `Start` is called only when no connecting goroutine is left and, after the first session, a
writer is; and no goroutine gives up reconnecting. -/
def Resumable (cfg : SessionConfig) (s : Threads) : Event → Prop
  | .start => s.connectors = [] ∧ (s.session ≠ none → s.writers ≠ [])
  | .connect i _ =>
    match s.connectors[i]? with
    | some (.retrying attempt) => s.running = true → attempt + 1 < cfg.maxReconnectAttempts
    | _ => True
  | _ => True

/-- What `Resumable` asks of one goroutine. -/
def decidableRetrying (cfg : SessionConfig) (s : Threads) : ∀ c : Option Connector, Decidable
    (match c with
      | some (.retrying attempt) => s.running = true → attempt + 1 < cfg.maxReconnectAttempts
      | _ => True)
  | some (.retrying _) => @instDecidableForall _ _ (instDecidableEqBool _ _) (Int.decLt _ _)
  | none | some (.start _) | some (.fetching _ _) | some (.dialing _ _) | some (.dialed _ _ _)
  | some (.authorizing _ _) | some (.looping _ _) | some (.reading _ _) | some (.broken _ _ _)
  | some (.closing _ _ _) | some (.sleeping _) | some (.connecting _) => instDecidableTrue

instance (s : Threads) : ∀ e, Decidable (Resumable cfg s e)
  | .start => inferInstanceAs (Decidable (_ ∧ (_ → _)))
  | .connect i _ => decidableRetrying cfg s s.connectors[i]?
  | .callStop | .stop | .call _ | .send _ | .write _ _ | .keepAlive _ _ =>
    inferInstanceAs (Decidable True)

/-! ### The invariant -/

/-- The queue of the session, for the calls of `Send`. -/
def link (s : Threads) : Option Session := s.session.map DocSession.toSession

/-- There is one writer, and with it every accepted packet is accounted for. -/
def Accounted (s : Threads) (queue : List Bytes) : Prop :=
  ∃ writer, s.writers = [writer] ∧ writer.TakesFrom 0 ∧
    s.accepted = s.written ++ writer.pending ++ queue

structure Good (s : Threads) : Prop where
  connectors_le : s.connectors.length ≤ 1
  running : s.running = true → s.connectors ≠ []
  sees : ∀ c ∈ s.connectors, c.Sees s.session
  sends_see : ∀ c ∈ s.sends, c.Sees s.link
  stop : s.stop = none ∨ s.stop = some .running ∨ s.stop = some .connected
  /-- Before the first session nothing has happened. -/
  unopened : s.session = none →
    s.channels = [] ∧ s.writers = [] ∧ s.accepted = [] ∧ s.written = []
  zero : ∀ session, s.session = some session → session.writeQueue = 0
  /-- The writer leaves only while the transport is stopped. -/
  opened : s.session ≠ none → ∃ queue, s.channels = [queue] ∧
    (Accounted s queue ∨ s.writers = [] ∧ s.running = false)

theorem good_init : Good (threads .mailru cfg).init where
  connectors_le := Nat.zero_le 1
  running := nofun
  sees := by simp [threads]
  sends_see := by simp [threads]
  stop := .inl rfl
  unopened _ := ⟨rfl, rfl, rfl, rfl⟩
  zero := nofun
  opened := absurd rfl

/-! ### The calls -/

theorem Good.start (h : Good s) (halone : s.connectors = [])
    (hwriter : s.session ≠ none → s.writers ≠ []) : Good s.start := by
  have hconnectors : s.start.connectors = [.start 0] := by
    show s.connectors ++ _ = _
    rw [halone, List.nil_append]
  refine ⟨?_, fun _ => ?_, ?_, h.sends_see, h.stop, h.unopened, h.zero, fun hsession => ?_⟩
  · rw [hconnectors]
    exact le_rfl
  · rw [hconnectors]
    exact nofun
  · rw [hconnectors, List.forall_mem_singleton]
    trivial
  · obtain ⟨queue, hchannels, hone | ⟨hnone, -⟩⟩ := h.opened hsession
    · exact ⟨queue, hchannels, .inl hone⟩
    · exact absurd hnone (hwriter hsession)

theorem good_stop (h : Good s) (hstep : s.stepStop .mailru = some s') : Good s' := by
  rcases h.stop with hstop | hstop | hstop
  · simp [stepStop, hstop] at hstep
  · simp only [stepStop, hstop, Option.some.injEq] at hstep
    subst hstep
    exact { h with
      running := nofun
      stop := .inr (.inr rfl)
      opened := fun hsession => (h.opened hsession).imp fun queue hqueue =>
        hqueue.imp_right fun hor => hor.imp_right fun hleft => ⟨hleft.1, rfl⟩ }
  · simp only [stepStop, hstop, Option.some.injEq] at hstep
    subst hstep
    exact { h with stop := .inl rfl }

theorem good_call (h : Good s) (data : Bytes) : Good (s.call data).1 := by
  unfold Threads.call
  split_ifs
  · refine { h with sends_see := fun c hc => ?_ }
    rcases List.mem_append.mp hc with hold | hnew
    · exact h.sends_see c hold
    · rw [List.mem_singleton.mp hnew]
      trivial
  · exact h

/-- A call of `Send` that returns changes nothing for the others. -/
theorem Good.sends {sends : List SendPc} (h : Good s) (hsends : ∀ c ∈ sends, c.Sees s.link) :
    Good { s with sends } :=
  { h with sends_see := hsends }

theorem good_send {i : ℕ} (h : Good s) (hstep : s.stepSend cfg i = some s') : Good s' := by
  have herase : ∀ c ∈ s.sends.eraseIdx i, c.Sees s.link :=
    fun c hc => h.sends_see c (List.mem_of_mem_eraseIdx hc)
  cases hi : s.sends[i]? with
  | none => simp [stepSend, hi] at hstep
  | some c =>
    have hsee := h.sends_see c (List.mem_of_getElem? hi)
    cases c with
    | checked data =>
      cases hsession : s.session with
      | none =>
        simp only [stepSend, hi, hsession, Option.some.injEq] at hstep
        rw [← hstep, ← hsession]
        exact h.sends herase
      | some session =>
        simp only [stepSend, hi, hsession, Option.some.injEq] at hstep
        rw [← hstep, ← hsession]
        refine h.sends fun c hc => ?_
        rcases List.mem_or_eq_of_mem_set hc with hold | rfl
        · exact h.sends_see c hold
        · show s.link = some session.toSession
          rw [link, hsession]
          rfl
    | loaded data session =>
      obtain ⟨docSession, hsession, rfl⟩ := Option.map_eq_some_iff.mp hsee
      have hopen : s.session ≠ none := by rw [hsession]; exact nofun
      obtain ⟨queue, hchannels, hwriter⟩ := h.opened hopen
      have hzero := h.zero docSession hsession
      have hchannel : s.channels[docSession.writeQueue]? = some queue := by
        rw [hzero, hchannels]
        rfl
      simp only [stepSend, hi, hchannel] at hstep
      split_ifs at hstep
      · rw [← Option.some.inj hstep]
        refine { h.sends herase with
          unopened := fun hnone => absurd hnone hopen
          opened := fun _ => ⟨queue ++ [data], ?_, hwriter.imp_left ?_⟩ }
        · rw [hzero, hchannels]
          rfl
        · rintro ⟨writer, hwriters, htakes, hacc⟩
          refine ⟨writer, hwriters, htakes, ?_⟩
          show s.accepted ++ [data] = _
          rw [hacc, List.append_assoc]
      · exact Option.some.inj hstep ▸ h.sends herase

/-! ### The connecting goroutine -/

/-- The goroutine goes on, or leaves a stopped transport. -/
theorem Good.goes {r : Option Connector} (h : Good s) (hr : ∀ c, r = some c → c.Sees s.session)
    (hleft : r = none → s.running = false) : Good { s with connectors := r.toList } :=
  { h with
    connectors_le := Option.length_toList_le
    running := fun hrunning => by
      cases r with
      | none => exact absurd (hleft rfl) (by rw [show s.running = true from hrunning]; exact nofun)
      | some c => exact nofun
    sees := fun c hc => hr c (Option.mem_toList.mp hc) }

theorem Good.moves {c : Connector} (h : Good s) (hc : c.Sees s.session) :
    Good { s with connectors := [c] } :=
  h.goes (r := some c) (fun _ hc' => Option.some.inj hc' ▸ hc) nofun

/-- A goroutine that leaves has found the transport stopped. -/
theorem Good.goes_ite {P : Prop} [Decidable P] {c : Connector} (h : Good s)
    (hc : c.Sees s.session) (hP : s.running = true → P) :
    Good { s with connectors := (if P then some c else none).toList } := by
  refine h.goes (fun c' hc' => ?_) fun hnone => ?_
  · obtain ⟨-, heq⟩ := Option.ite_none_right_eq_some.mp hc'
    exact Option.some.inj heq ▸ hc
  · exact Bool.eq_false_of_not_eq_true fun hrunning =>
      nomatch (if_pos (hP hrunning)).symm.trans hnone

/-- A session is published over the one before it, or it is the first. -/
theorem good_publish {attempt : ℤ} {existing : Option DocSession} {conn : ℕ} (h : Good s)
    (hc : s.connectors = [.dialed attempt existing conn]) :
    Good { s.publish existing conn with connectors := [.authorizing attempt conn] } := by
  have hsees : existing = s.session :=
    h.sees (.dialed attempt existing conn) (hc ▸ List.mem_singleton_self _)
  cases hsession : s.session with
  | none =>
    obtain ⟨hchannels, hwriters, hacc, hwritten⟩ := h.unopened hsession
    have hlink : s.link = none := congrArg (Option.map _) hsession
    rw [hsees, hsession]
    exact {
      connectors_le := Nat.le_refl 1
      running := fun _ => nofun
      sees := by simp [Connector.Sees]
      sends_see := fun c hcall => by
        -- no call has read a session before
        have hsee := h.sends_see c hcall
        cases c with
        | checked data => trivial
        | loaded data session => exact nomatch hlink.symm.trans hsee
      stop := h.stop
      unopened := nofun
      zero := fun session hnew => by
        rw [← Option.some.inj hnew]
        exact congrArg List.length hchannels
      opened := fun _ => ⟨[], by rw [publish, hchannels]; rfl, .inl ⟨.waiting, by
        rw [publish, hwriters]; rfl, trivial, by
          show s.accepted = s.written ++ [] ++ []
          rw [hacc, hwritten]
          rfl⟩⟩ }
  | some session =>
    have hzero := h.zero session hsession
    have hlink : s.link = some session.toSession := congrArg (Option.map _) hsession
    have hopen : s.session ≠ none := by rw [hsession]; exact nofun
    rw [hsees, hsession]
    exact {
      connectors_le := Nat.le_refl 1
      running := fun _ => nofun
      sees := by simp [Connector.Sees]
      sends_see := fun c hcall => by
        have hsee := h.sends_see c hcall
        rwa [hlink] at hsee
      stop := h.stop
      unopened := nofun
      zero := fun u hnew => by
        rw [← Option.some.inj hnew]
        exact hzero
      opened := fun _ => h.opened hopen }

theorem good_connect {i : ℕ} {o : Outcome} (h : Good s) (hP : Resumable cfg s (.connect i o))
    (hstep : (threads .mailru cfg).step s (.connect i o) = some s') : Good s' := by
  obtain ⟨c, hc, rfl, rfl⟩ := connect_spec h.connectors_le hstep
  have hsees := h.sees c (hc ▸ List.mem_singleton_self c)
  cases c with
  | start attempt => exact h.moves (c := .fetching attempt s.session) rfl
  | fetching attempt existing =>
    cases o with
    | ok => exact h.moves (c := .dialing attempt existing) hsees
    | failed late => exact h.moves (c := .retrying attempt) trivial
  | dialing attempt existing =>
    cases o with
    | ok =>
      have hmoved := h.moves (c := .dialed attempt existing s.sockets.length) hsees
      exact { hmoved with }
    | failed late => exact h.moves (c := .retrying attempt) trivial
  | dialed attempt existing conn => exact good_publish h hc
  | authorizing attempt conn => exact h.moves (c := .looping attempt conn) trivial
  | looping attempt conn => exact h.goes_ite (c := .reading attempt conn) trivial id
  | reading attempt conn =>
    cases o with
    | ok => exact h.moves (c := .looping attempt conn) trivial
    | failed late =>
      have hmoved := h.moves (c := .broken attempt late conn) trivial
      exact { hmoved with }
  | broken attempt late conn =>
    have hmoved := h.moves (c := .closing attempt late conn) trivial
    exact { hmoved with }
  | closing attempt late conn =>
    have hmoved := h.moves (c := .retrying (if late then -1 else attempt)) trivial
    exact { hmoved with }
  | retrying attempt =>
    rw [Resumable, hc] at hP
    exact h.goes_ite (c := .sleeping (attempt + 1)) trivial fun hrunning => ⟨hrunning, hP hrunning⟩
  | sleeping next => exact h.goes_ite (c := .connecting next) trivial id
  | connecting next => exact h.goes_ite (c := .start next) trivial id

/-! ### The writer -/

/-- The one writer goes on with every accepted packet accounted for, or leaves a stopped
transport. -/
theorem Good.writes {r : Option Writer} {channels : List (List Bytes)} {written queue : List Bytes}
    (h : Good s) (hsession : s.session ≠ none) (hchannels : channels = [queue])
    (hr : ∀ w, r = some w → w.TakesFrom 0 ∧ s.accepted = written ++ w.pending ++ queue)
    (hleft : r = none → s.running = false) :
    Good { s with channels, writers := r.toList, written } :=
  { h with
    unopened := fun hnone => absurd hnone hsession
    opened := fun _ => ⟨queue, hchannels, by
      cases r with
      | none => exact .inr ⟨rfl, hleft rfl⟩
      | some w => exact .inl ⟨w, rfl, hr w rfl⟩⟩ }

theorem Good.continues {w : Writer} {channels : List (List Bytes)} {written queue : List Bytes}
    (h : Good s) (hsession : s.session ≠ none) (hchannels : channels = [queue])
    (htakes : w.TakesFrom 0) (hacc : s.accepted = written ++ w.pending ++ queue) :
    Good { s with channels, writers := [w], written } :=
  h.writes (r := some w) hsession hchannels (fun _ hw => Option.some.inj hw ▸ ⟨htakes, hacc⟩) nofun

/-- The one writer and the packets, after the first session. -/
theorem Good.writer_eq {i : ℕ} {w : Writer} (h : Good s) (hi : s.writers[i]? = some w) :
    s.session ≠ none ∧ s.writers = [w] ∧ i = 0 ∧ w.TakesFrom 0 ∧
      ∃ queue, s.channels = [queue] ∧ s.accepted = s.written ++ w.pending ++ queue := by
  have hne : s.writers ≠ [] := List.ne_nil_of_mem (List.mem_of_getElem? hi)
  have hsession : s.session ≠ none := fun hnone => hne (h.unopened hnone).2.1
  obtain ⟨queue, hchannels, ⟨writer, hwriters, htakes, hacc⟩ | ⟨hnone, -⟩⟩ := h.opened hsession
  · obtain ⟨hone, rfl⟩ := eq_singleton_of_getElem? (by rw [hwriters]; exact le_rfl) hi
    obtain ⟨rfl, -⟩ := List.cons.inj (hwriters.symm.trans hone)
    exact ⟨hsession, hone, rfl, htakes, queue, hchannels, hacc⟩
  · exact absurd hnone hne

theorem good_write {i : ℕ} {o : Outcome} (h : Good s)
    (hstep : (threads .mailru cfg).step s (.write i o) = some s') : Good s' := by
  obtain ⟨w, r, hi, hr, rfl⟩ := step_write.mp hstep
  obtain ⟨hsession, hwriters, rfl, htakes, queue, hchannels, hacc⟩ := h.writer_eq hi
  have hplace : place s.writers 0 r.2 = r.2.toList := by
    rw [hwriters]
    cases r.2 <;> rfl
  rw [hplace]
  cases w with
  | waiting =>
    obtain rfl := Option.some.inj hr
    refine h.writes hsession hchannels (fun w hw => ?_) fun hnone => ?_
    · obtain ⟨-, heq⟩ := Option.ite_none_right_eq_some.mp hw
      exact Option.some.inj heq ▸ ⟨trivial, hacc⟩
    · exact Bool.eq_false_of_not_eq_true fun hrunning => nomatch (if_pos hrunning).symm.trans hnone
  | looking =>
    obtain ⟨session, hsome⟩ := Option.ne_none_iff_exists'.mp hsession
    simp only [Threads.write, hsome, Option.some.injEq] at hr
    subst hr
    exact h.continues hsession hchannels (h.zero session hsome) hacc
  | looping q pending =>
    obtain rfl : q = 0 := htakes
    by_cases hrunning : s.running = true
    · simp only [Threads.write, if_pos hrunning] at hr
      cases pending with
      | none =>
        obtain rfl := Option.some.inj hr
        exact h.continues hsession hchannels rfl hacc
      | some packet =>
        obtain rfl := Option.some.inj hr
        exact h.continues hsession hchannels rfl hacc
    · simp only [Threads.write, if_neg hrunning, Option.some.injEq] at hr
      subst hr
      exact h.writes hsession hchannels nofun fun _ => Bool.eq_false_of_not_eq_true hrunning
  | receiving q =>
    obtain rfl : q = 0 := htakes
    rw [Threads.write, hchannels] at hr
    cases queue with
    | nil => cases hr
    | cons packet rest =>
      -- it takes the oldest packet
      obtain rfl := Option.some.inj hr
      have hgood : Good { s with channels := [rest], writers := [.loading 0 packet] } := by
        refine h.continues hsession rfl rfl ?_
        rw [hacc]
        simp [Writer.pending]
      exact hgood
  | loading q packet =>
    obtain rfl : q = 0 := htakes
    obtain ⟨session, hsome⟩ := Option.ne_none_iff_exists'.mp hsession
    simp only [Threads.write, hsome, Option.some.injEq] at hr
    subst hr
    exact h.continues hsession hchannels rfl hacc
  | sending q packet conn =>
    obtain rfl : q = 0 := htakes
    cases o with
    | ok =>
      -- a web socket takes the packet
      obtain rfl := Option.some.inj hr
      refine h.continues hsession hchannels rfl ?_
      rw [hacc]
      simp [Writer.pending]
    | failed late =>
      obtain rfl := Option.some.inj hr
      exact h.continues hsession hchannels rfl hacc

/-! ### Every run -/

theorem good_step {e : Event} (h : Good s) (hP : Resumable cfg s e)
    (hstep : (threads .mailru cfg).step s e = some s') : Good s' := by
  cases e with
  | start =>
    obtain ⟨-, rfl⟩ := step_start.mp hstep
    exact h.start hP.1 hP.2
  | callStop =>
    obtain ⟨-, rfl⟩ := step_callStop.mp hstep
    exact { h with stop := .inr (.inl rfl) }
  | stop => exact good_stop h hstep
  | call data => exact Option.some.inj hstep ▸ good_call h data
  | send i => exact good_send h hstep
  | connect i o => exact good_connect h hP hstep
  | write i o => exact good_write h hstep
  | keepAlive i o =>
    obtain ⟨k, -, rfl⟩ := step_keepAlive.mp hstep
    rcases keepAlive_cases s o k with ⟨heq, -⟩ | ⟨session, -, heq⟩ | ⟨session, -, heq⟩
    · exact { (heq.symm ▸ h : Good (s.keepAlive o k).1) with }
    · rw [heq]
      exact { h with }
    · rw [heq]
      exact { h with }

/-- **Restarts**: in every run in which each `Start` finds no connecting goroutine and, after the
first session, a writer, and no goroutine gives up, a running transport with a session has one
writer of that session's queue and one connecting goroutine, and no accepted packet is lost or
written twice. -/
theorem served_of_running {es : List Event} {session : DocSession}
    (hrun : (threads .mailru cfg).run (threads .mailru cfg).init es = some s)
    (hresumable : (threads .mailru cfg).Along (Resumable cfg) (threads .mailru cfg).init es)
    (hrunning : s.running = true) (hsession : s.session = some session) : Served s session := by
  have h : Good s :=
    EventSystem.run_invariant (fun _ _ _ => good_step) good_init hresumable hrun
  have hzero := h.zero session hsession
  obtain ⟨connector, rest, hcons⟩ := List.exists_cons_of_ne_nil (h.running hrunning)
  obtain ⟨hone, -⟩ := eq_singleton_of_getElem? (i := 0) h.connectors_le (by rw [hcons]; rfl)
  obtain ⟨queue, hchannels, ⟨writer, hwriters, htakes, hacc⟩ | ⟨-, hstopped⟩⟩ :=
    h.opened (by rw [hsession]; exact nofun)
  · refine ⟨writer, connector, queue, hwriters, ?_, hone, ?_, hacc⟩
    · rwa [hzero]
    · rw [hzero, hchannels]
      rfl
  · rw [hrunning] at hstopped
    cases hstopped

/-- The transport is stopped and started again when its reader has left, and its writer waits for
packets all the time. -/
def restartInTime : List Event :=
  .start :: connecting ++ [.write 0 .ok, .write 0 .ok, .write 0 .ok, .callStop, .stop, .stop,
    .connect 0 .ok, .connect 0 .ok, .start] ++ connecting ++
    [.call [1], .send 0, .send 0, .write 0 .ok]

theorem served_restartInTime : ∃ s session, (threads .mailru .default).run
    (threads .mailru .default).init restartInTime = some s ∧ s.session = some session ∧
      s.accepted = [[1]] ∧ Served s session := by
  have hend : ((threads .mailru .default).run (threads .mailru .default).init restartInTime).map
      (fun s => (s.running, s.session, s.accepted)) = some (true, some ⟨⟨0⟩, 1⟩, [[1]]) := by
    decide +kernel
  obtain ⟨s, hrun, hs⟩ := Option.map_eq_some_iff.mp hend
  simp only [Prod.mk.injEq] at hs
  obtain ⟨hrunning, hsession, haccepted⟩ := hs
  exact ⟨s, _, hrun, hsession, haccepted,
    served_of_running hrun (by decide +kernel) hrunning hsession⟩

/-- The transport is stopped and started again while its reader waits for a message. -/
def restartWhileReading : List Event := .start :: connecting ++ [.callStop, .stop, .stop, .start]

/-- The transport is stopped and started again when its reader and its writer have left. -/
def restartAfterWriter : List Event :=
  .start :: connecting ++ [.write 0 .ok, .write 0 .ok, .callStop, .stop, .stop, .write 0 .ok,
    .connect 0 .ok, .connect 0 .ok, .start]

/-- There are two readers, or no writer. -/
theorem not_served_restarts :
    ((threads .mailru .default).run (threads .mailru .default).init restartWhileReading).map
      (fun s => (s.running, s.connectors)) = some (true, [.reading 0 0, .start 0]) ∧
    ((threads .mailru .default).run (threads .mailru .default).init restartAfterWriter).map
      (fun s => (s.running, s.session, s.writers)) = some (true, some ⟨⟨0⟩, 0⟩, []) ∧
    ¬ ∀ es s session, (threads .mailru .default).run (threads .mailru .default).init es = some s →
      s.running = true → s.session = some session → Served s session := by
  have hend : ((threads .mailru .default).run (threads .mailru .default).init
      restartAfterWriter).map (fun s => (s.running, s.session, s.writers)) =
        some (true, some ⟨⟨0⟩, 0⟩, []) := by
    decide +kernel
  refine ⟨by decide +kernel, hend, fun h => ?_⟩
  obtain ⟨s, hrun, hs⟩ := Option.map_eq_some_iff.mp hend
  simp only [Prod.mk.injEq] at hs
  obtain ⟨hrunning, hsession, hwriters⟩ := hs
  obtain ⟨writer, -, -, hone, -⟩ := h _ s _ hrun hrunning hsession
  exact nomatch hwriters.symm.trans hone

end Threads

end OpenFlux.Transport.Docs
