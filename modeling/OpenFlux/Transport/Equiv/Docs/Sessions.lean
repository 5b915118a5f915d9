import OpenFlux.Transport.Equiv.Docs.Threads
import OpenFlux.Transport.Equiv.DocsSession

/-!
# The finer goroutines and the sessions

After one call of `Start` the goroutines of `Transport.Docs.Threads` do what those of
`Transport.DocsSession` do.  `coarse` leaves out the web sockets and the steps between two effects,
and sends every run to a run of `sessions` (`reachable_sessions`), so what is proved of all its
reachable states holds here too (`settled_of_started`).
-/

namespace OpenFlux.Transport.Docs

/-- Where `scheduleReconnect` leaves a goroutine, if it does not give up. -/
def ConnPc.scheduled (cfg : SessionConfig) (attempt : ℤ) : Option ConnPc :=
  if cfg.maxReconnectAttempts ≤ attempt + 1 then none else some (.sleeping (attempt + 1))

/-- What `sessions` sees of a connecting goroutine. -/
def Connector.coarse (cfg : SessionConfig) : Connector → Option ConnPc
  | .start attempt => some (.start attempt)
  | .fetching attempt existing => some (.fetching attempt (existing.map DocSession.toSession))
  | .dialing attempt existing | .dialed attempt existing _ =>
    some (.dialing attempt (existing.map DocSession.toSession))
  | .authorizing attempt _ | .looping attempt _ | .reading attempt _ | .broken attempt _ _ =>
    some (.reading attempt)
  | .closing attempt late _ => ConnPc.scheduled cfg (if late then -1 else attempt)
  | .retrying attempt => ConnPc.scheduled cfg attempt
  | .sleeping next | .connecting next => some (.sleeping next)

/-- What `sessions` sees of a writer. -/
def Writer.coarse : Writer → WriterPc
  | .waiting | .looking => .waiting
  | .looping queue none | .receiving queue => .receiving queue
  | .looping queue (some pending) | .loading queue pending | .sending queue pending _ =>
    .holding queue pending

namespace Threads

variable {p : Provider} {cfg : SessionConfig} {s s' : Threads}

/-- What `sessions` sees of a transport. -/
def coarse (cfg : SessionConfig) (s : Threads) : State where
  connected := s.connected
  session := s.session.map DocSession.toSession
  channels := s.channels
  connectors := s.connectors.filterMap (Connector.coarse cfg)
  writers := s.writers.map Writer.coarse
  sends := s.sends
  accepted := s.accepted
  written := s.written

theorem coarse_session_some {session : DocSession} (h : s.session = some session) :
    (s.coarse cfg).session = some session.toSession :=
  congrArg (Option.map DocSession.toSession) h

/-- A transport between a `Start` and a `Stop`. -/
structure Live (s : Threads) : Prop where
  connectors_le : s.connectors.length ≤ 1
  running : s.running = true
  unopened : s.session = none → s.connected = false ∧ s.writers = []

/-- Every step is none, or one, of `sessions`. -/
def Simulated (cfg : SessionConfig) (s s' : Threads) : Prop :=
  ∃ es, (sessions cfg).run (s.coarse cfg) es = some (s'.coarse cfg)

theorem Simulated.none (h : s'.coarse cfg = s.coarse cfg) : Simulated cfg s s' :=
  ⟨[], congrArg some h.symm⟩

theorem Simulated.one {e : Docs.Event}
    (h : (sessions cfg).step (s.coarse cfg) e = some (s'.coarse cfg)) : Simulated cfg s s' :=
  ⟨[e], EventSystem.run_cons_eq_some.mpr ⟨_, h, rfl⟩⟩

/-! ### The connecting goroutine -/

/-- `scheduleReconnect` of the only goroutine. -/
theorem scheduleReconnect_eq {t : State} {c : ConnPc} (ht : t.connectors = [c]) (attempt : ℤ) :
    t.scheduleReconnect cfg 0 attempt =
      { t with connectors := (ConnPc.scheduled cfg attempt).toList } := by
  unfold State.scheduleReconnect ConnPc.scheduled
  split_ifs <;> rw [ht] <;> rfl

theorem coarse_retrying (attempt : ℤ) :
    (if attempt + 1 < cfg.maxReconnectAttempts then some (Connector.sleeping (attempt + 1))
      else none).toList.filterMap (Connector.coarse cfg) =
    [Connector.retrying attempt].filterMap (Connector.coarse cfg) := by
  by_cases h : cfg.maxReconnectAttempts ≤ attempt + 1
  · rw [if_neg (not_lt.mpr h)]
    simp [Connector.coarse, ConnPc.scheduled, h]
  · rw [if_pos (not_le.mp h)]
    simp [Connector.coarse, ConnPc.scheduled, h]

/-- The publication of the only goroutine. -/
theorem publish_coarse {existing : Option DocSession} {attempt : ℤ} {conn : ℕ}
    (hc : s.connectors = [.dialed attempt existing conn]) :
    (s.coarse cfg).publish 0 attempt (existing.map DocSession.toSession) =
      { s.publish existing conn with connectors := [.authorizing attempt conn] }.coarse cfg := by
  cases existing <;>
    simp [State.publish, publish, coarse, hc, Connector.coarse, Writer.coarse]

theorem simulated_connect {c : Connector} {o : Outcome} (hlive : Live s) (hc : s.connectors = [c]) :
    Simulated cfg s
      { (s.connect cfg o c).1 with connectors := (s.connect cfg o c).2.toList } := by
  obtain ⟨running, connected, session, sockets, channels, connectors, writers, keepAlives, sends,
    stop, accepted, written, failed⟩ := s
  obtain rfl : connectors = [c] := hc
  obtain rfl : running = true := hlive.running
  cases c with
  | start attempt => exact .one (e := .connect 0 .ok) rfl
  | fetching attempt existing =>
    cases o with
    | ok => exact .one (e := .connect 0 .ok) rfl
    | failed late =>
      exact .one (e := .connect 0 (.failed late)) (congrArg some (scheduleReconnect_eq rfl attempt))
  | dialing attempt existing =>
    cases o with
    | ok => exact .none rfl
    | failed late =>
      exact .one (e := .connect 0 (.failed late)) (congrArg some (scheduleReconnect_eq rfl attempt))
  | dialed attempt existing conn =>
    exact .one (e := .connect 0 .ok) (congrArg some (publish_coarse rfl))
  | authorizing attempt conn => exact .none rfl
  | looping attempt conn => exact .none rfl
  | reading attempt conn =>
    cases o with
    | ok => exact .none rfl
    | failed late => exact .none rfl
  | broken attempt late conn =>
    exact .one (e := .connect 0 (.failed late)) (congrArg some (scheduleReconnect_eq rfl _))
  | closing attempt late conn => exact .none rfl
  | retrying attempt =>
    refine .none ?_
    simp [coarse, connect, coarse_retrying]
  | sleeping next => exact .none rfl
  | connecting next => exact .one (e := .connect 0 .ok) rfl

/-! ### The other goroutines -/

/-- A writer that does not seem to move. -/
theorem Simulated.stays {i : ℕ} {w w' : Writer} (hi : s.writers[i]? = some w)
    (hw : w'.coarse = w.coarse) : Simulated cfg s { s with writers := s.writers.set i w' } :=
  .none (congrArg (fun writers => { s.coarse cfg with writers }) (map_set_of_eq hi hw))

/-- A writer whose step is one of `sessions`. -/
theorem Simulated.writes {i : ℕ} {o : Outcome} {w' : Writer} {t : Threads}
    (h : (s.coarse cfg).stepWriter i o =
      some { t.coarse cfg with writers := (s.coarse cfg).writers.set i w'.coarse }) :
    Simulated cfg s { t with writers := s.writers.set i w' } := by
  refine .one (e := .write i o) (h.trans (congrArg some ?_))
  exact congrArg (fun writers => { t.coarse cfg with writers }) List.map_set.symm

theorem stepWriter_holding {t : State} {i queue : ℕ} {pending : Bytes} {session : Session}
    (hi : t.writers[i]? = some (.holding queue pending)) (hsession : t.session = some session) :
    t.stepWriter i .ok =
      some { t with
        writers := t.writers.set i (.receiving queue)
        written := t.written ++ [pending] } := by
  unfold State.stepWriter
  rw [hi]
  dsimp only
  rw [hsession]

theorem simulated_write {i : ℕ} {o : Outcome} {w : Writer} {r : Threads × Option Writer}
    (hlive : Live s) (hi : s.writers[i]? = some w) (hr : s.write o w = some r) :
    Simulated cfg s { r.1 with writers := place s.writers i r.2 } := by
  have hcoarse : (s.coarse cfg).writers[i]? = some w.coarse := by
    show (s.writers.map _)[i]? = _
    rw [List.getElem?_map, hi, Option.map_some]
  unfold Threads.write at hr
  cases w with
  | waiting =>
    simp only [hlive.running, if_true] at hr
    obtain rfl := Option.some.inj hr
    exact .stays hi rfl
  | looking =>
    dsimp only at hr
    split at hr
    · next session hsession =>
      obtain rfl := Option.some.inj hr
      refine .writes (o := .ok) ?_
      unfold State.stepWriter
      rw [hcoarse]
      dsimp only [Writer.coarse]
      rw [coarse_session_some hsession]
    · obtain rfl := Option.some.inj hr
      exact .stays hi rfl
  | looping queue pending =>
    simp only [hlive.running, if_true] at hr
    cases pending with
    | some pending =>
      obtain rfl := Option.some.inj hr
      exact .stays hi rfl
    | none =>
      obtain rfl := Option.some.inj hr
      exact .stays hi rfl
  | receiving queue =>
    dsimp only at hr
    split at hr
    · next packet rest hqueue =>
      obtain rfl := Option.some.inj hr
      refine .writes (o := .ok) ?_
      unfold State.stepWriter
      rw [hcoarse]
      dsimp only [Writer.coarse]
      rw [show (s.coarse cfg).channels[queue]? = some (packet :: rest) from hqueue]
      rfl
    · cases hr
  | loading queue pending =>
    dsimp only at hr
    split at hr
    · obtain rfl := Option.some.inj hr
      exact .stays hi rfl
    · obtain rfl := Option.some.inj hr
      exact .stays hi rfl
  | sending queue pending conn =>
    cases o with
    | failed late =>
      obtain rfl := Option.some.inj hr
      exact .stays hi rfl
    | ok =>
      obtain rfl := Option.some.inj hr
      obtain ⟨session, hsession⟩ : ∃ session, s.session = some session := by
        refine Option.ne_none_iff_exists'.mp fun hnone => ?_
        rw [(hlive.unopened hnone).2] at hi
        cases hi
      exact .writes (stepWriter_holding hcoarse (coarse_session_some hsession))

theorem stepKeepAlive_failed {t : State} {session : Session} (h : t.session = some session)
    (late : Bool) : t.stepKeepAlive (.failed late) = { t with connected := false } := by
  unfold State.stepKeepAlive
  rw [h]

theorem simulated_keepAlive {o : Outcome} {k : KeepAlive} {keepAlives : List KeepAlive}
    (hlive : Live s) : Simulated cfg s { (s.keepAlive o k).1 with keepAlives } := by
  rcases keepAlive_cases s o k with ⟨heq, -⟩ | ⟨session, -, heq⟩ | ⟨session, -, heq⟩
  · rw [heq]
    exact .none rfl
  · rw [heq]
    exact .none rfl
  · rw [heq]
    rcases s.session.eq_none_or_eq_some with hsession | ⟨current, hsession⟩
    · refine .none ?_
      show ({ s.coarse cfg with connected := false } : State) = _
      rw [← (hlive.unopened hsession).1]
      rfl
    · refine .one (e := .keepAlive (.failed true)) (congrArg some ?_)
      exact stepKeepAlive_failed (coarse_session_some hsession) true

/-- `Send` does the same. -/
theorem stepSend_coarse (s : Threads) (i : ℕ) :
    (s.coarse cfg).stepSend cfg i = (s.stepSend cfg i).map (coarse cfg) := by
  unfold State.stepSend stepSend
  rw [show (s.coarse cfg).sends = s.sends from rfl]
  cases s.sends[i]? with
  | none => rfl
  | some call =>
    cases call with
    | checked data =>
      dsimp only
      rcases s.session.eq_none_or_eq_some with hsession | ⟨session, hsession⟩
      · simp [coarse, hsession]
      · simp [coarse, hsession]
    | loaded data session =>
      dsimp only
      rw [show (s.coarse cfg).channels = s.channels from rfl]
      cases s.channels[session.writeQueue]? with
      | none => rfl
      | some queue =>
        dsimp only
        split_ifs
        · rfl
        · rfl

theorem simulated_call (data : Bytes) : Simulated cfg s (s.call data).1 := by
  refine .one (e := .call data) (congrArg some ?_)
  unfold Threads.call State.call
  rw [show (s.coarse cfg).connected = s.connected from rfl]
  by_cases hconnected : s.connected = true
  · rw [if_pos hconnected, if_pos hconnected]
    rfl
  · rw [if_neg hconnected, if_neg hconnected]

theorem simulated_step {e : Event} (hlive : Live s) (he : e.IsInner = true)
    (h : (threads p cfg).step s e = some s') : Simulated cfg s s' := by
  cases e with
  | start => cases he
  | callStop => cases he
  | stop => cases he
  | call data => exact Option.some.inj h ▸ simulated_call data
  | send i =>
    have hsend : s.stepSend cfg i = some s' := h
    refine .one (e := .send i) ((stepSend_coarse s i).trans ?_)
    rw [hsend, Option.map_some]
  | connect i o =>
    obtain ⟨c, hc, -, rfl⟩ := connect_spec hlive.connectors_le h
    exact simulated_connect hlive hc
  | write i o =>
    obtain ⟨w, r, hi, hr, rfl⟩ := step_write.mp h
    exact simulated_write hlive hi hr
  | keepAlive i o =>
    obtain ⟨k, -, rfl⟩ := step_keepAlive.mp h
    exact simulated_keepAlive hlive

/-! ### Runs -/

theorem live_start : Live (threads p cfg).init.start where
  connectors_le := Nat.le_refl 1
  running := rfl
  unopened := fun _ => ⟨rfl, rfl⟩

theorem Live.connect {c : Connector} {o : Outcome} (h : Live s) (hc : s.connectors = [c]) :
    Live { (s.connect cfg o c).1 with connectors := (s.connect cfg o c).2.toList } := by
  have hlen : (s.connect cfg o c).2.toList.length ≤ 1 := Option.length_toList_le
  cases c with
  | dialed attempt existing conn =>
    obtain ⟨session, channels, writers, -, heq⟩ := publish_spec s existing conn
    unfold Threads.connect
    dsimp only
    rw [heq]
    exact { connectors_le := hlen, running := h.running, unopened := nofun }
  | fetching | dialing | reading =>
    cases o <;> exact { h with connectors_le := hlen }
  | broken =>
    exact { h with connectors_le := hlen, unopened := fun hs => ⟨rfl, (h.unopened hs).2⟩ }
  | _ => exact { h with connectors_le := hlen }

theorem Live.of_quiet (h : Live s) (hq : Quiet s s')
    (hwriters : s.writers = [] → s'.writers = []) : Live s' where
  connectors_le := hq.connectors.symm ▸ h.connectors_le
  running := hq.running.trans h.running
  unopened := fun hs => by
    obtain ⟨hconnected, hnone⟩ := h.unopened (hq.session.symm.trans hs)
    exact ⟨hq.connected.trans hconnected, hwriters hnone⟩

theorem writers_call (s : Threads) (data : Bytes) : (s.call data).1.writers = s.writers := by
  unfold Threads.call
  split_ifs <;> rfl

theorem writers_stepSend {i : ℕ} (h : s.stepSend cfg i = some s') : s'.writers = s.writers := by
  unfold stepSend at h
  repeat' split at h
  all_goals first
    | obtain rfl := Option.some.inj h
      rfl
    | cases h

theorem Live.step {e : Event} (hlive : Live s) (he : e.IsInner = true)
    (h : (threads p cfg).step s e = some s') : Live s' := by
  cases e with
  | start => cases he
  | callStop => cases he
  | stop => cases he
  | call data =>
    obtain rfl := Option.some.inj h
    exact hlive.of_quiet (quiet_call data) (writers_call s data).trans
  | send i => exact hlive.of_quiet (quiet_send h) (writers_stepSend h).trans
  | connect i o =>
    obtain ⟨c, hc, -, rfl⟩ := connect_spec hlive.connectors_le h
    exact hlive.connect hc
  | write i o =>
    obtain ⟨w, r, hi, hr, rfl⟩ := step_write.mp h
    refine hlive.of_quiet (quiet_write hr _) fun hnone => ?_
    rw [hnone] at hi
    cases hi
  | keepAlive i o =>
    obtain ⟨k, -, rfl⟩ := step_keepAlive.mp h
    rcases keepAlive_cases s o k with ⟨heq, -⟩ | ⟨session, -, heq⟩ | ⟨session, -, heq⟩
    · rw [heq]
      exact { hlive with }
    · rw [heq]
      exact { hlive with }
    · rw [heq]
      exact { hlive with unopened := fun hs => ⟨rfl, (hlive.unopened hs).2⟩ }

/-- **The goroutines of a transport that is started once are sessions.** -/
theorem reachable_sessions {es : List Event} (hes : ∀ e ∈ es, e.IsInner = true)
    (h : (threads p cfg).run (threads p cfg).init (.start :: es) = some s) :
    (sessions cfg).Reachable (s.coarse cfg) := by
  obtain ⟨s₀, hstart, hrun⟩ := EventSystem.run_cons_eq_some.mp h
  obtain ⟨-, rfl⟩ := step_start.mp hstart
  have hinner : ∀ u, (threads p cfg).Along (fun _ e => e.IsInner = true) u es :=
    EventSystem.along_of_forall fun _ => hes
  refine (EventSystem.run_invariant (I := fun s => Live s ∧ (sessions cfg).Reachable (s.coarse cfg))
    ?_ ⟨live_start, [], rfl⟩ (hinner _) hrun).2
  rintro s e s' ⟨hlive, hreachable⟩ he hstep
  obtain ⟨es, hsimulated⟩ := simulated_step hlive he hstep
  exact ⟨hlive.step he hstep, hreachable.run hsimulated⟩

/-- So no packet is lost, and there is one writer. -/
theorem settled_of_started {es : List Event} (hes : ∀ e ∈ es, e.IsInner = true)
    (h : (threads p cfg).run (threads p cfg).init (.start :: es) = some s) :
    Settled (s.coarse cfg) :=
  (EventSystem.Reachable.invariant Docs.good_init (fun _ _ _ => Docs.good_step)
    (reachable_sessions hes h)).settled

end Threads

end OpenFlux.Transport.Docs
