import OpenFlux.App.Equiv.SocksVpnService

/-!
# No client after the stop

`stopEverything` stops the clients, kills what is left of them and returns; it cancels the health
job and the network job, which takes effect only where these come to a `delay`, and it does not see
a start that is under way.  `Calm` asks that when it kills the clients, and when it returns because
another call has stopped the service already, every thread is `Parked`: its job is cancelled and it
comes to a `delay` before it could start a client, or it has nothing left that leads to a start.
Then no client is alive from the return of `stopEverything` to the next start from outside, in every
run (`dead_run`).  Nothing in the code sees to it: a recovery that has just slept is cancelled too
late, and starts a client under the stopped service (`not_dead_pastDelay`).
-/

namespace OpenFlux.App

/-- All clients have exited. -/
def Supervisor.Dead (s : Supervisor) : Prop := ∀ p ∈ s.procs, p.alive = false

instance (s : Supervisor) : Decidable s.Dead := inferInstanceAs (Decidable (∀ p ∈ s.procs, _))

namespace SocksVpnService

open EventSystem

variable {message : Bytes → Bytes} {s s' : SocksVpnService} {v w : Locals} {op : Op}
  {rest code : List Op} {t : Thread Locals Op} {c : Supervisor.Choice}
  {r : Effect SocksVpnService Locals Op} {p p' : Pool SocksVpnService Locals Op} {i : ℕ}

/-- No transport process is running. -/
def Dead (s : SocksVpnService) : Prop := s.supervisor.Dead ∧ s.hysteria.Dead

instance (s : SocksVpnService) : Decidable s.Dead := inferInstanceAs (Decidable (_ ∧ _))

/-- Nothing that the thread does leads to the start of a client. -/
def Parked (s : SocksVpnService) (t : Thread Locals Op) : Prop :=
  if s.cancelled t.locals.job then Ahead dangerous isDelay t.code = false
  else t.code.any leads = false

instance (s : SocksVpnService) (t : Thread Locals Op) : Decidable (Parked s t) :=
  inferInstanceAs (Decidable (if s.cancelled t.locals.job then
    Ahead dangerous isDelay t.code = false else t.code.any leads = false))

/-- Nothing leads to the start of a client. -/
structure Still (p : Pool SocksVpnService Locals Op) : Prop where
  isRunning : p.state.isRunning = false
  parked : ∀ t ∈ p.threads, Parked p.state t

instance (p : Pool SocksVpnService Locals Op) : Decidable (Still p) :=
  decidable_of_iff (p.state.isRunning = false ∧ ∀ t ∈ p.threads, Parked p.state t)
    ⟨fun h => ⟨h.1, h.2⟩, fun h => ⟨h.isRunning, h.parked⟩⟩

/-- The exit of the Hysteria client is answered by the fallback. -/
def FallsBack (s : SocksVpnService) : Prop :=
  s.allowHysteriaFallback = true ∧ (!s.stopping) = true ∧
    s.lastTransportArgs.any (!·.isEmpty) = true

instance (s : SocksVpnService) : Decidable (FallsBack s) := inferInstanceAs (Decidable (_ ∧ _ ∧ _))

/-- What is asked of an operation. -/
def Admits (p : Pool SocksVpnService Locals Op) : Op → Prop
  | .killStale => Still p
  | .takeStopping => p.state.stopping = true → Still p ∧ p.state.Dead
  | .hysteriaExited => p.state.phase ≠ .busy → ¬ FallsBack p.state
  | _ => True

instance (p : Pool SocksVpnService Locals Op) (op : Op) : Decidable (Admits p op) := by
  unfold Admits
  split
  · infer_instance
  · infer_instance
  · infer_instance
  · infer_instance

/-- When `stopEverything` kills the clients, nothing leads to the start of one; when it finds
`stopping` set, no client is alive either; until it has returned nothing is started from outside,
and then the exit of the Hysteria client is not answered by the fallback. -/
def Calm (p : Pool SocksVpnService Locals Op) : Event → Prop
  | .run i _ => ∀ op ∈ p.next i, Admits p op
  | .startOpenFluxNative _ _ | .startHysteriaNative _ _ _ _ | .startTun2Socks =>
    p.state.phase ≠ .stopped
  | _ => True

instance (p : Pool SocksVpnService Locals Op) : DecidablePred (Calm p)
  | .run i _ => inferInstanceAs (Decidable (∀ op ∈ p.next i, Admits p op))
  | .startOpenFluxNative _ _ | .startHysteriaNative _ _ _ _ | .startTun2Socks =>
    inferInstanceAs (Decidable (p.state.phase ≠ .stopped))
  | .stopVpn | .stopOpenFluxNative | .onStartCommand _ | .onRevoke | .onDestroy | .onAvailable
  | .onLost _ | .callback _ | .exit _ _ | .output _ _ => .isTrue trivial

/-! ### The clients -/

section Client

variable {P : Supervisor.Program} {x : Supervisor} {l : Supervisor.Locals} {o : Supervisor.Op}
  {e : Effect Supervisor Supervisor.Locals Supervisor.Op} {block : List Supervisor.Op}

/-- No code of the program but that of `start` starts a client. -/
structure StartsOnce (P : Supervisor.Program) : Prop where
  stopRest : P.stopRest.any isStart = false
  loop : P.loop.any isStart = false
  probe : P.probe.any isStart = false
  connected : P.connected.any isStart = false
  afterLoop : P.afterLoop.any isStart = false
  failRest : ∀ m, (P.failRest m).any isStart = false
  onLate : P.onLate.any isStart = false

theorem startsOnce_program (b : Backend) : StartsOnce (program message b) := by
  cases b
  · exact ⟨rfl, rfl, rfl, rfl, rfl, fun _ => rfl, rfl⟩
  · exact ⟨rfl, rfl, rfl, rfl, rfl, fun _ => rfl, rfl⟩

theorem StartsOnce.fail (h : StartsOnce P) (m : Bytes) : (P.fail m).any isStart = false :=
  h.failRest m

/-- A step of a supervisor that starts no client. -/
structure Idles (x : Supervisor) (e : Effect Supervisor Supervisor.Locals Supervisor.Op) :
    Prop where
  dead : x.Dead → e.state.Dead
  flow : ∃ block, (e.flow = .go block ∨ e.flow = .exit block) ∧ block.any isStart = false
  launched : ∀ u ∈ e.launched, u.code.any isStart = false

theorem idles_next {x' : Supervisor} (h : Supervisor.next x' l = some e)
    (hdead : x.Dead → x'.Dead) : Idles x e := by
  cases h
  exact ⟨hdead, ⟨[], .inl rfl, rfl⟩, nofun⟩

theorem idles_jump {x' : Supervisor} (h : Supervisor.jump x' l block = some e)
    (hdead : x.Dead → x'.Dead) (hblock : block.any isStart = false) : Idles x e := by
  cases h
  exact ⟨hdead, ⟨block, .inr rfl, hblock⟩, nofun⟩

/-- Clients that are dead stay so under what keeps or clears `alive`. -/
theorem dead_modify {f : Proc → Proc} (q : ℕ) (hf : ∀ p, p.alive = false → (f p).alive = false)
    (h : x.Dead) : Supervisor.Dead { x with procs := x.procs.modify q f } := by
  intro p hp
  obtain ⟨k, hk⟩ := List.mem_iff_getElem?.mp hp
  rw [List.getElem?_modify] at hk
  obtain ⟨p', hp', rfl⟩ := Option.map_eq_some_iff.mp hk
  have halive := h p' (List.mem_of_getElem? hp')
  split_ifs
  · exact hf p' halive
  · exact halive

theorem dead_killProc (q : ℕ) (h : x.Dead) : (x.killProc q).Dead :=
  dead_modify q (fun _ _ => rfl) h

theorem exec_idles (hP : StartsOnce P) (ho : isStart o = false)
    (h : Supervisor.exec P c x l o = some e) : Idles x e := by
  cases o
  case takeRunning argument => exact nomatch ho
  case spawn => exact nomatch ho
  case parse m =>
    simp only [Supervisor.exec] at h
    split at h
    · split_ifs at h
      · exact idles_next h id
      · exact idles_jump h id (hP.fail _)
    · exact idles_jump h id (hP.fail _)
    · exact nomatch h
  case killStale =>
    refine idles_next h fun _ p hp => ?_
    obtain ⟨p', -, rfl⟩ := List.mem_map.mp hp
    rfl
  case freePort =>
    simp only [Supervisor.exec] at h
    split at h
    · exact idles_next h id
    · exact idles_jump h id (hP.fail _)
    · exact nomatch h
  case writeKey key =>
    simp only [Supervisor.exec] at h
    split at h
    · exact idles_next h id
    · exact idles_jump h id (hP.fail _)
    · exact nomatch h
  case startController m =>
    simp only [Supervisor.exec] at h
    split at h
    · exact idles_next h id
    · exact idles_jump h id (hP.fail _)
    · exact nomatch h
  case writeConfig =>
    simp only [Supervisor.exec] at h
    split at h
    · exact idles_next h id
    · exact idles_jump h id (hP.fail _)
    · exact nomatch h
  case launchWatch =>
    cases h
    refine ⟨id, ⟨[], .inl rfl, rfl⟩, fun u hu => ?_⟩
    rw [List.mem_singleton.mp hu]
    exact hP.loop
  case shutDown => exact idles_jump h id hP.stopRest
  case kill =>
    simp only [Supervisor.exec] at h
    split at h
    · exact idles_next h (dead_killProc _)
    · exact idles_next h id
  case breakIfStopping =>
    simp only [Supervisor.exec] at h
    split_ifs at h
    · exact idles_jump h id hP.afterLoop
    · exact idles_next h id
  case breakIfNewer =>
    simp only [Supervisor.exec] at h
    split_ifs at h
    · exact idles_jump h id hP.afterLoop
    · exact idles_next h id
  case breakIfDead =>
    simp only [Supervisor.exec] at h
    split at h
    · refine idles_jump h id ?_
      split_ifs
      · exact hP.probe
      · exact hP.afterLoop
    · exact nomatch h
  case connect =>
    simp only [Supervisor.exec] at h
    split at h
    · split_ifs at h
      exact idles_jump h (dead_modify _ fun _ => id) hP.connected
    · exact idles_jump h id rfl
    · exact nomatch h
  case startRelay =>
    simp only [Supervisor.exec] at h
    split at h
    · exact idles_next h id
    · refine idles_jump h id ?_
      rw [List.any_append, hP.fail]
      rfl
    · exact nomatch h
  case leaveLoop => exact idles_jump h id hP.afterLoop
  case timeout =>
    simp only [Supervisor.exec] at h
    split at h
    · refine idles_jump h id ?_
      rw [List.any_append, hP.fail, hP.onLate]
      rfl
    · exact idles_jump h id rfl
    · exact nomatch h
  case sleep => exact idles_jump h id hP.loop
  case waitFor =>
    simp only [Supervisor.exec] at h
    split at h
    · split_ifs at h
      exact idles_next h id
    · exact nomatch h
  case returnIfStopping =>
    simp only [Supervisor.exec] at h
    split_ifs at h
    · exact idles_jump h id rfl
    · exact idles_next h id
  case returnIfNewer =>
    simp only [Supervisor.exec] at h
    split_ifs at h
    · exact idles_jump h id rfl
    · exact idles_next h id
  case returnIfReplaced =>
    simp only [Supervisor.exec] at h
    split at h
    · exact idles_jump h id (by split_ifs <;> rfl)
    · exact nomatch h
  case report =>
    simp only [Supervisor.exec] at h
    split at h
    · exact idles_jump h id (hP.fail _)
    · exact nomatch h
  case post m =>
    refine idles_next h fun hdead => ?_
    split_ifs
    · exact hdead
    · exact hdead
  all_goals exact idles_next h id

end Client

/-! ### What a parked thread does -/

theorem ahead_false_of_leads (h : code.any leads = false) :
    Ahead dangerous isDelay code = false := by
  by_contra hahead
  obtain ⟨op, hop, hdangerous⟩ := List.any_eq_true.mp (any_of_ahead (by simpa using hahead))
  apply List.any_eq_false.mp h op hop
  rw [leads, hdangerous, Bool.true_or]

theorem parked_of_leads (h : code.any leads = false) : Parked s ⟨v, code⟩ := by
  unfold Parked
  split_ifs
  · exact ahead_false_of_leads h
  · exact h

/-- A parked thread stays parked when more jobs are cancelled. -/
theorem Parked.mono (h : Parked s t)
    (hcancelled : ∀ job, s.cancelled job = true → s'.cancelled job = true) : Parked s' t := by
  unfold Parked at h
  split_ifs at h with hjob
  · unfold Parked
    rw [if_pos (hcancelled _ hjob)]
    exact h
  · exact parked_of_leads h

/-- What is at the front of a parked thread starts nothing. -/
theorem Parked.not_dangerous (h : Parked s ⟨v, op :: rest⟩) : dangerous op = false := by
  have hahead : Ahead dangerous isDelay (op :: rest) = false := by
    unfold Parked at h
    split_ifs at h
    · exact h
    · exact ahead_false_of_leads h
  rw [ahead_cons, Bool.or_eq_false_iff] at hahead
  exact hahead.1

theorem Parked.go (h : Parked s ⟨v, op :: rest⟩)
    (hcancelled : ∀ job, s.cancelled job = true → s'.cancelled job = true)
    (hjob : w.job = v.job) (hop : isDelay op = false) (hcode : Soft op code = true) :
    Parked s' ⟨w, code ++ rest⟩ := by
  have hdangerous := h.not_dangerous
  simp only [Soft, hdangerous, Bool.false_or, Bool.and_eq_true, Bool.or_eq_true,
    Bool.not_eq_true'] at hcode
  refine Parked.mono (s := s) ?_ hcancelled
  unfold Parked at h
  by_cases hc : s.cancelled v.job = true
  · rw [if_pos hc, ahead_cons, hdangerous, hop, Bool.false_or, Bool.not_false, Bool.true_and] at h
    unfold Parked
    rw [hjob, if_pos hc]
    by_contra hahead
    rcases ahead_append (by simpa using hahead) with hnew | hold
    · exact nomatch hnew.symm.trans hcode.1
    · exact nomatch hold.symm.trans h
  · rw [if_neg hc, List.any_cons, Bool.or_eq_false_iff] at h
    apply parked_of_leads
    rw [List.any_append, h.2, hcode.2.resolve_left (by simp [h.1])]
    rfl

/-- What a step of a parked thread leaves as it is. -/
structure Rests (s : SocksVpnService) (rest : List Op) (r : Effect SocksVpnService Locals Op) :
    Prop where
  dead : s.Dead → r.state.Dead
  isRunning : s.isRunning = false → r.state.isRunning = false
  cancelled : ∀ job, s.cancelled job = true → r.state.cancelled job = true
  own : Parked r.state ⟨r.locals, r.flow.apply rest⟩
  launched : ∀ u ∈ r.launched, Parked r.state u

theorem rests_go (hparked : Parked s ⟨v, op :: rest⟩) (h : SocksVpnService.go s' w code = some r)
    (hdead : s.Dead → s'.Dead) (hisRunning : s.isRunning = false → s'.isRunning = false)
    (hcancelled : ∀ job, s.cancelled job = true → s'.cancelled job = true)
    (hjob : w.job = v.job) (hop : isDelay op = false) (hcode : Soft op code = true) :
    Rests s rest r := by
  cases h
  exact ⟨hdead, hisRunning, hcancelled, hparked.go hcancelled hjob hop hcode, nofun⟩

/-- An operation that reads and writes nothing of what counts here. -/
theorem rests_same (hparked : Parked s ⟨v, op :: rest⟩) (h : SocksVpnService.go s' w code = some r)
    (hview : s'.view = s.view) (hjob : w.job = v.job) (hop : isDelay op = false)
    (hcode : Soft op code = true) : Rests s rest r := by
  have hsame : ∀ {β : Type} (f : SocksVpnService → β), (∀ u, f u.view = f u) → f s' = f s := by
    intro β f hf
    rw [← hf, hview, hf]
  refine rests_go hparked h ?_ ?_ ?_ hjob hop hcode
  · exact (hsame Dead fun _ => rfl).mpr
  · exact (hsame isRunning fun _ => rfl).trans
  · exact fun job => (hsame (cancelled · job) fun _ => rfl).trans

theorem Plain.rests (h : Plain s v op r) (hparked : Parked s ⟨v, op :: rest⟩)
    (hop : isDelay op = false) : Rests s rest r := by
  obtain ⟨code, hflow, hfits⟩ := h.flow
  have heffect : SocksVpnService.go r.state r.locals code = some r := by
    rw [SocksVpnService.go, ← hflow, ← h.launched]
  rw [Fits, Bool.and_eq_true] at hfits
  exact rests_same hparked heffect h.view (congrArg Locals.job h.locals) hop hfits.2

/-! ### Operations with a say -/

theorem client_setClient {b b' : Backend} {x : Supervisor} :
    (s.setClient b x).client b' = if b = b' then x else s.client b' := by
  cases b <;> cases b' <;> rfl

theorem dead_iff : s.Dead ↔ ∀ b, (s.client b).Dead :=
  ⟨fun h b => by cases b; exacts [h.1, h.2], fun h => ⟨h .yandex, h .hysteria⟩⟩

theorem dead_setClient {b : Backend} {x : Supervisor} (h : s.Dead)
    (hx : (s.client b).Dead → x.Dead) : (s.setClient b x).Dead := by
  rw [dead_iff] at h ⊢
  intro b'
  rw [client_setClient]
  split_ifs
  · exact hx (h b)
  · exact h b'

theorem cancelled_setClient {b : Backend} {x : Supervisor} (job : Option ℕ) :
    (s.setClient b x).cancelled job = s.cancelled job := by
  cases b <;> rfl

theorem isRunning_setClient {b : Backend} {x : Supervisor} :
    (s.setClient b x).isRunning = s.isRunning := by
  cases b <;> rfl

/-- A step of a call that stops a client, or of a watcher. -/
theorem rests_client {b : Backend} {x : Thread Supervisor.Locals Supervisor.Op}
    (hparked : Parked s ⟨v, .client b x :: rest⟩) (h : execClient message c s v b x = some r) :
    Rests s rest r := by
  have hx : x.code.any isStart = false := hparked.not_dangerous
  unfold execClient at h
  split at h
  · exact rests_same hparked h rfl rfl rfl (by simp [Soft])
  · next o block hcode =>
    obtain ⟨e, he, rfl⟩ := Option.map_eq_some_iff.mp h
    rw [hcode, List.any_cons, Bool.or_eq_false_iff] at hx
    have hidles := exec_idles (startsOnce_program b) hx.1 he
    obtain ⟨new, hflow, hnew⟩ := hidles.flow
    have hblock : (e.flow.apply block).any isStart = false := by
      rcases hflow with hflow | hflow
      · rw [hflow, ControlFlow.apply_go, List.any_append, hnew, hx.2, Bool.or_false]
      · rw [hflow, ControlFlow.apply_exit, hnew]
    have hstart : ∀ u : Thread Supervisor.Locals Supervisor.Op, u.code.any isStart = false →
        [Op.client b u].any leads = false := by
      intro u hu
      simp [leads, dangerous, recovers, hu]
    have hcancelled : ∀ job, s.cancelled job = true →
        (s.setClient b e.state).cancelled job = true :=
      fun job => (cancelled_setClient job).trans
    refine ⟨fun hdead => dead_setClient hdead hidles.dead, isRunning_setClient.trans, hcancelled,
      hparked.go hcancelled rfl rfl ?_, fun u hu => ?_⟩
    · have hleads := hstart ⟨e.locals, e.flow.apply block⟩ hblock
      rw [Soft, hleads, ahead_false_of_leads hleads]
      simp
    · obtain ⟨w, hw, rfl⟩ := List.mem_map.mp hu
      exact parked_of_leads (hstart w (hidles.launched w hw))

/-- A `delay` in a job that is cancelled leaves the `finally` of a recovery. -/
theorem rests_delay (hparked : Parked s ⟨v, .delay :: rest⟩)
    (h : exec message c s v .delay = some r) : Rests s rest r := by
  simp only [exec] at h
  split_ifs at h with hjob
  · cases h
    refine ⟨id, id, fun _ => id, parked_of_leads ?_, fun _ hu => absurd hu List.not_mem_nil⟩
    rw [ControlFlow.apply_unwind, List.any_eq_false]
    intro op hop
    have hfinally := (List.mem_filter.mp hop).2
    cases op <;> simp [isFinally] at hfinally
    simp [leads, dangerous, recovers]
  · cases h
    refine ⟨id, id, fun _ => id, parked_of_leads ?_, fun _ hu => absurd hu List.not_mem_nil⟩
    unfold Parked at hparked
    rw [if_neg hjob, List.any_cons, Bool.or_eq_false_iff] at hparked
    exact hparked.2

theorem cancelled_cancel {job : Option ℕ} (k : Option ℕ) (h : s.cancelled k = true) :
    (s.cancel job).cancelled k = true := by
  cases k with
  | none => exact h
  | some k =>
    simp only [cancelled, cancel, Option.any_some, Bool.or_eq_true, List.contains_eq_mem,
      decide_eq_true_eq, List.mem_append] at h ⊢
    exact h.imp_right .inr

theorem dead_killStale (h : exec message c s v .killStale = some r) : r.state.Dead := by
  cases h
  constructor
  · intro q hq
    obtain ⟨q', -, rfl⟩ := List.mem_map.mp hq
    rfl
  · intro q hq
    obtain ⟨q', -, rfl⟩ := List.mem_map.mp hq
    rfl

/-- **A parked thread rests** while the service is not running, whatever it executes. -/
theorem exec_rests (hparked : Parked s ⟨v, op :: rest⟩) (hisRunning : s.isRunning = false)
    (hfall : op = .hysteriaExited → ¬ FallsBack s) (h : exec message c s v op = some r) :
    Rests s rest r := by
  have hdangerous := hparked.not_dangerous
  by_cases hspecial : special op = false
  · refine (exec_plain hspecial h).rests hparked ?_
    cases op <;> first | rfl | simp [special] at hspecial
  cases op <;> simp only [special, not_true_eq_false] at hspecial
  case client b x => exact rests_client hparked h
  case setRunning value =>
    obtain rfl : value = false := hdangerous
    exact rests_go hparked h id (fun _ => rfl) (fun _ => id) rfl rfl rfl
  case takeStopping =>
    simp only [exec] at h
    split_ifs at h
    · exact rests_go hparked h id id (fun _ => id) rfl rfl rfl
    · exact rests_go hparked h id id (fun _ => id) rfl rfl rfl
  case cancelHealth => exact rests_go hparked h id id cancelled_cancel rfl rfl rfl
  case cancelNetwork => exact rests_go hparked h id id cancelled_cancel rfl rfl rfl
  case clearReconnecting => exact rests_go hparked h id id (fun _ => id) rfl rfl rfl
  case killStale =>
    have hdead := dead_killStale h
    cases h
    exact rests_go hparked rfl (fun _ => hdead) id (fun _ => id) rfl rfl rfl
  case returned => exact rests_go hparked h id id (fun _ => id) rfl rfl rfl
  case cancelScope =>
    refine rests_go hparked h id id (fun job hjob => ?_) rfl rfl rfl
    cases job with
    | none => exact hjob
    | some job => rfl
  case launchMonitor g => simp [dangerous] at hdangerous
  case delay => exact rests_delay hparked h
  case takeReconnecting g =>
    simp only [exec] at h
    split_ifs at h
    · exact rests_same hparked h rfl rfl rfl rfl
    · exact rests_go hparked h id id (fun _ => id) rfl rfl rfl
  case checkStopping g => exact rests_same hparked h rfl rfl rfl (by split_ifs <;> rfl)
  case release => exact rests_go hparked h id id (fun _ => id) rfl rfl rfl
  case available =>
    refine rests_go hparked h id id (fun _ => id) rfl rfl ?_
    rw [if_neg (by simp [hisRunning])]
    rfl
  case launchNetwork g => simp [dangerous] at hdangerous
  case hysteriaExited =>
    refine rests_same hparked h rfl rfl rfl ?_
    rw [if_neg fun hback => hfall rfl ⟨hback.1, by simpa using hback.2.1, hback.2.2⟩]
    rfl

/-! ### Along a run -/

/-- Once the clients have been killed none is alive, and nothing leads to the start of one. -/
def Stopped (p : Pool SocksVpnService Locals Op) : Prop :=
  p.state.phase ≠ .busy → Still p ∧ p.state.Dead

/-- Only these operations end what a start from outside began. -/
theorem busy_exec (h : exec message c s v op = some r) (hbusy : s.phase = .busy) :
    r.state.phase = .busy ∨ op = .killStale ∨ op = .takeStopping ∧ s.stopping = true := by
  by_cases hspecial : special op = false
  · exact .inl ((congrArg phase (exec_plain hspecial h).view).trans hbusy)
  cases op <;> simp only [special, not_true_eq_false] at hspecial
  case client b x =>
    simp only [exec, execClient] at h
    split at h
    · cases h
      exact .inl hbusy
    · obtain ⟨e, -, rfl⟩ := Option.map_eq_some_iff.mp h
      cases b
      · exact .inl hbusy
      · exact .inl hbusy
  case takeStopping =>
    simp only [exec] at h
    split_ifs at h with hstopping
    · exact .inr (.inr ⟨rfl, hstopping⟩)
    · cases h
      exact .inl hbusy
  case killStale => exact .inr (.inl rfl)
  case returned =>
    cases h
    left
    show (if s.phase = .stopped then Phase.quiet else s.phase) = .busy
    rw [if_neg (by simp [hbusy]), hbusy]
  case delay =>
    simp only [exec] at h
    split_ifs at h
    · cases h
      exact .inl hbusy
    · cases h
      exact .inl hbusy
  case takeReconnecting g =>
    simp only [exec] at h
    split_ifs at h
    · cases h
      exact .inl hbusy
    · cases h
      exact .inl hbusy
  all_goals
    cases h
    exact .inl hbusy

/-- Where nothing leads to a start, nothing does after a step of any thread. -/
theorem still_run (hstill : Still p)
    (hfall : ∀ op ∈ p.next i, op = .hysteriaExited → ¬ FallsBack p.state)
    (h : p.step (exec message) i c = some p') : Still p' ∧ (p.state.Dead → p'.state.Dead) := by
  have hrests : ∀ v op rest r, p.threads[i]? = some ⟨v, op :: rest⟩ →
      exec message c p.state v op = some r → Rests p.state rest r := by
    intro v op rest r hi hr
    exact exec_rests (hstill.parked _ (List.mem_of_getElem? hi)) hstill.isRunning
      (hfall op (by simp [Pool.next, hi])) hr
  have hparked : ∀ t ∈ p'.threads, Parked p'.state t := by
    refine Pool.forall_step h fun v op rest r hi hr => ?_
    have hrest := hrests v op rest r hi hr
    refine ⟨fun t ht => ?_, hrest.own, hrest.launched⟩
    exact (hstill.parked t (Pool.mem_of_mem_others ht)).mono hrest.cancelled
  obtain ⟨v, op, rest, r, hi, hr, rfl⟩ := Pool.step_eq_some.mp h
  have hrest := hrests v op rest r hi hr
  exact ⟨⟨hrest.isRunning hstill.isRunning, hparked⟩, hrest.dead⟩

theorem stopped_run (hp : Stopped p) (hcalm : Calm p (.run i c))
    (h : p.step (exec message) i c = some p') : Stopped p' := by
  obtain ⟨v, op, rest, r, hi, hr, hp'⟩ := Pool.step_eq_some.mp h
  have hnext : p.next i = some op := by simp [Pool.next, hi]
  have hadmits : Admits p op := hcalm op hnext
  by_cases hbusy : p.state.phase = .busy
  · have hfall : op ≠ .hysteriaExited →
        ∀ o ∈ p.next i, o = .hysteriaExited → ¬ FallsBack p.state := by
      intro hne o ho heq
      rw [hnext, Option.mem_some] at ho
      exact absurd (ho.trans heq) hne
    intro hlater
    rcases busy_exec hr hbusy with hsame | rfl | ⟨rfl, hstopping⟩
    · rw [hp'] at hlater
      exact absurd hsame hlater
    · refine ⟨(still_run hadmits (hfall nofun) h).1, ?_⟩
      rw [hp']
      exact dead_killStale hr
    · obtain ⟨hstill, hdead⟩ := hadmits hstopping
      obtain ⟨hstill', hdead'⟩ := still_run hstill (hfall nofun) h
      exact ⟨hstill', hdead' hdead⟩
  · obtain ⟨hstill, hdead⟩ := hp hbusy
    have hfall : ∀ o ∈ p.next i, o = .hysteriaExited → ¬ FallsBack p.state := by
      intro o ho heq
      rw [hnext, Option.mem_some] at ho
      subst ho heq
      exact hadmits hbusy
    obtain ⟨hstill', hdead'⟩ := still_run hstill hfall h
    exact fun _ => ⟨hstill', hdead' hdead⟩

theorem stopped_call (hp : Stopped p) (h : call p code = some p')
    (hcode : code.any leads = false) : Stopped p' := by
  cases h
  intro hlater
  obtain ⟨hstill, hdead⟩ := hp hlater
  refine ⟨⟨hstill.isRunning, fun t ht => ?_⟩, hdead⟩
  rcases List.mem_append.mp ht with hthread | hnew
  · exact hstill.parked t hthread
  · rw [List.mem_singleton.mp hnew]
    exact parked_of_leads hcode

theorem stopped_start (h : callStart p code = some p')
    (hcalm : p.state.phase ≠ .stopped) : Stopped p' := by
  cases h
  intro hlater
  have hbusy : (if p.state.phase = .quiet then Phase.busy else p.state.phase) = .busy := by
    cases hphase : p.state.phase with
    | busy => rfl
    | stopped => exact absurd hphase hcalm
    | quiet => rfl
  exact absurd hbusy hlater

/-- What the clients do on their own, and the callbacks of the supervisors. -/
theorem Stopped.setClient {b : Backend} {x : Supervisor} (hp : Stopped p)
    (hx : (p.state.client b).Dead → x.Dead) :
    Stopped { p with state := p.state.setClient b x } := by
  intro hlater
  have hphase : (p.state.setClient b x).phase = p.state.phase := by cases b <;> rfl
  obtain ⟨hstill, hdead⟩ := hp (hphase ▸ hlater)
  refine ⟨⟨isRunning_setClient.trans hstill.isRunning, fun t ht => ?_⟩, dead_setClient hdead hx⟩
  exact (hstill.parked t ht).mono fun job => (cancelled_setClient job).trans

theorem stopped_step {e : Event} (hp : Stopped p) (hcalm : Calm p e)
    (h : (system message).step p e = some p') : Stopped p' := by
  cases e with
  | run i c => exact stopped_run hp hcalm h
  | startOpenFluxNative args key => exact stopped_start h hcalm
  | startHysteriaNative uri args key fallback => exact stopped_start h hcalm
  | startTun2Socks => exact stopped_start h hcalm
  | stopVpn => exact stopped_call hp h rfl
  | stopOpenFluxNative => exact stopped_call hp h rfl
  | onStartCommand intent => exact stopped_call hp h (by cases intent <;> rfl)
  | onRevoke => exact stopped_call hp h rfl
  | onDestroy => exact stopped_call hp h rfl
  | onAvailable => exact stopped_call hp h rfl
  | onLost available =>
    cases h
    intro hlater
    obtain ⟨hstill, hdead⟩ := hp hlater
    exact ⟨⟨hstill.isRunning, hstill.parked⟩, hdead⟩
  | callback b =>
    simp only [system] at h
    split at h
    · next posted _ =>
      have hposted := hp.setClient (x := { p.state.client b with posted }) id
      exact stopped_call hposted h (by cases b <;> rfl)
    · exact nomatch h
  | exit b q =>
    simp only [system, Option.ite_none_right_eq_some, Option.some.injEq] at h
    obtain ⟨-, rfl⟩ := h
    exact hp.setClient (dead_killProc q)
  | output b line =>
    simp only [system, Option.ite_none_right_eq_some, Option.some.injEq] at h
    obtain ⟨-, rfl⟩ := h
    exact hp.setClient id

/-- **No client is alive after the stop**: in every run that is `Calm`, whenever a `stopEverything`
has returned and nothing was started from outside since. -/
theorem dead_run {es : List Event} (h : (system message).run (system message).init es = some p)
    (hcalm : (system message).Along Calm (system message).init es)
    (hquiet : p.state.phase = .quiet) : p.state.Dead := by
  have hinit : Stopped (system message).init := fun hlater => absurd rfl hlater
  have hstopped := run_invariant (fun _ _ _ hp hc hstep => stopped_step hp hc hstep) hinit hcalm h
  exact (hstopped (by simp [hquiet])).2

/-- The service is stopped while a recovery waits, and the recovery ends. -/
def recoveryStopped : List Event :=
  session 0 ++ unhealthy 0 ++ waits 0 ++ stops 5 ++ steps 4 2

theorem dead_run_recoveryStopped : ∃ p, (system id).run (system id).init recoveryStopped = some p ∧
    p.state.phase = .quiet ∧ p.state.supervisor.procs ≠ [] ∧ p.state.Dead := by
  have hrun : ((system id).run (system id).init recoveryStopped).map
      (fun p => (p.state.phase, p.state.supervisor.procs.isEmpty)) = some (.quiet, false) := by
    decide +kernel
  obtain ⟨p, hp, hstate⟩ := Option.map_eq_some_iff.mp hrun
  rw [Prod.mk.injEq] at hstate
  obtain ⟨hquiet, hprocs⟩ := hstate
  exact ⟨p, hp, hquiet, by simpa using hprocs, dead_run hp (by decide +kernel) hquiet⟩

/-- The service is stopped when a recovery has just waited, and the recovery goes on. -/
def pastDelay : List Event :=
  session 0 ++ unhealthy 0 ++ waits 0 ++ steps 4 1 ++ stops 5 ++ steps 4 8 ++
    .run 4 (.port 8) :: steps 4 5

/-- A client is started under the stopped service. -/
theorem not_dead_pastDelay : ¬ ∀ es p, (system id).run (system id).init es = some p →
    p.state.phase = .quiet → p.state.Dead := by
  intro h
  have hrun : ((system id).run (system id).init pastDelay).map
      (fun p => (p.state.phase, decide p.state.supervisor.Dead)) = some (.quiet, false) := by
    decide +kernel
  obtain ⟨p, hp, hstate⟩ := Option.map_eq_some_iff.mp hrun
  rw [Prod.mk.injEq, decide_eq_false_iff_not] at hstate
  exact hstate.2 (h pastDelay p hp hstate.1).1

end SocksVpnService

end OpenFlux.App
