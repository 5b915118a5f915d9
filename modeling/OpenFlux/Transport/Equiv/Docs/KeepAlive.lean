import OpenFlux.Transport.Equiv.Docs.Threads

/-!
# Failures of the keep-alive loop

The flag `connected` says of whichever session is current that it works.  A connecting goroutine
clears it for its own session, before it publishes another one.  The keep-alive loop takes a
session, writes to its web socket and clears the flag when that fails, and by then there may be
another session, which nothing marks as connected again (`not_ready_lateFailure`).  While that does
not happen, a session without a failure is one that `Send` accepts packets for (`ready_of_works`).
-/

namespace OpenFlux.Transport.Docs

/-- A connecting goroutine that is to clear the flag has seen a failure. -/
def Connector.Failed (failed : List ℕ) : Connector → Prop
  | .broken _ _ conn => conn ∈ failed
  | _ => True

/-- So has the keep-alive loop. -/
def KeepAlive.Failed (failed : List ℕ) : KeepAlive → Prop
  | .failed session => session.conn ∈ failed
  | _ => True

theorem KeepAlive.Failed.mono {failed failed' : List ℕ} (h : failed ⊆ failed') {k : KeepAlive}
    (hk : k.Failed failed) : k.Failed failed' := by
  cases k with
  | failed session => exact h hk
  | _ => trivial

namespace Threads

variable {p : Provider} {cfg : SessionConfig} {s s' : Threads}

/-- `Send` does not refuse a packet because the transport is not connected. -/
def Ready (s : Threads) : Prop :=
  s.connected = true ∧ ∀ data, (s.call data).2 ≠ .error "transport not connected"

/-- The keep-alive loop clears the flag only while the session it has written to is the current
one. -/
def Current (s : Threads) : Event → Prop
  | .keepAlive i _ =>
    match s.keepAlives[i]? with
    | some (.failed session) => s.session = some session
    | _ => True
  | _ => True

instance (s : Threads) : ∀ e, Decidable (Current s e)
  | .keepAlive i _ => by
    unfold Current
    dsimp only
    split <;> infer_instance
  | .start | .callStop | .stop | .call _ | .send _ | .write _ _ | .connect _ _ =>
    inferInstanceAs (Decidable True)

/-! ### The invariant -/

structure Tracked (s : Threads) : Prop where
  connectors_le : s.connectors.length ≤ 1
  /-- The session of a connecting goroutine is the current one. -/
  published : ∀ c ∈ s.connectors, ∀ conn, c.published? = some conn →
    ∃ session, s.session = some session ∧ session.conn = conn
  connectors_failed : ∀ c ∈ s.connectors, c.Failed s.failed
  keepAlives_failed : ∀ k ∈ s.keepAlives, k.Failed s.failed
  /-- The flag is clear only after a failure of the current session. -/
  works : ∀ session, s.session = some session → session.conn ∉ s.failed → s.connected = true

theorem tracked_start : Tracked (threads p cfg).init.start where
  connectors_le := Nat.le_refl 1
  published := by simp [threads, start, Connector.published?]
  connectors_failed := by simp [threads, start, Connector.Failed]
  keepAlives_failed := by simp [threads, start, KeepAlive.Failed]
  works := nofun

theorem Tracked.of_quiet (h : Tracked s) (hq : Quiet s s') : Tracked s' := by
  obtain ⟨-, hconnected, hsession, -, hconnectors, hkeepAlives, -, hfailed⟩ := hq
  constructor
  · rw [hconnectors]
    exact h.connectors_le
  · rw [hconnectors, hsession]
    exact h.published
  · rw [hconnectors, hfailed]
    exact h.connectors_failed
  · rw [hkeepAlives, hfailed]
    exact h.keepAlives_failed
  · rw [hsession, hfailed, hconnected]
    exact h.works

/-! ### The connecting goroutine -/

/-- A goroutine goes on with its session, or without one. -/
theorem Tracked.goes {c : Connector} {r : Option Connector} (h : Tracked s)
    (hc : s.connectors = [c])
    (hr : ∀ c', r = some c' → (c'.published? = none ∨ c'.published? = c.published?) ∧
      c'.Failed s.failed) :
    Tracked { s with connectors := r.toList } :=
  { h with
    connectors_le := Option.length_toList_le
    published := fun c' hc' conn hconn => by
      have hsame := (hr c' (Option.mem_toList.mp hc')).1
      rw [hconn] at hsame
      exact h.published c (hc ▸ List.mem_singleton_self c) conn (hsame.resolve_left nofun).symm
    connectors_failed := fun c' hc' => (hr c' (Option.mem_toList.mp hc')).2 }

theorem Tracked.moves {c c' : Connector} (h : Tracked s) (hc : s.connectors = [c])
    (hpublished : c'.published? = none ∨ c'.published? = c.published?)
    (hfailed : c'.Failed s.failed) : Tracked { s with connectors := [c'] } :=
  h.goes (r := some c') hc fun _ hc' => Option.some.inj hc' ▸ ⟨hpublished, hfailed⟩

theorem Tracked.goes_ite {P : Prop} [Decidable P] {c c' : Connector} (h : Tracked s)
    (hc : s.connectors = [c]) (hpublished : c'.published? = none ∨ c'.published? = c.published?)
    (hfailed : c'.Failed s.failed) :
    Tracked { s with connectors := (if P then some c' else none).toList } := by
  refine h.goes hc fun c'' hc'' => ?_
  obtain ⟨-, heq⟩ := Option.ite_none_right_eq_some.mp hc''
  exact Option.some.inj heq ▸ ⟨hpublished, hfailed⟩

/-- Another failure. -/
theorem Tracked.fail (h : Tracked s) (conn : ℕ) : Tracked { s with failed := conn :: s.failed } :=
  { h with
    connectors_failed := fun c hc => by
      have hfailed := h.connectors_failed c hc
      cases c with
      | broken attempt late k => exact List.mem_cons_of_mem _ hfailed
      | _ => trivial
    keepAlives_failed := fun k hk =>
      (h.keepAlives_failed k hk).mono (List.subset_cons_self conn s.failed)
    works := fun session hsession hworks =>
      h.works session hsession fun hmem => hworks (List.mem_cons_of_mem _ hmem) }

/-- The flag is cleared for the current session. -/
theorem Tracked.disconnect {session : DocSession} (h : Tracked s)
    (hsession : s.session = some session) (hfailed : session.conn ∈ s.failed) :
    Tracked { s with connected := false } :=
  { h with
    works := fun u hu hworks => by
      obtain rfl := Option.some.inj (hsession.symm.trans hu)
      exact absurd hfailed hworks }

theorem tracked_connect {i : ℕ} {o : Outcome} (h : Tracked s)
    (hstep : (threads p cfg).step s (.connect i o) = some s') : Tracked s' := by
  obtain ⟨c, hc, rfl, rfl⟩ := connect_spec h.connectors_le hstep
  cases c with
  | start attempt => exact h.moves hc (.inl rfl) trivial
  | fetching attempt existing =>
    cases o with
    | ok => exact h.moves hc (.inl rfl) trivial
    | failed late => exact h.moves hc (.inl rfl) trivial
  | dialing attempt existing =>
    cases o with
    | ok =>
      have hmoved : Tracked { s with connectors := [.dialed attempt existing s.sockets.length] } :=
        h.moves hc (.inl rfl) trivial
      exact { hmoved with }
    | failed late => exact h.moves hc (.inl rfl) trivial
  | dialed attempt existing conn =>
    obtain ⟨session, channels, writers, hconn, hpublish⟩ := publish_spec s existing conn
    show Tracked { s.publish existing conn with connectors := [.authorizing attempt conn] }
    rw [hpublish]
    exact {
      connectors_le := Nat.le_refl 1
      published := by
        rw [List.forall_mem_singleton]
        rintro k ⟨⟩
        exact ⟨session, rfl, hconn⟩
      connectors_failed := by simp [Connector.Failed]
      keepAlives_failed := h.keepAlives_failed
      works := fun _ _ _ => rfl }
  | authorizing attempt conn => exact h.moves hc (.inr rfl) trivial
  | looping attempt conn => exact h.goes_ite hc (.inr rfl) trivial
  | reading attempt conn =>
    cases o with
    | ok => exact h.moves hc (.inr rfl) trivial
    | failed late => exact (h.fail conn).moves hc (.inr rfl) (List.mem_cons_self ..)
  | broken attempt late conn =>
    have hmem : Connector.broken attempt late conn ∈ s.connectors := hc ▸ List.mem_singleton_self _
    obtain ⟨session, hsession, rfl⟩ := h.published _ hmem conn rfl
    exact (h.disconnect hsession (h.connectors_failed _ hmem)).moves hc (.inr rfl) trivial
  | closing attempt late conn =>
    have hmoved : Tracked { s with connectors := [.retrying (if late then -1 else attempt)] } :=
      h.moves hc (.inl rfl) trivial
    exact { hmoved with }
  | retrying attempt => exact h.goes_ite hc (.inl rfl) trivial
  | sleeping next => exact h.goes_ite hc (.inl rfl) trivial
  | connecting next => exact h.goes_ite hc (.inl rfl) trivial

/-! ### The keep-alive loop -/

theorem Tracked.keepAlives {keepAlives : List KeepAlive} (h : Tracked s)
    (hfailed : ∀ k ∈ keepAlives, k.Failed s.failed) : Tracked { s with keepAlives } :=
  { h with keepAlives_failed := hfailed }

theorem tracked_keepAlive {i : ℕ} {o : Outcome} (h : Tracked s)
    (hcurrent : Current s (.keepAlive i o))
    (hstep : (threads p cfg).step s (.keepAlive i o) = some s') : Tracked s' := by
  obtain ⟨k, hi, rfl⟩ := step_keepAlive.mp hstep
  have hothers : ∀ k' ∈ s.keepAlives.eraseIdx i, k'.Failed s.failed :=
    fun k' hk' => h.keepAlives_failed k' (List.mem_of_mem_eraseIdx hk')
  rcases keepAlive_cases s o k with ⟨heq, hnot⟩ | ⟨session, -, heq⟩ | ⟨session, rfl, heq⟩
  · rw [heq]
    refine h.keepAlives fun k' hk' => ?_
    rcases mem_of_mem_place hk' with hown | hother
    · cases k' with
      | failed session => exact absurd hown (hnot session)
      | _ => trivial
    · exact hothers k' hother
  · rw [heq]
    refine (h.fail session.conn).keepAlives fun k' hk' => ?_
    rcases mem_of_mem_place hk' with hown | hother
    · rw [← Option.some.inj hown]
      exact List.mem_cons_self ..
    · exact (hothers k' hother).mono (List.subset_cons_self ..)
  · rw [heq]
    rw [Current, hi] at hcurrent
    have hfailed := h.keepAlives_failed _ (List.mem_of_getElem? hi)
    refine (h.disconnect hcurrent hfailed).keepAlives fun k' hk' => ?_
    rcases mem_of_mem_place hk' with hown | hother
    · rw [← Option.some.inj hown]
      trivial
    · exact hothers k' hother

/-! ### Every run -/

theorem tracked_step {e : Event} (h : Tracked s) (he : e.IsInner = true) (hcurrent : Current s e)
    (hstep : (threads p cfg).step s e = some s') : Tracked s' := by
  cases e with
  | start => cases he
  | callStop => cases he
  | stop => cases he
  | call data => exact h.of_quiet (quiet_step (e := .call data) trivial hstep)
  | send i => exact h.of_quiet (quiet_step (e := .send i) trivial hstep)
  | write i o => exact h.of_quiet (quiet_step (e := .write i o) trivial hstep)
  | connect i o => exact tracked_connect h hstep
  | keepAlive i o => exact tracked_keepAlive h hcurrent hstep

/-- **No failure of an earlier session**: in every run after one `Start` in which the keep-alive
loop clears the flag only for the current session, `Send` is ready as long as no read and no
keep-alive message has failed on the web socket of the current session. -/
theorem ready_of_works {es : List Event} {session : DocSession}
    (hrun : (threads p cfg).run (threads p cfg).init (.start :: es) = some s)
    (hinner : ∀ e ∈ es, e.IsInner = true)
    (hcurrent : (threads p cfg).Along Current (threads p cfg).init (.start :: es))
    (hsession : s.session = some session) (hworks : session.conn ∉ s.failed) : Ready s := by
  obtain ⟨s₁, hstart, hrest⟩ := EventSystem.run_cons_eq_some.mp hrun
  obtain ⟨-, rfl⟩ := step_start.mp hstart
  have halong : (threads p cfg).Along (fun s e => e.IsInner = true ∧ Current s e)
      (threads p cfg).init.start es :=
    EventSystem.along_and.mpr
      ⟨EventSystem.along_of_forall (fun _ e he => hinner e he) _, hcurrent.2 _ hstart⟩
  have h : Tracked s :=
    EventSystem.run_invariant (fun _ _ _ h hP => tracked_step h hP.1 hP.2) tracked_start halong
      hrest
  have hconnected := h.works session hsession hworks
  refine ⟨hconnected, fun data => ?_⟩
  rw [Threads.call, if_pos hconnected]
  exact nofun

/-- The reader's web socket breaks, and the goroutine connects again. -/
def reconnecting : List Event :=
  [.connect 0 (.failed true), .connect 0 .ok, .connect 0 .ok, .connect 0 .ok, .connect 0 .ok,
    .connect 0 .ok] ++ connecting

/-- A keep-alive message fails before the reader does. -/
def failureInTime : List Event :=
  connecting ++ [.keepAlive 0 .ok, .keepAlive 0 .ok, .keepAlive 0 (.failed true),
    .keepAlive 0 .ok] ++ reconnecting

theorem ready_failureInTime : ∃ s session, (threads .yandex .default).run
    (threads .yandex .default).init (.start :: failureInTime) = some s ∧
      s.session = some session ∧ s.failed = [0, 0] ∧ Ready s := by
  have hend : ((threads .yandex .default).run (threads .yandex .default).init
      (.start :: failureInTime)).map (fun s => (s.session, s.failed)) =
        some (some ⟨⟨0⟩, 1⟩, [0, 0]) := by
    decide +kernel
  obtain ⟨s, hrun, hs⟩ := Option.map_eq_some_iff.mp hend
  simp only [Prod.mk.injEq] at hs
  obtain ⟨hsession, hfailed⟩ := hs
  refine ⟨s, _, hrun, hsession, hfailed, ready_of_works hrun (by decide) ?_ hsession ?_⟩
  · decide +kernel
  · rw [hfailed]
    decide

/-- A keep-alive message fails on the web socket of the first session when the second is there. -/
def lateFailure : List Event :=
  connecting ++ [.keepAlive 0 .ok, .keepAlive 0 .ok] ++ reconnecting ++
    [.keepAlive 0 (.failed true), .keepAlive 0 .ok]

/-- The second session works, and `Send` refuses every packet. -/
theorem not_ready_lateFailure : ¬ ∀ p es s session, (threads p .default).run
    (threads p .default).init (.start :: es) = some s → (∀ e ∈ es, e.IsInner = true) →
      s.session = some session → session.conn ∉ s.failed → Ready s := by
  intro h
  have hend : ((threads .yandex .default).run (threads .yandex .default).init
      (.start :: lateFailure)).map (fun s => (s.session, s.failed, s.connected)) =
        some (some ⟨⟨0⟩, 1⟩, [0, 0], false) := by
    decide +kernel
  obtain ⟨s, hrun, hs⟩ := Option.map_eq_some_iff.mp hend
  simp only [Prod.mk.injEq] at hs
  obtain ⟨hsession, hfailed, hconnected⟩ := hs
  have hready := h _ _ s _ hrun (by decide) hsession (by rw [hfailed]; decide)
  exact Bool.false_ne_true (hconnected.symm.trans hready.1)

end Threads

end OpenFlux.Transport.Docs
