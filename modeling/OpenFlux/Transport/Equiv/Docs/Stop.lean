import OpenFlux.Transport.Equiv.Docs.Threads

/-!
# What `Stop` of the Yandex Documents transport leaves behind

`Stop` clears the flags, takes the session away and closes its web socket, and does not wait for the
connecting goroutine.  A session published before the flag `connected` is cleared is the one that
`Stop` finds and closes.  The goroutine that is still fetching or dialing at that time publishes its
session later all the same (`not_disconnected_stopWhileDialing`); in a run where none does, a
stopped transport is disconnected (`disconnected_of_stopped`).
-/

namespace OpenFlux.Transport.Docs.Threads

variable {cfg : SessionConfig} {s s' : Threads}

/-- `IsConnected` is false, there is no session, `Send` returns an error and all web sockets are
closed. -/
structure Disconnected (s : Threads) : Prop where
  isConnected : s.connected = false
  session : s.session = none
  send : ∀ data, s.call data = (s, .error "transport not connected")
  closed : ∀ closed ∈ s.sockets, closed = true

/-- The goroutine is about to read. -/
def AboutToRead : Connector → Prop
  | .looping _ _ | .reading _ _ => True
  | _ => False

/-- `Start` is called only when no connecting goroutine is left, and a session is published only
before `Stop` has cleared `connected`. -/
def Timely (s : Threads) : Event → Prop
  | .start => s.connectors = []
  | .connect i _ =>
    match s.connectors[i]? with
    | some (.dialed _ _ _) => s.running = true ∨ s.stop = some .connected
    | _ => True
  | _ => True

instance (s : Threads) : ∀ e, Decidable (Timely s e)
  | .start => inferInstanceAs (Decidable (s.connectors = []))
  | .connect i _ => by
    unfold Timely
    dsimp only
    split <;> infer_instance
  | .callStop | .stop | .call _ | .send _ | .write _ _ | .keepAlive _ _ =>
    inferInstanceAs (Decidable True)

/-! ### The invariant -/

/-- The session's web socket, if there is a session, has been closed. -/
def SessionClosed (s : Threads) : Prop :=
  ∀ session, s.session = some session → s.sockets[session.conn]? = some true

/-- `Stop` has taken the session away, or has returned. -/
def Emptied : Option StopPc → Prop
  | none | some (.close _) => True
  | _ => False

/-- Somebody is going to close the web socket. -/
def Kept (s : Threads) (conn : ℕ) : Prop :=
  (∃ c ∈ s.connectors, c.dialed? = some conn) ∨ (∃ session, s.session = some session ∧
    session.conn = conn) ∨ s.stop = some (.close conn)

structure Inv (s : Threads) : Prop where
  connectors_le : s.connectors.length ≤ 1
  /-- Once `Stop` has cleared `connected` it stays false. -/
  down : s.running = false → s.stop ≠ some .connected → s.connected = false
  /-- Once `Stop` has taken the session away there is none. -/
  gone : s.running = false → Emptied s.stop → s.session = none
  /-- A goroutine's web socket is one of those dialed, and its session the one there is. -/
  dialed : ∀ c ∈ s.connectors, ∀ conn, c.dialed? = some conn → conn < s.sockets.length
  published : ∀ c ∈ s.connectors, ∀ conn, c.published? = some conn →
    conn < s.sockets.length ∧ ∀ session, s.session = some session → session.conn = conn
  /-- The web socket of a session that is to be replaced has been closed. -/
  replaced : (∀ c ∈ s.connectors, c.published? = none) → (s.running = true ∨ s.connectors ≠ []) →
    SessionClosed s
  kept : ∀ conn, s.sockets[conn]? = some false → Kept s conn

theorem inv_init : Inv (threads .yandex cfg).init where
  connectors_le := Nat.zero_le 1
  down _ _ := rfl
  gone _ _ := rfl
  dialed := by simp [threads]
  published := by simp [threads]
  replaced _ _ := nofun
  kept := nofun

theorem Inv.of_quiet (h : Inv s) (hq : Quiet s s') : Inv s' := by
  obtain ⟨hrunning, hconnected, hsession, hsockets, hconnectors, -, hstop, -⟩ := hq
  constructor
  · rw [hconnectors]
    exact h.connectors_le
  · rw [hrunning, hstop, hconnected]
    exact h.down
  · rw [hrunning, hstop, hsession]
    exact h.gone
  · rw [hconnectors, hsockets]
    exact h.dialed
  · rw [hconnectors, hsockets, hsession]
    exact h.published
  · rw [hconnectors, hrunning, SessionClosed, hsession, hsockets]
    exact h.replaced
  · simp only [Kept, hconnectors, hsession, hstop, hsockets]
    exact h.kept

/-- `Stop` keeps no web socket but the one it is about to close. -/
theorem Kept.of_not_closing {conn : ℕ} (h : Kept s conn) (hstop : s.stop ≠ some (.close conn)) :
    (∃ c ∈ s.connectors, c.dialed? = some conn) ∨
      ∃ session, s.session = some session ∧ session.conn = conn :=
  h.imp_right fun hrest => hrest.resolve_right hstop

/-! ### The calls -/

theorem inv_start (h : Inv s) (hstop : s.stop = none) (halone : s.connectors = []) :
    Inv s.start := by
  have hconnectors : s.start.connectors = [.start 0] := by
    show s.connectors ++ _ = _
    rw [halone, List.nil_append]
  have hclosed : SessionClosed s := by
    intro session hsession
    by_cases hrunning : s.running = true
    · exact h.replaced (by simp [halone]) (.inl hrunning) session hsession
    · have hemptied : Emptied s.stop := hstop ▸ trivial
      rw [h.gone (Bool.eq_false_of_not_eq_true hrunning) hemptied] at hsession
      cases hsession
  constructor
  · rw [hconnectors]
    exact le_rfl
  · exact nofun
  · exact nofun
  · rw [hconnectors]
    simp [Connector.dialed?]
  · rw [hconnectors]
    simp [Connector.published?]
  · exact fun _ _ => hclosed
  · intro conn hconn
    rcases h.kept conn hconn with ⟨c, hc, -⟩ | hrest
    · rw [halone] at hc
      cases hc
    · exact .inr hrest

theorem inv_callStop (h : Inv s) (hstop : s.stop = none) :
    Inv { s with stop := some .running } where
  connectors_le := h.connectors_le
  down hrunning _ := h.down hrunning (hstop ▸ nofun)
  gone _ := nofun
  dialed := h.dialed
  published := h.published
  replaced := h.replaced
  kept conn hconn := ((h.kept conn hconn).of_not_closing (hstop ▸ nofun)).imp_right .inl

theorem closed_set {l : List Bool} {i j : ℕ} (h : l[j]? = some true) :
    (l.set i true)[j]? = some true := by
  rcases eq_or_ne i j with rfl | hne
  · exact List.getElem?_set_self (List.getElem?_eq_some_iff.mp h).1
  · rwa [List.getElem?_set_ne hne]

theorem open_of_set {l : List Bool} {i j : ℕ} (h : (l.set i true)[j]? = some false) :
    i ≠ j ∧ l[j]? = some false := by
  rcases eq_or_ne i j with rfl | hne
  · rw [List.getElem?_set_self' ] at h
    cases hi : l[i]? with
    | none => simp [hi] at h
    | some b => simp [hi] at h
  · rw [List.getElem?_set_ne hne] at h
    exact ⟨hne, h⟩

/-- The web socket of the session that `Stop` takes away is the one it closes. -/
theorem inv_stop (h : Inv s) (hstep : s.stepStop .yandex = some s') : Inv s' := by
  cases hstop : s.stop with
  | none => simp [stepStop, hstop] at hstep
  | some pc =>
    simp only [stepStop, hstop] at hstep
    cases pc with
    | running =>
      obtain rfl := Option.some.inj hstep
      exact { h with
        down := fun _ hne => absurd rfl hne
        gone := fun _ => nofun
        replaced := fun hnone hne => h.replaced hnone (.inr (hne.resolve_left nofun))
        kept := fun conn hconn =>
          ((h.kept conn hconn).of_not_closing (hstop ▸ nofun)).imp_right .inl }
    | connected =>
      obtain rfl := Option.some.inj hstep
      exact { h with
        down := fun _ _ => rfl
        gone := fun _ => nofun
        kept := fun conn hconn =>
          ((h.kept conn hconn).of_not_closing (hstop ▸ nofun)).imp_right .inl }
    | session =>
      obtain rfl := Option.some.inj hstep
      exact { h with
        down := fun hrunning _ => h.down hrunning (hstop ▸ nofun)
        gone := fun _ _ => rfl
        published := fun c hc conn hconn => ⟨(h.published c hc conn hconn).1, nofun⟩
        replaced := fun _ _ => nofun
        kept := fun conn hconn => by
          have hkept := (h.kept conn hconn).of_not_closing (hstop ▸ nofun)
          rcases hkept with hdialed | ⟨session, hsession, rfl⟩
          · exact .inl hdialed
          · exact .inr (.inr (congrArg (Option.map _) hsession)) }
    | close conn =>
      obtain rfl := Option.some.inj hstep
      exact { h with
        down := fun hrunning _ => h.down hrunning (hstop ▸ nofun)
        gone := fun hrunning _ => h.gone hrunning (hstop ▸ trivial)
        dialed := fun c hc k hk => (h.dialed c hc k hk).trans_eq List.length_set.symm
        published := fun c hc k hk =>
          (h.published c hc k hk).imp_left fun hlt => hlt.trans_eq List.length_set.symm
        replaced := fun hnone hne session hsession =>
          closed_set (h.replaced hnone hne session hsession)
        kept := fun k hk => by
          obtain ⟨hne, hopen⟩ := open_of_set hk
          rcases h.kept k hopen with hdialed | hsession | hclose
          · exact .inl hdialed
          · exact .inr (.inl hsession)
          · obtain rfl := StopPc.close.inj (Option.some.inj (hstop.symm.trans hclose))
            exact absurd rfl hne }

/-! ### The connecting goroutine -/

/-- A step that changes nothing, of a goroutine without a web socket to publish. -/
theorem Inv.goes {c : Connector} {r : Option Connector} (h : Inv s) (hc : s.connectors = [c])
    (hdialed : c.dialed? = none)
    (hr : ∀ c', r = some c' → c'.dialed? = none ∧ c'.published? = c.published?)
    (hleft : r = none → s.running = false ∨ c.published? = none) :
    Inv { s with connectors := r.toList } where
  connectors_le := Option.length_toList_le
  down := h.down
  gone := h.gone
  dialed c' hc' conn hconn := by
    rw [(hr c' (Option.mem_toList.mp hc')).1] at hconn
    cases hconn
  published c' hc' conn hconn := by
    rw [(hr c' (Option.mem_toList.mp hc')).2] at hconn
    exact h.published c (hc ▸ List.mem_singleton_self c) conn hconn
  replaced hnone hne := by
    have hc' : c.published? = none ∧ (s.running = true ∨ s.connectors ≠ []) := by
      cases hr' : r with
      | none =>
        subst hr'
        have hrunning : s.running = true := hne.resolve_right (absurd rfl)
        exact ⟨(hleft rfl).resolve_left (by rw [hrunning]; exact nofun), .inl hrunning⟩
      | some c' =>
        refine ⟨?_, .inr (by rw [hc]; exact nofun)⟩
        rw [← (hr c' hr').2]
        exact hnone c' (Option.mem_toList.mpr hr')
    exact h.replaced (by rw [hc, List.forall_mem_singleton]; exact hc'.1) hc'.2
  kept conn hconn := by
    rcases h.kept conn hconn with ⟨c', hc', hdialed'⟩ | hrest
    · rw [hc, List.mem_singleton] at hc'
      rw [hc', hdialed] at hdialed'
      cases hdialed'
    · exact .inr hrest

/-- The new session takes the place of one that is closed. -/
theorem inv_publish {attempt : ℤ} {existing : Option DocSession} {conn : ℕ} (h : Inv s)
    (hc : s.connectors = [.dialed attempt existing conn])
    (htimely : s.running = true ∨ s.stop = some .connected) :
    Inv { s.publish existing conn with connectors := [.authorizing attempt conn] } := by
  have hmem : Connector.dialed attempt existing conn ∈ s.connectors :=
    hc ▸ List.mem_singleton_self _
  have hclosed : SessionClosed s :=
    h.replaced (by rw [hc, List.forall_mem_singleton]; rfl) (.inr (by rw [hc]; exact nofun))
  obtain ⟨session, channels, writers, hconn, hpublish⟩ := publish_spec s existing conn
  rw [hpublish]
  exact {
    connectors_le := Nat.le_refl 1
    down := fun hrunning hne => absurd hrunning (by simpa [hne] using htimely)
    gone := fun hrunning hemptied => by
      have hstop := htimely.resolve_left (by rw [hrunning]; exact nofun)
      rw [hstop] at hemptied
      exact hemptied.elim
    dialed := by simp [Connector.dialed?]
    published := by
      rw [List.forall_mem_singleton]
      rintro k ⟨⟩
      exact ⟨h.dialed _ hmem conn rfl, fun u hu => Option.some.inj hu ▸ hconn⟩
    replaced := fun hnone => nomatch hnone _ (List.mem_singleton_self _)
    kept := fun k hk => by
      rcases h.kept k hk with ⟨c, hmem', hdialed⟩ | ⟨u, hu, rfl⟩ | hclose
      · rw [hc, List.mem_singleton] at hmem'
        rw [hmem'] at hdialed
        exact .inr (.inl ⟨session, rfl, hconn.trans (Option.some.inj hdialed)⟩)
      · rw [hclosed u hu] at hk
        cases hk
      · exact .inr (.inr hclose) }

/-- A dialed web socket is kept by the goroutine. -/
theorem inv_dial {attempt : ℤ} {existing : Option DocSession} (h : Inv s)
    (hc : s.connectors = [.dialing attempt existing]) :
    Inv { s with
      sockets := s.sockets ++ [false]
      connectors := [.dialed attempt existing s.sockets.length] } where
  connectors_le := Nat.le_refl 1
  down := h.down
  gone := h.gone
  dialed := by simp [Connector.dialed?]
  published := by simp [Connector.published?]
  replaced _ _ session hsession := by
    have hclosed := h.replaced (by rw [hc, List.forall_mem_singleton]; rfl)
      (.inr (by rw [hc]; exact nofun)) session hsession
    rwa [List.getElem?_append_left (List.getElem?_eq_some_iff.mp hclosed).1]
  kept conn hconn := by
    rcases Nat.lt_or_ge conn s.sockets.length with hlt | hge
    · rw [List.getElem?_append_left hlt] at hconn
      refine (h.kept conn hconn).imp_left ?_
      rintro ⟨c, hmem, hdialed⟩
      rw [hc, List.mem_singleton] at hmem
      rw [hmem] at hdialed
      cases hdialed
    · have hlt := (List.getElem?_eq_some_iff.mp hconn).1
      rw [List.length_append, List.length_singleton] at hlt
      obtain rfl : conn = s.sockets.length := by omega
      exact .inl ⟨_, List.mem_singleton_self _, rfl⟩

/-- The goroutine closes the web socket before it goes for another one. -/
theorem inv_close {attempt next : ℤ} {late : Bool} {conn : ℕ} (h : Inv s)
    (hc : s.connectors = [.closing attempt late conn]) :
    Inv { s with sockets := s.sockets.set conn true, connectors := [.retrying next] } := by
  obtain ⟨hlt, hsame⟩ := h.published _ (hc ▸ List.mem_singleton_self _) conn rfl
  exact {
    connectors_le := Nat.le_refl 1
    down := h.down
    gone := h.gone
    dialed := by simp [Connector.dialed?]
    published := by simp [Connector.published?]
    replaced := fun _ _ session hsession => by
      show (s.sockets.set conn true)[session.conn]? = some true
      rw [hsame session hsession, List.getElem?_set_self hlt]
    kept := fun k hk => by
      obtain ⟨-, hopen⟩ := open_of_set hk
      rcases h.kept k hopen with ⟨c, hmem, hdialed⟩ | hrest
      · rw [hc, List.mem_singleton] at hmem
        rw [hmem] at hdialed
        cases hdialed
      · exact .inr hrest }

theorem Inv.disconnect (h : Inv s) : Inv { s with connected := false } :=
  { h with down := fun _ _ => rfl }

theorem Inv.fail (h : Inv s) (failed : List ℕ) : Inv { s with failed } := { h with }

theorem Inv.moves {c c' : Connector} (h : Inv s) (hc : s.connectors = [c])
    (hdialed : c.dialed? = none) (hdialed' : c'.dialed? = none)
    (hpublished : c'.published? = c.published?) : Inv { s with connectors := [c'] } :=
  h.goes (r := some c') hc hdialed (fun _ hc' => Option.some.inj hc' ▸ ⟨hdialed', hpublished⟩) nofun

/-- A goroutine goes on, or leaves. -/
theorem goes_ite {P : Prop} [Decidable P] {c : Connector} {conn : Option ℕ}
    (h : c.dialed? = none ∧ c.published? = conn) :
    ∀ c', (if P then some c else none) = some c' → c'.dialed? = none ∧ c'.published? = conn := by
  intro c' hc'
  obtain ⟨-, heq⟩ := Option.ite_none_right_eq_some.mp hc'
  exact Option.some.inj heq ▸ h

theorem inv_connect {i : ℕ} {o : Outcome} (h : Inv s) (htimely : Timely s (.connect i o))
    (hstep : (threads .yandex cfg).step s (.connect i o) = some s') : Inv s' := by
  obtain ⟨c, hc, rfl, rfl⟩ := connect_spec h.connectors_le hstep
  cases c with
  | start attempt => exact h.moves hc rfl rfl rfl
  | fetching attempt existing =>
    cases o with
    | ok => exact h.moves hc rfl rfl rfl
    | failed late => exact h.moves hc rfl rfl rfl
  | dialing attempt existing =>
    cases o with
    | ok => exact inv_dial h hc
    | failed late => exact h.moves hc rfl rfl rfl
  | dialed attempt existing conn =>
    rw [Timely, hc] at htimely
    exact inv_publish h hc htimely
  | authorizing attempt conn => exact h.moves hc rfl rfl rfl
  | looping attempt conn =>
    refine h.goes hc rfl (goes_ite ⟨rfl, rfl⟩) fun hnone => .inl ?_
    exact Bool.eq_false_of_not_eq_true fun hrunning => nomatch (if_pos hrunning).symm.trans hnone
  | reading attempt conn =>
    cases o with
    | ok => exact h.moves hc rfl rfl rfl
    | failed late => exact (h.fail _).moves hc rfl rfl rfl
  | broken attempt late conn => exact h.disconnect.moves hc rfl rfl rfl
  | closing attempt late conn => exact inv_close h hc
  | retrying attempt => exact h.goes hc rfl (goes_ite ⟨rfl, rfl⟩) fun _ => .inr rfl
  | sleeping next => exact h.goes hc rfl (goes_ite ⟨rfl, rfl⟩) fun _ => .inr rfl
  | connecting next => exact h.goes hc rfl (goes_ite ⟨rfl, rfl⟩) fun _ => .inr rfl

/-! ### Every run -/

theorem inv_step {e : Event} (h : Inv s) (htimely : Timely s e)
    (hstep : (threads .yandex cfg).step s e = some s') : Inv s' := by
  cases e with
  | start =>
    obtain ⟨hstop, rfl⟩ := step_start.mp hstep
    exact inv_start h hstop htimely
  | callStop =>
    obtain ⟨hstop, rfl⟩ := step_callStop.mp hstep
    exact inv_callStop h hstop
  | stop => exact inv_stop h hstep
  | connect i o => exact inv_connect h htimely hstep
  | keepAlive i o =>
    obtain ⟨k, -, rfl⟩ := step_keepAlive.mp hstep
    rcases keepAlive_cases s o k with ⟨heq, -⟩ | ⟨session, -, heq⟩ | ⟨session, -, heq⟩
    · exact { (heq.symm ▸ h : Inv (s.keepAlive o k).1) with }
    · rw [heq]
      exact { h.fail (session.conn :: s.failed) with }
    · rw [heq]
      exact { h.disconnect with }
  | call data => exact h.of_quiet (quiet_step (e := .call data) trivial hstep)
  | send i => exact h.of_quiet (quiet_step (e := .send i) trivial hstep)
  | write i o => exact h.of_quiet (quiet_step (e := .write i o) trivial hstep)

/-- **Stopped for good**: in every run in which no session is published after `Stop` has cleared
`connected`, and no `Start` comes while a connecting goroutine is left, a transport that is stopped
is disconnected as soon as that goroutine has finished or is about to read. -/
theorem disconnected_of_stopped {es : List Event}
    (hrun : (threads .yandex cfg).run (threads .yandex cfg).init es = some s)
    (htimely : (threads .yandex cfg).Along Timely (threads .yandex cfg).init es)
    (hrunning : s.running = false) (hreturned : s.stop = none)
    (hgoroutine : ∀ c ∈ s.connectors, AboutToRead c) : Disconnected s := by
  have h : Inv s :=
    EventSystem.run_invariant (fun _ _ _ => inv_step) inv_init htimely hrun
  have hconnected : s.connected = false := h.down hrunning (hreturned ▸ nofun)
  have hsession : s.session = none := h.gone hrunning (hreturned ▸ trivial)
  refine ⟨hconnected, hsession, fun data => ?_, fun closed hclosed => ?_⟩
  · rw [Threads.call, hconnected]
    rfl
  · obtain ⟨conn, hconn⟩ := List.mem_iff_getElem?.mp hclosed
    by_contra hopen
    rw [Bool.eq_false_of_not_eq_true hopen] at hconn
    rcases (h.kept conn hconn).of_not_closing (hreturned ▸ nofun) with
      ⟨c, hc, hdialed⟩ | ⟨session, hsession', -⟩
    · have habout := hgoroutine c hc
      cases c with
      | dialed attempt existing conn => exact habout
      | _ => cases hdialed
    · exact nomatch hsession.symm.trans hsession'

/-- `Stop` is called while the goroutine reads. -/
def stopWhileReading : List Event :=
  .start :: connecting ++ [.callStop, .stop, .stop, .stop, .stop]

theorem disconnected_stopWhileReading : ∃ s, (threads .yandex .default).run
    (threads .yandex .default).init stopWhileReading = some s ∧ s.sockets ≠ [] ∧
      Disconnected s := by
  have hend : ((threads .yandex .default).run (threads .yandex .default).init
      stopWhileReading).map (fun s => (s.running, s.stop, s.connectors, s.sockets)) =
        some (false, none, [.reading 0 0], [true]) := by
    decide +kernel
  obtain ⟨s, hrun, hs⟩ := Option.map_eq_some_iff.mp hend
  simp only [Prod.mk.injEq] at hs
  obtain ⟨hrunning, hstop, hconnectors, hsockets⟩ := hs
  refine ⟨s, hrun, by rw [hsockets]; exact nofun, ?_⟩
  refine disconnected_of_stopped hrun (by decide +kernel) hrunning hstop ?_
  rw [hconnectors, List.forall_mem_singleton]
  trivial

/-- `Stop` is called and returns while the goroutine dials. -/
def stopWhileDialing : List Event :=
  [.start, .connect 0 .ok, .connect 0 .ok, .callStop, .stop, .stop, .stop, .connect 0 .ok,
    .connect 0 .ok, .connect 0 .ok, .connect 0 .ok]

/-- The stopped transport gets a session, and its web socket is never closed. -/
theorem not_disconnected_stopWhileDialing : ¬ ∀ es s, (threads .yandex .default).run
    (threads .yandex .default).init es = some s → s.running = false → s.stop = none →
      (∀ c ∈ s.connectors, AboutToRead c) → Disconnected s := by
  intro h
  have hend : ((threads .yandex .default).run (threads .yandex .default).init
      stopWhileDialing).map (fun s => (s.running, s.stop, s.connectors, s.connected, s.sockets)) =
        some (false, none, [], true, [false]) := by
    decide +kernel
  obtain ⟨s, hrun, hs⟩ := Option.map_eq_some_iff.mp hend
  simp only [Prod.mk.injEq] at hs
  obtain ⟨hrunning, hstop, hconnectors, hconnected, -⟩ := hs
  have hdown := h _ s hrun hrunning hstop (by simp [hconnectors])
  exact Bool.false_ne_true (hdown.isConnected.symm.trans hconnected)

end OpenFlux.Transport.Docs.Threads
