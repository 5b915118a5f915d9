import OpenFlux.Transport.Docs.Threads

/-!
# Steps of the document transports

`step_connect`, `step_keepAlive` and `step_write` say what a goroutine's step does.  `Send` and the
writers are quiet: they change nothing that the connecting goroutine, the keep-alive loop and `Stop`
read (`quiet_step`).  Where there is one connecting goroutine its step replaces it (`connect_spec`).
-/

namespace OpenFlux.Transport.Docs

/-- The web socket of a goroutine's session, once it is published. -/
def Connector.published? : Connector → Option ℕ
  | .authorizing _ conn | .looping _ conn | .reading _ conn | .broken _ _ conn
  | .closing _ _ conn => some conn
  | _ => none

/-- The web socket of a goroutine whose session is not published yet. -/
def Connector.dialed? : Connector → Option ℕ
  | .dialed _ _ conn => some conn
  | _ => none

namespace Threads

variable {p : Provider} {cfg : SessionConfig} {s s' : Threads}

/-! ### Inversion -/

theorem step_start : (threads p cfg).step s .start = some s' ↔ s.stop = none ∧ s' = s.start :=
  Option.ite_none_right_eq_some.trans (and_congr_right' (Option.some_inj.trans eq_comm))

theorem step_callStop : (threads p cfg).step s .callStop = some s' ↔
    s.stop = none ∧ s' = { s with stop := some .running } :=
  Option.ite_none_right_eq_some.trans (and_congr_right' (Option.some_inj.trans eq_comm))

theorem step_connect {i : ℕ} {o : Outcome} :
    (threads p cfg).step s (.connect i o) = some s' ↔ ∃ c, s.connectors[i]? = some c ∧
      s' = { (s.connect cfg o c).1 with
        connectors := place s.connectors i (s.connect cfg o c).2 } :=
  Option.map_eq_some_iff.trans (exists_congr fun _ => and_congr_right' eq_comm)

theorem step_keepAlive {i : ℕ} {o : Outcome} :
    (threads p cfg).step s (.keepAlive i o) = some s' ↔ ∃ k, s.keepAlives[i]? = some k ∧
      s' = { (s.keepAlive o k).1 with keepAlives := place s.keepAlives i (s.keepAlive o k).2 } :=
  Option.map_eq_some_iff.trans (exists_congr fun _ => and_congr_right' eq_comm)

theorem step_write {i : ℕ} {o : Outcome} :
    (threads p cfg).step s (.write i o) = some s' ↔ ∃ w r, s.writers[i]? = some w ∧
      s.write o w = some r ∧ s' = { r.1 with writers := place s.writers i r.2 } := by
  refine Option.bind_eq_some_iff.trans (exists_congr fun w => ?_)
  rw [Option.map_eq_some_iff, exists_and_left]
  exact and_congr_right' (exists_congr fun _ => and_congr_right' eq_comm)

/-- A step that changes nothing but channels, writers and calls of `Send`. -/
structure Quiet (s s' : Threads) : Prop where
  running : s'.running = s.running
  connected : s'.connected = s.connected
  session : s'.session = s.session
  sockets : s'.sockets = s.sockets
  connectors : s'.connectors = s.connectors
  keepAlives : s'.keepAlives = s.keepAlives
  stop : s'.stop = s.stop
  failed : s'.failed = s.failed

/-- The events of `Send` and of the writers. -/
def Event.IsQuiet : Event → Prop
  | .call _ | .send _ | .write _ _ => True
  | _ => False

/-- No call of `Start` or `Stop`. -/
def Event.IsInner : Event → Bool
  | .start | .callStop | .stop => false
  | _ => true

theorem quiet_call (data : Bytes) : Quiet s (s.call data).1 := by
  unfold Threads.call
  split_ifs
  · exact ⟨rfl, rfl, rfl, rfl, rfl, rfl, rfl, rfl⟩
  · exact ⟨rfl, rfl, rfl, rfl, rfl, rfl, rfl, rfl⟩

theorem quiet_send {i : ℕ} (h : s.stepSend cfg i = some s') : Quiet s s' := by
  unfold stepSend at h
  repeat' split at h
  all_goals first
    | obtain rfl := Option.some.inj h
      exact ⟨rfl, rfl, rfl, rfl, rfl, rfl, rfl, rfl⟩
    | cases h

theorem quiet_write {o : Outcome} {w : Writer} {r : Threads × Option Writer}
    (h : s.write o w = some r) (writers : List Writer) : Quiet s { r.1 with writers } := by
  unfold write at h
  repeat' split at h
  all_goals first
    | obtain rfl := Option.some.inj h
      exact ⟨rfl, rfl, rfl, rfl, rfl, rfl, rfl, rfl⟩
    | cases h

theorem quiet_step {e : Event} (he : e.IsQuiet) (h : (threads p cfg).step s e = some s') :
    Quiet s s' := by
  cases e with
  | call data => exact Option.some.inj h ▸ quiet_call data
  | send i => exact quiet_send h
  | write i o =>
    obtain ⟨w, r, -, hr, rfl⟩ := step_write.mp h
    exact quiet_write hr _
  | _ => exact he.elim

/-- The keep-alive loop notes a failure, and then clears the flag. -/
theorem keepAlive_cases (s : Threads) (o : Outcome) (k : KeepAlive) :
    ((s.keepAlive o k).1 = s ∧ ∀ session, (s.keepAlive o k).2 ≠ some (.failed session)) ∨
      (∃ session, k = .writing session ∧ s.keepAlive o k =
        ({ s with failed := session.conn :: s.failed }, some (.failed session))) ∨
      ∃ session, k = .failed session ∧
        s.keepAlive o k = ({ s with connected := false }, some .looping) := by
  cases k with
  | looping =>
    left
    unfold Threads.keepAlive
    dsimp only
    split <;> exact ⟨rfl, nofun⟩
  | ticking =>
    left
    unfold Threads.keepAlive
    dsimp only
    split <;> exact ⟨rfl, nofun⟩
  | writing session =>
    cases o with
    | ok => exact .inl ⟨rfl, nofun⟩
    | failed late => exact .inr (.inl ⟨session, rfl, rfl⟩)
  | failed session => exact .inr (.inr ⟨session, rfl, rfl⟩)

/-- A publication, whether or not it is the first. -/
theorem publish_spec (s : Threads) (existing : Option DocSession) (conn : ℕ) :
    ∃ session channels writers, session.conn = conn ∧ s.publish existing conn =
      { s with session := some session, connected := true, channels, writers } := by
  cases existing with
  | some existing => exact ⟨_, _, _, rfl, rfl⟩
  | none => exact ⟨_, _, _, rfl, rfl⟩

/-! ### One connecting goroutine -/

/-- The step of the one connecting goroutine. -/
theorem connect_spec {i : ℕ} {o : Outcome} (hs : s.connectors.length ≤ 1)
    (h : (threads p cfg).step s (.connect i o) = some s') : ∃ c, s.connectors = [c] ∧ i = 0 ∧
      s' = { (s.connect cfg o c).1 with connectors := (s.connect cfg o c).2.toList } := by
  obtain ⟨c, hi, rfl⟩ := step_connect.mp h
  obtain ⟨hconnectors, rfl⟩ := eq_singleton_of_getElem? hs hi
  refine ⟨c, hconnectors, rfl, ?_⟩
  rw [hconnectors]
  cases (s.connect cfg o c).2 <;> rfl

/-- The goroutine fetches, dials, publishes its session and comes to `ReadMessage`. -/
def connecting : List Event := List.replicate 6 (.connect 0 .ok)

end Threads

end OpenFlux.Transport.Docs
