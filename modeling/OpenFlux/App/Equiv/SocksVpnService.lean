import OpenFlux.App.SocksVpnService

/-!
# The steps of the VPN service

What the operations have in common that only read and write fields of the session: they change
nothing that recoveries exclude each other by, nothing of the clients and no cancellation (`view`),
and what they go on with `Fits` them.  Operations are told apart by what they lead to: `holds` marks
what a recovery has left while it holds `reconnecting`, `dangerous` what starts a client or makes
the service watch one again, and `recovers` what comes to that only after a `delay`.
-/

namespace OpenFlux.App.SocksVpnService

variable {message : Bytes → Bytes} {s s' : SocksVpnService} {v : Locals} {op : Op} {code : List Op}
  {c : Supervisor.Choice} {r : Effect SocksVpnService Locals Op}

/-- The operations that a recovery has left while it holds `reconnecting`. -/
def holds : Op → Bool
  | .checkStopping _ | .release => true
  | _ => false

/-- Operations of a supervisor that start a client. -/
def isStart : Supervisor.Op → Bool
  | .takeRunning _ | .spawn => true
  | _ => false

/-- Operations that start a client, or launch what may. -/
def dangerous : Op → Bool
  | .client _ t => t.code.any isStart
  | .setRunning value => value
  | .checkTun | .startTun | .monitorUnlessReconnecting | .readMonitor | .launchMonitor _
  | .restart | .ifReady _ _ | .dataPath _ _ | .resume _ | .readNetwork | .launchNetwork _ => true
  | _ => false

/-- Operations of a job that come to these after a `delay`. -/
def recovers : Op → Bool
  | .healthLoop _ _ _ | .health _ _ _ | .healthTun _ _ | .latency _ _ | .recoverNow
  | .checkGeneration _ | .takeReconnecting _ | .checkStopping _ | .body _ | .attempt _ _
  | .attemptGeneration _ _ | .ifRunning _ _ | .networkJob _ => true
  | _ => false

/-- Either. -/
def leads (op : Op) : Bool := dangerous op || recovers op

def isDelay : Op → Bool
  | .delay => true
  | _ => false

/-- Operations with a say in the flag, the clients, the jobs or what was stopped. -/
def special : Op → Bool
  | .client _ _ | .setRunning _ | .takeStopping | .cancelHealth | .cancelNetwork
  | .clearReconnecting | .killStale | .returned | .cancelScope | .launchMonitor _ | .delay
  | .takeReconnecting _ | .checkStopping _ | .release | .available | .launchNetwork _
  | .hysteriaExited => true
  | _ => false

/-- The service without what the other operations read and write. -/
def view (s : SocksVpnService) : SocksVpnService :=
  { s with
    lastIntent := false, shutdownComplete := true, stopping := false, sessionGeneration := 0,
    healthJob := none, lastTransportArgs := none, lastEncryptionKey := none,
    lastHysteriaUri := none, allowHysteriaFallback := false, activeBackend := .yandex,
    networkRecoveryJob := none, networkAvailable := false, configured := false, locked := false,
    jobs := 0 }

/-- What an operation goes on with is dangerous, or leads there, only as far as the operation is. -/
def Soft (op : Op) (code : List Op) : Bool :=
  (dangerous op || !Ahead dangerous isDelay code) && (leads op || !code.any leads)

/-- Moreover, it is no part of a recovery that holds the flag. -/
def Fits (op : Op) (code : List Op) : Bool := !code.any holds && Soft op code

/-- A step that leaves the view alone. -/
structure Plain (s : SocksVpnService) (v : Locals) (op : Op)
    (r : Effect SocksVpnService Locals Op) : Prop where
  view : r.state.view = s.view
  locals : r.locals = v
  flow : ∃ code, r.flow = .go code ∧ Fits op code = true
  launched : r.launched = []

theorem plain_go (h : go s' v code = some r) (hview : s'.view = s.view)
    (hcode : Fits op code = true) : Plain s v op r := by
  cases h
  exact ⟨hview, rfl, ⟨code, rfl, hcode⟩, rfl⟩

theorem exec_plain (hop : special op = false) (h : exec message c s v op = some r) :
    Plain s v op r := by
  cases op
  case client b x => exact nomatch hop
  case setRunning value => exact nomatch hop
  case takeStopping => exact nomatch hop
  case cancelHealth => exact nomatch hop
  case cancelNetwork => exact nomatch hop
  case clearReconnecting => exact nomatch hop
  case killStale => exact nomatch hop
  case returned => exact nomatch hop
  case cancelScope => exact nomatch hop
  case launchMonitor g => exact nomatch hop
  case delay => exact nomatch hop
  case takeReconnecting g => exact nomatch hop
  case checkStopping g => exact nomatch hop
  case release => exact nomatch hop
  case available => exact nomatch hop
  case launchNetwork g => exact nomatch hop
  case hysteriaExited => exact nomatch hop
  case lock =>
    simp only [exec] at h
    split_ifs at h
    exact plain_go h rfl rfl
  case configure =>
    simp only [exec] at h
    split_ifs at h
    · exact plain_go h rfl rfl
    · split at h
      · exact plain_go h rfl rfl
      · exact plain_go h rfl rfl
      · exact nomatch h
  case startTun =>
    simp only [exec] at h
    split at h
    · exact plain_go h rfl rfl
    · exact plain_go h rfl rfl
    · exact nomatch h
  case health g failures missing =>
    simp only [exec] at h
    split at h
    · exact plain_go h rfl rfl
    · exact plain_go h rfl (by split_ifs <;> rfl)
    · exact nomatch h
  case healthTun g failures =>
    simp only [exec] at h
    split at h
    · exact plain_go h rfl rfl
    · exact plain_go h rfl rfl
    · exact nomatch h
  case latency g failures =>
    simp only [exec] at h
    split at h
    · exact plain_go h rfl rfl
    · exact plain_go h rfl (by split_ifs <;> rfl)
    · exact nomatch h
  case attempt n g =>
    simp only [exec] at h
    split at h
    · exact plain_go h rfl rfl
    · exact plain_go h rfl (by split_ifs <;> rfl)
  case await g =>
    simp only [exec] at h
    split at h
    · exact plain_go h rfl (by split_ifs <;> rfl)
    · exact plain_go h rfl rfl
    · exact nomatch h
  case dataPath n g =>
    simp only [exec] at h
    split_ifs at h
    · exact plain_go h rfl rfl
    · split at h
      · exact plain_go h rfl rfl
      · exact plain_go h rfl rfl
      · exact plain_go h rfl rfl
      · exact nomatch h
  case networkJob g =>
    simp only [exec] at h
    split at h
    · exact plain_go h rfl rfl
    · exact plain_go h rfl rfl
    · exact nomatch h
  -- what goes on in one of two ways, and then what goes on in one
  case checkTun => exact plain_go h rfl (by split_ifs <;> rfl)
  case monitorUnlessReconnecting => exact plain_go h rfl (by split_ifs <;> rfl)
  case healthLoop g failures missing => exact plain_go h rfl (by split_ifs <;> rfl)
  case checkGeneration g => exact plain_go h rfl (by split_ifs <;> rfl)
  case body g => exact plain_go h rfl (by split_ifs <;> rfl)
  case attemptGeneration n g => exact plain_go h rfl (by split_ifs <;> rfl)
  case restart => exact plain_go h rfl (by split_ifs <;> rfl)
  case ifReady n g => exact plain_go h rfl (by split_ifs <;> rfl)
  case ifRunning n g => exact plain_go h rfl (by split_ifs <;> rfl)
  case resume g => exact plain_go h rfl (by split_ifs <;> rfl)
  case giveUp g => exact plain_go h rfl (by split_ifs <;> rfl)
  case nativeExited => exact plain_go h rfl (by split_ifs <;> rfl)
  all_goals exact plain_go h rfl rfl

/-! ### Runs -/

/-- Steps of one thread. -/
def steps (i n : ℕ) : List Event := List.replicate n (.run i .go)

/-- A session over the native client, up to its health loop: thread `i` is `onStartCommand`, the
next ones are the start of the client, its watcher, the start of tun2socks and the health loop. -/
def session (i : ℕ) : List Event :=
  .onStartCommand true :: steps i 4 ++ .startOpenFluxNative [[1]] (some [1]) :: steps (i + 1) 19 ++
    .run (i + 1) (.port 7) :: steps (i + 1) 5 ++ .startTun2Socks :: steps (i + 3) 10

/-- The health loop of the session finds that tun2socks has stopped, and is about to take
`reconnecting`. -/
def unhealthy (i : ℕ) : List Event :=
  steps (i + 4) 3 ++ .run (i + 4) (.refuse none) :: steps (i + 4) 1

/-- Its recovery has stopped the clients, and waits. -/
def waits (i : ℕ) : List Event := steps (i + 4) 23

/-- `stopEverything` by thread `i`, to its end. -/
def stops (i : ℕ) : List Event := .stopVpn :: steps i 32

end OpenFlux.App.SocksVpnService
