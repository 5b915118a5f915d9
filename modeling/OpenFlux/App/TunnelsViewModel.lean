import OpenFlux.Algorithm.EventSystem
import OpenFlux.Algorithm.Threads
import OpenFlux.App.Tunnel

/-!
# Starting and stopping tunnels (`TunnelsViewModel.kt`, `TunnelState.kt`)

The commands of the user, the callbacks and the events come one after the other on the main thread,
each as one step.  Start jobs and teardown jobs are threads of atomic operations, and anything may
come between two of these.  A cancelled job ends where it suspends: before it is dispatched, in
`join` and in `delay`; `fail` and `teardown` with the `return` behind them are one operation.

What the service answers, exceptions and deadlines are up to the environment (`Choice`).  Left out
are the lists of tunnels and the counters, which nothing here reads, which transport the service is
asked to start, and the end of the view model.
-/

namespace OpenFlux.App

inductive TunnelState
  | idle
  | connecting (tunnel : Tunnel)
  | startingTransport (tunnel : Tunnel)
  | startingTun2Socks (tunnel : Tunnel)
  | checking (tunnel : Tunnel)
  | running (tunnel : Tunnel)
  | restoring (tunnel : Tunnel) (attempt : ℕ)
  | unavailable (tunnel : Tunnel)
  | stopping (tunnel : Option Tunnel)
  | error (message : Bytes)
  deriving DecidableEq

namespace TunnelState

def tunnel : TunnelState → Option Tunnel
  | connecting t | startingTransport t | startingTun2Socks t | checking t | running t
  | restoring t _ | unavailable t => some t
  | stopping t => t
  | idle | error _ => none

def isActive : TunnelState → Bool
  | idle | error _ => false
  | _ => true

def isStopping : TunnelState → Bool
  | stopping _ => true
  | _ => false

def isUnavailable : TunnelState → Bool
  | unavailable _ => true
  | _ => false

/-- The tunnel that is starting or running, `alreadyStarting` in `startTunnel`. -/
def starting : TunnelState → Option Tunnel
  | connecting t | startingTransport t | startingTun2Socks t | checking t | restoring t _
  | running t => some t
  | idle | unavailable _ | stopping _ | error _ => none

end TunnelState

namespace TunnelsViewModel

/-- A job, with what its block has captured. -/
inductive Job
  | start (job : ℕ) (tunnel : Tunnel)
  | teardown (job : ℕ) (finalState : TunnelState)
  deriving DecidableEq

inductive Op
  -- the job is dispatched
  | begin
  | join (job : Option ℕ)
  | delay
  | finish
  -- of a start job
  | setConnecting
  | startService
  | setBindRequested
  | setActiveTunnelData
  | checkBinding
  | checkFd
  | setStartingTransport
  | startTransport (fallback : Bool)
  | awaitService (code message : Bytes)
  | setChecking
  | waitForDataPath (first : Bool)
  | setStartingTun2Socks
  | startTun2Socks
  | setRunning
  | fail (message : Bytes)
  | teardownUnavailable
  -- of both
  | awaitBinding
  -- of a teardown job
  | ifBindRequested
  | readService
  | stopVpn (connected : Bool)
  | unbind
  | setError (message : Bytes)
  | clearService
  | clearActiveTunnelData
  | setFinalState
  deriving DecidableEq

end TunnelsViewModel

/-- The fields of the view model, its jobs, and what has happened. -/
structure TunnelsViewModel where
  -- the service is connected
  service : Bool := false
  activeTunnelData : Option Tunnel := none
  startJob : Option ℕ := none
  teardownJob : Option ℕ := none
  bindRequested : Bool := false
  active : TunnelState := .idle
  -- the tunnels of the start jobs, and which jobs are cancelled and completed
  starts : List Tunnel := []
  cancelled : List ℕ := []
  completed : List ℕ := []
  -- the teardown jobs, and which are completed
  teardowns : ℕ := 0
  tornDown : List ℕ := []
  -- start jobs that a command has stopped or replaced, and those of them that have started the
  -- transport or set the state to running after that
  dropped : List ℕ := []
  late : List ℕ := []

namespace TunnelsViewModel

abbrev Launched := List (Thread Job Op)

/-- `teardownJob?.isActive`. -/
def tearing (s : TunnelsViewModel) : Bool := s.teardownJob.any fun k => !s.tornDown.contains k

/-- `startJob?.isActive`. -/
def connecting (s : TunnelsViewModel) : Bool :=
  s.startJob.any fun j => !s.cancelled.contains j && !s.completed.contains j

/-- `startJob?.cancel()` and `startJob = null`. -/
def cancelStart (s : TunnelsViewModel) : TunnelsViewModel :=
  { s with cancelled := s.startJob.toList ++ s.cancelled, startJob := none }

def errorText (code message : Bytes) : Bytes := literal "[" ++ code ++ literal "] " ++ message

/-! ### Jobs -/

/-- The block of a start job. -/
def startCode (pendingTeardown : Option ℕ) : List Op :=
  [.begin, .join pendingTeardown, .setConnecting, .startService, .setBindRequested,
    .setActiveTunnelData, .awaitBinding, .checkBinding, .checkFd, .setStartingTransport,
    .startTransport false,
    .awaitService (literal "TR-202") (literal "Транспорт не запустился за отведённое время"),
    .setChecking, .waitForDataPath true, .setStartingTun2Socks, .startTun2Socks,
    .awaitService (literal "TUN-302") (literal "VPN-канал не перешёл в рабочее состояние"),
    .setRunning, .finish]

/-- The block of a teardown job. -/
def teardownCode (previous : Option ℕ) : List Op :=
  [.join previous, .ifBindRequested, .clearService, .clearActiveTunnelData, .setFinalState,
    .finish]

/-- `teardown`. -/
def teardown (s : TunnelsViewModel) (finalState : TunnelState) : TunnelsViewModel × Launched :=
  if s.tearing then (s, [])
  else
    ({ s.cancelStart with
        active := .stopping (s.active.tunnel.or s.activeTunnelData),
        teardownJob := some s.teardowns,
        teardowns := s.teardowns + 1 },
      [⟨.teardown s.teardowns finalState, teardownCode s.teardownJob⟩])

/-- `fail`. -/
def fail (s : TunnelsViewModel) (message : Bytes) : TunnelsViewModel × Launched :=
  if s.startJob = none ∧ s.tearing then (s, []) else s.teardown (.error message)

/-! ### Commands -/

/-- `stop`. -/
def stop (s : TunnelsViewModel) : TunnelsViewModel × Launched :=
  if s.active.isStopping then (s, []) else s.teardown .idle

/-- `startTunnel` once the tunnel before is stopped. -/
def launchStart (s : TunnelsViewModel) (tunnel : Tunnel) : TunnelsViewModel × Launched :=
  ({ s with
      active := .connecting tunnel,
      startJob := some s.starts.length,
      starts := s.starts ++ [tunnel] },
    [⟨.start s.starts.length tunnel, startCode s.teardownJob⟩])

/-- A stop has returned: every start job is stopped. -/
def dropAll (s : TunnelsViewModel) : TunnelsViewModel :=
  { s with dropped := List.range s.starts.length }

/-- The jobs of other tunnels. -/
def others (s : TunnelsViewModel) (tunnel : Tunnel) : List ℕ :=
  (List.range s.starts.length).filter fun j => s.starts[j]?.any fun t => t.id ≠ tunnel.id

/-- A tunnel is starting: the start jobs of the others are replaced. -/
def dropOthers (s : TunnelsViewModel) (tunnel : Tunnel) : TunnelsViewModel :=
  { s with dropped := s.others tunnel ++ s.dropped }

/-- `startTunnel`. -/
def startTunnel (s : TunnelsViewModel) (tunnel : Tunnel) : TunnelsViewModel × Launched :=
  match s.active.starting with
  | some running =>
    if running.id = tunnel.id then (s, [])
    else
      let stopped := s.stop
      let started := stopped.1.dropAll.launchStart tunnel
      (started.1, stopped.2 ++ started.2)
  | none => (s.dropOthers tunnel).launchStart tunnel

/-- `selectTunnel`. -/
def selectTunnel (s : TunnelsViewModel) : TunnelsViewModel × Launched :=
  if s.active.isActive then
    let stopped := s.stop
    (stopped.1.dropAll, stopped.2)
  else (s, [])

/-! ### Callbacks and events -/

/-- `onServiceDisconnected`. -/
def onServiceDisconnected (s : TunnelsViewModel) : TunnelsViewModel :=
  let s := { s with service := false }
  if s.active.isStopping ∨ s.active.isUnavailable ∨ s.tearing then s else { s with active := .idle }

inductive Status
  | checking
  | waitingForNetwork
  | restoring
  | restored
  | unavailable
  deriving DecidableEq

/-- The tunnel that a status is about. -/
def tunnelData (s : TunnelsViewModel) : Option Tunnel := s.activeTunnelData.or s.active.tunnel

/-- The state after a status of the service about this tunnel. -/
def statusState (active : TunnelState) (tunnel : Tunnel) : Status → TunnelState
  | .checking =>
    match active with
    | .restoring _ _ => .restoring tunnel 1
    | active => active
  | .waitingForNetwork => .restoring tunnel 0
  | .restoring => .restoring tunnel 1
  | .restored => .running tunnel
  | .unavailable => .unavailable tunnel

/-- `AppEvent.ConnectionStatus`. -/
def connectionStatus (s : TunnelsViewModel) (status : Status) : TunnelsViewModel :=
  match s.tunnelData with
  | some tunnel => { s with active := statusState s.active tunnel status }
  | none => s

/-- `AppEvent.NativeProcessExited`. -/
def nativeProcessExited (s : TunnelsViewModel) (message : Bytes) : TunnelsViewModel × Launched :=
  if s.active.isActive ∧ !s.active.isUnavailable then
    s.fail (errorText (literal "TR-203") (literal "Транспорт неожиданно остановлен: " ++ message))
  else (s, [])

/-- `AppEvent.VpnRevoked`. -/
def vpnRevoked (s : TunnelsViewModel) : TunnelsViewModel :=
  if s.active = .idle then s
  else
    { s.cancelStart with
      bindRequested := false,
      service := false,
      activeTunnelData := none,
      active := .idle }

/-- The state is looked at by `reconcileSystemState`. -/
def reconciles : TunnelState → Bool
  | .running _ | .restoring _ _ => true
  | _ => false

/-- `reconcileSystemState`, when the VPN is inactive or another app's. -/
def reconcileSystemState (s : TunnelsViewModel) : TunnelsViewModel :=
  if reconciles s.active then { s.cancelStart with activeTunnelData := none, active := .idle }
  else s

/-! ### The operations -/

/-- What the environment decides. -/
inductive Choice
  | go
  | refuse
  -- the deadline has passed
  | late
  -- an exception, or the error of the service
  | error (message : Bytes)

/-- Go on with `code` and then the rest. -/
def go (s : TunnelsViewModel) (v : Job) (code : List Op) :
    Option (Effect TunnelsViewModel Job Op) :=
  some ⟨s, v, .go code, []⟩

/-- Go on with `code` only. -/
def exit (s : TunnelsViewModel) (v : Job) (code : List Op) :
    Option (Effect TunnelsViewModel Job Op) :=
  some ⟨s, v, .exit code, []⟩

/-- `fail(code, message)` and `return@launch`. -/
def failing (s : TunnelsViewModel) (v : Job) (code message : Bytes) :
    Option (Effect TunnelsViewModel Job Op) :=
  s.exit v [.fail (errorText code message)]

def isFinish : Op → Bool
  | .finish => true
  | _ => false

/-- The job is cancelled; teardown jobs never are. -/
def isCancelled (s : TunnelsViewModel) : Job → Bool
  | .start j _ => s.cancelled.contains j
  | .teardown _ _ => false

/-- A suspension point. -/
def suspend (s : TunnelsViewModel) (v : Job) : Option (Effect TunnelsViewModel Job Op) :=
  if s.isCancelled v then some ⟨s, v, .unwind isFinish, []⟩ else s.go v []

/-- A start job sets the state. -/
def setActive (s : TunnelsViewModel) (v : Job) (state : Tunnel → TunnelState) :
    Option (Effect TunnelsViewModel Job Op) :=
  match v with
  | .start _ tunnel => go { s with active := state tunnel } v []
  | .teardown _ _ => none

/-- The job starts the transport or sets the state to running. -/
def reach (s : TunnelsViewModel) : Job → TunnelsViewModel
  | .start j _ => if s.dropped.contains j then { s with late := j :: s.late } else s
  | .teardown _ _ => s

/-- There is another transport to try. -/
def fallsBack (tunnel : Tunnel) : Bool :=
  ConnectionMode.ofString tunnel.connectionMode = .auto ∧ tunnel.autoFallback ∧
    tunnel.hysteriaUri.any Kotlin.isNotBlank

/-- The start job goes on after `waitForDataPath` without a data path. -/
def noDataPath (s : TunnelsViewModel) (v : Job) (first : Bool) :
    Option (Effect TunnelsViewModel Job Op) :=
  match v with
  | .start _ tunnel =>
    if first ∧ fallsBack tunnel then
      s.go v [.startTransport true,
        .awaitService (literal "TR-205") (literal "Резервный транспорт не запустился"),
        .waitForDataPath false]
    else s.exit v [.teardownUnavailable]
  | .teardown _ _ => none

/-- A start job calls `fail` or `teardown` and returns. -/
def ending (v : Job) (r : TunnelsViewModel × Launched) : Option (Effect TunnelsViewModel Job Op) :=
  match v with
  | .start _ _ => some ⟨r.1, v, .exit [.finish], r.2⟩
  | .teardown _ _ => none

/-- The teardown job goes on once it has stopped the service, cleanly or not. -/
def stopped (v : Job) (cleanly : Bool) : List Op :=
  [.unbind, .delay] ++
    match cleanly, v with
    | false, .teardown _ .idle =>
      [.setError (errorText (literal "OFF-501")
        (literal "VPN отключён не полностью; повторите отключение"))]
    | _, _ => []

/-- One atomic operation. -/
def exec (c : Choice) (s : TunnelsViewModel) (v : Job) :
    Op → Option (Effect TunnelsViewModel Job Op)
  | .begin => s.suspend v
  | .join none => s.go v []
  | .join (some k) =>
    if !s.isCancelled v ∧ !s.tornDown.contains k then none else s.suspend v
  | .delay => s.suspend v
  | .finish =>
    match v with
    | .start j _ => exit { s with completed := j :: s.completed } v []
    | .teardown k _ => exit { s with tornDown := k :: s.tornDown } v []
  | .setConnecting => s.setActive v .connecting
  | .startService =>
    match c with
    | .go => s.go v []
    | .refuse => s.failing v (literal "VPN-100") (literal "Системная служба VPN не запустилась")
    | .error e => s.failing v (literal "VPN-100") (literal "Не удалось запустить VPN: " ++ e)
    | .late => none
  | .setBindRequested => go { s with bindRequested := true } v []
  | .setActiveTunnelData =>
    match v with
    | .start _ tunnel => go { s with activeTunnelData := some tunnel } v []
    | .teardown _ _ => none
  | .awaitBinding =>
    match c with
    | .go => s.go v (if s.service then [] else [.delay, .awaitBinding])
    | .late => s.go v []
    | _ => none
  | .checkBinding =>
    if s.service then s.go v []
    else s.failing v (literal "VPN-101") (literal "Системная служба VPN не ответила")
  | .checkFd =>
    match c, s.service with
    | .go, true => s.go v []
    | _, _ => s.failing v (literal "VPN-102") (literal "Не удалось создать VPN-интерфейс")
  | .setStartingTransport => s.setActive v .startingTransport
  | .startTransport fallback =>
    match c with
    | .go => (s.reach v).go v []
    | .error e =>
      if fallback then
        (s.reach v).failing v (literal "TR-204") (literal "Не удалось включить резервный транспорт")
      else
        (s.reach v).failing v (literal "TR-201") (literal "Не удалось запустить транспорт: " ++ e)
    | _ => none
  | .awaitService code message =>
    match c, s.service with
    | .late, _ => s.failing v code message
    | _, false => s.failing v (literal "VPN-101") (literal "Системная служба VPN отключилась")
    | .error e, true => s.failing v (literal "TR-203") e
    | .go, true => s.go v []
    | .refuse, true => s.go v [.delay, .awaitService code message]
  | .setChecking => s.setActive v .checking
  | .waitForDataPath first =>
    match c, s.service with
    | .go, true => s.go v []
    | .refuse, true => s.go v [.delay, .waitForDataPath first]
    | _, _ => s.noDataPath v first
  | .setStartingTun2Socks => s.setActive v .startingTun2Socks
  | .startTun2Socks =>
    match c with
    | .go => s.go v []
    | .error e =>
      s.failing v (literal "TUN-301") (literal "Не удалось запустить tun2socks: " ++ e)
    | _ => none
  | .setRunning => (s.reach v).setActive v .running
  | .fail message => ending v (s.fail message)
  | .teardownUnavailable =>
    match v with
    | .start _ tunnel => ending v (s.teardown (.unavailable tunnel))
    | .teardown _ _ => none
  | .ifBindRequested => s.go v (if s.bindRequested then [.awaitBinding, .readService] else [])
  | .readService => s.go v [.stopVpn s.service]
  | .stopVpn connected =>
    match c, connected with
    | .refuse, true => s.go v [.delay, .stopVpn connected]
    | .go, _ => s.go v (stopped v true)
    | _, _ => s.go v (stopped v !connected)
  | .unbind => go { s with bindRequested := false } v []
  | .setError message => go { s with active := .error message } v []
  | .clearService => go { s with service := false } v []
  | .clearActiveTunnelData => go { s with activeTunnelData := none } v []
  | .setFinalState =>
    match v with
    | .teardown _ finalState =>
      go { s with active := if s.active.isStopping then finalState else s.active } v []
    | .start _ _ => none

inductive Event
  -- commands of the user
  | startTunnel (tunnel : Tunnel)
  | stop
  | selectTunnel
  -- what the main thread is called with
  | onServiceConnected
  | onServiceDisconnected
  | connectionStatus (status : Status)
  | nativeProcessExited (message : Bytes)
  | vpnRevoked
  | reconcileSystemState
  | run (i : ℕ) (c : Choice)

/-- The main thread does something, and launches jobs. -/
def call (p : Pool TunnelsViewModel Job Op) (r : TunnelsViewModel × Launched) :
    Option (Pool TunnelsViewModel Job Op) :=
  some { state := r.1, threads := p.threads ++ r.2 }

/-- The view model under any commands and events, and its jobs. -/
def system : EventSystem (Pool TunnelsViewModel Job Op) Event where
  init := { state := {} }
  step p e :=
    match e with
    | .startTunnel tunnel => call p (p.state.startTunnel tunnel)
    | .stop => call p (p.state.stop.1.dropAll, p.state.stop.2)
    | .selectTunnel => call p p.state.selectTunnel
    | .onServiceConnected => call p ({ p.state with service := true }, [])
    | .onServiceDisconnected => call p (p.state.onServiceDisconnected, [])
    | .connectionStatus status => call p (p.state.connectionStatus status, [])
    | .nativeProcessExited message => call p (p.state.nativeProcessExited message)
    | .vpnRevoked => call p (p.state.vpnRevoked, [])
    | .reconcileSystemState => call p (p.state.reconcileSystemState, [])
    | .run i c => p.step exec i c

end TunnelsViewModel

end OpenFlux.App
