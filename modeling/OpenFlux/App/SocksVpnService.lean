import OpenFlux.App.Supervisor

/-!
# The VPN service (`SocksVpnService.kt`)

Binder calls, commands of the system, callbacks of the supervisors and of the network, the health
loop and the recoveries, as threads of atomic operations on the fields of the service and on its two
supervisors, which are those of `OpenFlux.App.Supervisor`.  An operation that ends in a branch puts
in front of its thread what the branch goes on with, so a `return` puts nothing there.

A job is cancelled where it suspends: `delay` in a cancelled job throws, and what is left is the
`finally` of a recovery.  The fields that a start writes one after the other for a later recovery
are written at once.  Left out are notifications, events, the wake lock and the preferences, which
nothing here reads, and tun2socks itself: whether it starts and stays healthy is up to the
environment.
-/

namespace OpenFlux.App

inductive Backend
  | yandex
  | hysteria
  deriving DecidableEq

namespace SocksVpnService

open Supervisor

/-- How far the last `stopEverything` is. -/
inductive Phase
  -- none has killed the clients since the last start from outside
  | busy
  -- one has, and is still to return
  | stopped
  -- it has returned, and there was no start from outside since
  | quiet
  deriving DecidableEq

/-- The data of a thread: its job, if it is one, and the number of its taking of `reconnecting`. -/
structure Locals where
  job : Option ℕ := none
  token : ℕ := 0
  deriving DecidableEq

inductive Op
  -- a step of a call of a supervisor, or of one of its watchers
  | client (b : Backend) (t : Thread Supervisor.Locals Supervisor.Op)
  -- `synchronized`
  | lock
  | unlock
  -- the flags and fields
  | setShutdownComplete (value : Bool)
  | clearStopping
  | setSession (args : List Bytes) (key uri : Option Bytes) (fallback : Bool) (b : Backend)
  | setBackend (b : Backend)
  | nextGeneration
  | setIntent (value : Bool)
  | configure
  | closeTun
  | setRunning (value : Bool)
  -- `startTun2Socks`
  | checkTun
  | startTun
  | monitorUnlessReconnecting
  -- `stopEverything`
  | takeStopping
  | cancelHealth
  | forgetHealth
  | cancelNetwork
  | forgetNetwork
  | clearReconnecting
  | killStale
  | returned
  | cancelScope
  -- `startHealthMonitor`
  | readMonitor
  | launchMonitor (g : ℕ)
  | setHealth (job : ℕ)
  -- its job
  | healthLoop (g failures : ℕ) (missing : Bool)
  | health (g failures : ℕ) (missing : Bool)
  | healthTun (g failures : ℕ)
  | latency (g failures : ℕ)
  | recoverNow
  -- `delay`
  | delay
  -- `recoverTransport`, with the expected generation and the attempts left
  | checkGeneration (g : ℕ)
  | takeReconnecting (g : ℕ)
  | checkStopping (g : ℕ)
  | body (g : ℕ)
  | attempt (n g : ℕ)
  | attemptGeneration (n g : ℕ)
  | restart
  | await (g : ℕ)
  | ifReady (n g : ℕ)
  | dataPath (n g : ℕ)
  | ifRunning (n g : ℕ)
  | resume (g : ℕ)
  | giveUp (g : ℕ)
  | release
  -- `onAvailable`
  | available
  | readNetwork
  | launchNetwork (g : ℕ)
  | setNetwork (job : ℕ)
  | networkJob (g : ℕ)
  -- `onUnexpectedExit` of the supervisors
  | nativeExited
  | hysteriaExited
  deriving DecidableEq

end SocksVpnService

open SocksVpnService in
/-- The fields of the service, its jobs, and what has happened. -/
structure SocksVpnService where
  supervisor : Supervisor := {}
  hysteria : Supervisor := {}
  lastIntent : Bool := false
  shutdownComplete : Bool := true
  stopping : Bool := false
  reconnecting : Bool := false
  sessionGeneration : ℕ := 0
  healthJob : Option ℕ := none
  lastTransportArgs : Option (List Bytes) := none
  lastEncryptionKey : Option Bytes := none
  lastHysteriaUri : Option Bytes := none
  allowHysteriaFallback : Bool := false
  activeBackend : Backend := .yandex
  networkRecoveryJob : Option ℕ := none
  networkAvailable : Bool := false
  -- `vpn`: it has an interface, and `isRunning`
  configured : Bool := false
  isRunning : Bool := false
  -- the monitor of the service
  locked : Bool := false
  -- `serviceScope`: the jobs launched, those cancelled, and whether the scope is
  jobs : ℕ := 0
  cancelledJobs : List ℕ := []
  scopeCancelled : Bool := false
  phase : Phase := .busy
  -- how often `reconnecting` has been taken, and whose takings `stopEverything` has undone
  taken : ℕ := 0
  interrupted : List ℕ := []

namespace SocksVpnService

open Supervisor

variable (message : Bytes → Bytes)

def program : Backend → Program
  | .yandex => NativeProcessSupervisor.program message
  | .hysteria => HysteriaSupervisor.program

def client (s : SocksVpnService) : Backend → Supervisor
  | .yandex => s.supervisor
  | .hysteria => s.hysteria

def setClient (s : SocksVpnService) (b : Backend) (x : Supervisor) : SocksVpnService :=
  match b with
  | .yandex => { s with supervisor := x }
  | .hysteria => { s with hysteria := x }

/-- The job is cancelled. -/
def cancelled (s : SocksVpnService) (job : Option ℕ) : Bool :=
  job.any fun j => s.scopeCancelled || s.cancelledJobs.contains j

/-- `cancel` of a job, if there is one. -/
def cancel (s : SocksVpnService) (job : Option ℕ) : SocksVpnService :=
  { s with cancelledJobs := job.toList ++ s.cancelledJobs }

def activeReady (s : SocksVpnService) : Bool := (s.client s.activeBackend).ready

def activeError (s : SocksVpnService) : Option Bytes := (s.client s.activeBackend).error

/-! ### The code -/

/-- `supervisor.start`, `hysteria.start`. -/
def startClient (b : Backend) (argument : Option Bytes) : Op :=
  .client b ⟨{}, [.takeRunning argument]⟩

/-- `supervisor.stop`, `hysteria.stop`. -/
def stopClient (b : Backend) : Op := .client b ⟨{}, (program message b).stop⟩

def stopClients : List Op := [stopClient message .yandex, stopClient message .hysteria]

/-- `stopEverything` in the monitor. -/
def stopEverythingLocked : List Op := [.takeStopping, .returned]

def stopEverything : List Op := .lock :: stopEverythingLocked ++ [.unlock]

/-- `stopEverything` once it has taken `stopping`. -/
def stopEverythingBody : List Op :=
  [.cancelHealth, .forgetHealth, .cancelNetwork, .forgetNetwork, .nextGeneration,
    .clearReconnecting] ++ stopClients message ++
  [.closeTun, .setRunning false, .killStale, .setIntent false, .setShutdownComplete true]

def startOpenFluxNative (args : List Bytes) (encryptionKey : Option Bytes) : List Op :=
  [.setShutdownComplete false, .clearStopping,
    .setSession args encryptionKey none false .yandex, .nextGeneration,
    stopClient message .hysteria, startClient .yandex encryptionKey]

def startHysteriaNative (uri : Bytes) (fallbackArgs : List Bytes)
    (fallbackEncryptionKey : Option Bytes) (allowFallback : Bool) : List Op :=
  [.setShutdownComplete false, .clearStopping,
    .setSession fallbackArgs fallbackEncryptionKey (some uri)
      (allowFallback && !fallbackArgs.isEmpty) .hysteria, .nextGeneration,
    stopClient message .yandex, startClient .hysteria (some uri)]

def startTun2Socks : List Op := [.lock, .checkTun, .unlock]

/-- `onStartCommand` with an intent. -/
def onStartCommand : List Op :=
  [.setIntent true, .setShutdownComplete false, .clearStopping, .configure]

def startHealthMonitor : List Op := [.cancelHealth, .readMonitor]

/-! ### The operations -/

/-- Go on with `code` and then the rest. -/
def go (s : SocksVpnService) (v : Locals) (code : List Op) :
    Option (Effect SocksVpnService Locals Op) :=
  some ⟨s, v, .go code, []⟩

/-- The `finally` of a recovery. -/
def isFinally : Op → Bool
  | .release => true
  | _ => false

/-- One step of a supervisor's call or watcher. -/
def execClient (c : Choice) (s : SocksVpnService) (v : Locals) (b : Backend)
    (t : Thread Supervisor.Locals Supervisor.Op) : Option (Effect SocksVpnService Locals Op) :=
  match t.code with
  | [] => go s v []
  | op :: rest =>
    (Supervisor.exec (program message b) c (s.client b) t.locals op).map fun r =>
      ⟨s.setClient b r.state, v, .go [.client b ⟨r.locals, r.flow.apply rest⟩],
        r.launched.map fun w => ⟨{}, [.client b w]⟩⟩

/-- A job is launched in `serviceScope`, and then its field is set. -/
def launch (s : SocksVpnService) (v : Locals) (code : List Op) (set : ℕ → Op) :
    Option (Effect SocksVpnService Locals Op) :=
  some ⟨{ s with jobs := s.jobs + 1 }, v, .go [set s.jobs], [⟨{ job := some s.jobs }, code⟩]⟩

/-- One atomic operation. -/
def exec (c : Choice) (s : SocksVpnService) (v : Locals) :
    Op → Option (Effect SocksVpnService Locals Op)
  | .client b t => execClient message c s v b t
  | .lock => if s.locked then none else go { s with locked := true } v []
  | .unlock => go { s with locked := false } v []
  | .setShutdownComplete value => go { s with shutdownComplete := value } v []
  | .clearStopping => go { s with stopping := false } v []
  | .setSession args key uri fallback b =>
    go { s with
      lastTransportArgs := some args, lastEncryptionKey := key, lastHysteriaUri := uri,
      allowHysteriaFallback := fallback, activeBackend := b } v []
  | .setBackend b => go { s with activeBackend := b } v []
  | .nextGeneration => go { s with sessionGeneration := s.sessionGeneration + 1 } v []
  | .setIntent value => go { s with lastIntent := value } v []
  | .configure =>
    if s.configured then go s v []
    else
      match c with
      | .go => go { s with configured := true } v []
      | .refuse _ => go s v []
      | _ => none
  | .closeTun => go { s with configured := false } v []
  | .setRunning value => go { s with isRunning := value } v []
  | .checkTun => go s v (if s.configured ∧ s.lastIntent then [.startTun] else [])
  | .startTun =>
    match c with
    | .go => go s v [.setRunning true, .monitorUnlessReconnecting]
    | .refuse _ => go s v stopEverythingLocked
    | _ => none
  | .monitorUnlessReconnecting => go s v (if s.reconnecting then [] else startHealthMonitor)
  | .takeStopping =>
    if s.stopping then go { s with phase := .stopped } v []
    else go { s with stopping := true } v (stopEverythingBody message)
  | .cancelHealth => go (s.cancel s.healthJob) v []
  | .forgetHealth => go { s with healthJob := none } v []
  | .cancelNetwork => go (s.cancel s.networkRecoveryJob) v []
  | .forgetNetwork => go { s with networkRecoveryJob := none } v []
  | .clearReconnecting =>
    go { s with
      reconnecting := false,
      interrupted := if s.reconnecting then s.taken :: s.interrupted else s.interrupted } v []
  | .killStale =>
    go { s with
      supervisor := { s.supervisor with
        procs := s.supervisor.procs.map fun p => { p with alive := false } },
      hysteria := { s.hysteria with
        procs := s.hysteria.procs.map fun p => { p with alive := false } },
      phase := .stopped } v []
  | .returned => go { s with phase := if s.phase = .stopped then .quiet else s.phase } v []
  | .cancelScope => go { s with scopeCancelled := true } v []
  | .readMonitor => go s v [.launchMonitor s.sessionGeneration]
  | .launchMonitor g => launch s v [.healthLoop g 0 false] .setHealth
  | .setHealth job => go { s with healthJob := some job } v []
  | .healthLoop g failures missing =>
    go s v (if !s.cancelled v.job ∧ !s.stopping ∧ g = s.sessionGeneration then
      [.delay, .health g failures missing] else [])
  | .health g failures missing =>
    match c with
    -- the network is missing
    | .refuse _ => go s v [.healthLoop g 0 true]
    | .go =>
      go s v (if missing then [.recoverNow, .healthLoop g failures false]
        else [.healthTun g failures])
    | _ => none
  | .healthTun g failures =>
    match c with
    | .refuse _ => go s v [.checkGeneration g, .healthLoop g failures false]
    | .go => go s v [.latency g failures]
    | _ => none
  | .latency g failures =>
    match c with
    | .go => go s v [.healthLoop g 0 false]
    | .refuse _ =>
      go s v (if 3 ≤ failures + 1 then [.checkGeneration g, .healthLoop g 0 false]
        else [.healthLoop g (failures + 1) false])
    | _ => none
  | .recoverNow => go s v [.checkGeneration s.sessionGeneration]
  | .delay => if s.cancelled v.job then some ⟨s, v, .unwind isFinally, []⟩ else go s v []
  | .checkGeneration g => go s v (if g ≠ s.sessionGeneration then [] else [.takeReconnecting g])
  | .takeReconnecting g =>
    if s.reconnecting then go s v []
    else
      go { s with reconnecting := true, taken := s.taken + 1 } { v with token := s.taken + 1 }
        [.checkStopping g]
  | .checkStopping g => go s v (if s.stopping then [] else [.body g, .release])
  | .body g =>
    go s v (if s.lastTransportArgs = none ∧ s.lastHysteriaUri = none then [] else [.attempt 3 g])
  | .attempt n g =>
    match n with
    | 0 => go s v [.giveUp g]
    | n + 1 => go s v (if s.stopping then [.giveUp g] else [.attemptGeneration n g])
  | .attemptGeneration n g =>
    go s v (if g ≠ s.sessionGeneration then [.giveUp g]
      else .setRunning false :: stopClients message ++ [.delay, .restart, .await g, .ifReady n g])
  | .restart =>
    go s v (
      if s.activeBackend = .hysteria ∧ s.allowHysteriaFallback then
        [.setBackend .yandex, startClient .yandex s.lastEncryptionKey]
      else if s.activeBackend = .hysteria ∧ s.lastHysteriaUri.any Kotlin.isNotBlank then
        [startClient .hysteria s.lastHysteriaUri]
      else [.setBackend .yandex, startClient .yandex s.lastEncryptionKey])
  | .await g =>
    match c with
    | .go =>
      go s v (if !s.activeReady ∧ s.activeError = none ∧ !s.stopping ∧ g = s.sessionGeneration then
        [.delay, .await g] else [])
    | .late => go s v []
    | _ => none
  | .ifReady n g => go s v (if s.activeReady then [.dataPath n g] else [.attempt n g])
  | .dataPath n g =>
    if s.stopping then go s v [.attempt n g]
    else
      match c with
      | .go => go s v (startTun2Socks ++ [.ifRunning n g])
      | .refuse _ => go s v [.delay, .dataPath n g]
      | .late => go s v [.attempt n g]
      | _ => none
  | .ifRunning n g => go s v (if s.isRunning then [.delay, .resume g] else [.attempt n g])
  | .resume g =>
    go s v (if !s.stopping ∧ g = s.sessionGeneration then startHealthMonitor else [])
  | .giveUp g => go s v (if !s.stopping ∧ g = s.sessionGeneration then stopEverything else [])
  | .release => go { s with reconnecting := false } v []
  | .available =>
    go { s with networkAvailable := true } v
      (if !s.networkAvailable ∧ s.isRunning ∧ !s.reconnecting ∧ !s.stopping then
        [.cancelNetwork, .readNetwork] else [])
  | .readNetwork => go s v [.launchNetwork s.sessionGeneration]
  | .launchNetwork g => launch s v [.delay, .networkJob g] .setNetwork
  | .setNetwork job => go { s with networkRecoveryJob := some job } v []
  | .networkJob g =>
    match c with
    | .go => go s v [.checkGeneration g]
    | .refuse _ => go s v []
    | _ => none
  | .nativeExited => go s v (if s.reconnecting then [] else stopEverything)
  | .hysteriaExited =>
    go s v (
      if s.allowHysteriaFallback ∧ !s.stopping ∧ s.lastTransportArgs.any (!·.isEmpty) then
        [.setBackend .yandex, stopClient message .hysteria, startClient .yandex s.lastEncryptionKey]
      else [.nativeExited])

inductive Event
  -- calls of the binder
  | startOpenFluxNative (args : List Bytes) (encryptionKey : Option Bytes)
  | startHysteriaNative (uri : Bytes) (fallbackArgs : List Bytes)
      (fallbackEncryptionKey : Option Bytes) (allowFallback : Bool)
  | startTun2Socks
  | stopVpn
  | stopOpenFluxNative
  -- calls of the system
  | onStartCommand (intent : Bool)
  | onRevoke
  | onDestroy
  | onAvailable
  | onLost (available : Bool)
  -- the main thread calls `onUnexpectedExit`
  | callback (b : Backend)
  -- a client exits or writes a line
  | exit (b : Backend) (q : ℕ)
  | output (b : Backend) (line : Bytes)
  | run (i : ℕ) (c : Choice)

/-- A call begins. -/
def call (s : Pool SocksVpnService Locals Op) (code : List Op) :
    Option (Pool SocksVpnService Locals Op) :=
  some { s with threads := s.threads ++ [⟨{}, code⟩] }

/-- A start from outside ends what the last `stopEverything` has left, if that has returned. -/
def callStart (s : Pool SocksVpnService Locals Op) (code : List Op) :
    Option (Pool SocksVpnService Locals Op) :=
  call { s with state := { s.state with
    phase := if s.state.phase = .quiet then .busy else s.state.phase } } code

/-- The service under any calls, and its threads. -/
def system : EventSystem (Pool SocksVpnService Locals Op) Event where
  init := { state := {} }
  step s e :=
    match e with
    | .startOpenFluxNative args key => callStart s (startOpenFluxNative message args key)
    | .startHysteriaNative uri args key fallback =>
      callStart s (startHysteriaNative message uri args key fallback)
    | .startTun2Socks => callStart s startTun2Socks
    | .stopVpn => call s stopEverything
    | .stopOpenFluxNative => call s (stopClients message)
    | .onStartCommand intent => call s (if intent then onStartCommand else stopEverything)
    | .onRevoke => call s stopEverything
    | .onDestroy => call s (stopEverything ++ [.cancelScope])
    | .onAvailable => call s [.available]
    | .onLost available => some { s with state := { s.state with networkAvailable := available } }
    | .callback b =>
      match (s.state.client b).posted with
      | _ :: posted =>
        call { s with state := s.state.setClient b { s.state.client b with posted } }
          [match b with | .yandex => .nativeExited | .hysteria => .hysteriaExited]
      | [] => none
    | .exit b q =>
      if (s.state.client b).alive q then
        some { s with state := s.state.setClient b ((s.state.client b).killProc q) }
      else none
    | .output b line =>
      if Kotlin.isNotBlank line then
        some { s with state :=
          s.state.setClient b { s.state.client b with lastOutput := some line } }
      else none
    | .run i c => s.step (exec message) i c

end SocksVpnService

end OpenFlux.App
