import OpenFlux.Algorithm.EventSystem
import OpenFlux.Algorithm.Threads
import OpenFlux.App.Strings

/-!
# Supervising a client process (`NativeProcessSupervisor.kt`, `HysteriaSupervisor.kt`)

The two supervisors are built alike: `start` and `stop`, which any thread may call, and for each run
a watcher, which waits until the client accepts a connection and then until it exits.  Both are made
of the same atomic operations `Op` on the same fields; their code is in `Program`, one for each.
`shuttingDown` of the one and `stopping` of the other are `stopping` here, and `generation`,
`udpRelay` and the key file stay as they are where a supervisor has none.

A branch that leaves the code behind it ends its block of code: what follows is a block of its own.
The environment (`Choice`) says which port is free, which client accepts a connection, what throws
and when the deadline has passed; only a client of the supervisor accepts on a port that the
supervisor was given.  A client may exit at any time, so asking it to (`destroy`) is left out, and
so are the files and the socket for Hysteria, which nothing here reads.
-/

namespace OpenFlux.App

/-- A client process. -/
structure Proc where
  -- the run that spawned it
  run : ℕ
  port : ℕ
  alive : Bool := true
  -- it has accepted a connection
  accepted : Bool := false
  deriving DecidableEq

/-- The fields of a supervisor, its clients, and what has happened. -/
structure Supervisor where
  running : Bool := false
  ready : Bool := false
  stopping : Bool := false
  generation : ℕ := 0
  process : Option ℕ := none
  lastOutput : Option Bytes := none
  socksPort : ℕ := 0
  error : Option Bytes := none
  keyFile : Option Bytes := none
  -- the relay, by the run whose watcher made it
  udpRelay : Option ℕ := none
  -- calls of `onUnexpectedExit` posted to the main thread, with the run they come from
  posted : List (ℕ × Bytes) := []
  procs : List Proc := []
  -- calls of `start` that have taken effect
  starts : ℕ := 0
  -- the key that the latest run has written
  written : Option Bytes := none
  -- the latest run has set its relay
  relayed : Bool := false
  -- the latest run has failed or was stopped
  ended : Bool := false
  -- it has, or it has become ready
  decided : Bool := false
  -- errors set and callbacks made, each with the latest run of that moment
  reports : List (ℕ × ℕ) := []

namespace Supervisor

/-- The process, if there is one of this number, is alive. -/
def alive (s : Supervisor) (q : ℕ) : Bool := (s.procs[q]?).any Proc.alive

/-- The data of a call or of a watcher. -/
structure Locals where
  run : ℕ := 0
  startGeneration : ℕ := 0
  process : Option ℕ := none
  port : ℕ := 0
  deriving DecidableEq

inductive Op
  -- `start`, with the key or the link
  | takeRunning (argument : Option Bytes)
  | nextGeneration
  | clearStopping
  | clearReady
  | clearError
  | clearOutput
  | parse (message : Bytes)
  | killStale
  | freePort
  | writeKey (key : Bytes)
  | startController (message : Bytes)
  | writeConfig
  | spawn
  | setProcess
  | launchWatch
  -- `stop`
  | shutDown
  | clearRunning
  | closeRelay
  | readProcess
  | kill
  | clearProcess
  | deleteKey
  -- `watch`, its loop
  | breakIfStopping
  | breakIfNewer
  | breakIfDead
  | readPort
  | connect
  | startRelay
  | setRelay
  | setReady
  | leaveLoop
  | timeout
  | sleep
  -- and after it
  | waitFor
  | returnIfStopping
  | returnIfNewer
  | returnIfReplaced
  | report
  -- `fail`
  | setError (message : Bytes)
  | post (message : Bytes)
  deriving DecidableEq

/-- What the environment decides. -/
inductive Choice
  | go
  -- `java.net.URI` of the link
  | uri (scheme host : Option Bytes)
  | throw (message : Bytes)
  | port (n : ℕ)
  -- the process that accepts
  | accept (q : ℕ)
  | refuse (failure : Option Bytes)
  -- the deadline has passed
  | late
  | exited (code : ℤ)

/-- The code of a supervisor. -/
structure Program where
  -- `start` once it has found `running` cleared
  start : Option Bytes → List Op
  stop : List Op
  -- what `stop` goes on with once `stopping` is set
  stopRest : List Op
  -- the condition of the loop of `watch`, and its body
  loop : List Op
  probe : List Op
  -- once the client has accepted a connection
  connected : List Op
  afterLoop : List Op
  -- `fail` after `error = message`
  failRest : Bytes → List Op
  -- the message when `start` throws, when the client is late, when it has exited and when the
  -- relay does not start
  thrown : Bytes → Bytes
  late : Bytes
  exited : ℤ → Option Bytes → Bytes
  relayFailed : Option Bytes → Bytes
  -- what follows `fail` when the client is late
  onLate : List Op

namespace Program

/-- `fail(message)`. -/
def fail (P : Program) (message : Bytes) : List Op := .setError message :: P.failRest message

end Program

/-- An operation that goes on with the next one. -/
def next (s : Supervisor) (v : Locals) : Option (Effect Supervisor Locals Op) :=
  some ⟨s, v, .go [], []⟩

/-- An operation that leaves the state alone and goes on with other code. -/
def jump (s : Supervisor) (v : Locals) (code : List Op) : Option (Effect Supervisor Locals Op) :=
  some ⟨s, v, .exit code, []⟩

/-- `Process.killProcess` and `destroyForcibly`. -/
def killProc (s : Supervisor) (q : ℕ) : Supervisor :=
  { s with procs := s.procs.modify q fun p => { p with alive := false } }

/-- One atomic operation. -/
def exec (P : Program) (c : Choice) (s : Supervisor) (v : Locals) :
    Op → Option (Effect Supervisor Locals Op)
  | .takeRunning argument =>
    if s.running then jump s v []
    else
      some ⟨{ s with running := true, starts := s.starts + 1, written := none, relayed := false,
                     ended := false, decided := false },
        { run := s.starts + 1 }, .exit (P.start argument), []⟩
  | .nextGeneration =>
    next { s with generation := s.generation + 1 } { v with startGeneration := s.generation + 1 }
  | .clearStopping => next { s with stopping := false } v
  | .clearReady => next { s with ready := false } v
  | .clearError => next { s with error := none } v
  | .clearOutput => next { s with lastOutput := none } v
  | .parse message =>
    match c with
    | .uri scheme host =>
      if scheme.any (Kotlin.equalsIgnoreCase · (literal "hysteria2")) ∧ host.any Kotlin.isNotBlank
      then next s v
      else jump s v (P.fail message)
    | .throw e => jump s v (P.fail (P.thrown e))
    | _ => none
  | .killStale => next { s with procs := s.procs.map fun p => { p with alive := false } } v
  | .freePort =>
    match c with
    | .port n => next { s with socksPort := n } v
    | .throw e => jump s v (P.fail (P.thrown e))
    | _ => none
  | .writeKey key =>
    match c with
    | .go =>
      next { s with
        -- `EncryptionKey.normalize`
        keyFile := some (Kotlin.trim key),
        written := if v.run = s.starts then some (Kotlin.trim key) else s.written } v
    | .throw e => jump s v (P.fail (P.thrown e))
    | _ => none
  | .startController message =>
    match c with
    | .go => next s v
    | .refuse _ => jump s v (P.fail message)
    | _ => none
  | .writeConfig =>
    match c with
    | .go => next s v
    | .throw e => jump s v (P.fail (P.thrown e))
    | _ => none
  | .spawn =>
    match c with
    | .go =>
      next { s with procs := s.procs ++ [{ run := v.run, port := s.socksPort }] }
        { v with process := some s.procs.length }
    | .throw e => jump s v (P.fail (P.thrown e))
    | _ => none
  | .setProcess => next { s with process := v.process } v
  | .launchWatch => some ⟨s, v, .go [], [⟨v, P.loop⟩]⟩
  | .shutDown => jump { s with stopping := true, ended := true, decided := true } v P.stopRest
  | .clearRunning => next { s with running := false } v
  | .closeRelay => next { s with udpRelay := none } v
  | .readProcess => next s { v with process := s.process }
  | .kill =>
    match v.process with
    | some q => next (s.killProc q) v
    | none => next s v
  | .clearProcess => next { s with process := none } v
  | .deleteKey => next { s with keyFile := none } v
  | .breakIfStopping => if s.stopping then jump s v P.afterLoop else next s v
  | .breakIfNewer => if s.generation ≠ v.startGeneration then jump s v P.afterLoop else next s v
  | .breakIfDead =>
    match v.process with
    | some q => jump s v (if s.alive q then P.probe else P.afterLoop)
    | none => none
  | .readPort => next s { v with port := s.socksPort }
  | .connect =>
    match c with
    | .accept q =>
      if (s.procs[q]?).any fun p => p.alive ∧ p.port = v.port then
        jump { s with procs := s.procs.modify q fun p => { p with accepted := true } } v P.connected
      else none
    | .refuse _ => jump s v [.timeout]
    | _ => none
  | .startRelay =>
    match c with
    | .go => next s v
    | .refuse failure => jump s v (P.fail (P.relayFailed failure) ++ [.kill])
    | _ => none
  | .setRelay =>
    next { s with udpRelay := some v.run, relayed := s.relayed || v.run = s.starts } v
  | .setReady => next { s with ready := true, decided := s.decided || v.run = s.starts } v
  | .leaveLoop => jump s v P.afterLoop
  | .timeout =>
    match c with
    | .late => jump s v (P.fail P.late ++ P.onLate)
    | .go => jump s v [.sleep]
    | _ => none
  | .sleep => jump s v P.loop
  | .waitFor =>
    match v.process with
    | some q => if s.alive q then none else next s v
    | none => none
  | .returnIfStopping => if s.stopping then jump s v [] else next s v
  | .returnIfNewer => if s.generation ≠ v.startGeneration then jump s v [] else next s v
  | .returnIfReplaced =>
    match v.process with
    | some q => jump s v (if s.process = some q then [.report] else [])
    | none => none
  | .report =>
    match c with
    | .exited code => jump s v (P.fail (P.exited code s.lastOutput))
    | _ => none
  | .setError message =>
    next { s with
      error := some message, reports := s.reports ++ [(v.run, s.starts)],
      ended := s.ended || v.run = s.starts, decided := s.decided || v.run = s.starts } v
  | .post message =>
    next (if s.stopping then s else { s with posted := s.posted ++ [(v.run, message)] }) v

inductive Event
  | start (argument : Option Bytes)
  | stop
  | run (i : ℕ) (c : Choice)
  -- a process exits
  | exit (q : ℕ)
  -- the reader of a client's output
  | output (line : Bytes)
  -- the main thread calls `onUnexpectedExit`
  | callback

/-- A supervisor, its callers, its watchers and its clients. -/
def system (P : Program) : EventSystem (Pool Supervisor Locals Op) Event where
  init := { state := {} }
  step s e :=
    match e with
    | .start argument => some { s with threads := s.threads ++ [⟨{}, [.takeRunning argument]⟩] }
    | .stop => some { s with threads := s.threads ++ [⟨{}, P.stop⟩] }
    | .run i c => s.step (exec P) i c
    | .exit q => if s.state.alive q then some { s with state := s.state.killProc q } else none
    | .output line =>
      if Kotlin.isNotBlank line then
        some { s with state := { s.state with lastOutput := some line } }
      else none
    | .callback =>
      match s.state.posted with
      | call :: posted =>
        some { s with state := { s.state with
          posted, reports := s.state.reports ++ [(call.1, s.state.starts)] } }
      | [] => none

end Supervisor

namespace NativeProcessSupervisor

open Supervisor

/-- The code of `NativeProcessSupervisor`; `message` is a line of the client without the prefix of
Go's log. -/
def program (message : Bytes → Bytes) : Program where
  start encryptionKey :=
    [.clearStopping, .clearReady, .clearError, .clearOutput, .killStale, .freePort] ++
    encryptionKey.toList.map .writeKey ++ [.spawn, .setProcess, .launchWatch]
  stop := [.shutDown]
  stopRest := [.clearReady, .clearRunning, .readProcess, .kill, .clearProcess, .deleteKey]
  loop := [.breakIfStopping, .breakIfDead]
  probe := [.readPort, .connect]
  connected := [.setReady, .deleteKey, .leaveLoop]
  afterLoop := [.waitFor, .returnIfStopping, .returnIfReplaced]
  failRest message := [.clearReady, .clearRunning, .deleteKey, .post message]
  thrown e := literal "Failed to start OpenFlux: " ++ e
  late := literal "OpenFlux did not start within 45 s"
  exited code lastOutput :=
    literal s!"OpenFlux exited (code {code})" ++
      (lastOutput.elim [] fun line => literal ": " ++ message line)
  -- it has no relay
  relayFailed _ := []
  onLate := []

end NativeProcessSupervisor

namespace HysteriaSupervisor

open Supervisor

/-- The code of `HysteriaSupervisor`. -/
def program : Program where
  start _ :=
    [.nextGeneration, .clearStopping, .clearReady, .clearError, .clearOutput,
      .parse (literal "Некорректная ссылка Hysteria 2"), .killStale, .freePort,
      .startController (literal "Не удалось подготовить защиту Hysteria от VPN-петли"),
      .writeConfig, .spawn, .setProcess, .launchWatch]
  stop := [.nextGeneration, .shutDown]
  stopRest := [.clearReady, .clearRunning, .closeRelay, .readProcess, .kill, .clearProcess]
  loop := [.breakIfStopping, .breakIfNewer, .breakIfDead]
  probe := [.readPort, .connect]
  connected := [.startRelay, .setRelay, .setReady, .leaveLoop]
  afterLoop := [.waitFor, .returnIfStopping, .returnIfNewer, .returnIfReplaced]
  failRest message := [.clearReady, .clearRunning, .closeRelay, .post message]
  thrown e := literal "Не удалось запустить Hysteria 2: " ++ e
  late := literal "Hysteria 2 не открыла локальный канал"
  exited code lastOutput :=
    literal s!"Hysteria 2 завершилась с кодом {code}: " ++
      lastOutput.getD (literal "без сообщения")
  relayFailed failure :=
    literal "Hysteria 2 не подготовила UDP: " ++ failure.getD (literal "неизвестная ошибка")
  onLate := [.kill]

end HysteriaSupervisor

end OpenFlux.App
