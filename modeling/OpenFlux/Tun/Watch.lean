import OpenFlux.Algorithm.EventSystem
import OpenFlux.Tun.Routes

/-!
# The macOS client at work (`tun_watch.go`, `runClientTUN` of `main.go`)

`SocketWatcher` and the process around it.  Before `Start` and after `Stop` only `main` runs, and in
between it waits for the signal and then for the watcher: so a snapshot is one step, also one in
which the signal comes, for no snapshot looks at the channel that `Stop` closes.  A step carries
what the commands print, how they end and the time at which they do.
-/

namespace OpenFlux.Tun

/-! ### Connections -/

/-- The remote host in a line that `lsof` prints, if it counts. -/
def remoteHost (line : Bytes) : Option Bytes := do
  let idx ← index line (literal "->")
  let rest := line.drop (idx + 2)
  let sp := rest.findIdx fun c => c = 0x20 || c = 0x09
  let rest := if 0 < sp then rest.take sp else rest
  if 0x3A ∈ rest then
    let host := (rest.rdropWhile (· ≠ 0x3A)).dropLast
    if !contains host (literal ".") || (literal "127.").isPrefixOf host then none else some host
  else none

/-- `current`. -/
def remoteHosts (out : Bytes) : Finset Bytes := ((out.splitOn 0x0A).filterMap remoteHost).toFinset

def sameSet (a b : Finset Bytes) : Bool := a.card = b.card && ∀ k ∈ a, k ∈ b

/-! ### The watcher -/

structure SocketWatcher where
  gateway : Bytes
  known : Finset Bytes := ∅
  lastSet : Finset Bytes := ∅
  -- none is the zero time
  stableAt : Option ℕ := none
  fired : Bool := false

/-- `addRoute`, with whether it returns nil. -/
def addRoute (w : SocketWatcher) (t : Table) (ip : Bytes) (o : Outcome) : Bool × Table :=
  match routeAdd t (.host ip) (.gateway w.gateway) o with
  | (none, t) => (true, t)
  | (some out, t) => (contains out (literal "File exists"), t)

/-- The loop over `current`. -/
def addRoutes (outcomes : Bytes → Outcome) :
    List Bytes → SocketWatcher → Table → SocketWatcher × Table
  | [], w, t => (w, t)
  | ip :: ips, w, t =>
    if ip ∈ w.known then addRoutes outcomes ips w t
    else
      match addRoute w t ip (outcomes ip) with
      | (false, t) => addRoutes outcomes ips w t
      | (true, t) => addRoutes outcomes ips { w with known := insert ip w.known } t

/-- What a snapshot meets. -/
structure Scan where
  -- none if `lsof` fails
  lsof : Option Bytes
  -- the order in which `range` goes over the hosts
  order : List Bytes
  -- the command for each host
  outcomes : Bytes → Outcome := fun _ => .runs
  now : ℕ
  -- the commands of `ConfigureDefault`
  configure : ℕ → Outcome := fun _ => .runs

/-- The time is a number of nanoseconds. -/
def second : ℕ := 1000000000

/-- `onStable` is called, by a watcher that has added its routes. -/
def fires (w : SocketWatcher) (current : Finset Bytes) (now : ℕ) : Bool :=
  sameSet current w.lastSet && w.stableAt.any (fun since => 3 * second < now - since) && !w.fired

/-- `snapshot` with the hosts of a successful `lsof`, up to the call of `onStable`. -/
def observe (w : SocketWatcher) (current : Finset Bytes) (now : ℕ) : SocketWatcher :=
  if sameSet current w.lastSet then
    match w.stableAt with
    | none => { w with stableAt := some now, lastSet := current }
    | some _ =>
      if fires w current now then { w with fired := true } else { w with lastSet := current }
  else { w with stableAt := none, lastSet := current }

/-! ### The process -/

/-- Where `runClientTUN` is: before the watcher starts, at the signal, in `Stop`, after `Stop`, at
its end, or ended by `log.Fatalf`. -/
inductive Phase
  | starting
  | running
  | stopping
  | stopped
  | done
  | failed
  deriving DecidableEq

structure State where
  phase : Phase
  table : Table
  client : TUNClient
  watcher : SocketWatcher
  -- the goroutine of the watcher takes a snapshot before it looks at `stop`
  scanned : Bool := false

inductive Event
  -- the interface, what `route -n get default` prints, the commands of `SetupInterface`
  | start (name : Bytes) (default : Option Bytes) (setup : Setup)
  | snapshot (scan : Scan)
  | signal
  | exit
  -- the commands of `Close` and of `RestoreDefault`
  | shutdown (closing restoring : ℕ → Outcome)

/-- `runClientTUN` up to `watcher.Start`. -/
def start (t : Table) (name : Bytes) (default : Option Bytes) (setup : Setup) : State :=
  match saveDefault { name } default with
  | .error _ => { phase := .failed, table := t, client := { name }, watcher := { gateway := [] } }
  | .ok c =>
    match setupInterface c t setup with
    | (.error _, t) => { phase := .failed, table := t, client := c, watcher := { gateway := [] } }
    | (.ok c, t) =>
      { phase := .running, table := t, client := c, watcher := { gateway := c.gateway } }

/-- `snapshot`. -/
def snapshot (s : State) (scan : Scan) (out : Bytes) : State :=
  let current := remoteHosts out
  let (w, t) := addRoutes scan.outcomes scan.order s.watcher s.table
  if fires w current scan.now then
    let (_, c, t) := configureDefault s.client t scan.configure
    { s with watcher := observe w current scan.now, client := c, table := t, scanned := true }
  else { s with watcher := observe w current scan.now, table := t, scanned := true }

/-- The end of `runClientTUN`. -/
def shutdown (s : State) (closing restoring : ℕ → Outcome) : State :=
  let (c, t) := close s.client s.table closing
  let (c, t) := restoreDefault c t restoring
  { s with phase := .done, client := c, table := t }

def step (s : State) : Event → Option State
  | .start name default setup =>
    -- there is no default route to print if the table has none
    if s.phase = .starting ∧ (default.isSome → (s.table .default).isSome) then
      some (start s.table name default setup)
    else none
  | .snapshot scan =>
    if s.phase = .running ∨ s.phase = .stopping then
      match scan.lsof with
      | none => some { s with scanned := true }
      | some out =>
        if scan.order.Nodup ∧ scan.order.toFinset = remoteHosts out then
          some (snapshot s scan out)
        else none
    else none
  | .signal => if s.phase = .running then some { s with phase := .stopping } else none
  | .exit => if s.phase = .stopping ∧ s.scanned then some { s with phase := .stopped } else none
  | .shutdown closing restoring =>
    if s.phase = .stopped then some (shutdown s closing restoring) else none

/-- `runClientTUN` on a machine with this routing table. -/
def clientTUN (t : Table) : EventSystem State Event where
  init := { phase := .starting, table := t, client := { name := [] }, watcher := { gateway := [] } }
  step := step

end OpenFlux.Tun
