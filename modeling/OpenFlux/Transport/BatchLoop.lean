import OpenFlux.Algorithm.EventSystem
import OpenFlux.Go.Timer
import OpenFlux.Transport.Cupsonline.Flows
import OpenFlux.Transport.Volga

/-!
# Loops that collect packets (`transport/yandex/vyandex.go`, `transport/cupsonline/cupsonline.go`)

`worker` of the relay and `sendLoop` of a room collect packets into a batch, which they pass to
`sendBatch` when it reaches one of the two limits or when the timer has fired that was reset for its
first packet.  They differ in two points: before a flush for size `sendLoop` stops its timer and
drains the channel, and its `flush` waits for the connection, which it gives up, with the batch as
it is, when the context is closed.

The loop takes one step from one channel operation to the next.  Which case of a `select` it takes,
and when the timer fires, is up to the environment.
-/

namespace OpenFlux.Transport

/-- The limits of a loop, and the two points in which the loops differ. -/
structure BatchLoop where
  maxPackets : ℕ
  maxBytes : ℕ
  -- a flush for size stops the timer first
  stopsTimer : Bool
  -- `flush` waits until `connected` is set
  waits : Bool

/-- `relayClient.worker`. -/
def Volga.worker (cfg : Volga.Config) : BatchLoop where
  maxPackets := cfg.batchSize
  maxBytes := cfg.batchMaxBytes
  stopsTimer := false
  waits := false

/-- `cupsWS.sendLoop`. -/
def Cupsonline.sendLoop (cfg : Cupsonline.Config) : BatchLoop where
  maxPackets := cfg.batchMaxPackets
  maxBytes := cfg.batchMaxBytes
  stopsTimer := true
  waits := true

namespace BatchLoop

/-- Where the loop stands; a flush after which the loop returns is `leaving`. -/
inductive Pc
  -- at the `select`
  | select
  -- in `flush`, at `w.connected.Load()`
  | load (leaving : Bool)
  -- in `flush`, at the `select` under it
  | asleep (leaving : Bool)
  -- in `sendBatch`
  | sending (leaving : Bool)
  | returned
  deriving DecidableEq

/-- The variables of the loop, and what it sees of its surroundings. -/
structure State where
  pc : Pc := .select
  batch : List Bytes := []
  totalBytes : ℕ := 0
  timer : Timer := {}
  connected : Bool := false
  -- `ctx` is closed
  closed : Bool := false
  -- history: the packets received, and the batches passed to `sendBatch`
  taken : List Bytes := []
  sent : List (List Bytes) := []
  deriving DecidableEq

inductive Event
  -- the cases of the loop's `select`
  | ctxDone
  | packet (pkt : Bytes)
  | queueClosed
  | tick
  -- the loop goes on inside `flush`: from `Load`, from the `select` under it, from `sendBatch`
  | loads
  | wakes
  | givesUp
  | sendReturns
  -- the surroundings
  | fires
  | connects (connected : Bool)
  | closes
  deriving DecidableEq

variable (l : BatchLoop) (drops : Bool)

namespace State

/-- `flush` returns: to the `select`, or to the end of the loop with its `defer timer.Stop()`. -/
def leave (s : State) (leaving : Bool) : State :=
  if leaving then { s with pc := .returned, timer := (s.timer.stop drops).1 }
  else { s with pc := .select }

/-- `flush` calls `sendBatch`. -/
def send (s : State) (leaving : Bool) : State :=
  { s with pc := .sending leaving, sent := s.sent ++ [s.batch] }

/-- The loop calls `flush`. -/
def flush (s : State) (leaving : Bool) : State :=
  if s.batch = [] then s.leave drops leaving
  else if l.waits then { s with pc := .load leaving }
  else s.send leaving

/-- The loop receives a packet from its queue. -/
def take (s : State) (pkt : Bytes) : State :=
  let s := { s with
    batch := s.batch ++ [pkt]
    totalBytes := s.totalBytes + pkt.length
    taken := s.taken ++ [pkt] }
  if l.maxPackets ≤ s.batch.length ∨ l.maxBytes ≤ s.totalBytes then
    let timer := if l.stopsTimer then s.timer.stopDrain drops else s.timer
    { s with timer }.flush l drops false
  else if s.batch.length = 1 then { s with timer := s.timer.reset drops }
  else s

end State

/-- One step. -/
def step (s : State) : Event → Option State
  | .ctxDone => if s.pc = .select ∧ s.closed then some (s.flush l drops true) else none
  | .packet pkt => if s.pc = .select then some (s.take l drops pkt) else none
  | .queueClosed => if s.pc = .select then some (s.flush l drops true) else none
  | .tick =>
    if s.pc = .select then s.timer.receive.map fun timer => { s with timer }.flush l drops false
    else none
  | .loads =>
    match s.pc with
    | .load leaving =>
      some (if s.connected then s.send leaving else { s with pc := .asleep leaving })
    | _ => none
  | .wakes =>
    match s.pc with
    | .asleep leaving => some { s with pc := .load leaving }
    | _ => none
  | .givesUp =>
    match s.pc with
    | .asleep leaving => if s.closed then some (s.leave drops leaving) else none
    | _ => none
  | .sendReturns =>
    match s.pc with
    | .sending leaving => some ({ s with batch := [], totalBytes := 0 }.leave drops leaving)
    | _ => none
  | .fires => s.timer.fire.map fun timer => { s with timer }
  | .connects connected => some { s with connected }
  | .closes => some { s with closed := true }

/-- The loop from its first `select` on, where its timer is at rest (`Timer.stopReceive_new`). -/
def system : EventSystem State Event where
  init := {}
  step := step l drops

end BatchLoop

end OpenFlux.Transport
