import Mathlib.Data.Fintype.Basic
import OpenFlux.Algorithm.EventSystem
import OpenFlux.Transport.Volga

/-!
# The relay's workers (`transport/yandex/vyandex.go`)

`relayClient` as its goroutines see it: `Send` puts a copy of the packet into `batchQueue`, each
worker collects packets into a batch of its own and posts it, and `Stop` cancels the context, closes
both queues and waits for the workers.  A worker takes one step from one channel operation to the
next; which ready case of its `select` it takes is part of the event.  A packet for a worker that is
already waiting goes through the queue here, where Go hands it over directly: that only adds runs.

A send on the closed queue panics, and the process takes no further step.  What `sendBatch` makes of
a batch is in `Transport.Volga`; here it is a call that begins and returns.
-/

namespace OpenFlux.Transport.Volga

/-- A packet copied by `Send`, numbered among the calls that returned nil. -/
structure Packet where
  ticket : ℕ
  data : Bytes
  deriving DecidableEq

/-- Where a worker stands, with its batch; `armed` says that the timer is running. -/
inductive Worker
  -- at the `select`
  | select (batch : List Packet) (armed : Bool)
  -- in the `sendBatch` of a `flush`, after which it returns if it is `leaving`
  | inSend (armed leaving : Bool)
  | done
  deriving DecidableEq

/-- Where the call of `Stop` stands. -/
inductive StopPc
  | notCalled
  -- at `r.cancel()`
  | cancel
  -- at `close(r.queue)`
  | closeQueue
  -- at `close(r.batchQueue)`
  | closeBatchQueue
  -- in `r.wg.Wait()`
  | wait
  | returned
  deriving DecidableEq

/-- The relay, after `Start`. -/
structure Relay (cfg : Config) where
  batchQueue : List Packet := []
  -- `batchQueue` is closed
  closed : Bool := false
  -- `ctx` is cancelled
  cancelled : Bool := false
  workers : Fin cfg.workerCount → Worker := fun _ => .select [] false
  stop : StopPc := .notCalled
  -- a send on the closed channel has panicked
  crashed : Bool := false
  -- history: the packets whose `Send` returned nil, and those of them before `Stop` was called
  accepted : List Packet := []
  before : List Packet := []
  -- history: the batches passed to `sendBatch`
  batches : List (List Packet) := []
  -- history: some worker has received `!ok`
  drained : Bool := false

/-- The cases of a worker's `select`, and the return of its `sendBatch`. -/
inductive WorkerCase
  | ctxDone
  | batchQueue
  | timer
  | sendReturns
  deriving DecidableEq

namespace Relay

variable {cfg : Config}

/-- `Send` returns nil. -/
def accept (r : Relay cfg) (p : Packet) : Relay cfg :=
  { r with
    accepted := r.accepted ++ [p]
    before := if r.stop = .notCalled then r.before ++ [p] else r.before }

/-- `relayClient.Send`: the relay after it and its result, `none` when it panics. -/
def send (r : Relay cfg) (data : Bytes) : Relay cfg × Option (Except String Unit) :=
  let p : Packet := ⟨r.accepted.length, data⟩
  if data.length = 0 then (r.accept p, some (.ok ()))
  else if cfg.maxPayloadBytes < data.length then
    (r, some (.error s!"packet too large: {data.length} > {cfg.maxPayloadBytes}"))
  else if r.closed then ({ r with crashed := true }, none)
  else if r.batchQueue.length < cfg.queueSize then
    ({ r.accept p with batchQueue := r.batchQueue ++ [p] }, some (.ok ()))
  else (r, some (.error "queue full"))

/-- `worker` calls `flush` and then returns if it is `leaving`. -/
def flush (r : Relay cfg) (w : Fin cfg.workerCount) (batch : List Packet) (armed leaving : Bool) :
    Relay cfg :=
  if batch = [] then
    { r with workers := Function.update r.workers w (if leaving then .done else .select [] armed) }
  else
    { r with
      workers := Function.update r.workers w (.inSend armed leaving)
      batches := r.batches ++ [batch] }

/-- One step of `worker`. -/
def work (r : Relay cfg) (w : Fin cfg.workerCount) (c : WorkerCase) : Option (Relay cfg) :=
  match r.workers w, c with
  | .select batch armed, .ctxDone =>
    if r.cancelled then some (r.flush w batch armed true) else none
  | .select batch armed, .batchQueue =>
    match r.batchQueue with
    | p :: queue =>
      let r := { r with batchQueue := queue }
      let batch := batch ++ [p]
      if cfg.batchSize ≤ batch.length ∨ cfg.batchMaxBytes ≤ totalBytes (batch.map Packet.data) then
        some (r.flush w batch armed false)
      else
        let armed := armed || batch.length == 1
        some { r with workers := Function.update r.workers w (.select batch armed) }
    | [] =>
      if r.closed then some ({ r with drained := true }.flush w batch armed true) else none
  | .select batch armed, .timer => if armed then some (r.flush w batch false false) else none
  | .inSend armed leaving, .sendReturns =>
    some { r with
      workers := Function.update r.workers w (if leaving then .done else .select [] armed) }
  | _, _ => none

/-- One step of `Stop`. -/
def stopStep (r : Relay cfg) : Option (Relay cfg) :=
  match r.stop with
  | .notCalled => some { r with stop := .cancel }
  | .cancel => some { r with cancelled := true, stop := .closeQueue }
  | .closeQueue => some { r with stop := .closeBatchQueue }
  | .closeBatchQueue => some { r with closed := true, stop := .wait }
  | .wait => if ∀ w, r.workers w = .done then some { r with stop := .returned } else none
  | .returned => none

end Relay

inductive Relay.Event (cfg : Config)
  | send (data : Bytes)
  | work (w : Fin cfg.workerCount) (c : WorkerCase)
  | stop

/-- A started relay under sends, its workers and one call of `Stop`. -/
def relay (cfg : Config) : EventSystem (Relay cfg) (Relay.Event cfg) where
  init := {}
  step r e :=
    if r.crashed then none
    else
      match e with
      | .send data => some (r.send data).1
      | .work w c => r.work w c
      | .stop => r.stopStep

end OpenFlux.Transport.Volga
