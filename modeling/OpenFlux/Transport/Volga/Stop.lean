import OpenFlux.Transport.Batched
import OpenFlux.Transport.Volga.Relay

/-!
# Stopping the Volga transport under the batching layer
(`transport/yandex/vyandex.go`, `transport/batched.go`)

A started `YandexVolgaTransport` with a `BatchedTransport` over it.  Four kinds of goroutines call
`relayClient.Send`: the flush loop of the layer, `keepAliveLoop`, and any caller of the transport's
own `Send`; the workers only take from the queue.  `Stop` is called on the layer or on the
transport, and goes through the flags and the channels one after the other, waiting for the workers
only. The steps of `Stop` that change nothing a sender reads, `ws.Stop` and `SetConnected`, are left
out.
-/

namespace OpenFlux.Transport.Volga

open Batched

/-- Where `keepAliveLoop` stands. -/
inductive KeepAlive
  -- at the `select`
  | select
  -- at `if !t.IsRunning()`
  | ticked
  -- at `t.relay.Send`
  | send
  | done
  deriving DecidableEq

/-- Where the call of `Stop` stands. -/
inductive Shutdown
  | notCalled
  -- at `b.running.Store(false)` of the layer
  | layer
  -- at `close(t.keepAliveStop)`
  | keepAliveStop
  -- in `t.relay.Stop()`
  | relay
  -- at `b.running.Store(0)` of `BaseTransport.Stop`
  | base
  | returned
  deriving DecidableEq

/-- The transport and the layer. -/
structure Stack (cfg : Config) where
  -- `running` of the layer, its queue and its flush loop
  running : Bool := true
  queue : List Bytes := []
  loop : FlushPc := .top
  -- `running` of `BaseTransport`
  isRunning : Bool := true
  -- `keepAliveStop` is closed
  keepAliveStop : Bool := false
  keepAlive : KeepAlive := .select
  relay : Relay cfg := {}
  shutdown : Shutdown := .notCalled

namespace Stack

inductive Event (cfg : Config)
  -- `Send` of the layer
  | enqueue (data : Bytes)
  -- `Send` of the transport
  | send (data : Bytes)
  | flush (timer : Bool)
  -- a step of `keepAliveLoop`; `tick` selects the ticker's case
  | keepAlive (tick : Bool)
  | work (w : Fin cfg.workerCount) (c : WorkerCase)
  -- `Stop` is called, on the layer or on the transport
  | callStop (onLayer : Bool)
  | stop

variable {cfg : Config}

/-- One step of the layer's flush loop, whose inner `Send` is the relay's. -/
def flush (z : Zstd) (bcfg : Batched.Config) (s : Stack cfg) (timer : Bool) :
    Option (Stack cfg) :=
  match flushStep z bcfg s.running timer s.queue s.loop with
  | some (loop, queue, some m) => some { s with loop, queue, relay := (s.relay.send m).1 }
  | some (loop, queue, none) => some { s with loop, queue }
  | none => none

/-- One step of `keepAliveLoop`. -/
def keepAliveStep (s : Stack cfg) (tick : Bool) : Option (Stack cfg) :=
  match s.keepAlive with
  | .select =>
    if tick then some { s with keepAlive := .ticked }
    else if s.keepAliveStop then some { s with keepAlive := .done }
    else none
  | .ticked => some { s with keepAlive := if s.isRunning then .send else .done }
  | .send => some { s with keepAlive := .select, relay := (s.relay.send [0x00]).1 }
  | .done => none

/-- One step of `Stop`. -/
def stopStep (s : Stack cfg) : Option (Stack cfg) :=
  match s.shutdown with
  | .notCalled | .returned => none
  | .layer => some { s with running := false, shutdown := .keepAliveStop }
  | .keepAliveStop => some { s with keepAliveStop := true, shutdown := .relay }
  | .relay =>
    if s.relay.stop = .returned then some { s with shutdown := .base }
    else (s.relay.stopStep).map fun relay => { s with relay }
  | .base => some { s with isRunning := false, shutdown := .returned }

end Stack

/-- A started transport under sends, one call of `Stop` and all its goroutines. -/
def stack (z : Zstd) (bcfg : Batched.Config) (cfg : Config) :
    EventSystem (Stack cfg) (Stack.Event cfg) where
  init := {}
  step s e :=
    if s.relay.crashed then none
    else
      match e with
      | .enqueue data => some { s with queue := (Batched.send s.queue data).1 }
      | .send data => some { s with relay := (s.relay.send data).1 }
      | .flush timer => s.flush z bcfg timer
      | .keepAlive tick => s.keepAliveStep tick
      | .work w c => (s.relay.work w c).map fun relay => { s with relay }
      | .callStop onLayer =>
        if s.shutdown = .notCalled then
          some { s with shutdown := if onLayer then .layer else .keepAliveStop }
        else none
      | .stop => s.stopStep

end OpenFlux.Transport.Volga
