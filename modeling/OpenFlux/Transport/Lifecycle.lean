import OpenFlux.Transport.Batched

/-!
# Starting and stopping the batching layer (`transport/batched.go`)

`Start` starts the inner transport, sets `running` and starts a flush loop; `Stop` clears `running`
and stops the inner transport.  Neither waits for a loop: each loop reads the flag when it comes
back to its top.  Calls of both may overlap with each other, with any number of `Send` calls and
with the loops of earlier starts, so a call is a thread of its own and takes a step at each shared
access.

`Layer` adds to the shared variables what an observer can tell of the layer's past: which packets
were accepted, which batches were handed to the inner transport, and which of these while the layer
was stopped, that is, from the return of a `Stop` until a `Start` takes effect.
-/

namespace OpenFlux.Transport.Batched

/-- Where a call of `Start` or `Stop` stands. -/
inductive Call
  -- in `b.Transport.Start()`
  | startInner
  -- at `b.running.Store(true)`
  | startFlag
  -- at `go b.flushLoop()`
  | startLoop
  -- at `b.running.Store(false)`
  | stopFlag
  -- in `b.Transport.Stop()`
  | stopInner
  deriving DecidableEq

/-- A layer with its calls and its flush loops, oldest first. -/
structure Layer where
  running : Bool := false
  queue : List Bytes := []
  loops : List FlushPc := []
  calls : List Call := []
  -- history: a `Stop` has returned and no `Start` has taken effect since
  stopped : Bool := false
  -- history: the packets whose `Send` returned nil
  accepted : List Bytes := []
  -- history: the batches handed to the inner transport
  emitted : List (List Bytes) := []
  -- history: those of them handed over while the layer was stopped
  late : List (List Bytes) := []

namespace Layer

inductive Event
  -- a call of `Start` or `Stop` begins
  | start
  | stop
  -- the `i`th call takes a step; `ok` is the result of the inner `Start`
  | advance (i : ℕ) (ok : Bool)
  | send (data : Bytes)
  -- the `i`th flush loop takes a step
  | flush (i : ℕ) (timer : Bool)
  deriving DecidableEq

/-- One step of a call, and where it stands then, or `none` when it has returned. -/
def advance (s : Layer) (ok : Bool) : Call → Layer × Option Call
  | .startInner => (s, if ok then some .startFlag else none)
  | .startFlag => ({ s with running := true, stopped := false }, some .startLoop)
  | .startLoop => ({ s with loops := s.loops ++ [.top] }, none)
  | .stopFlag => ({ s with running := false }, some .stopInner)
  | .stopInner => ({ s with stopped := true }, none)

/-- `Send`. -/
def send (s : Layer) (data : Bytes) : Layer :=
  match Batched.send s.queue data with
  | (queue, .ok _) => { s with queue, accepted := s.accepted ++ [data] }
  | (queue, .error _) => { s with queue }

/-- One step of a flush loop. -/
def flush (z : Zstd) (cfg : Config) (s : Layer) (i : ℕ) (timer : Bool) : Option Layer :=
  match s.loops[i]? with
  | none => none
  | some pc =>
    match flushStep z cfg s.running timer s.queue pc with
    | some (pc', queue, some _) => some { s with
        queue
        loops := s.loops.set i pc'
        emitted := s.emitted ++ [pc.batch]
        late := if s.stopped then s.late ++ [pc.batch] else s.late }
    | some (pc', queue, none) => some { s with queue, loops := s.loops.set i pc' }
    | none => none

end Layer

/-- The layer under calls, sends and flush loops in any order. -/
def lifecycle (z : Zstd) (cfg : Config) : EventSystem Layer Layer.Event where
  init := {}
  step s e :=
    match e with
    | .start => some { s with calls := s.calls ++ [.startInner] }
    | .stop => some { s with calls := s.calls ++ [.stopFlag] }
    | .advance i ok =>
      match s.calls[i]? with
      | none => none
      | some c =>
        let (s', next) := s.advance ok c
        some { s' with calls := next.elim (s.calls.eraseIdx i) (s.calls.set i ·) }
    | .send data => some (s.send data)
    | .flush i timer => s.flush z cfg i timer

end OpenFlux.Transport.Batched
