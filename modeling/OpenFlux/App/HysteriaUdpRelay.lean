import OpenFlux.Algorithm.EventSystem

/-!
# The UDP relay (`HysteriaUdpRelay.kt`)

The threads of a relay that has been started: the one in `receiveLoop`, the four workers, one in
`startReceiver` for each flow, and the one that calls `close`.  A thread takes one step from one
shared access to the next, `Flow.close` being one step.  A flow is its number among those opened.

Left out are the contents of the packets and the times: any flow may have expired when it is looked
at, opening one may take as long as it likes or fail, and a thread may wait before every step.
-/

namespace OpenFlux.App

/-- Where `startReceiver` of a flow stands. -/
inductive ReceiverPc
  -- not called
  | none
  -- at `while (open.get() && active.get())`
  | checking
  -- in `upstream.receive`
  | receiving
  -- at `localSocket?.send`
  | sending
  | ended
  deriving DecidableEq

structure Flow (S : Type) where
  source : S
  isOpen : Bool := true
  receiver : ReceiverPc := .none
  deriving DecidableEq

/-- Where `receiveLoop` stands. -/
inductive LoopPc (S : Type)
  -- at `while (active.get())`
  | checking
  -- in `localSocket?.receive`
  | receiving
  -- at `workers.execute`
  | submitting (source : S)
  -- in `flows.entries.removeIf`, between two entries
  | expiring
  -- at the condition of `removeIf`
  | testing (source : S) (flow : ℕ)
  -- at the removal of an entry by `removeIf`
  | removing (source : S) (flow : ℕ)
  | ended
  deriving DecidableEq

/-- Where a worker stands. -/
inductive WorkerPc (S : Type)
  | idle
  -- at `getFlow`
  | waiting (source : S)
  -- in `getFlow`
  | inside
  -- at `flow.send`
  | sending (flow : ℕ)
  deriving DecidableEq

/-- Where the thread in `getFlow` stands. -/
inductive Stage
  -- at `flows[source]?.let`
  | looking
  -- at `check(flows.size < MAX_FLOWS)`
  | checking
  -- in `openFlow`
  | opening
  -- at `flows[source] = it`
  | storing (flow : ℕ)
  -- at `it.startReceiver()`
  | starting (flow : ℕ)
  deriving DecidableEq

/-- The worker in `getFlow`, which is synchronized. -/
structure Holder (S : Type) where
  worker : Fin 4
  source : S
  stage : Stage
  deriving DecidableEq

/-- Where `close` stands. -/
inductive ClosePc
  -- at `localSocket?.close()`
  | closing
  -- at `localSocket = null`
  | dropping
  -- at `flows.values.forEach`
  | beginning
  -- in `forEach`, which still has to come to these flows
  | visiting (flows : List ℕ)
  -- at `flows.clear()`
  | clearing
  -- at `workers.shutdownNow()`
  | stopping
  -- in `workers.awaitTermination`
  | awaiting
  | returned
  deriving DecidableEq

/-- `localSocket`. -/
inductive LocalSocket
  | opened
  | closed
  | null
  deriving DecidableEq

structure HysteriaUdpRelay (S : Type) where
  active : Bool := true
  localSocket : LocalSocket := .opened
  -- all flows that have been opened
  created : List (Flow S) := []
  flows : List (S × ℕ) := []
  queue : List S := []
  shutdown : Bool := false
  loop : LoopPc S := .checking
  workers : Fin 4 → WorkerPc S := fun _ => .idle
  monitor : Option (Holder S) := none
  closer : Option ClosePc := none
  -- history: the flow on which a reply has come, and where it has been sent
  replies : List (ℕ × S) := []

/-- What the thread in `receiveLoop` meets: nothing, a packet, an exception, an entry of the table,
or a flow that has expired. -/
inductive LoopEvent (S : Type)
  | go
  | packet (source : S)
  | failed
  | visit (source : S)
  | expired
  deriving DecidableEq

namespace HysteriaUdpRelay

/-- A step of one of the threads.  `ok` says whether it goes well, and an entry that `forEach` of
`close` comes to is one that has been stored meanwhile. -/
inductive Event (S : Type)
  | receive (e : LoopEvent S)
  | work (w : Fin 4) (ok : Bool)
  | reply (flow : ℕ) (ok : Bool)
  | callClose
  | close (entry : Option S)
  deriving DecidableEq

variable {S : Type} [DecidableEq S]

/-- `MAX_FLOWS`. -/
def maxFlows : ℕ := 256

/-- `Flow.close`. -/
def closeFlow (r : HysteriaUdpRelay S) (flow : ℕ) : HysteriaUdpRelay S :=
  { r with created := r.created.modify flow fun f => { f with isOpen := false } }

def setWorker (r : HysteriaUdpRelay S) (w : Fin 4) (pc : WorkerPc S) : HysteriaUdpRelay S :=
  { r with workers := Function.update r.workers w pc }

def setReceiver (r : HysteriaUdpRelay S) (flow : ℕ) (pc : ReceiverPc) : HysteriaUdpRelay S :=
  { r with created := r.created.modify flow fun f => { f with receiver := pc } }

/-- One step of `receiveLoop`. -/
def stepLoop (r : HysteriaUdpRelay S) (e : LoopEvent S) : Option (HysteriaUdpRelay S) :=
  match r.loop, e with
  | .checking, .go => some { r with loop := if r.active then .receiving else .ended }
  | .receiving, .go => if r.localSocket = .null then some { r with loop := .ended } else none
  | .receiving, .packet source =>
    if r.localSocket = .opened then some { r with loop := .submitting source } else none
  | .receiving, .failed => some { r with loop := .checking }
  | .submitting source, .go =>
    if r.shutdown then some { r with loop := .checking }
    else some { r with queue := r.queue ++ [source], loop := .expiring }
  | .expiring, .visit source =>
    (r.flows.lookup source).map fun flow => { r with loop := .testing source flow }
  | .expiring, .go => some { r with loop := .checking }
  | .testing source flow, .expired =>
    some { r.closeFlow flow with loop := .removing source flow }
  | .testing _ _, .go => some { r with loop := .expiring }
  | .removing source flow, .go =>
    some { r with flows := r.flows.filter (· ≠ (source, flow)), loop := .expiring }
  | _, _ => none

/-- `getFlow` returns, or throws. -/
def leave (r : HysteriaUdpRelay S) (w : Fin 4) (pc : WorkerPc S) : HysteriaUdpRelay S :=
  { r.setWorker w pc with monitor := none }

/-- One step of `getFlow`. -/
def stepGetFlow (r : HysteriaUdpRelay S) (h : Holder S) (ok : Bool) : HysteriaUdpRelay S :=
  match h.stage with
  | .looking =>
    match r.flows.lookup h.source with
    | some flow => r.leave h.worker (.sending flow)
    | none => { r with monitor := some { h with stage := .checking } }
  | .checking =>
    if r.flows.length < maxFlows then { r with monitor := some { h with stage := .opening } }
    else r.leave h.worker .idle
  | .opening =>
    if ok then
      { r with
        created := r.created ++ [{ source := h.source }]
        monitor := some { h with stage := .storing r.created.length } }
    else r.leave h.worker .idle
  | .storing flow =>
    { r with
      flows := (h.source, flow) :: r.flows.filter (·.1 ≠ h.source)
      monitor := some { h with stage := .starting flow } }
  | .starting flow => (r.setReceiver flow .checking).leave h.worker (.sending flow)

/-- One step of a worker. -/
def stepWorker (r : HysteriaUdpRelay S) (w : Fin 4) (ok : Bool) : Option (HysteriaUdpRelay S) :=
  match r.workers w with
  | .idle =>
    match r.queue with
    | source :: queue => some { r.setWorker w (.waiting source) with queue }
    | [] => none
  | .waiting source =>
    if r.monitor.isNone then
      some { r.setWorker w .inside with monitor := some { worker := w, source, stage := .looking } }
    else none
  | .inside =>
    match r.monitor with
    | some h => if h.worker = w then some (r.stepGetFlow h ok) else none
    | none => none
  | .sending _ => some (r.setWorker w .idle)

/-- One step of `startReceiver`. -/
def stepReceiver (r : HysteriaUdpRelay S) (flow : ℕ) (ok : Bool) : Option (HysteriaUdpRelay S) :=
  match r.created[flow]? with
  | none => none
  | some f =>
    match f.receiver with
    | .checking =>
      some (r.setReceiver flow (if f.isOpen ∧ r.active then .receiving else .ended))
    | .receiving =>
      if ok then if f.isOpen then some (r.setReceiver flow .sending) else none
      else some (r.setReceiver flow .checking)
    | .sending =>
      some { r.setReceiver flow .checking with
        replies :=
          if r.localSocket = .opened then r.replies ++ [(flow, f.source)] else r.replies }
    | .none | .ended => none

/-- One step of `close`. -/
def stepClose (r : HysteriaUdpRelay S) (entry : Option S) : Option (HysteriaUdpRelay S) :=
  match r.closer, entry with
  | some .closing, none => some { r with localSocket := .closed, closer := some .dropping }
  | some .dropping, none => some { r with localSocket := .null, closer := some .beginning }
  | some .beginning, none => some { r with closer := some (.visiting (r.flows.map Prod.snd)) }
  | some (.visiting (flow :: flows)), none =>
    some { r.closeFlow flow with closer := some (.visiting flows) }
  | some (.visiting _), some source => (r.flows.lookup source).map r.closeFlow
  | some (.visiting []), none => some { r with closer := some .clearing }
  | some .clearing, none => some { r with flows := [], closer := some .stopping }
  | some .stopping, none => some { r with queue := [], shutdown := true, closer := some .awaiting }
  | some .awaiting, none => some { r with closer := some .returned }
  | _, _ => none

def step (r : HysteriaUdpRelay S) : Event S → Option (HysteriaUdpRelay S)
  | .receive e => r.stepLoop e
  | .work w ok => r.stepWorker w ok
  | .reply flow ok => r.stepReceiver flow ok
  | .callClose =>
    if r.closer.isNone then some { r with active := false, closer := some .closing } else none
  | .close entry => r.stepClose entry

end HysteriaUdpRelay

/-- A relay that `start` has started. -/
def udpRelay (S : Type) [DecidableEq S] :
    EventSystem (HysteriaUdpRelay S) (HysteriaUdpRelay.Event S) where
  init := {}
  step := HysteriaUdpRelay.step

end OpenFlux.App
