import OpenFlux.Algorithm.EventSystem
import OpenFlux.Go.Strconv
import OpenFlux.Transport.Framing

/-!
# The batching layer (`transport/batched.go`)

`BatchedTransport` queues packets and sends them in batches.  `send` is the non-blocking channel
send of `Send`.  `flushStep` is one step of `flushLoop`, from one channel operation to the next:
the program counter `FlushPc` says where in the loop it stands and holds the loop's local
variables.  The queue is never closed, so the `!ok` branches of the source are never taken.

`system` puts a started layer, an inner transport and a peer with the same layer together.  The
inner transport delivers every message once and in order.  Whether its `Send` returns before the
peer has been given the message is a parameter: `onSend` is the loopback of the tests, where
`Send` calls the peer's callback, `later` an asynchronous channel.  The peer's `Receive` callback
is modelled packet by packet, so `delivered` is what the user callback has been handed at any
moment in the middle of a batch.
-/

namespace OpenFlux.Transport.Batched

/-- `batchQueueDepth`, the capacity of the queue. -/
def batchQueueDepth : ℕ := 4096

/-- The tunables of `BatchedTransport`.  `envInt` admits positive values only. -/
structure Config where
  lingerMs : ℕ
  maxBatchBytes : ℕ
  maxBatchCount : ℕ
  lingerMs_pos : 0 < lingerMs
  maxBatchBytes_pos : 0 < maxBatchBytes
  maxBatchCount_pos : 0 < maxBatchCount

/-- `defaultMaxBatchBytes`, `defaultMaxBatchCount` and `defaultLingerMs`. -/
def Config.default : Config where
  lingerMs := 5
  maxBatchBytes := 8192
  maxBatchCount := 64
  lingerMs_pos := by decide
  maxBatchBytes_pos := by decide
  maxBatchCount_pos := by decide

/-- `envInt`, over the values `os.Getenv` returns. -/
def envInt (getenv : Bytes → Bytes) (name : Bytes) (default : ℕ) : ℕ :=
  match getenv name with
  | [] => default
  | v =>
    match atoi v with
    | some n => if 0 < n then n.toNat else default
    | none => default

theorem envInt_pos {default : ℕ} (h : 0 < default) (getenv : Bytes → Bytes) (name : Bytes) :
    0 < envInt getenv name default := by
  unfold envInt
  split
  · exact h
  · split
    · split_ifs <;> omega
    · exact h

/-- The tunables `NewBatchedTransport` reads from the environment. -/
def newBatchedTransport (getenv : Bytes → Bytes) : Config where
  lingerMs := envInt getenv (literal "OPENFLUX_BATCH_LINGER_MS") Config.default.lingerMs
  maxBatchBytes := envInt getenv (literal "OPENFLUX_BATCH_BYTES") Config.default.maxBatchBytes
  maxBatchCount := envInt getenv (literal "OPENFLUX_BATCH_COUNT") Config.default.maxBatchCount
  lingerMs_pos := envInt_pos Config.default.lingerMs_pos _ _
  maxBatchBytes_pos := envInt_pos Config.default.maxBatchBytes_pos _ _
  maxBatchCount_pos := envInt_pos Config.default.maxBatchCount_pos _ _

/-- `Send` on the queue. -/
def send (queue : List Bytes) (data : Bytes) : List Bytes × Except String Unit :=
  if queue.length < batchQueueDepth then (queue ++ [data], .ok ())
  else (queue, .error "batch queue full")

/-! ### The flush loop -/

/-- Where `flushLoop` stands, with its local variables. -/
inductive FlushPc
  -- about to test `b.running`
  | top
  -- at `first, ok := <-b.queue`
  | first
  -- in the `drainNow` loop
  | drain (batch : List Bytes) (size : ℕ)
  -- in the `linger` loop, the timer running
  | linger (batch : List Bytes) (size : ℕ)
  -- about to call the inner `Send`
  | emit (batch : List Bytes)
  -- in the inner `Send`
  | inSend
  -- returned, because the layer was stopped
  | done
  deriving DecidableEq

/-- The packets the loop holds. -/
def FlushPc.batch : FlushPc → List Bytes
  | .drain batch _ | .linger batch _ | .emit batch => batch
  | .top | .first | .inSend | .done => []

/-- The condition of both coalescing loops. -/
def Config.room (cfg : Config) (batch : List Bytes) (size : ℕ) : Bool :=
  size < cfg.maxBatchBytes && batch.length < cfg.maxBatchCount

/-- What follows the `drainNow` loop: the linger phase, if it is entered at all. -/
def afterDrain (cfg : Config) (batch : List Bytes) (size : ℕ) : FlushPc :=
  if 0 < cfg.lingerMs ∧ cfg.room batch size = true then .linger batch size else .emit batch

/-- One step of `flushLoop`: the next program counter, the queue left behind and the message
passed to the inner `Send`, or `none` when the loop blocks.  `timer` selects the timer's case in
the `linger` select; the timer may fire at any moment of that loop. -/
def flushStep (z : Zstd) (cfg : Config) (running timer : Bool) (queue : List Bytes) :
    FlushPc → Option (FlushPc × List Bytes × Option Bytes)
  | .top => some (if running then .first else .done, queue, none)
  | .first =>
    match queue with
    | [] => none
    | p :: queue => some (.drain [p] (2 + p.length), queue, none)
  | .drain batch size =>
    if cfg.room batch size then
      match queue with
      | p :: queue => some (.drain (batch ++ [p]) (size + (2 + p.length)), queue, none)
      | [] => some (afterDrain cfg batch size, [], none)
    else some (afterDrain cfg batch size, queue, none)
  | .linger batch size =>
    if cfg.room batch size then
      if timer then some (.emit batch, queue, none)
      else
        match queue with
        | p :: queue => some (.linger (batch ++ [p]) (size + (2 + p.length)), queue, none)
        | [] => none
    else some (.emit batch, queue, none)
  | .emit batch => some (.inSend, queue, some (encodeBatch z batch))
  | .inSend => some (.top, queue, none)
  | .done => none

/-! ### Two peers over an inner transport -/

/-- When the inner transport's `Send` returns. -/
inductive InnerSend
  -- after the peer's callback has returned
  | onSend
  -- at once, with the message still in flight
  | later
  deriving DecidableEq

/-- One direction of a connection: the sender's queue and loop, the messages the inner transport
has accepted and not yet delivered, the packets the peer's callback loop has still to hand over,
and the history of the run. -/
structure State where
  queue : List Bytes := []
  pc : FlushPc := .top
  wire : List Bytes := []
  handing : List Bytes := []
  -- history: the packets handed to the peer's user callback
  delivered : List Bytes := []
  -- history: the `Send` calls with what they returned
  calls : List (Bytes × Except String Unit) := []
  -- history: the batches passed to the inner transport
  emitted : List (List Bytes) := []

/-- A producer's `Send`, a step of the flush loop, the delivery of the oldest message to the
peer's callback, and one call of the user callback there. -/
inductive Event
  | send (data : Bytes)
  | flush (timer : Bool)
  | receive
  | hand

/-- The packets whose `Send` returned nil, in order. -/
def accepted (calls : List (Bytes × Except String Unit)) : List Bytes :=
  calls.filterMap fun c =>
    match c.2 with
    | .ok _ => some c.1
    | .error _ => none

/-- The inner `Send` may return. -/
def State.sendReturns (s : State) : InnerSend → Bool
  | .onSend => s.wire.isEmpty && s.handing.isEmpty
  | .later => true

/-- `Send`, with its result in the history. -/
def State.send (s : State) (data : Bytes) : State :=
  let r := Batched.send s.queue data
  { s with queue := r.1, calls := s.calls ++ [(data, r.2)] }

/-- A step of the flush loop of a running layer; a message it sends is put on the wire. -/
def State.flush (z : Zstd) (cfg : Config) (inner : InnerSend) (timer : Bool) (s : State) :
    Option State :=
  if s.pc = .inSend ∧ s.sendReturns inner = false then none
  else
    match flushStep z cfg true timer s.queue s.pc with
    | some (pc, queue, some m) =>
      some { s with pc, queue, wire := s.wire ++ [m], emitted := s.emitted ++ [s.pc.batch] }
    | some (pc, queue, none) => some { s with pc, queue }
    | none => none

/-- The callback `Receive` registers: a message that does not decode is dropped. -/
def State.receive (z : Zstd) (s : State) : Option State :=
  match s.handing, s.wire with
  | [], m :: wire =>
    match decodeBatch z m with
    | .ok pkts => some { s with wire, handing := pkts }
    | .error _ => some { s with wire }
  | _, _ => none

/-- One call of the user callback. -/
def State.hand (s : State) : Option State :=
  match s.handing with
  | p :: handing => some { s with handing, delivered := s.delivered ++ [p] }
  | [] => none

/-- A started layer over an inner transport, with a peer running the same layer. -/
def system (z : Zstd) (cfg : Config) (inner : InnerSend) : EventSystem State Event where
  init := {}
  step s e :=
    match e with
    | .send data => some (s.send data)
    | .flush timer => s.flush z cfg inner timer
    | .receive => s.receive z
    | .hand => s.hand

end OpenFlux.Transport.Batched
