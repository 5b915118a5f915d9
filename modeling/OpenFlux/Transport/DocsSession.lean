import OpenFlux.Algorithm.EventSystem
import OpenFlux.Transport.Mailru
import OpenFlux.Transport.Yandex

/-!
# Sessions of the document transports (`transport/yandex/yandex.go`, `transport/mailru/mailru.go`)

The Yandex Documents and the Mail.ru transport connect, reconnect and write alike.  The goroutines
of a running transport share the field `session`, the flag `connected` and the write queue of the
session:

* `connectToDoc` starts a goroutine that fetches the document's info, dials, publishes a session and
  reads messages until the connection breaks; then, and whenever it fails, it sleeps and starts the
  next one.
* `writerLoop` is started with the first session.  It takes the write queue of the session it sees
  first and holds a packet until the web socket of some session has taken it.
* `keepAliveLoop` marks the transport as not connected when its message cannot be written.
* `Send` checks the flag, reads the session and puts the packet on its queue, three steps between
  which the others may come.

The state has lists of these goroutines, so that there is one queue and one writer is a result and
not part of the model.  A goroutine starts its successors in the step in which it publishes or
leaves.  A packet is a byte string: the codecs pass no nil slice to `Send`, so `pending == nil` says
that no packet is held.
-/

namespace OpenFlux.Transport.Docs

/-- The two transports.  They differ in what they make of the messages they read. -/
inductive Provider
  | yandex
  | mailru
  deriving DecidableEq

/-- The `handleMessage` of a transport. -/
def Provider.handleMessage : Provider → Bytes → Handled
  | .yandex => Yandex.handleMessage
  | .mailru => Mailru.handleMessage

/-- The fields of `TransportConfig` that decide what happens. -/
structure SessionConfig where
  maxReconnectAttempts : ℤ
  maxQueueSize : ℕ

/-- What tells a `DocSession` from another: its write queue, a number among the channels made. -/
structure Session where
  writeQueue : ℕ
  deriving DecidableEq

/-- A goroutine of `connectToDoc`, with its `attempt` and its `existingSession`. -/
inductive ConnPc
  | start (attempt : ℤ)
  -- in `fetchDocInfo`
  | fetching (attempt : ℤ) (existing : Option Session)
  -- in `Dial`
  | dialing (attempt : ℤ) (existing : Option Session)
  -- in the loop around `ReadMessage`
  | reading (attempt : ℤ)
  -- asleep in `scheduleReconnect`
  | sleeping (next : ℤ)
  deriving DecidableEq

/-- A goroutine of `writerLoop`. -/
inductive WriterPc
  -- in the loop that waits for a session
  | waiting
  -- without a packet
  | receiving (queue : ℕ)
  -- with a packet to write
  | holding (queue : ℕ) (pending : Bytes)
  deriving DecidableEq

/-- A call of `Send`. -/
inductive SendPc
  -- `IsConnected` was true
  | checked (data : Bytes)
  -- the session was read
  | loaded (data : Bytes) (session : Session)
  deriving DecidableEq

/-- A started transport. -/
structure State where
  connected : Bool := false
  session : Option Session := none
  channels : List (List Bytes) := []
  connectors : List ConnPc := [.start 0]
  writers : List WriterPc := []
  sends : List SendPc := []
  -- history: the packets for which `Send` returned nil
  accepted : List Bytes := []
  -- history: the packets written to web sockets
  written : List Bytes := []

/-- How a call of the network ends; a failed read comes `late` more than 15 seconds after the
connection was made. -/
inductive Outcome
  | ok
  | failed (late : Bool)
  deriving DecidableEq

inductive Event
  -- `Send` is called
  | call (data : Bytes)
  -- a step of the `i`th call of `Send`
  | send (i : ℕ)
  -- a step of the `i`th connecting goroutine
  | connect (i : ℕ) (outcome : Outcome)
  -- a step of the `i`th writer
  | write (i : ℕ) (outcome : Outcome)
  | keepAlive (outcome : Outcome)
  deriving DecidableEq

namespace State

/-- The check of `IsConnected` in `Send`. -/
def call (s : State) (data : Bytes) : State :=
  if s.connected then { s with sends := s.sends ++ [.checked data] } else s

/-- The rest of `Send`: it reads the session, and then puts the packet on the queue if there is
room. -/
def stepSend (cfg : SessionConfig) (s : State) (i : ℕ) : Option State :=
  match s.sends[i]? with
  | some (.checked data) =>
    match s.session with
    | some session => some { s with sends := s.sends.set i (.loaded data session) }
    | none => some { s with sends := s.sends.eraseIdx i }
  | some (.loaded data session) =>
    match s.channels[session.writeQueue]? with
    | some queue =>
      if queue.length < cfg.maxQueueSize then
        some { s with
          sends := s.sends.eraseIdx i
          channels := s.channels.set session.writeQueue (queue ++ [data])
          accepted := s.accepted ++ [data] }
      else some { s with sends := s.sends.eraseIdx i }
    | none => none
  | none => none

/-- `Send` as one step, when nothing comes between. -/
def sendNow (cfg : SessionConfig) (s : State) (data : Bytes) : State × Except String Unit :=
  if s.connected then
    match s.session with
    | none => (s, .error "no active session")
    | some session =>
      match s.channels[session.writeQueue]? with
      | some queue =>
        if queue.length < cfg.maxQueueSize then
          ({ s with
              channels := s.channels.set session.writeQueue (queue ++ [data])
              accepted := s.accepted ++ [data] }, .ok ())
        else (s, .error "write queue full")
      | none => (s, .error "write queue full")
  else (s, .error "transport not connected")

/-- `scheduleReconnect` up to its sleep, in the `i`th connecting goroutine. -/
def scheduleReconnect (cfg : SessionConfig) (s : State) (i : ℕ) (attempt : ℤ) : State :=
  if cfg.maxReconnectAttempts ≤ attempt + 1 then { s with connectors := s.connectors.eraseIdx i }
  else { s with connectors := s.connectors.set i (.sleeping (attempt + 1)) }

/-- The new session of the `i`th connecting goroutine, with the writer started after the first. -/
def publish (s : State) (i : ℕ) (attempt : ℤ) (existing : Option Session) : State :=
  match existing with
  | some existing =>
    { s with
      session := some ⟨existing.writeQueue⟩
      connected := true
      connectors := s.connectors.set i (.reading attempt) }
  | none =>
    { s with
      session := some ⟨s.channels.length⟩
      channels := s.channels ++ [[]]
      connected := true
      connectors := s.connectors.set i (.reading attempt)
      writers := s.writers ++ [.waiting] }

/-- `connectToDoc` and `scheduleReconnect`. -/
def stepConnect (cfg : SessionConfig) (s : State) (i : ℕ) (outcome : Outcome) : Option State :=
  match s.connectors[i]?, outcome with
  | some (.start attempt), _ =>
    some { s with connectors := s.connectors.set i (.fetching attempt s.session) }
  | some (.fetching attempt existing), .ok =>
    some { s with connectors := s.connectors.set i (.dialing attempt existing) }
  | some (.fetching attempt _), .failed _ => some (s.scheduleReconnect cfg i attempt)
  | some (.dialing attempt existing), .ok => some (s.publish i attempt existing)
  | some (.dialing attempt _), .failed _ => some (s.scheduleReconnect cfg i attempt)
  | some (.reading _), .ok => some s
  | some (.reading attempt), .failed late =>
    some ({ s with connected := false }.scheduleReconnect cfg i (if late then -1 else attempt))
  | some (.sleeping next), _ =>
    some { s with connectors := s.connectors.eraseIdx i ++ [.start next] }
  | none, _ => none

/-- `writerLoop`.  A failed write keeps the packet. -/
def stepWriter (s : State) (i : ℕ) (outcome : Outcome) : Option State :=
  match s.writers[i]? with
  | some .waiting =>
    match s.session with
    | some session => some { s with writers := s.writers.set i (.receiving session.writeQueue) }
    | none => some s
  | some (.receiving queue) =>
    match s.channels[queue]? with
    | some (packet :: rest) =>
      some { s with
        channels := s.channels.set queue rest
        writers := s.writers.set i (.holding queue packet) }
    | _ => none
  | some (.holding queue pending) =>
    match s.session, outcome with
    | some _, .ok =>
      some { s with
        writers := s.writers.set i (.receiving queue)
        written := s.written ++ [pending] }
    | _, _ => some s
  | none => none

/-- The packet that a step of a writer writes. -/
def writes (s : State) (i : ℕ) (outcome : Outcome) : Option Bytes :=
  match s.writers[i]?, s.session, outcome with
  | some (.holding _ pending), some _, .ok => some pending
  | _, _, _ => none

/-- A tick of `keepAliveLoop`. -/
def stepKeepAlive (s : State) (outcome : Outcome) : State :=
  match s.session, outcome with
  | some _, .failed _ => { s with connected := false }
  | _, _ => s

end State

/-- A running transport. -/
def sessions (cfg : SessionConfig) : EventSystem State Event where
  init := {}
  step s e :=
    match e with
    | .call data => some (s.call data)
    | .send i => s.stepSend cfg i
    | .connect i outcome => s.stepConnect cfg i outcome
    | .write i outcome => s.stepWriter i outcome
    | .keepAlive outcome => some (s.stepKeepAlive outcome)

end OpenFlux.Transport.Docs
