import OpenFlux.Algorithm.Threads
import OpenFlux.Transport.DocsSession

/-!
# Starting and stopping the document transports

The goroutines of `Transport.DocsSession` (`transport/yandex/yandex.go`,
`transport/mailru/mailru.go`) at a finer grain, each taking one step from one shared access to the
next, and the calls of `Start` and `Stop`.  A session is told from another by its web socket, and of
each web socket the state says whether it has been closed.

`Start` and `Stop` are called one after the other.  `Start` is one step: a goroutine it starts may
wait as long as it likes before its own first step.  So is the publication of a session, under the
lock, together with the `go` behind it.  `Stop` of the Mail.ru transport is that of `BaseTransport`;
the Yandex transport goes on to take the session away and to close its web socket.
-/

namespace OpenFlux.Transport.Docs

/-- `DefaultConfig`. -/
def SessionConfig.default : SessionConfig where
  maxReconnectAttempts := 999999
  maxQueueSize := 1024

/-- A `DocSession`, with its web socket, a number among those dialed. -/
structure DocSession extends Session where
  conn : ℕ
  deriving DecidableEq

/-- A goroutine of `connectToDoc`, with its `attempt` and its `existingSession`. -/
inductive Connector
  -- at `existingSession := t.session`
  | start (attempt : ℤ)
  -- in `fetchDocInfo`
  | fetching (attempt : ℤ) (existing : Option DocSession)
  -- in `Dial`
  | dialing (attempt : ℤ) (existing : Option DocSession)
  -- at `t.session = session`
  | dialed (attempt : ℤ) (existing : Option DocSession) (conn : ℕ)
  -- at the two messages of the authorization
  | authorizing (attempt : ℤ) (conn : ℕ)
  -- at `for t.IsRunning()`
  | looping (attempt : ℤ) (conn : ℕ)
  -- in `ReadMessage`
  | reading (attempt : ℤ) (conn : ℕ)
  -- at `t.SetConnected(false)`, when the read has failed `late` or not
  | broken (attempt : ℤ) (late : Bool) (conn : ℕ)
  -- at `conn.Close()`
  | closing (attempt : ℤ) (late : Bool) (conn : ℕ)
  -- at the check of `scheduleReconnect`
  | retrying (attempt : ℤ)
  -- asleep in `scheduleReconnect`
  | sleeping (next : ℤ)
  -- at the check of `connectToDoc`
  | connecting (next : ℤ)
  deriving DecidableEq

/-- A goroutine of `writerLoop`. -/
inductive Writer
  -- at `for t.IsRunning() && queue == nil`
  | waiting
  -- at `queue = t.session.WriteQueue`
  | looking
  -- at `for t.IsRunning()`
  | looping (queue : ℕ) (pending : Option Bytes)
  -- at `<-queue`
  | receiving (queue : ℕ)
  -- at `session := t.session`
  | loading (queue : ℕ) (pending : Bytes)
  -- in `session.safeWrite`
  | sending (queue : ℕ) (pending : Bytes) (conn : ℕ)
  deriving DecidableEq

/-- A goroutine of `keepAliveLoop`. -/
inductive KeepAlive
  -- at `for t.IsRunning()`
  | looping
  -- at `<-ticker.C` and `session := t.session`
  | ticking
  -- in `session.safeWrite`
  | writing (session : DocSession)
  -- at `t.SetConnected(false)`
  | failed (session : DocSession)
  deriving DecidableEq

/-- Where the call of `Stop` stands. -/
inductive StopPc
  -- at `b.running.Store(0)`
  | running
  -- at `b.connected.Store(0)`
  | connected
  -- at `t.session = nil`
  | session
  -- at `session.Conn.Close()`
  | close (conn : ℕ)
  deriving DecidableEq

/-- A transport with its goroutines and the calls of its methods. -/
structure Threads where
  running : Bool := false
  connected : Bool := false
  session : Option DocSession := none
  -- of each web socket dialed, whether it has been closed
  sockets : List Bool := []
  channels : List (List Bytes) := []
  connectors : List Connector := []
  writers : List Writer := []
  keepAlives : List KeepAlive := []
  sends : List SendPc := []
  stop : Option StopPc := none
  -- history: the packets for which `Send` returned nil, and those written to web sockets
  accepted : List Bytes := []
  written : List Bytes := []
  -- history: the web sockets on which a read or a keep-alive message has failed
  failed : List ℕ := []

namespace Threads

inductive Event
  | start
  -- `Stop` is called, and takes a step
  | callStop
  | stop
  -- `Send` is called, and the `i`th call takes a step
  | call (data : Bytes)
  | send (i : ℕ)
  -- the `i`th goroutine of its kind takes a step
  | connect (i : ℕ) (outcome : Outcome)
  | write (i : ℕ) (outcome : Outcome)
  | keepAlive (i : ℕ) (outcome : Outcome)
  deriving DecidableEq

/-- `Start`. -/
def start (s : Threads) : Threads :=
  { s with
    running := true
    keepAlives := s.keepAlives ++ [.looping]
    connectors := s.connectors ++ [.start 0] }

/-- One step of `Stop`. -/
def stepStop (p : Provider) (s : Threads) : Option Threads :=
  match s.stop with
  | some .running => some { s with running := false, stop := some .connected }
  | some .connected =>
    some { s with connected := false, stop := if p = .yandex then some .session else none }
  | some .session =>
    some { s with session := none, stop := s.session.map fun session => .close session.conn }
  | some (.close conn) => some { s with sockets := s.sockets.set conn true, stop := none }
  | none => none

/-- The check of `IsConnected` in `Send`. -/
def call (s : Threads) (data : Bytes) : Threads × Except String Unit :=
  if s.connected then ({ s with sends := s.sends ++ [.checked data] }, .ok ())
  else (s, .error "transport not connected")

/-- The rest of `Send`. -/
def stepSend (cfg : SessionConfig) (s : Threads) (i : ℕ) : Option Threads :=
  match s.sends[i]? with
  | some (.checked data) =>
    match s.session with
    | some session => some { s with sends := s.sends.set i (.loaded data session.toSession) }
    | none => some { s with sends := s.sends.eraseIdx i }
  | some (.loaded data session) =>
    match s.channels[session.writeQueue]? with
    | some queue =>
      if queue.length < cfg.maxQueueSize then
        some { s with
          sends := s.sends.eraseIdx i
          channels := s.channels.set session.writeQueue (queue ++ [data])
          accepted := s.accepted ++ [data] }
      else some { s with sends := s.sends.eraseIdx i }
    | none => none
  | none => none

/-- The new session of a connecting goroutine, with the writer started after the first. -/
def publish (s : Threads) (existing : Option DocSession) (conn : ℕ) : Threads :=
  match existing with
  | some existing =>
    { s with session := some { writeQueue := existing.writeQueue, conn }, connected := true }
  | none =>
    { s with
      session := some { writeQueue := s.channels.length, conn }
      channels := s.channels ++ [[]]
      connected := true
      writers := s.writers ++ [.waiting] }

/-- A step of `connectToDoc` or `scheduleReconnect`: the rest of the transport after it, and where
the goroutine or its successor stands, if there is one. -/
def connect (cfg : SessionConfig) (s : Threads) (outcome : Outcome) :
    Connector → Threads × Option Connector
  | .start attempt => (s, some (.fetching attempt s.session))
  | .fetching attempt existing =>
    match outcome with
    | .ok => (s, some (.dialing attempt existing))
    | .failed _ => (s, some (.retrying attempt))
  | .dialing attempt existing =>
    match outcome with
    | .ok => ({ s with sockets := s.sockets ++ [false] },
        some (.dialed attempt existing s.sockets.length))
    | .failed _ => (s, some (.retrying attempt))
  | .dialed attempt existing conn => (s.publish existing conn, some (.authorizing attempt conn))
  | .authorizing attempt conn => (s, some (.looping attempt conn))
  | .looping attempt conn => (s, if s.running then some (.reading attempt conn) else none)
  | .reading attempt conn =>
    match outcome with
    | .ok => (s, some (.looping attempt conn))
    | .failed late => ({ s with failed := conn :: s.failed }, some (.broken attempt late conn))
  | .broken attempt late conn => ({ s with connected := false }, some (.closing attempt late conn))
  | .closing attempt late conn =>
    ({ s with sockets := s.sockets.set conn true },
      some (.retrying (if late then -1 else attempt)))
  | .retrying attempt =>
    (s, if s.running ∧ attempt + 1 < cfg.maxReconnectAttempts then some (.sleeping (attempt + 1))
      else none)
  | .sleeping next => (s, if s.running then some (.connecting next) else none)
  | .connecting next => (s, if s.running then some (.start next) else none)

/-- A step of `writerLoop`, `none` while it waits for a packet. -/
def write (s : Threads) (outcome : Outcome) : Writer → Option (Threads × Option Writer)
  | .waiting => some (s, if s.running then some .looking else none)
  | .looking =>
    match s.session with
    | some session => some (s, some (.looping session.writeQueue none))
    | none => some (s, some .waiting)
  | .looping queue pending =>
    if s.running then
      match pending with
      | some pending => some (s, some (.loading queue pending))
      | none => some (s, some (.receiving queue))
    else some (s, none)
  | .receiving queue =>
    match s.channels[queue]? with
    | some (packet :: rest) =>
      some ({ s with channels := s.channels.set queue rest }, some (.loading queue packet))
    | _ => none
  | .loading queue pending =>
    match s.session with
    | some session => some (s, some (.sending queue pending session.conn))
    | none => some (s, some (.looping queue (some pending)))
  | .sending queue pending _ =>
    match outcome with
    | .ok => some ({ s with written := s.written ++ [pending] }, some (.looping queue none))
    | .failed _ => some (s, some (.looping queue (some pending)))

/-- A step of `keepAliveLoop`. -/
def keepAlive (s : Threads) (outcome : Outcome) : KeepAlive → Threads × Option KeepAlive
  | .looping => (s, if s.running then some .ticking else none)
  | .ticking =>
    match s.session with
    | some session => (s, some (.writing session))
    | none => (s, some .looping)
  | .writing session =>
    match outcome with
    | .ok => (s, some .looping)
    | .failed _ => ({ s with failed := session.conn :: s.failed }, some (.failed session))
  | .failed _ => ({ s with connected := false }, some .looping)

end Threads

/-- A new transport under calls of its methods. -/
def threads (p : Provider) (cfg : SessionConfig) : EventSystem Threads Threads.Event where
  init := {}
  step s e :=
    match e with
    | .start => if s.stop = none then some s.start else none
    | .callStop => if s.stop = none then some { s with stop := some .running } else none
    | .stop => s.stepStop p
    | .call data => some (s.call data).1
    | .send i => s.stepSend cfg i
    | .connect i outcome => (s.connectors[i]?).map fun c =>
        let r := s.connect cfg outcome c
        { r.1 with connectors := place s.connectors i r.2 }
    | .write i outcome => (s.writers[i]?).bind fun w => (s.write outcome w).map fun r =>
        { r.1 with writers := place s.writers i r.2 }
    | .keepAlive i outcome => (s.keepAlives[i]?).map fun k =>
        let r := s.keepAlive outcome k
        { r.1 with keepAlives := place s.keepAlives i r.2 }

end OpenFlux.Transport.Docs
