import Mathlib.Logic.Function.Basic
import OpenFlux.Algorithm.EventSystem
import OpenFlux.Go.Bytes

/-!
# Requests and answers of the MAX client (`transport/oneme/max_wclient.go`)

The goroutines that are in `MaxClient.invoke` and the client's `readLoop`, from `Connect` on.  Each
goroutine takes a step at an access to what it shares with others: the map `pending`, the websocket,
a channel, the callback.  The invokes are numbered in the order in which they take a sequence
number, and the packets in the order in which they are read.

The server answers a request with the request's `seq`, at any time after it was stored, any number
of times or never.  In a packet of its own the `seq` is what it chooses.  The counter has no upper
end here: that it is an `int64` would show after 2^63 invokes.
-/

namespace OpenFlux.Transport.Oneme

/-- `RPC_VERSION`. -/
def rpcVersion : ℤ := 11

/-- `MaxPacket`. -/
structure MaxPacket where
  ver : ℤ
  cmd : ℤ
  opcode : ℤ
  seq : ℤ
  payload : Bytes
  deriving DecidableEq

/-- The request that `invoke` writes. -/
structure Request (P : Type) where
  ver : ℤ := rpcVersion
  cmd : ℤ := 0
  seq : ℤ
  opcode : ℤ
  payload : P

/-- How an `invoke` ends; a response is the number of its packet. -/
inductive InvokeResult
  | response (packet : ℕ)
  | writeError
  | timeout
  deriving DecidableEq

/-- Where a goroutine in `invoke` stands. -/
inductive InvokePc
  -- at `c.pending.Store`
  | storing
  -- at `c.conn.WriteMessage`
  | writing
  -- in the `select`
  | waiting
  -- at the deferred `c.pending.Delete`
  | deleting (result : InvokeResult)
  | returned (result : InvokeResult)
  deriving DecidableEq

/-- A goroutine in `invoke`, with the buffer of its channel. -/
structure Invoke (P : Type) where
  request : Request P
  pc : InvokePc := .storing
  ch : Option ℕ := none

/-- Where `readLoop` stands. -/
inductive LoopPc
  -- at `c.conn.ReadMessage`
  | reading
  -- at `c.pending.LoadAndDelete`
  | read (packet : ℕ)
  -- at the send on the channel of an invoke
  | sending (packet invoke : ℕ)
  -- at `c.onEvent != nil`
  | unclaimed (packet : ℕ)
  -- in the callback
  | calling
  | ended
  deriving DecidableEq

/-- Why the server sent a packet: as an answer to the request of an invoke, or on its own. -/
inductive Origin
  | response (invoke : ℕ)
  | own
  deriving DecidableEq

/-- `MaxClient`, with the goroutines that use it. -/
structure Exchange (P : Type) where
  seq : ℤ := 0
  pending : ℤ → Option ℕ := fun _ => none
  -- whether `onEvent` is set
  onEvent : Bool := false
  invokes : List (Invoke P) := []
  loop : LoopPc := .reading
  -- history: the packets that were read, and those that were passed to the callback
  packets : List (Origin × MaxPacket) := []
  events : List ℕ := []

namespace Exchange

variable {P : Type}

/-- A step of a goroutine in `invoke`. -/
inductive Act
  | store
  -- whether `WriteMessage` succeeds
  | write (ok : Bool)
  | receive
  | timeout
  | delete
  deriving DecidableEq

inductive Event (P : Type)
  -- a goroutine enters `invoke` and takes a sequence number
  | invoke (opcode : ℤ) (payload : P)
  | act (invoke : ℕ) (a : Act)
  | setEventCallback
  -- `ReadMessage` returns a packet, a message that does not decode, or an error
  | message (origin : Origin) (packet : MaxPacket)
  | undecodable
  | readError
  -- `readLoop` takes another step
  | loop
  -- the callback returns, or panics
  | callback (panics : Bool)

/-- `invoke` takes a sequence number. -/
def invoke (s : Exchange P) (opcode : ℤ) (payload : P) : Exchange P :=
  { s with
    seq := s.seq + 1
    invokes := s.invokes ++ [{ request := { seq := s.seq + 1, opcode, payload } }] }

/-- A step of the goroutine in the invoke `i`. -/
def act (s : Exchange P) (i : ℕ) (a : Act) : Option (Exchange P) :=
  s.invokes[i]?.bind fun c =>
    match c.pc, a with
    | .storing, .store => some { s with
        pending := Function.update s.pending c.request.seq (some i)
        invokes := s.invokes.set i { c with pc := .writing } }
    | .writing, .write ok => some { s with
        invokes := s.invokes.set i { c with pc := if ok then .waiting else .deleting .writeError } }
    | .waiting, .receive => c.ch.map fun n => { s with
        invokes := s.invokes.set i { c with pc := .deleting (.response n), ch := none } }
    | .waiting, .timeout => some { s with
        invokes := s.invokes.set i { c with pc := .deleting .timeout } }
    | .deleting result, .delete => some { s with
        pending := Function.update s.pending c.request.seq none
        invokes := s.invokes.set i { c with pc := .returned result } }
    | _, _ => none

/-- Whether a packet of that origin can arrive. -/
def arrives (s : Exchange P) (packet : MaxPacket) : Origin → Bool
  | .own => true
  | .response i => s.invokes[i]?.any fun c => c.pc ≠ .storing && packet.seq = c.request.seq

/-- `ReadMessage` in `readLoop` returns a packet. -/
def message (s : Exchange P) (origin : Origin) (packet : MaxPacket) : Option (Exchange P) :=
  if s.loop = .reading ∧ s.arrives packet origin then
    some { s with loop := .read s.packets.length, packets := s.packets ++ [(origin, packet)] }
  else none

/-- Another step of `readLoop`. -/
def readLoop (s : Exchange P) : Option (Exchange P) :=
  match s.loop with
  | .read n => s.packets[n]?.map fun p =>
    match s.pending p.2.seq with
    | some i =>
      { s with pending := Function.update s.pending p.2.seq none, loop := .sending n i }
    | none => { s with loop := .unclaimed n }
  | .sending n i => s.invokes[i]?.bind fun c =>
    -- the channel has a buffer of one
    if c.ch = none then
      some { s with invokes := s.invokes.set i { c with ch := some n }, loop := .reading }
    else none
  | .unclaimed n =>
    if s.onEvent then some { s with loop := .calling, events := s.events ++ [n] }
    else some { s with loop := .reading }
  | _ => none

end Exchange

/-- The client under invokes, packets and time-outs in any order. -/
def exchange (P : Type) : EventSystem (Exchange P) (Exchange.Event P) where
  init := {}
  step s e :=
    match e with
    | .invoke opcode payload => some (s.invoke opcode payload)
    | .act i a => s.act i a
    | .setEventCallback => some { s with onEvent := true }
    | .message origin packet => s.message origin packet
    | .undecodable => if s.loop = .reading then some s else none
    | .readError => if s.loop = .reading then some { s with loop := .ended } else none
    | .loop => s.readLoop
    -- `readLoop` recovers from a panic, and ends
    | .callback panics =>
      if s.loop = .calling then some { s with loop := if panics then .ended else .reading }
      else none

end OpenFlux.Transport.Oneme
