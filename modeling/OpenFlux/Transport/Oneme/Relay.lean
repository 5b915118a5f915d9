import OpenFlux.Algorithm.EventSystem
import OpenFlux.Transport.Oneme.CallHandler

/-!
# Payloads between MAX peers (`transport/oneme/max_call.go`)

What one peer passes to `Send` on a connection, up to the other peer's `dcInbound`.  The signalling
provider passes the commands on in order: the text of the `n`th notification is `notify n` of the
command.  `readLoop` of the other peer reads the notifications one after another and starts a
goroutine for each, and any of these may be the next to run.

A handler of such a notification does one thing that others see, the call of `dcInbound`, so it runs
in one step.  Other messages and goroutines may change the handlers of both peers, but for the
connection of the first and for `dcInbound` of the second, which stays set.
-/

namespace OpenFlux.Transport.Oneme

variable {F PC DC : Type}

/-- The peer that sends, the peer that receives, and what is under way between them. -/
structure Relay (F PC DC : Type) where
  sender : CallHandler F PC DC
  receiver : CallHandler F PC DC
  -- the commands that are not yet passed on, each with its payload
  wire : List (Bytes × Bytes) := []
  -- how many have been
  passed : ℕ := 0
  -- the goroutines that have not yet run, with the payload and what they are given
  pending : List (Bytes × GoMap F) := []
  panicked : Bool := false
  -- history: what was passed to `Send`, and what `dcInbound` was called with
  sent : List Bytes := []
  inbound : List Bytes := []

namespace Relay

inductive Event (F PC DC : Type) (role : Role)
  | send (payload : Bytes)
  -- `readLoop` reads the next notification
  | read
  -- the `i`th of the goroutines runs
  | handle (i : ℕ) (pauses : Pauses F PC DC role)
  -- something else happens to the handlers
  | other (sender receiver : CallHandler F PC DC)

variable {role : Role}

/-- A call of `Send`. -/
def send (s : Relay F PC DC) (payload : Bytes) : Relay F PC DC :=
  match s.sender.send payload with
  | (sender, some (.text _ text)) =>
    { s with sender, wire := s.wire ++ [(payload, text)], sent := s.sent ++ [payload] }
  | (sender, _) => { s with sender, sent := s.sent ++ [payload] }

variable (lib : Library F PC DC) (unmarshal : Bytes → Option (GoMap F)) (notify : ℕ → Bytes → Bytes)

/-- The next notification comes. -/
def read (s : Relay F PC DC) : Option (Relay F PC DC) :=
  match s.wire with
  | [] => none
  | (payload, command) :: wire =>
    match s.receiver.readMessage lib unmarshal (notify s.passed command) with
    | (receiver, .go data) => some { s with
        receiver
        wire
        passed := s.passed + 1
        pending := s.pending ++ [(payload, data)] }
    | (receiver, _) => some { s with receiver, wire, passed := s.passed + 1 }

/-- A goroutine runs. -/
def handle (s : Relay F PC DC) (i : ℕ) (pauses : Pauses F PC DC role) :
    Option (Relay F PC DC) :=
  match s.pending[i]? with
  | none => none
  | some (_, data) =>
    match s.receiver.msgHandler lib role pauses data with
    | none => some { s with panicked := true }
    | some (receiver, out) => some { s with
        receiver
        pending := s.pending.eraseIdx i
        inbound := s.inbound ++ out.toList }

end Relay

/-- The peers under calls, notifications and goroutines in any order; the first has the connection
`conn`. -/
def relay (lib : Library F PC DC) (unmarshal : Bytes → Option (GoMap F))
    (notify : ℕ → Bytes → Bytes) (role : Role) (sender receiver : CallHandler F PC DC) (conn : ℕ) :
    EventSystem (Relay F PC DC) (Relay.Event F PC DC role) where
  init := {
    sender := { sender with conn := some conn }
    receiver := { receiver with dcInbound := true } }
  step s e :=
    match e with
    | .send payload => some (s.send payload)
    | .read => s.read lib unmarshal notify
    | .handle i pauses => s.handle lib i pauses
    | .other sender receiver =>
      if sender.conn = s.sender.conn ∧ receiver.dcInbound = s.receiver.dcInbound then
        some { s with sender, receiver }
      else none

end OpenFlux.Transport.Oneme
