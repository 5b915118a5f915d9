import OpenFlux.Algorithm.EventSystem
import OpenFlux.Transport.Oneme.CallHandler

/-!
# The receiver of MAX calls (`transport/oneme/max_call.go`)

What `startIncomingListener` sets up: one handler for all calls.  For each incoming call whose
websocket can be dialled the event callback makes the connection the handler's current one and
starts a goroutine that sleeps for a second and then accepts the call.  The call and its goroutine
have the number of the connection.

The goroutine takes a step at each access to the handler, in between which other goroutines run.
Those that do not matter here, the message handlers and `Send`, may change any field of the handler
but `conn` and `acceptSent`.
-/

namespace OpenFlux.Transport.Oneme

variable {F PC DC : Type}

/-- Where the accept goroutine of a call stands. -/
inductive AcceptPc
  -- in `time.Sleep`, before `!h.acceptSent`
  | sleeping
  -- in `sendAcceptCall`, at `h.acceptSent`
  | entering
  -- at `h.acceptSent = true`
  | setting
  -- at `h.mu.Lock()`
  | writing
  | done
  deriving DecidableEq

/-- The accept goroutine of a call. -/
structure Call where
  pc : AcceptPc := .sleeping
  -- history: the call's connection was the current one when the goroutine woke up
  due : Bool := false
  deriving DecidableEq

/-- The receiver, with the calls whose connection was dialled. -/
structure Receiver (F PC DC : Type) where
  h : CallHandler F PC DC := {}
  calls : List Call := []
  -- history: the accept-call commands, with the connection on which each was written
  accepts : List (ℕ × Bytes) := []

namespace Receiver

inductive Event (F PC DC : Type)
  -- the client passes on a packet; if it is a call, what `decodeCallDetails` returns, and whether
  -- the websocket can be dialled
  | packet (opcode : ℤ) (callDetails : Except Bytes Bytes) (dialled : Bool)
  -- `readLoop` of a connection ends
  | disconnect (conn : ℕ)
  -- the accept goroutine of a call takes a step
  | accept (conn : ℕ)
  -- something else happens to the handler
  | other (h : CallHandler F PC DC)

/-- The callback of `SetEventCallback`. -/
def onEvent (s : Receiver F PC DC) (opcode : ℤ) (callDetails : Except Bytes Bytes)
    (dialled : Bool) : Receiver F PC DC :=
  if opcode = 137 then
    match callDetails with
    | .error _ => s
    | .ok _ =>
      if dialled then
        { s with h := { s.h with conn := some s.calls.length }, calls := s.calls ++ [{}] }
      else s
  else s

/-- A step of the accept goroutine of the call `c`. -/
def accept (s : Receiver F PC DC) (c : ℕ) : Option (Receiver F PC DC) :=
  match s.calls[c]? with
  | none => none
  | some call =>
    match call.pc with
    | .sleeping => some { s with
        calls := s.calls.set c
          ⟨if s.h.acceptSent then .done else .entering, s.h.conn = some c⟩ }
    | .entering => some { s with
        calls := s.calls.set c { call with pc := if s.h.acceptSent then .done else .setting } }
    | .setting => some { s with
        h := { s.h with acceptSent := true }
        calls := s.calls.set c { call with pc := .writing } }
    | .writing =>
      let (h, written) := s.h.writeAccept
      some { h
             calls := s.calls.set c { call with pc := .done }
             accepts := s.accepts ++ written.toList }
    | .done => none

end Receiver

/-- The receiver under packets, disconnects and goroutines in any order. -/
def receiver (F PC DC : Type) : EventSystem (Receiver F PC DC) (Receiver.Event F PC DC) where
  init := {}
  step s e :=
    match e with
    | .packet opcode callDetails dialled => some (s.onEvent opcode callDetails dialled)
    -- `signalReconnect` sends on a nil channel, with a default
    | .disconnect _ => some s
    | .accept c => s.accept c
    | .other h =>
      if h.conn = s.h.conn ∧ h.acceptSent = s.h.acceptSent then some { s with h } else none

end OpenFlux.Transport.Oneme
