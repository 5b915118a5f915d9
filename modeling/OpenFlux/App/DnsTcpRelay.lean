import OpenFlux.Tunnel.Relay

/-!
# The relay for DNS over TCP (`service/DnsTcpRelay.kt`)

`serve`, from the point where it has a connection to a resolver: `pump` runs in a thread of the pool
for what the client sends, and in the thread of `serve` for what the resolver (the target) sends.  A
read or a write may fail at any time, be it for the idle timeout, and so may the wait for the other
thread.
-/

namespace OpenFlux.App.DnsTcpRelay

open OpenFlux.Tunnel (Side)

/-- `DEFAULT_BUFFER_SIZE`, the buffer of `copyTo`. -/
def bufferSize : ℕ := 8 * 1024

/-- Where a call of `pump` is. -/
inductive Phase
  | copying
  -- in the `finally`
  | ending
  | done
  deriving DecidableEq

/-- A call of `pump`, and what its side sends, on its way. -/
structure Pump where
  -- history: all that was sent
  sent : Bytes := []
  -- the side has ended its direction
  ended : Bool := false
  inbox : Bytes := []
  -- read but not yet written
  buf : Bytes := []
  written : Bytes := []
  phase : Phase := .copying
  -- history: `read` has returned the end of the stream
  sawEnd : Bool := false
  deriving DecidableEq

/-- Where `serve` is. -/
inductive Serve
  | pumping
  -- in `toUpstream.get`
  | waiting
  -- `use` closes the sockets
  | closing (sockets : List Side)
  deriving DecidableEq

structure State where
  pump : Side → Pump := fun _ => {}
  -- `shutdownOutput` has been called on the socket of the side
  shut : Side → Bool := fun _ => false
  closed : Side → Bool := fun _ => false
  serve : Serve := .pumping

def State.setPump (s : State) (x : Side) (p : Pump) : State :=
  { s with pump := Function.update s.pump x p }

inductive Event
  | send (x : Side) (b : Bytes)
  | finish (x : Side)
  | read (x : Side) (n : ℕ)
  | readEnd (x : Side)
  | readFails (x : Side)
  | write (x : Side) (n : ℕ)
  | writeFails (x : Side)
  | shutdown (x : Side)
  -- `serve` after its own `pump`
  | await
  | got
  | getFails
  | close

/-- The pump is at a `read`, or at a `write`. -/
def reading (p : Pump) : Bool := p.phase = .copying ∧ p.buf = []

def writing (p : Pump) : Bool := p.phase = .copying ∧ p.buf ≠ []

def step (s : State) : Event → Option State
  | .send x b =>
    let p := s.pump x
    if p.ended then none
    else some (s.setPump x { p with sent := p.sent ++ b, inbox := p.inbox ++ b })
  | .finish x =>
    let p := s.pump x
    if p.ended then none else some (s.setPump x { p with ended := true })
  | .read x n =>
    let p := s.pump x
    if reading p ∧ ¬ s.closed x ∧ 0 < n ∧ n ≤ p.inbox.length ∧ n ≤ bufferSize then
      some (s.setPump x { p with buf := p.inbox.take n, inbox := p.inbox.drop n })
    else none
  | .readEnd x =>
    let p := s.pump x
    if reading p ∧ ¬ s.closed x ∧ p.inbox = [] ∧ p.ended then
      some (s.setPump x { p with phase := .ending, sawEnd := true })
    else none
  | .readFails x =>
    let p := s.pump x
    if reading p then some (s.setPump x { p with phase := .ending }) else none
  | .write x n =>
    let p := s.pump x
    if writing p ∧ ¬ s.closed x.other ∧ 0 < n ∧ n ≤ p.buf.length then
      some (s.setPump x { p with written := p.written ++ p.buf.take n, buf := p.buf.drop n })
    else none
  | .writeFails x =>
    let p := s.pump x
    if writing p then some (s.setPump x { p with phase := .ending }) else none
  | .shutdown x =>
    let p := s.pump x
    if p.phase = .ending then
      some { s.setPump x { p with phase := .done } with
        shut := Function.update s.shut x.other true }
    else none
  | .await =>
    if s.serve = .pumping ∧ (s.pump .target).phase = .done then some { s with serve := .waiting }
    else none
  | .got =>
    if s.serve = .waiting ∧ (s.pump .client).phase = .done then
      some { s with serve := .closing [.target, .client] }
    else none
  | .getFails =>
    if s.serve = .waiting then some { s with serve := .closing [.target, .client] } else none
  | .close =>
    match s.serve with
    | .closing (x :: xs) =>
      some { s with serve := .closing xs, closed := Function.update s.closed x true }
    | .closing [] | .pumping | .waiting => none

/-- `serve` with both connections open. -/
def system : EventSystem State Event where
  init := {}
  step := step

/-- Nothing fails or times out. -/
def Event.orderly : Event → Prop
  | .readFails _ | .writeFails _ | .getFails => False
  | _ => True

end OpenFlux.App.DnsTcpRelay
