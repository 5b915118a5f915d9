import Mathlib.Logic.Function.Basic
import OpenFlux.Algorithm.EventSystem
import OpenFlux.Go.Bytes

/-!
# The stream relays (`socks5/socks5.go`, `tunnel/tunnel.go`, `tunnel/packettunnel.go`)

Two copy loops between a client and a target.  The loop of a side copies what this side sends to the
other one; when it ends, it closes connections, and which ones is all that the three relays differ
in.  A `Read` returns any part of what has arrived, a `Write` may be cut off by a `Close`, and
nothing but a `Close` makes a connection fail.
-/

namespace OpenFlux.Tunnel

inductive Side
  | client
  | target
  deriving DecidableEq

def Side.other : Side → Side
  | .client => .target
  | .target => .client

/-- `SOCKS5Server.handleConnection`, `TCPTunnel.handleExitTCP`, `PacketTunnel.handleTCP`. -/
inductive Relay
  | socks5
  | exitTCP
  | packetTCP

/-- What the loop of a side closes when it ends, in turn. -/
def Relay.closes (x : Side) : Relay → List Side
  | .socks5 => [x.other]
  | .exitTCP => [x.other, x]
  | .packetTCP => [x.other, x]

inductive Loop
  | copying
  | closing (conns : List Side)
  | done
  deriving DecidableEq

/-- What a side sends, on its way. -/
structure Flow where
  -- history: all that was sent
  sent : Bytes := []
  -- the side has ended its direction
  ended : Bool := false
  inbox : Bytes := []
  -- read but not yet written
  buf : Bytes := []
  written : Bytes := []
  loop : Loop := .copying
  -- history: the loop has read the end of the stream
  sawEnd : Bool := false
  deriving DecidableEq

structure State where
  flow : Side → Flow := fun _ => {}
  closed : Side → Bool := fun _ => false

def State.setFlow (s : State) (x : Side) (f : Flow) : State :=
  { s with flow := Function.update s.flow x f }

inductive Event
  | send (x : Side) (b : Bytes)
  | finish (x : Side)
  | read (x : Side) (n : ℕ)
  | readEnd (x : Side)
  | readFails (x : Side)
  | write (x : Side) (n : ℕ)
  | writeFails (x : Side)
  | close (x : Side)

namespace Relay

variable (relay : Relay)

/-- The loop is at a `Read`, or at a `Write`. -/
def reading (f : Flow) : Bool := f.loop = .copying ∧ f.buf = []

def writing (f : Flow) : Bool := f.loop = .copying ∧ f.buf ≠ []

def step (s : State) : Event → Option State
  | .send x b =>
    let f := s.flow x
    if f.ended then none
    else some (s.setFlow x { f with sent := f.sent ++ b, inbox := f.inbox ++ b })
  | .finish x =>
    let f := s.flow x
    if f.ended then none else some (s.setFlow x { f with ended := true })
  | .read x n =>
    let f := s.flow x
    if reading f ∧ ¬ s.closed x ∧ 0 < n ∧ n ≤ f.inbox.length then
      some (s.setFlow x { f with buf := f.inbox.take n, inbox := f.inbox.drop n })
    else none
  | .readEnd x =>
    let f := s.flow x
    if reading f ∧ ¬ s.closed x ∧ f.inbox = [] ∧ f.ended then
      some (s.setFlow x { f with loop := .closing (relay.closes x), sawEnd := true })
    else none
  | .readFails x =>
    let f := s.flow x
    if reading f ∧ s.closed x then
      some (s.setFlow x { f with loop := .closing (relay.closes x) })
    else none
  | .write x n =>
    let f := s.flow x
    if writing f ∧ ¬ s.closed x.other ∧ 0 < n ∧ n ≤ f.buf.length then
      some (s.setFlow x { f with written := f.written ++ f.buf.take n, buf := f.buf.drop n })
    else none
  | .writeFails x =>
    let f := s.flow x
    if writing f ∧ s.closed x.other then
      some (s.setFlow x { f with loop := .closing (relay.closes x) })
    else none
  | .close x =>
    let f := s.flow x
    match f.loop with
    | .closing (y :: ys) =>
      let s := s.setFlow x { f with loop := .closing ys }
      some { s with closed := Function.update s.closed y true }
    | .closing [] => some (s.setFlow x { f with loop := .done })
    | .copying | .done => none

/-- A relay that has just started. -/
def system : EventSystem State Event where
  init := {}
  step := relay.step

end Relay

end OpenFlux.Tunnel
