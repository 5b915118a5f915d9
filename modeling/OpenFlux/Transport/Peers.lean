import Mathlib.Logic.Function.Basic
import OpenFlux.Algorithm.EventSystem
import OpenFlux.Transport.Encrypted

/-!
# Two encrypted peers over a hostile network

A client and an exit with an `EncryptedTransport` each.  The network between them is the
adversary: whatever bytes it likes arrive at either peer, in any order and any number of times, so
dropping, copying, delaying, reordering and reflecting packets and making them up are all sequences
of `arrive` events.
-/

namespace OpenFlux.Transport.Encrypted

/-- The two peers, by the `exitNode` flag they were built with. -/
inductive Role
  | client
  | exit
  deriving DecidableEq

/-- The `exitNode` flag of a role. -/
def Role.exitNode : Role → Bool
  | .client => false
  | .exit => true

/-- The peer's role. -/
def Role.other : Role → Role
  | .client => .exit
  | .exit => .client

/-- A `Send` call that passed a packet on. -/
structure SendCall where
  nonce : Nonce
  plaintext : Bytes
  packet : Bytes

/-- A peer, with the history of the run. -/
structure Peer where
  enc : EncryptedTransport
  -- history: the `Send` calls
  sent : List SendCall := []
  -- history: the packets handed to the user callback, with the plaintext
  delivered : List (Bytes × Bytes) := []

/-- Both peers. -/
abbrev Net := Role → Peer

/-- The calls of `Seal` a peer made. -/
def Peer.sealCalls (p : Peer) : List SealCall :=
  p.sent.map fun call => p.enc.sealCall call.nonce call.plaintext

/-- A `Send` call, with what `rand.Read` did, and bytes arriving at a peer. -/
inductive NetEvent
  | send (r : Role) (rand : Except String Nonce) (data : Bytes)
  | arrive (r : Role) (packet : Bytes)

/-- `Send` at a peer.  A call whose `rand.Read` fails passes nothing on. -/
def Peer.send (c : Crypto) (p : Peer) (rand : Except String Nonce) (data : Bytes) : Peer :=
  match rand, p.enc.send c rand data with
  | .ok nonce, .ok packet => { p with sent := p.sent ++ [⟨nonce, data, packet⟩] }
  | _, _ => p

/-- The `Receive` callback of a peer. -/
def Peer.receive (c : Crypto) (p : Peer) (packet : Bytes) : Peer :=
  let r := p.enc.receive c packet
  { p with enc := r.1, delivered := p.delivered ++ (r.2.map fun data => (packet, data)).toList }

/-- The two peers built as `enc` says. -/
def network (c : Crypto) (enc : Role → EncryptedTransport) : EventSystem Net NetEvent where
  init r := { enc := enc r }
  step net
    | .send r rand data => some (Function.update net r ((net r).send c rand data))
    | .arrive r packet => some (Function.update net r ((net r).receive c packet))

/-- **Ideal AEAD** on a step: what opens at a peer was sealed by one of the two before. -/
def NoForgery (c : Crypto) (net : Net) : NetEvent → Prop
  | .send _ _ _ => True
  | .arrive r packet =>
    c.Unforged ((net .client).sealCalls ++ (net .exit).sealCalls) (net r).enc packet

end OpenFlux.Transport.Encrypted
