import OpenFlux.Transport.Batched
import OpenFlux.Transport.Encrypted

/-!
# The stack `main` builds (`main.go`, codec and encryption wiring)

With `--encryption-key-file` and the default codec `main` first wraps the raw transport in a
`BatchedTransport` and then wraps that in an `EncryptedTransport`.  The transport that sits on top
is the encrypted one: each packet is sealed by itself, the sealed packets are batched, and the
batches go over the raw transport as they are.  On the way back the batch parser works on the raw
messages and the packets it finds are opened one by one.  (The comment in `main` describes the
other order.)

Two systems are made of such a stack and its peer.  In `system` the raw transport delivers every
message once and in order.  In `tapped` its provider hands the receiving stack whatever messages it
likes.
-/

namespace OpenFlux.Transport.Stack

open Encrypted

/-- A call of the stack's `Send`: what `rand.Read` did, the packet, and the result. -/
structure Call where
  rand : Except String Nonce
  data : Bytes
  result : Except String Unit

/-- One direction of a connection between two stacks. -/
structure State where
  -- the batching layers of both ends, the raw transport between them, and their history
  batched : Batched.State := {}
  -- the peer's encryption layer
  receiver : EncryptedTransport
  -- history: the `Send` calls
  calls : List Call := []
  -- history: the packets handed to the user callback on top of the peer's stack
  delivered : List Bytes := []

/-- The nonces and packets of the calls that reached `Seal`. -/
def sealed (calls : List Call) : List (Nonce × Bytes) :=
  calls.filterMap fun call =>
    match call.rand with
    | .ok nonce => some (nonce, call.data)
    | .error _ => none

/-- The nonces and packets of the calls that returned nil. -/
def acceptedCalls (calls : List Call) : List (Nonce × Bytes) :=
  calls.filterMap fun call =>
    match call.rand, call.result with
    | .ok nonce, .ok _ => some (nonce, call.data)
    | _, _ => none

/-- The packets whose `Send` returned nil, in order. -/
def accepted (calls : List Call) : List Bytes := (acceptedCalls calls).map Prod.snd

/-- `Send` of the stack: `EncryptedTransport.Send` on top of `BatchedTransport.Send`. -/
def State.send (c : Crypto) (sender : EncryptedTransport) (s : State)
    (rand : Except String Nonce) (data : Bytes) : State :=
  match sender.send c rand data with
  | .error err => { s with calls := s.calls ++ [⟨rand, data, .error err⟩] }
  | .ok packet =>
    { s with
      batched := s.batched.send packet
      calls := s.calls ++ [⟨rand, data, (Batched.send s.batched.queue packet).2⟩] }

/-- One packet of the batch the peer is working on: `BatchedTransport` hands it to the callback of
`EncryptedTransport`. -/
def State.hand (c : Crypto) (s : State) : Option State :=
  match s.batched.handing, s.batched.hand with
  | packet :: _, some batched =>
    let r := s.receiver.receive c packet
    some { s with batched, receiver := r.1, delivered := s.delivered ++ r.2.toList }
  | _, _ => none

/-- A `Send`, with what `rand.Read` did, and the steps of the batching layers. -/
inductive Event
  | send (rand : Except String Nonce) (data : Bytes)
  | flush (timer : Bool)
  | receive
  | hand

/-- A stack and its peer over a raw transport that delivers every message once and in order. -/
def system (z : Zstd) (c : Crypto) (cfg : Batched.Config) (inner : Batched.InnerSend)
    (sender receiver : EncryptedTransport) : EventSystem State Event where
  init := { receiver }
  step s e :=
    match e with
    | .send rand data => some (s.send c sender rand data)
    | .flush timer => (s.batched.flush z cfg inner timer).map fun batched => { s with batched }
    | .receive => (s.batched.receive z).map fun batched => { s with batched }
    | .hand => s.hand c

/-! ### The provider in the middle -/

/-- The state of a connection whose provider reads the raw messages and makes up what it hands to
the peer.  Nothing leaves `stack.batched.wire`: it is the list of all messages passed to the raw
transport's `Send`. -/
structure Tapped where
  stack : State
  -- history: the messages `decodeBatch` was called on
  parsed : List Bytes := []

/-- A message the provider hands to the receiving stack, through the callbacks of both layers. -/
def Tapped.provide (z : Zstd) (c : Crypto) (t : Tapped) (m : Bytes) : Tapped :=
  let parsed := t.parsed ++ [m]
  match decodeBatch z m with
  | .error _ => { t with parsed }
  | .ok packets =>
    let r := t.stack.receiver.receiveAll c packets
    { parsed
      stack := { t.stack with
        receiver := r.1
        delivered := t.stack.delivered ++ r.2.map Prod.snd } }

/-- The sender's steps, and a message from the provider. -/
inductive TappedEvent
  | send (rand : Except String Nonce) (data : Bytes)
  | flush (timer : Bool)
  | provide (m : Bytes)

/-- A stack and its peer with the provider in the middle. -/
def tapped (z : Zstd) (c : Crypto) (cfg : Batched.Config) (sender receiver : EncryptedTransport) :
    EventSystem Tapped TappedEvent where
  init := { stack := { receiver } }
  step t e :=
    match e with
    | .send rand data => some { t with stack := t.stack.send c sender rand data }
    | .flush timer =>
      (t.stack.batched.flush z cfg .later timer).map fun batched =>
        { t with stack := { t.stack with batched } }
    | .provide m => some (t.provide z c m)

/-- **Ideal AEAD** on a step: what opens at the receiving stack was sealed by the sending one
before. -/
def NoForgery (z : Zstd) (c : Crypto) (sender : EncryptedTransport) (t : Tapped) :
    TappedEvent → Prop
  | .provide m => ∀ packets, decodeBatch z m = .ok packets → ∀ packet ∈ packets,
      c.Unforged ((sealed t.stack.calls).map fun call => sender.sealCall call.1 call.2)
        t.stack.receiver packet
  | _ => True

end OpenFlux.Transport.Stack
