import OpenFlux.L3.Run
import OpenFlux.Transport.Peers

/-!
# The encrypted tunnel to an L3 exit (`main.go`, `tunnel/l3/l3.go`)

With `--encryption-key-file` the encryption is the uppermost layer of the stacks that `main` builds.
So `handleFromTransport` is the callback of the exit's `Receive`, and what `handleFromInternet`
passes on goes to the exit's `Send`.  What is below the encryption is the network of
`Transport.Peers`; the hosts of the internet send what they like.
-/

namespace OpenFlux.L3

open Transport Transport.Encrypted

/-- What a handler passes on. -/
def Verdict.sent : Verdict → Option Bytes
  | .send pkt => some pkt
  | _ => none

/-- The two peers and the exit's tables. -/
structure Secured where
  net : Net
  exit : Exit
  -- history: the packets of the raw socket
  received : List Bytes := []
  -- history: the packets passed to `backend.Send`
  emitted : List Bytes := []

inductive Secured.Event
  -- the client's `Send`
  | send (rand : Except String Nonce) (data : Bytes)
  -- bytes of the channel
  | arriveClient (packet : Bytes)
  | arriveExit (packet : Bytes) (now : ℕ)
  -- a packet of the raw socket, with what `rand.Read` does if it is passed on
  | fromInternet (pkt : Bytes) (now : ℕ) (rand : Except String Nonce)
  | touch (i : ℕ) (now : ℕ)
  | sweep (now : ℕ)

namespace Secured

/-- A packet that the exit's `Receive` opens goes into `handleFromTransport`. -/
def step (c : Crypto) (egress : Addr) (s : Secured) : Event → Option Secured
  | .send rand data =>
    some { s with net := Function.update s.net .client ((s.net .client).send c rand data) }
  | .arriveClient packet =>
    some { s with net := Function.update s.net .client ((s.net .client).receive c packet) }
  | .arriveExit packet now =>
    let net := Function.update s.net .exit ((s.net .exit).receive c packet)
    match ((s.net .exit).enc.receive c packet).2 with
    | none => some { s with net }
    | some pkt =>
      ((L3.exit egress).step s.exit (.fromTransport pkt now)).map fun exit =>
        { s with
          net, exit
          emitted :=
            s.emitted ++ (enterFromTransport egress now s.exit.ct pkt).2.2.sent.toList }
  | .fromInternet pkt now rand =>
    ((L3.exit egress).step s.exit (.fromInternet pkt now)).map fun exit =>
      { s with
        exit
        received := s.received ++ [pkt]
        net :=
          match (enterFromInternet egress s.exit.ct pkt).2.sent with
          | some q => Function.update s.net .exit ((s.net .exit).send c rand q)
          | none => s.net }
  | .touch i now =>
    ((L3.exit egress).step s.exit (.touch i now)).map fun exit => { s with exit }
  | .sweep now =>
    ((L3.exit egress).step s.exit (.sweep now)).map fun exit => { s with exit }

/-- The tunnel of the peers built as `enc` says, whose exit has the address `egress`. -/
def system (c : Crypto) (enc : Role → EncryptedTransport) (egress : Addr) :
    EventSystem Secured Event where
  init := { net := (network c enc).init, exit := (L3.exit egress).init }
  step := step c egress

/-- **Ideal AEAD** on a step. -/
def NoForgery (c : Crypto) (s : Secured) : Event → Prop
  | .arriveClient packet => Encrypted.NoForgery c s.net (.arrive .client packet)
  | .arriveExit packet _ => Encrypted.NoForgery c s.net (.arrive .exit packet)
  | _ => True

end Secured

end OpenFlux.L3
