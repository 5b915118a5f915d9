import OpenFlux.Transport.Encrypted

/-!
# The memory of nonces as the code keeps it (`transport/encrypted.go`)

The fields `seen` and `seenOrder` of an `EncryptedTransport` and `rememberNonce` on them, with
nothing said about how the two belong together: `ReplayWindow` is what the runs make of them.
-/

namespace OpenFlux.Transport.Encrypted

/-- `seen` and `seenOrder`. -/
structure SeenNonces where
  seen : Finset Bytes := ∅
  seenOrder : List Bytes := []

namespace SeenNonces

/-- `rememberNonce`. -/
def rememberNonce (s : SeenNonces) (nonce : Bytes) : SeenNonces × Bool :=
  if nonce ∈ s.seen then (s, false)
  else
    let s := { seen := insert nonce s.seen, seenOrder := s.seenOrder ++ [nonce] : SeenNonces }
    if maxSeenNonces < s.seenOrder.length then
      match s.seenOrder with
      | oldest :: rest => ({ seen := s.seen.erase oldest, seenOrder := rest }, true)
      | [] => (s, true)
    else (s, true)

/-- The memory after a sequence of nonces. -/
def rememberAll (s : SeenNonces) (nonces : List Bytes) : SeenNonces :=
  nonces.foldl (fun s nonce => (s.rememberNonce nonce).1) s

/-- The nonces of the sequence that are accepted, in order. -/
def accepted (s : SeenNonces) : List Bytes → List Bytes
  | [] => []
  | nonce :: nonces =>
    let r := s.rememberNonce nonce
    if r.2 then nonce :: accepted r.1 nonces else accepted r.1 nonces

end SeenNonces

end OpenFlux.Transport.Encrypted
