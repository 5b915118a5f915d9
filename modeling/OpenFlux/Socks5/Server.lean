import OpenFlux.Go.Json

/-!
# The SOCKS5 server (`socks5/socks5.go`)

`handleConnection` up to its relay.  What a client sends arrives in segments; a `Read` takes from
the first of them as much as its buffer holds, and a `Read` at the end returns an error.  A panic is
ruled out by the checks, so its recovery is left out.
-/

namespace OpenFlux.Socks5

/-- `Read` into a buffer of this size, with what is left; `none` is an error. -/
def read (size : ℕ) : List Bytes → Option (Bytes × List Bytes)
  | [] => none
  | segment :: segments =>
    if segment.length ≤ size then some (segment, segments)
    else some (segment.take size, segment.drop size :: segments)

/-- The address that a request asks for, from the bytes that were read. -/
def targetAddr (buf : Bytes) : Option Bytes :=
  if buf.length < 10 ∨ buf.getD 1 0 ≠ 0x01 then none
  else if buf.getD 3 0 = 0x01 then
    some (decimal (buf.getD 4 0).toNat ++ literal "." ++ decimal (buf.getD 5 0).toNat ++
      literal "." ++ decimal (buf.getD 6 0).toNat ++ literal "." ++
      decimal (buf.getD 7 0).toNat ++ literal ":" ++
      decimal (beUint16 (buf.getD 8 0) (buf.getD 9 0)).toNat)
  else if buf.getD 3 0 = 0x03 then
    let domainLen := (buf.getD 4 0).toNat
    if domainLen = 0 ∨ buf.length < 5 + domainLen + 2 then none
    else some ((buf.drop 5).take domainLen ++ literal ":" ++
      decimal (beUint16 (buf.getD (5 + domainLen) 0) (buf.getD (6 + domainLen) 0)).toNat)
  else none

/-- What is done before the relay starts. -/
structure Outcome where
  -- what is written to the client
  replies : List Bytes := []
  -- the address with which the dialer is called
  dialed : Option Bytes := none
  -- what the relay finds to forward, if it starts
  relayed : Option (List Bytes) := none
  deriving DecidableEq

/-- `handleConnection`; the dialer succeeds or not. -/
def handleConnection (dial : Bytes → Bool) (segments : List Bytes) : Outcome :=
  match read 256 segments with
  | none => {}
  | some (buf, segments) =>
    if buf.length < 2 ∨ buf.getD 0 0 ≠ 0x05 then {}
    else
      match read 256 segments with
      | none => { replies := [[0x05, 0x00]] }
      | some (buf, segments) =>
        match targetAddr buf with
        | none => { replies := [[0x05, 0x00]] }
        | some addr =>
          if dial addr then {
            replies := [[0x05, 0x00], [0x05, 0x00, 0x00, 0x01, 0x00, 0x00, 0x00, 0x00, 0x00, 0x00]]
            dialed := some addr
            relayed := some segments }
          else {
            replies := [[0x05, 0x00], [0x05, 0x04, 0x00, 0x01, 0x00, 0x00, 0x00, 0x00, 0x00, 0x00]]
            dialed := some addr }

end OpenFlux.Socks5
