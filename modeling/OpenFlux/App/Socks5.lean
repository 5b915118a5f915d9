import OpenFlux.Go.Bytes

/-!
# The app's SOCKS5 client (`service/Socks5.kt`)

The requests that `connect` makes, and what `connectRequest` makes of the answers.  A host is given
by its UTF-8; one with a character outside of ASCII is refused either way.
-/

namespace OpenFlux.App.Socks5

/-- `byteArrayOf((port shr 8).toByte(), port.toByte())`. -/
def portBytes (port : ℕ) : Bytes := [UInt8.ofNat (port >>> 8), UInt8.ofNat port]

/-- The request of `connect` with a host. -/
def connect (host : Bytes) (port : ℕ) : Except String Bytes :=
  if ¬ (1 ≤ port ∧ port ≤ 65535) then .error "Invalid SOCKS5 port"
  else if host = [] ∨ 255 < host.length ∨ ¬ host.all (fun c => 33 ≤ c ∧ c ≤ 126) then
    .error "Invalid SOCKS5 host"
  else .ok ([5, 1, 0, 3, UInt8.ofNat host.length] ++ host ++ portBytes port)

/-- `InetSocketAddress`. -/
structure InetSocketAddress where
  -- the bytes of an `Inet4Address`
  inet4 : Option (UInt8 × UInt8 × UInt8 × UInt8)
  port : Fin 65536

/-- The request of `connect` with an address. -/
def connectTarget (target : InetSocketAddress) : Except String Bytes :=
  match target.inet4 with
  | none => .error "SOCKS5 needs an IPv4 target"
  | some (a, b, c, d) => .ok ([5, 1, 0, 1, a, b, c, d] ++ portBytes target.port)

/-- What `connectRequest` writes before the request. -/
def greeting : Bytes := [5, 1, 0]

/-- `readFully`, with what is left. -/
def readFully (n : ℕ) (input : Bytes) : Except String (Bytes × Bytes) :=
  if input.length < n then .error "EOFException" else .ok (input.take n, input.drop n)

/-- `connectRequest` on all that the server sends: what is left for the caller. -/
def connectRequest (input : Bytes) : Except String Bytes := do
  let (method, input) ← readFully 2 input
  if method ≠ [5, 0] then throw "SOCKS5 proxy refused no-auth"
  let (header, input) ← readFully 4 input
  if header.take 2 ≠ [5, 0] then
    throw ("SOCKS5 connect failed (reply " ++ toString (header.getD 1 0).toInt8.toInt ++ ")")
  let (addressLength, input) ←
    if header.getD 3 0 = 1 then pure (4, input)
    else if header.getD 3 0 = 3 then do
      let (length, input) ← readFully 1 input
      pure ((length.getD 0 0).toNat, input)
    else if header.getD 3 0 = 4 then pure (16, input)
    else throw "Invalid SOCKS5 reply address"
  let (_, input) ← readFully (addressLength + 2) input
  return input

end OpenFlux.App.Socks5
