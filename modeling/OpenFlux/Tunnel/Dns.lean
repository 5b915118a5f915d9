import OpenFlux.Go.Bytes

/-!
# DNS through the tunnel (`tunnel/packettunnel.go`)

`handleUDP` and `dnsOverTCP`.  A connection to a resolver is what comes of it: whether `DialTCP` and
`Write` succeed, and what the resolver sends until its stream ends or the deadline passes, in
segments.
-/

namespace OpenFlux.Tunnel.Dns

/-- `io.ReadFull` into a buffer of this size, with what is left; `none` is an error. -/
def readFull : ℕ → List Bytes → Option (Bytes × List Bytes)
  | 0, segments => some ([], segments)
  | _ + 1, [] => none
  | n + 1, segment :: segments =>
    if segment.length ≤ n + 1 then
      (readFull (n + 1 - segment.length) segments).map fun (b, rest) => (segment ++ b, rest)
    else some (segment.take (n + 1), segment.drop (n + 1) :: segments)

/-- The buffer of `handleUDP`. -/
def bufferSize : ℕ := 1500

/-- A connection that `dnsOverTCP` makes. -/
structure Conn where
  dials : Bool
  writes : Bool
  answer : List Bytes

/-- A datagram of the device, as `conn.Read` leaves it in the buffer, and what comes of it. -/
structure Datagram where
  query : Bytes
  length_le : query.length ≤ bufferSize
  conn : Conn
  -- whether `conn.Write` of the response succeeds
  replies : Bool

/-- What `dnsOverTCP` writes. -/
def request (query : Bytes) : Bytes := putUint16 (UInt16.ofNat query.length) ++ query

/-- `dnsOverTCP`: what it writes, and the response unless there is an error. -/
def dnsOverTCP (conn : Conn) (query : Bytes) : Option Bytes × Option Bytes :=
  if ¬ conn.dials then (none, none)
  else if ¬ conn.writes then (some (request query), none)
  else
    (some (request query), do
      let (hdr, rest) ← readFull 2 conn.answer
      let (resp, _) ← readFull (beUint16 (hdr.getD 0 0) (hdr.getD 1 0)).toNat rest
      return resp)

/-- The streams to the resolvers, and the responses for the device. -/
structure Served where
  asked : List Bytes := []
  answered : List Bytes := []
  deriving DecidableEq

/-- The loop of `handleUDP`, until a `Read` fails. -/
def serve : List Datagram → Served
  | [] => {}
  | d :: ds =>
    if d.query = [] then {}
    else
      match dnsOverTCP d.conn d.query with
      | (asked, none) => { asked := asked.toList }
      | (asked, some resp) =>
        if ¬ d.replies then { asked := asked.toList }
        else
          let rest := serve ds
          { asked := asked.toList ++ rest.asked, answered := resp :: rest.answered }

/-- `handleUDP`: whether the packet is taken, and what is done with the datagrams of its flow. -/
def handleUDP (port : UInt16) (ds : List Datagram) : Bool × Served :=
  if port ≠ 53 then (false, {}) else (true, serve ds)

end OpenFlux.Tunnel.Dns
