import OpenFlux.L3.Flow

/-!
# The checksums of the packet tools (`network/checksum.go`)

`TCPChecksum` and `IPChecksum`, beside the two of `tunnel/l3/flow.go`.  `TCPChecksum` builds the
pseudo header as bytes, and `IPChecksum` folds the carries twice instead of in a loop.
-/

namespace OpenFlux.Network

open L3 (Addr foldCarries)

/-- The loop over the whole words of both functions, `i < len(b)-1`. -/
def addPairs (sum : UInt32) : Bytes → UInt32
  | hi :: lo :: rest => addPairs (sum + (hi.toUInt32 <<< 8 ||| lo.toUInt32)) rest
  | _ => sum

/-- The sum of both functions before the carries are folded. -/
def sumWords (b : Bytes) : UInt32 :=
  let sum := addPairs 0 b
  if b.length % 2 = 1 then sum + (b.getD (b.length - 1) 0).toUInt32 <<< 8 else sum

/-- The twelve bytes `pseudoHeader`. -/
def pseudoHeader (srcIP dstIP : Addr) (tcpLen : ℕ) : Bytes :=
  [srcIP.a, srcIP.b, srcIP.c, srcIP.d, dstIP.a, dstIP.b, dstIP.c, dstIP.d, 0, 6,
    UInt8.ofNat (tcpLen >>> 8), UInt8.ofNat (tcpLen &&& 0xFF)]

/-- `TCPChecksum`. -/
def tcpChecksum (tcpData : Bytes) (srcIP dstIP : Addr) : UInt16 :=
  let all := pseudoHeader srcIP dstIP tcpData.length ++ tcpData
  (~~~ foldCarries (sumWords all)).toUInt16

/-- `IPChecksum`. -/
def ipChecksum (b : Bytes) : UInt16 :=
  let sum := sumWords b
  let sum := (sum >>> 16) + (sum &&& (0xFFFF : UInt32))
  let sum := sum + sum >>> 16
  (~~~ sum).toUInt16

end OpenFlux.Network
