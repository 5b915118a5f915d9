import OpenFlux.Algorithm.Overwrite
import OpenFlux.Go.Bytes

/-!
# Packets of the L3 exit (`tunnel/l3/flow.go`, `sliceIPv4` of `l3.go`)

Reading and rewriting IPv4/TCP packets in place.  `byteAt` reads `pkt[i]`; every read of the model
stands behind the length checks of the source.  A function that writes to the packet returns the
packet it leaves behind; `overwrite pkt i bs` is `copy(pkt[i:], bs)` for bytes that fit.
-/

namespace OpenFlux.L3

open Overwrite

/-- An IPv4 address, Go's `[4]byte`. -/
structure Addr where
  a : UInt8
  b : UInt8
  c : UInt8
  d : UInt8
  deriving DecidableEq

/-- The bytes of an address. -/
def Addr.bytes (addr : Addr) : Bytes := [addr.a, addr.b, addr.c, addr.d]

/-- `ipU32`. -/
def ipU32 (addr : Addr) : UInt32 := beUint32 addr.a addr.b addr.c addr.d

/-- `pkt[i]`. -/
def byteAt (pkt : Bytes) (i : ℕ) : UInt8 := pkt.getD i 0

/-- `int(pkt[0]&0x0f) * 4`, the length of the IP header. -/
def ihl (pkt : Bytes) : ℕ := (byteAt pkt 0 &&& 0x0F).toNat * 4

/-- `int(pkt[2])<<8 | int(pkt[3])`, the total length. -/
def totalLength (pkt : Bytes) : ℕ := (byteAt pkt 2).toNat <<< 8 ||| (byteAt pkt 3).toNat

/-- `sliceIPv4`: the packet cut to its total length. -/
def sliceIPv4 (pkt : Bytes) : Option Bytes :=
  if pkt.length < 20 ∨ byteAt pkt 0 >>> 4 ≠ 4 then none
  else if ihl pkt < 20 ∨ pkt.length < ihl pkt then none
  else if totalLength pkt < ihl pkt ∨ pkt.length < totalLength pkt then none
  else some (pkt.take (totalLength pkt))

/-! ### Flows -/

/-- `flowKey`. -/
structure FlowKey where
  srcIP : UInt32
  dstIP : UInt32
  srcPort : UInt16
  dstPort : UInt16
  proto : UInt8
  deriving DecidableEq

/-- `extractFlowKey`. -/
def extractFlowKey (pkt : Bytes) : Option FlowKey :=
  if pkt.length < 20 ∨ byteAt pkt 0 >>> 4 ≠ 4 then none
  else if ihl pkt < 20 ∨ pkt.length < ihl pkt + 20 then none
  else if byteAt pkt 9 ≠ 6 then none
  else some {
    srcIP := beUint32 (byteAt pkt 12) (byteAt pkt 13) (byteAt pkt 14) (byteAt pkt 15)
    dstIP := beUint32 (byteAt pkt 16) (byteAt pkt 17) (byteAt pkt 18) (byteAt pkt 19)
    srcPort := beUint16 (byteAt pkt (ihl pkt)) (byteAt pkt (ihl pkt + 1))
    dstPort := beUint16 (byteAt pkt (ihl pkt + 2)) (byteAt pkt (ihl pkt + 3))
    proto := 6 }

/-- `reverseKey`. -/
def reverseKey (k : FlowKey) : FlowKey where
  srcIP := k.dstIP
  dstIP := k.srcIP
  srcPort := k.dstPort
  dstPort := k.srcPort
  proto := k.proto

/-- `isTCPClosing`. -/
def isTCPClosing (pkt : Bytes) : Bool :=
  if pkt.length < ihl pkt + 14 then false
  else byteAt pkt (ihl pkt + 13) &&& 0x01 ≠ 0 || byteAt pkt (ihl pkt + 13) &&& 0x04 ≠ 0

/-- `isTCPRST`. -/
def isTCPRST (pkt : Bytes) : Bool :=
  if pkt.length < 20 ∨ byteAt pkt 0 >>> 4 ≠ 4 ∨ byteAt pkt 9 ≠ 6 then false
  else if pkt.length < ihl pkt + 14 then false
  else byteAt pkt (ihl pkt + 13) &&& 0x04 ≠ 0

/-! ### Rewriting -/

/-- `rewriteSNAT`. -/
def rewriteSNAT (pkt : Bytes) (newSrc : Addr) : Bytes := overwrite pkt 12 newSrc.bytes

/-- `rewriteDNAT`. -/
def rewriteDNAT (pkt : Bytes) (newDst : Addr) : Bytes := overwrite pkt 16 newDst.bytes

/-- The loop over the words of both checksum functions, with the odd byte after it. -/
def addWords (sum : UInt32) : Bytes → UInt32
  | hi :: lo :: rest => addWords (sum + (hi.toUInt32 <<< 8 ||| lo.toUInt32)) rest
  | [hi] => sum + hi.toUInt32 <<< 8
  | [] => sum

theorem toNat_high (sum : UInt32) : (sum >>> 16).toNat = sum.toNat / 65536 := by
  rw [UInt32.toNat_shiftRight]
  exact Nat.shiftRight_eq_div_pow ..

theorem toNat_low (sum : UInt32) : (sum &&& (0xFFFF : UInt32)).toNat = sum.toNat % 65536 := by
  rw [UInt32.toNat_and]
  exact Nat.and_two_pow_sub_one_eq_mod _ 16

/-- Folding the carries does not wrap. -/
theorem toNat_low_add_high (sum : UInt32) :
    ((sum &&& (0xFFFF : UInt32)) + (sum >>> 16)).toNat =
      sum.toNat % 65536 + sum.toNat / 65536 := by
  have hlt := sum.toNat_lt
  have hsmall : sum.toNat % 65536 + sum.toNat / 65536 < 2 ^ 32 := by omega
  rw [UInt32.toNat_add, toNat_low, toNat_high, Nat.mod_eq_of_lt hsmall]

theorem foldCarries_lt {sum : UInt32} (h : sum >>> 16 ≠ 0) :
    ((sum &&& (0xFFFF : UInt32)) + (sum >>> 16)).toNat < sum.toNat := by
  have hpos : 0 < sum.toNat / 65536 := by
    rw [← toNat_high]
    exact Nat.pos_of_ne_zero fun hzero => h (UInt32.toNat_inj.mp hzero)
  rw [toNat_low_add_high]
  omega

/-- The carry loop of both checksum functions. -/
def foldCarries (sum : UInt32) : UInt32 :=
  if sum >>> 16 ≠ 0 then foldCarries ((sum &&& (0xFFFF : UInt32)) + (sum >>> 16)) else sum
  termination_by sum.toNat
  decreasing_by exact foldCarries_lt ‹_›

/-- `onesComplementSum`. -/
def onesComplementSum (b : Bytes) : UInt16 := (~~~ foldCarries (addWords 0 b)).toUInt16

/-- The part of the sum of `tcpChecksum` that comes before the loop. -/
def pseudoSum (length : ℕ) (src dst : Addr) : UInt32 :=
  (0 : UInt32) + (src.a.toUInt32 <<< 8 ||| src.b.toUInt32) + (src.c.toUInt32 <<< 8 ||| src.d.toUInt32)
    + (dst.a.toUInt32 <<< 8 ||| dst.b.toUInt32) + (dst.c.toUInt32 <<< 8 ||| dst.d.toUInt32)
    + 6 + UInt32.ofNat length

/-- `tcpChecksum`. -/
def tcpChecksum (tcp : Bytes) (src dst : Addr) : UInt16 :=
  (~~~ foldCarries (addWords (pseudoSum tcp.length src dst) tcp)).toUInt16

/-- The address at `pkt[i:i+4]`. -/
def addrAt (pkt : Bytes) (i : ℕ) : Addr where
  a := byteAt pkt i
  b := byteAt pkt (i + 1)
  c := byteAt pkt (i + 2)
  d := byteAt pkt (i + 3)

/-- The IP checksum part of `fixChecksums`. -/
def fixIPChecksum (pkt : Bytes) : Bytes :=
  let cleared := overwrite pkt 10 [0, 0]
  overwrite cleared 10 (putUint16 (onesComplementSum (cleared.take 20)))

/-- The TCP checksum part of `fixChecksums`. -/
def fixTCPChecksum (pkt : Bytes) : Bytes :=
  let cleared := overwrite pkt (ihl pkt + 16) [0, 0]
  let tcp := cleared.drop (ihl pkt)
  overwrite cleared (ihl pkt + 16)
    (putUint16 (tcpChecksum tcp (addrAt pkt 12) (addrAt pkt 16)))

/-- `fixChecksums`.  The sum over the IP header covers the first 20 bytes. -/
def fixChecksums (pkt : Bytes) : Bytes :=
  if pkt.length < 20 ∨ byteAt pkt 0 >>> 4 ≠ 4 then pkt
  else
    let pkt := fixIPChecksum pkt
    if byteAt pkt 9 ≠ 6 then pkt
    else if ihl pkt < 20 ∨ pkt.length < ihl pkt + 20 then pkt
    else fixTCPChecksum pkt

end OpenFlux.L3
