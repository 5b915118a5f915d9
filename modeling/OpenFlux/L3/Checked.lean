import OpenFlux.Go.Slice
import OpenFlux.L3.Exit

/-!
# The accesses of the L3 exit (`tunnel/l3`)

The functions of `L3.Flow` and `L3.Exit` once more, with every index and slice expression of the
source checked where it stands: `none` is a panic.  An `||` evaluates its right side only when the
left one is false.  `verbose` is `utils.IsVerbose()`, and `noct` what `dropNoConntrack.Load()`
returns for the sampled message.
-/

namespace OpenFlux.L3.Checked

open Slice

/-- `int(pkt[0]&0x0f) * 4`. -/
def ihl (pkt : Bytes) : Option ℕ := do return ((← Slice.index pkt 0) &&& 0x0F).toNat * 4

/-- `len(pkt) < 20 || pkt[0]>>4 != 4`. -/
def notIPv4 (pkt : Bytes) : Option Bool := do
  if pkt.length < 20 then return true
  return (← Slice.index pkt 0) >>> 4 ≠ 4

/-- `sliceIPv4`. -/
def sliceIPv4 (pkt : Bytes) : Option (Option Bytes) := do
  if ← notIPv4 pkt then return none
  let ihl ← ihl pkt
  if ihl < 20 ∨ pkt.length < ihl then return none
  let tot := (← Slice.index pkt 2).toNat <<< 8 ||| (← Slice.index pkt 3).toNat
  if tot < ihl ∨ pkt.length < tot then return none
  return some (← slice pkt 0 tot)

/-- `binary.BigEndian.Uint16`. -/
def uint16 (b : Bytes) : Option UInt16 := do return beUint16 (← Slice.index b 0) (← Slice.index b 1)

/-- `binary.BigEndian.Uint32`. -/
def uint32 (b : Bytes) : Option UInt32 := do
  return beUint32 (← Slice.index b 0) (← Slice.index b 1) (← Slice.index b 2) (← Slice.index b 3)

/-- `extractFlowKey`. -/
def extractFlowKey (pkt : Bytes) : Option (Option FlowKey) := do
  if ← notIPv4 pkt then return none
  let ihl ← ihl pkt
  if ihl < 20 ∨ pkt.length < ihl + 20 then return none
  if (← Slice.index pkt 9) ≠ 6 then return none
  return some {
    srcIP := ← uint32 (← slice pkt 12 16)
    dstIP := ← uint32 (← slice pkt 16 20)
    srcPort := ← uint16 (← slice pkt ihl (ihl + 2))
    dstPort := ← uint16 (← slice pkt (ihl + 2) (ihl + 4))
    proto := 6 }

/-- `isTCPClosing`. -/
def isTCPClosing (pkt : Bytes) : Option Bool := do
  let ihl ← ihl pkt
  if pkt.length < ihl + 14 then return false
  let flags ← Slice.index pkt (ihl + 13)
  return flags &&& 0x01 ≠ 0 || flags &&& 0x04 ≠ 0

/-- `isTCPRST`. -/
def isTCPRST (pkt : Bytes) : Option Bool := do
  if ← notIPv4 pkt then return false
  if (← Slice.index pkt 9) ≠ 6 then return false
  let ihl ← ihl pkt
  if pkt.length < ihl + 14 then return false
  return (← Slice.index pkt (ihl + 13)) &&& 0x04 ≠ 0

/-- `rewriteSNAT`. -/
def rewriteSNAT (pkt : Bytes) (newSrc : Addr) : Option Bytes := copyTo pkt 12 16 newSrc.bytes

/-- `rewriteDNAT`. -/
def rewriteDNAT (pkt : Bytes) (newDst : Addr) : Option Bytes := copyTo pkt 16 20 newDst.bytes

/-- The loop over the words of both checksum functions from `i` on, with the odd byte after it. -/
def addWords (b : Bytes) (sum : UInt32) (i : ℕ) : Option UInt32 := do
  if i + 1 < b.length then
    addWords b (sum + ((← Slice.index b i).toUInt32 <<< 8 ||| (← Slice.index b (i + 1)).toUInt32)) (i + 2)
  else if i < b.length then return sum + (← Slice.index b i).toUInt32 <<< 8
  else return sum
  termination_by b.length - i

/-- `onesComplementSum`. -/
def onesComplementSum (b : Bytes) : Option UInt16 := do
  return (~~~ foldCarries (← addWords b 0 0)).toUInt16

/-- `tcpChecksum`. -/
def tcpChecksum (tcp : Bytes) (src dst : Addr) : Option UInt16 := do
  return (~~~ foldCarries (← addWords tcp (pseudoSum tcp.length src dst) 0)).toUInt16

/-- `var addr [4]byte` and `copy(addr[:], pkt[i:i+4])`. -/
def addrAt (pkt : Bytes) (i : ℕ) : Option Addr := do
  let b ← slice pkt i (i + 4)
  return ⟨← Slice.index b 0, ← Slice.index b 1, ← Slice.index b 2, ← Slice.index b 3⟩

/-- `fixChecksums`.  The slice `tcp` shares its memory with `pkt`: `tcp[i]` is `pkt[ihl+i]`. -/
def fixChecksums (pkt : Bytes) : Option Bytes := do
  if ← notIPv4 pkt then return pkt
  let pkt ← store pkt 10 0
  let pkt ← store pkt 11 0
  let ipSum ← onesComplementSum (← slice pkt 0 20)
  let pkt ← store pkt 10 (ipSum >>> 8).toUInt8
  let pkt ← store pkt 11 ipSum.toUInt8
  if (← Slice.index pkt 9) ≠ 6 then return pkt
  let ihl ← ihl pkt
  if ihl < 20 ∨ pkt.length < ihl + 20 then return pkt
  let _ ← slice pkt ihl pkt.length
  let pkt ← store pkt (ihl + 16) 0
  let pkt ← store pkt (ihl + 17) 0
  let src ← addrAt pkt 12
  let dst ← addrAt pkt 16
  let sum ← tcpChecksum (← slice pkt ihl pkt.length) src dst
  let pkt ← store pkt (ihl + 16) (sum >>> 8).toUInt8
  store pkt (ihl + 17) sum.toUInt8

/-- `rawBackend.Send`, up to the system call: the address it sends to. -/
def backendSend (pkt : Bytes) : Option Addr := addrAt pkt 16

/-- `handleFromTransport`. -/
def handleFromTransport (egress : Addr) (now : ℕ) (ct : Conntrack) (pkt : Bytes) :
    Option (Conntrack × Verdict) := do
  match ← sliceIPv4 pkt with
  | none => return (ct, .dropBadIPv4)
  | some pkt =>
    if ← isTCPRST pkt then return (ct, .dropRST)
    let pkt ← rewriteSNAT pkt egress
    let pkt ← fixChecksums pkt
    match ← extractFlowKey pkt with
    | none => return (ct, .dropNoFlowKey)
    | some k =>
      let ct := ct.insert k now
      let ct := if ← isTCPClosing pkt then ct.touch k true now else ct
      let _ ← backendSend pkt
      return (ct, .send pkt)

/-- `pkt[16] != egress[0] || … || pkt[19] != egress[3]`. -/
def notForUs (pkt : Bytes) (egress : Addr) : Option Bool := do
  if (← Slice.index pkt 16) ≠ egress.a then return true
  if (← Slice.index pkt 17) ≠ egress.b then return true
  if (← Slice.index pkt 18) ≠ egress.c then return true
  return (← Slice.index pkt 19) ≠ egress.d

/-- `handleFromInternet`. -/
def handleFromInternet (verbose : Bool) (noct : UInt64) (egress : Addr) (now : ℕ) (ct : Conntrack)
    (pkt : Bytes) : Option (Conntrack × Verdict) := do
  match ← sliceIPv4 pkt with
  | none => return (ct, .dropBadIPv4)
  | some pkt =>
    if ← notForUs pkt egress then return (ct, .dropNotForUs)
    match ← extractFlowKey pkt with
    | none => return (ct, .dropNoFlowKey)
    | some k =>
      let rk := reverseKey k
      if !ct.existsEntry rk then
        if verbose ∧ noct % 1000 = 1 then
          let _ ← Slice.index pkt 33
        return (ct, .dropNoConntrack)
      let closing ← isTCPClosing pkt
      let pkt' ← rewriteDNAT pkt clientIP
      return (ct.touch rk closing now, .send (← fixChecksums pkt'))

end OpenFlux.L3.Checked
