import OpenFlux.L3.Conntrack

/-!
# The L3 exit (`tunnel/l3/l3.go`)

The two packet handlers.  Each returns the connection table it leaves behind and what became of the
packet (`Verdict`): the counter of the drop, or the packet passed to `Send` of the other side.  The
result of that `Send` changes nothing but counters.  `now` is what the table's operations read from
the clock during the call.
-/

namespace OpenFlux.L3

/-- `clientIPBytes`. -/
def clientIP : Addr := ⟨10, 10, 10, 2⟩

/-- What a handler does with a packet. -/
inductive Verdict
  | dropBadIPv4
  | dropRST
  | dropNoFlowKey
  | dropNotForUs
  | dropNoConntrack
  -- passed to `backend.Send` or `trans.Send`
  | send (pkt : Bytes)
  deriving DecidableEq

/-- `handleFromTransport`. -/
def handleFromTransport (egress : Addr) (now : ℕ) (ct : Conntrack) (pkt : Bytes) :
    Conntrack × Verdict :=
  match sliceIPv4 pkt with
  | none => (ct, .dropBadIPv4)
  | some pkt =>
    if isTCPRST pkt then (ct, .dropRST)
    else
      let pkt := fixChecksums (rewriteSNAT pkt egress)
      match extractFlowKey pkt with
      | none => (ct, .dropNoFlowKey)
      | some k =>
        let ct := ct.insert k now
        let ct := if isTCPClosing pkt then ct.touch k true now else ct
        (ct, .send pkt)

/-- `handleFromInternet`. -/
def handleFromInternet (egress : Addr) (now : ℕ) (ct : Conntrack) (pkt : Bytes) :
    Conntrack × Verdict :=
  match sliceIPv4 pkt with
  | none => (ct, .dropBadIPv4)
  | some pkt =>
    if byteAt pkt 16 ≠ egress.a ∨ byteAt pkt 17 ≠ egress.b ∨ byteAt pkt 18 ≠ egress.c ∨
        byteAt pkt 19 ≠ egress.d then
      (ct, .dropNotForUs)
    else
      match extractFlowKey pkt with
      | none => (ct, .dropNoFlowKey)
      | some k =>
        let rk := reverseKey k
        if ct.existsEntry rk then
          (ct.touch rk (isTCPClosing pkt) now,
            .send (fixChecksums (rewriteDNAT pkt clientIP)))
        else (ct, .dropNoConntrack)

end OpenFlux.L3
