import OpenFlux.Algorithm.EventSystem
import OpenFlux.L3.Exit

/-!
# Runs of the L3 exit (`tunnel/l3/l3.go`, `tunnel/l3/conntrack.go`)

The two handlers and the sweep loop run on goroutines of their own and share the connection table.
Each operation of the table is one step under its lock: a handler enters with its `Insert` or its
`Exists`, and the `Touch` it makes after that is a step of its own, so a sweep or the other handler
can come between.  The handlers of `L3.Exit` are the runs in which nothing does.

The clock only moves forward.
-/

namespace OpenFlux.L3

/-- A call of `Touch` that a handler still has to make. -/
structure Touch where
  key : FlowKey
  dying : Bool
  deriving DecidableEq

/-- `handleFromTransport` up to its `Insert`. -/
def enterFromTransport (egress : Addr) (now : ℕ) (ct : Conntrack) (pkt : Bytes) :
    Conntrack × Option Touch × Verdict :=
  match sliceIPv4 pkt with
  | none => (ct, none, .dropBadIPv4)
  | some pkt =>
    if isTCPRST pkt then (ct, none, .dropRST)
    else
      let pkt := fixChecksums (rewriteSNAT pkt egress)
      match extractFlowKey pkt with
      | none => (ct, none, .dropNoFlowKey)
      | some k => (ct.insert k now, if isTCPClosing pkt then some ⟨k, true⟩ else none, .send pkt)

/-- `handleFromInternet` up to its `Exists`, which leaves the table as it is. -/
def enterFromInternet (egress : Addr) (ct : Conntrack) (pkt : Bytes) : Option Touch × Verdict :=
  match sliceIPv4 pkt with
  | none => (none, .dropBadIPv4)
  | some pkt =>
    if byteAt pkt 16 ≠ egress.a ∨ byteAt pkt 17 ≠ egress.b ∨ byteAt pkt 18 ≠ egress.c ∨
        byteAt pkt 19 ≠ egress.d then
      (none, .dropNotForUs)
    else
      match extractFlowKey pkt with
      | none => (none, .dropNoFlowKey)
      | some k =>
        let rk := reverseKey k
        if ct.existsEntry rk then
          (some ⟨rk, isTCPClosing pkt⟩, .send (fixChecksums (rewriteDNAT pkt clientIP)))
        else (none, .dropNoConntrack)

/-- The table after the `Touch`, if there is one to make. -/
def Conntrack.touchAll (ct : Conntrack) (touch : Option Touch) (now : ℕ) : Conntrack :=
  match touch with
  | some t => ct.touch t.key t.dying now
  | none => ct

/-- The table, the calls of `Touch` under way and the last reading of the clock. -/
structure Exit where
  ct : Conntrack
  touches : List Touch
  clock : ℕ

inductive Exit.Event
  -- a packet of the transport, up to `Insert`
  | fromTransport (pkt : Bytes) (now : ℕ)
  -- a packet of the network, up to `Exists`
  | fromInternet (pkt : Bytes) (now : ℕ)
  -- the `i`th pending `Touch`
  | touch (i : ℕ) (now : ℕ)
  | sweep (now : ℕ)
  deriving DecidableEq

/-- When the event takes place. -/
def Exit.Event.time : Exit.Event → ℕ
  | .fromTransport _ now | .fromInternet _ now | .touch _ now | .sweep now => now

/-- One step, the clock aside. -/
def Exit.act (egress : Addr) (s : Exit) : Exit.Event → Option Exit
  | .fromTransport pkt now =>
    let (ct, touch, _) := enterFromTransport egress now s.ct pkt
    some { s with ct := ct, touches := s.touches ++ touch.toList }
  | .fromInternet pkt _ =>
    some { s with touches := s.touches ++ (enterFromInternet egress s.ct pkt).1.toList }
  | .touch i now =>
    match s.touches[i]? with
    | some t =>
      some { s with ct := s.ct.touch t.key t.dying now, touches := s.touches.eraseIdx i }
    | none => none
  | .sweep now => some { s with ct := s.ct.sweep now }

/-- The exit that sends from the address `egress`. -/
def exit (egress : Addr) : EventSystem Exit Exit.Event where
  init := { ct := .empty, touches := [], clock := 0 }
  step s e :=
    if e.time < s.clock then none else (s.act egress e).map fun s' => { s' with clock := e.time }

end OpenFlux.L3
