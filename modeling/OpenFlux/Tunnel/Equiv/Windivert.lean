import OpenFlux.Tunnel.Windivert

/-!
# What the endpoint takes from the network

A port is in the table as long as the last of the packets from it that open or end a flow was a SYN
(`gvisorPorts_iff_since`), and that is all that `readLoop` looks at: `verdict_of_run` says what
becomes of every captured packet.  Flows are not told apart (`Live`), so a packet may be taken that
belongs to none, and not be taken though it belongs to one (`not_takesLive`).
-/

namespace OpenFlux.Tunnel.Windivert

open L3 (Addr FlowKey byteAt ihl extractFlowKey reverseKey)

/-- An IPv4 packet with a whole TCP header. -/
def IsTCP (pkt : Bytes) : Prop :=
  20 ≤ pkt.length ∧ byteAt pkt 0 >>> 4 = 4 ∧ hasTCP pkt = true

/-- A SYN without an ACK. -/
def isSyn (pkt : Bytes) : Bool := flags pkt &&& 0x02 ≠ 0 ∧ flags pkt &&& 0x10 = 0

/-- A FIN or an RST. -/
def isEnd (pkt : Bytes) : Bool := flags pkt &&& 0x01 ≠ 0 ∨ flags pkt &&& 0x04 ≠ 0

/-- The TCP packet that goes out through `Send`, before its checksum. -/
def sent (ourIP4 : Addr) : Event → Option Bytes
  | .send ipPacket _ =>
    if ipPacket.length < 20 ∨ byteAt ipPacket 0 >>> 4 ≠ 4 then none
    else if hasTCP (snat ourIP4 ipPacket) then some (snat ourIP4 ipPacket)
    else none
  | .capture _ _ => none

/-- A SYN goes out from the port. -/
def Opens (ourIP4 : Addr) (port : UInt16) (_ : Endpoint) (e : Event) : Prop :=
  ∃ pkt, sent ourIP4 e = some pkt ∧ srcPort pkt = port ∧ isSyn pkt = true ∧ isEnd pkt = false

/-- No FIN or RST goes out from it. -/
def Keeps (ourIP4 : Addr) (port : UInt16) (_ : Endpoint) (e : Event) : Prop :=
  ∀ pkt, sent ourIP4 e = some pkt → srcPort pkt = port → isEnd pkt = false

/-! ### The table -/

theorem updatePorts_eq (ports : Ports) (pkt : Bytes) :
    updatePorts ports pkt =
      if isEnd pkt then Function.update ports (srcPort pkt) false
      else if isSyn pkt then Function.update ports (srcPort pkt) true
      else ports := by
  unfold updatePorts isEnd isSyn
  simp only [decide_eq_true_eq]
  split_ifs
  · exact Function.update_idem ..
  · rfl
  · rfl
  · rfl

/-- What a step does to the table. -/
theorem gvisorPorts_step {ourIP4 : Addr} {s s' : Endpoint} {e : Event}
    (hs' : step ourIP4 s e = some s') :
    s'.gvisorPorts =
      match sent ourIP4 e with
      | some pkt => updatePorts s.gvisorPorts pkt
      | none => s.gvisorPorts := by
  cases e with
  | send ipPacket err =>
    simp only [step, send] at hs'
    simp only [sent]
    by_cases hshort : ipPacket.length < 20
    · simp only [if_pos hshort, if_pos (Or.inl hshort : _ ∨ _)] at hs' ⊢
      cases hs'
      rfl
    by_cases hversion : byteAt ipPacket 0 >>> 4 ≠ 4
    · simp only [if_neg hshort, if_pos hversion, if_pos (Or.inr hversion : _ ∨ _)] at hs' ⊢
      cases hs'
      rfl
    simp only [if_neg hshort, if_neg hversion, if_neg (not_or.mpr ⟨hshort, hversion⟩)] at hs' ⊢
    by_cases htcp : hasTCP (snat ourIP4 ipPacket) = true
    · simp only [if_pos htcp] at hs' ⊢
      cases hs'
      rfl
    · simp only [if_neg htcp] at hs' ⊢
      cases hs'
      rfl
  | capture outbound pkt =>
    cases hs'
    rfl

variable {ourIP4 : Addr} {es : List Event} {s : Endpoint}

theorem gvisorPorts_iff_since (hrun : (endpoint ourIP4).run (endpoint ourIP4).init es = some s)
    (port : UInt16) :
    s.gvisorPorts port = true ↔
      (endpoint ourIP4).Since (Opens ourIP4 port) (Keeps ourIP4 port) es := by
  constructor
  · refine EventSystem.since_of_run (φ := fun s => s.gvisorPorts port = true)
      Bool.false_ne_true ?_ hrun
    intro s e s' hs' hport
    rw [gvisorPorts_step hs'] at hport
    cases hsent : sent ourIP4 e with
    | none =>
      rw [hsent] at hport
      exact .inr ⟨hport, fun pkt hpkt => by rw [hsent] at hpkt; cases hpkt⟩
    | some pkt =>
      simp only [hsent, updatePorts_eq] at hport
      by_cases hsrc : srcPort pkt = port
      · subst hsrc
        split_ifs at hport with hend hsyn
        · rw [Function.update_self] at hport
          cases hport
        · exact .inl ⟨pkt, hsent, rfl, hsyn, Bool.eq_false_iff.mpr hend⟩
        · refine .inr ⟨hport, fun pkt' hpkt' _ => ?_⟩
          obtain rfl := Option.some.inj (hsent.symm.trans hpkt')
          exact Bool.eq_false_iff.mpr hend
      · have hkeep : s.gvisorPorts port = true := by
          split_ifs at hport
          · rwa [Function.update_of_ne (Ne.symm hsrc)] at hport
          · rwa [Function.update_of_ne (Ne.symm hsrc)] at hport
          · exact hport
        refine .inr ⟨hkeep, fun pkt' hpkt' hsrc' => ?_⟩
        obtain rfl := Option.some.inj (hsent.symm.trans hpkt')
        exact absurd hsrc' hsrc
  · refine EventSystem.holds_of_since (φ := fun s => s.gvisorPorts port = true) ?_ ?_ hrun
    · rintro s e s' hs' ⟨pkt, hsent, hsrc, hsyn, hend⟩
      rw [gvisorPorts_step hs', hsent]
      simp only [updatePorts_eq, hend, hsyn, hsrc]
      exact Function.update_self ..
    · intro s e s' hs' hport hkeeps
      rw [gvisorPorts_step hs']
      cases hsent : sent ourIP4 e with
      | none => exact hport
      | some pkt =>
        simp only [updatePorts_eq]
        by_cases hsrc : srcPort pkt = port
        · simp only [hkeeps pkt hsent hsrc, hsrc, Bool.false_eq_true, if_false]
          split_ifs
          · exact Function.update_self ..
          · exact hport
        · split_ifs
          · rwa [Function.update_of_ne (Ne.symm hsrc)]
          · rwa [Function.update_of_ne (Ne.symm hsrc)]
          · exact hport

/-! ### Captured packets -/

/-- A packet that `readLoop` does not re-inject is TCP, from the network to a port in the table, or
an RST of the system from one. -/
theorem readPacket_cases (ports : Ports) (outbound : Bool) (pkt : Bytes) :
    (IsTCP pkt ∧ outbound = false ∧ ports (dstPort pkt) = true ∧
      readPacket ports outbound pkt = .hand (dnat pkt)) ∨
    (IsTCP pkt ∧ outbound = true ∧ flags pkt &&& 0x04 ≠ 0 ∧ ports (srcPort pkt) = true ∧
      readPacket ports outbound pkt = .drop) ∨
    (¬ (IsTCP pkt ∧ outbound = false ∧ ports (dstPort pkt) = true) ∧
      ¬ (IsTCP pkt ∧ outbound = true ∧ flags pkt &&& 0x04 ≠ 0 ∧ ports (srcPort pkt) = true) ∧
      readPacket ports outbound pkt = .inject) := by
  unfold readPacket
  by_cases hshort : pkt.length < 20
  · rw [if_pos hshort]
    exact .inr (.inr ⟨fun h => absurd h.1.1 (by omega), fun h => absurd h.1.1 (by omega), rfl⟩)
  rw [if_neg hshort]
  by_cases hother : byteAt pkt 0 >>> 4 ≠ 4 ∨ byteAt pkt 9 ≠ 6
  · rw [if_pos hother]
    have hnot : ¬ IsTCP pkt := by
      rintro ⟨-, hversion, htcp⟩
      rcases hother with h | h
      · exact h hversion
      · exact h (of_decide_eq_true htcp).1
    exact .inr (.inr ⟨fun h => hnot h.1, fun h => hnot h.1, rfl⟩)
  rw [if_neg hother]
  obtain ⟨hversion, hproto⟩ := not_or.mp hother
  by_cases hcut : pkt.length < ihl pkt + 20
  · rw [if_pos hcut]
    have hnot : ¬ IsTCP pkt := fun h => absurd (of_decide_eq_true h.2.2).2 (by omega)
    exact .inr (.inr ⟨fun h => hnot h.1, fun h => hnot h.1, rfl⟩)
  rw [if_neg hcut]
  have htcp : IsTCP pkt :=
    ⟨by omega, not_not.mp hversion, decide_eq_true ⟨not_not.mp hproto, by omega⟩⟩
  cases outbound with
  | false =>
    rw [if_neg Bool.false_ne_true]
    by_cases hport : ports (dstPort pkt) = true
    · rw [if_pos hport]
      exact .inl ⟨htcp, rfl, hport, rfl⟩
    · rw [if_neg hport]
      exact .inr (.inr ⟨fun h => hport h.2.2, nofun, rfl⟩)
  | true =>
    rw [if_pos rfl]
    by_cases hrst : flags pkt &&& 0x04 ≠ 0 ∧ ports (srcPort pkt) = true
    · rw [if_pos hrst]
      exact .inr (.inl ⟨htcp, rfl, hrst.1, hrst.2, rfl⟩)
    · rw [if_neg hrst]
      exact .inr (.inr ⟨nofun, fun h => hrst h.2.2, rfl⟩)

/-- The packet is TCP from the network, to a port from which a SYN went out and no FIN or RST
since. -/
def Taken (ourIP4 : Addr) (es : List Event) (outbound : Bool) (pkt : Bytes) : Prop :=
  IsTCP pkt ∧ outbound = false ∧
    (endpoint ourIP4).Since (Opens ourIP4 (dstPort pkt)) (Keeps ourIP4 (dstPort pkt)) es

/-- The packet is an RST of the system's own from such a port. -/
def Suppressed (ourIP4 : Addr) (es : List Event) (outbound : Bool) (pkt : Bytes) : Prop :=
  IsTCP pkt ∧ outbound = true ∧ flags pkt &&& 0x04 ≠ 0 ∧
    (endpoint ourIP4).Since (Opens ourIP4 (srcPort pkt)) (Keeps ourIP4 (srcPort pkt)) es

/-- **Every captured packet**, after any run: it is handed to `onPacket` if it is to a port that is
open by the last SYN, FIN or RST from it, dropped if it is an RST of the system's own from such a
port, and re-injected unchanged otherwise. -/
theorem verdict_of_run (hrun : (endpoint ourIP4).run (endpoint ourIP4).init es = some s)
    (outbound : Bool) (pkt : Bytes) :
    (Taken ourIP4 es outbound pkt →
      readPacket s.gvisorPorts outbound pkt = .hand (dnat pkt)) ∧
    (Suppressed ourIP4 es outbound pkt → readPacket s.gvisorPorts outbound pkt = .drop) ∧
    (¬ Taken ourIP4 es outbound pkt → ¬ Suppressed ourIP4 es outbound pkt →
      readPacket s.gvisorPorts outbound pkt = .inject) := by
  simp only [Taken, Suppressed, ← gvisorPorts_iff_since hrun]
  rcases readPacket_cases s.gvisorPorts outbound pkt with ⟨htcp, rfl, hport, hread⟩ |
    ⟨htcp, rfl, hrst, hport, hread⟩ | ⟨htaken, hsuppressed, hread⟩
  · exact ⟨fun _ => hread, nofun, fun hnot => absurd ⟨htcp, rfl, hport⟩ hnot⟩
  · exact ⟨nofun, fun _ => hread, fun _ hnot => absurd ⟨htcp, rfl, hrst, hport⟩ hnot⟩
  · exact ⟨fun h => absurd h htaken, fun h => absurd h hsuppressed, fun _ _ => hread⟩

/-! ### Flows -/

/-- What a packet of a flow does to its being alive: which directions have had their FIN. -/
def track (outbound : Bool) (pkt : Bytes) (fins : Option (Bool × Bool)) : Option (Bool × Bool) :=
  if outbound ∧ isSyn pkt then some (false, false)
  else if flags pkt &&& 0x04 ≠ 0 then none
  else
    let fin : Bool := flags pkt &&& 0x01 ≠ 0
    match fins with
    | some (outFin, inFin) =>
      let outFin := outFin || (outbound && fin)
      let inFin := inFin || (!outbound && fin)
      if outFin && inFin then none else some (outFin, inFin)
    | none => none

/-- A SYN of the flow went out through `Send`, and since then neither an RST has passed nor a FIN in
each direction. -/
def Live (ourIP4 : Addr) (k : FlowKey) (es : List Event) : Prop :=
  (es.foldl (fun fins e =>
    match e with
    | .send _ _ =>
      match sent ourIP4 e with
      | some pkt => if extractFlowKey pkt = some k then track true pkt fins else fins
      | none => fins
    | .capture false pkt =>
      if extractFlowKey pkt = some (reverseKey k) then track false pkt fins else fins
    | .capture true _ => fins) none).isSome

instance (ourIP4 : Addr) (k : FlowKey) (es : List Event) : Decidable (Live ourIP4 k es) := by
  unfold Live
  infer_instance

/-- A packet of the network is handed on exactly if it is of a flow that is alive. -/
def TakesLive (ourIP4 : Addr) (es : List Event) (pkt : Bytes) (k : FlowKey) : Prop :=
  extractFlowKey pkt = some (reverseKey k) →
    ∀ s, (endpoint ourIP4).run (endpoint ourIP4).init es = some s →
      (readPacket s.gvisorPorts false pkt = .hand (dnat pkt) ↔ Live ourIP4 k es)

/-- A TCP segment without data. -/
def segment (src dst : Addr) (srcPort dstPort : UInt16) (flags : UInt8) : Bytes :=
  [0x45, 0, 0, 40, 0, 0, 0, 0, 64, 6, 0, 0] ++ src.bytes ++ dst.bytes ++ putUint16 srcPort ++
    putUint16 dstPort ++ [0, 0, 0, 0, 0, 0, 0, 0, 0x50, flags, 0, 0, 0, 0, 0, 0]

def home : Addr := ⟨192, 168, 0, 5⟩

def remote : Addr := ⟨1, 1, 1, 1⟩

/-- The SYN of a flow from port 1000 to port 80 of `remote`, and its FIN. -/
def sampleSyn : Bytes := segment ⟨10, 10, 10, 2⟩ remote 1000 80 0x02

def sampleFin : Bytes := segment ⟨10, 10, 10, 2⟩ remote 1000 80 0x11

/-- The flow of port 1000 to port 80 of an address. -/
def flowTo (addr : Addr) : FlowKey where
  srcIP := L3.ipU32 home
  dstIP := L3.ipU32 addr
  srcPort := 1000
  dstPort := 80
  proto := 6

/-- An answer to the SYN. -/
theorem verdict_of_run_sample : ∃ s, (endpoint home).run (endpoint home).init
    [.send sampleSyn none] = some s ∧
    (Taken home [.send sampleSyn none] false (segment remote home 80 1000 0x12) →
      readPacket s.gvisorPorts false (segment remote home 80 1000 0x12) =
        .hand (dnat (segment remote home 80 1000 0x12))) ∧
    (Suppressed home [.send sampleSyn none] false (segment remote home 80 1000 0x12) →
      readPacket s.gvisorPorts false (segment remote home 80 1000 0x12) = .drop) ∧
    (¬ Taken home [.send sampleSyn none] false (segment remote home 80 1000 0x12) →
      ¬ Suppressed home [.send sampleSyn none] false (segment remote home 80 1000 0x12) →
      readPacket s.gvisorPorts false (segment remote home 80 1000 0x12) = .inject) :=
  ⟨_, rfl, verdict_of_run rfl false (segment remote home 80 1000 0x12)⟩

/-- A packet of another address to the port is handed on; one of the flow is not, when only the
FIN went out; and one that comes after an RST is. -/
theorem not_takesLive :
    ¬ TakesLive home [.send sampleSyn none] (segment ⟨2, 2, 2, 2⟩ home 80 1000 0x10)
      (flowTo ⟨2, 2, 2, 2⟩) ∧
    ¬ TakesLive home [.send sampleSyn none, .send sampleFin none]
      (segment remote home 80 1000 0x10) (flowTo remote) ∧
    ¬ TakesLive home [.send sampleSyn none, .capture false (segment remote home 80 1000 0x14)]
      (segment remote home 80 1000 0x10) (flowTo remote) := by
  refine ⟨fun h => ?_, fun h => ?_, fun h => ?_⟩
  · have hiff := h (by decide +kernel) _ rfl
    exact absurd (hiff.mp (by decide +kernel)) (by decide +kernel)
  · have hiff := h (by decide +kernel) _ rfl
    exact absurd (hiff.mpr (by decide +kernel)) (by decide +kernel)
  · have hiff := h (by decide +kernel) _ rfl
    exact absurd (hiff.mp (by decide +kernel)) (by decide +kernel)

end OpenFlux.Tunnel.Windivert
