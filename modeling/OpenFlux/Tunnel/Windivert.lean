import Mathlib.Logic.Function.Basic
import OpenFlux.Algorithm.EventSystem
import OpenFlux.Network.Checksum

/-!
# The WinDivert endpoint (`tunnel/windivert/windivert_windows.go`)

The table `gvisorPorts` between `Send`, which fills it from the packets of the userspace stack, and
`readLoop`, which decides by it about every packet that is captured.  The entry of a port is true in
the table or missing, and the calls of `sync.Map` make each packet one step.
-/

namespace OpenFlux.Tunnel.Windivert

open L3 (Addr byteAt ihl)
open Network (ipChecksum tcpChecksum)
open Overwrite

abbrev Ports := UInt16 → Bool

/-- The packet is said to be TCP, and has a whole TCP header. -/
def hasTCP (pkt : Bytes) : Bool := byteAt pkt 9 = 6 ∧ ihl pkt + 20 ≤ pkt.length

def srcPort (pkt : Bytes) : UInt16 := beUint16 (byteAt pkt (ihl pkt)) (byteAt pkt (ihl pkt + 1))

def dstPort (pkt : Bytes) : UInt16 := beUint16 (byteAt pkt (ihl pkt + 2)) (byteAt pkt (ihl pkt + 3))

def flags (pkt : Bytes) : UInt8 := byteAt pkt (ihl pkt + 13)

/-! ### Rewriting -/

/-- `[]byte{byte(ck >> 8), byte(ck & 0xff)}`. -/
def checksumBytes (ck : UInt16) : Bytes := [(ck >>> 8).toUInt8, (ck &&& 0xFF).toUInt8]

/-- `recalcIPChecksum`. -/
def recalcIPChecksum (pkt : Bytes) : Bytes :=
  if pkt.length < 20 then pkt
  else
    let pkt := overwrite pkt 10 [0, 0]
    overwrite pkt 10 (checksumBytes (ipChecksum (pkt.take 20)))

/-- `recalcTCPChecksum`. -/
def recalcTCPChecksum (pkt : Bytes) : Bytes :=
  if pkt.length < 20 ∨ byteAt pkt 9 ≠ 6 ∨ pkt.length < ihl pkt + 20 then pkt
  else
    let i := ihl pkt
    let pkt := overwrite pkt (i + 16) [0, 0]
    let src : Addr := ⟨byteAt pkt 12, byteAt pkt 13, byteAt pkt 14, byteAt pkt 15⟩
    let dst : Addr := ⟨byteAt pkt 16, byteAt pkt 17, byteAt pkt 18, byteAt pkt 19⟩
    overwrite pkt (i + 16) (checksumBytes (tcpChecksum (pkt.drop i) src dst))

/-- What `onPacket` gets of a captured packet. -/
def dnat (pkt : Bytes) : Bytes :=
  recalcTCPChecksum (recalcIPChecksum (overwrite pkt 16 [10, 10, 10, 2]))

/-- `Send` up to the checksum of the IP header. -/
def snat (ourIP4 : Addr) (ipPacket : Bytes) : Bytes :=
  recalcIPChecksum (overwrite ipPacket 12 ourIP4.bytes)

/-! ### `Send` -/

/-- What `Send` makes of the table. -/
def updatePorts (ports : Ports) (pkt : Bytes) : Ports :=
  let ports :=
    if flags pkt &&& 0x02 ≠ 0 ∧ flags pkt &&& 0x10 = 0 then
      Function.update ports (srcPort pkt) true
    else ports
  if flags pkt &&& 0x01 ≠ 0 ∨ flags pkt &&& 0x04 ≠ 0 then
    Function.update ports (srcPort pkt) false
  else ports

/-- `Send` up to `handle.Send`: the packet for it, and the table. -/
def send (ourIP4 : Addr) (ports : Ports) (ipPacket : Bytes) : Except String (Bytes × Ports) :=
  if ipPacket.length < 20 then
    .error ("packet too short: " ++ toString ipPacket.length)
  else if byteAt ipPacket 0 >>> 4 ≠ 4 then .error "not ipv4"
  else
    let pkt := snat ourIP4 ipPacket
    if hasTCP pkt then .ok (recalcTCPChecksum pkt, updatePorts ports pkt)
    else .ok (pkt, ports)

/-! ### `readLoop` -/

inductive Verdict
  -- `handle.Send`, as it was captured
  | inject
  -- `onPacket`, if it is set
  | hand (pktCopy : Bytes)
  | drop
  deriving DecidableEq

/-- What `readLoop` does with a packet. -/
def readPacket (ports : Ports) (outbound : Bool) (pkt : Bytes) : Verdict :=
  if pkt.length < 20 then .inject
  else if byteAt pkt 0 >>> 4 ≠ 4 ∨ byteAt pkt 9 ≠ 6 then .inject
  else if pkt.length < ihl pkt + 20 then .inject
  else if outbound then
    if flags pkt &&& 0x04 ≠ 0 ∧ ports (srcPort pkt) then .drop else .inject
  else if ports (dstPort pkt) then .hand (dnat pkt)
  else .inject

/-! ### Runs -/

structure Endpoint where
  gvisorPorts : Ports := fun _ => false
  -- what was made of the captured packets, the last one first
  verdicts : List Verdict := []

inductive Event
  -- `Send`, whose `handle.Send` may fail
  | send (ipPacket : Bytes) (err : Option String)
  -- a packet is captured
  | capture (outbound : Bool) (pkt : Bytes)

def step (ourIP4 : Addr) (s : Endpoint) : Event → Option Endpoint
  | .send ipPacket _ =>
    match send ourIP4 s.gvisorPorts ipPacket with
    | .error _ => some s
    | .ok (_, gvisorPorts) => some { s with gvisorPorts }
  | .capture outbound pkt =>
    some { s with verdicts := readPacket s.gvisorPorts outbound pkt :: s.verdicts }

/-- An endpoint that has just been made. -/
def endpoint (ourIP4 : Addr) : EventSystem Endpoint Event where
  init := {}
  step := step ourIP4

end OpenFlux.Tunnel.Windivert
