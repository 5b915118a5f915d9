import Mathlib.Logic.Function.Basic
import OpenFlux.L3.Flow

/-!
# Flows over rooms (`transport/cupsonline/cupsonline.go`)

`CupsonlineTransport.Send` reads a flow key from the bytes it is given and puts them on the queue of
one of the connected rooms: the first time by the hash of the key, after that by the table `flows`.
A transport of `n` rooms holds its room numbers as `Fin n`, so no entry of the table points past
the last room.
-/

namespace OpenFlux.Transport.Cupsonline

open L3 (byteAt ihl)

/-- The fields of `CupsonlineConfig` that bound what is queued and batched. -/
structure Config where
  batchMaxPackets : ℕ
  batchMaxBytes : ℕ
  sendQueueSize : ℕ
  maxPayloadBytes : ℕ

/-- `DefaultCupsonlineConfig`. -/
def Config.default : Config where
  batchMaxPackets := 64
  batchMaxBytes := 32 * 1024
  sendQueueSize := 65536
  maxPayloadBytes := 16000000

/-- `flowKey`, the five fields of the exit's. -/
abbrev FlowKey := L3.FlowKey

/-- The key `flowKey{}`. -/
def zeroKey : FlowKey := ⟨0, 0, 0, 0, 0⟩

/-- `extractFlowKey`. -/
def extractFlowKey (pkt : Bytes) : FlowKey :=
  if pkt.length < 20 then zeroKey
  else if byteAt pkt 0 >>> 4 ≠ 4 then zeroKey
  else
    let proto := byteAt pkt 9
    let srcIP := beUint32 (byteAt pkt 12) (byteAt pkt 13) (byteAt pkt 14) (byteAt pkt 15)
    let dstIP := beUint32 (byteAt pkt 16) (byteAt pkt 17) (byteAt pkt 18) (byteAt pkt 19)
    if pkt.length < ihl pkt + 4 then { zeroKey with srcIP, dstIP, proto }
    else if proto = 6 ∨ proto = 17 then
      { srcIP, dstIP, proto
        srcPort := beUint16 (byteAt pkt (ihl pkt)) (byteAt pkt (ihl pkt + 1))
        dstPort := beUint16 (byteAt pkt (ihl pkt + 2)) (byteAt pkt (ihl pkt + 3)) }
    else { zeroKey with srcIP, dstIP, proto }

/-- `fnv.New64a`, one `Write` and `Sum64`. -/
def fnv64a (b : Bytes) : UInt64 :=
  b.foldl (fun h c => (h ^^^ c.toUInt64) * 1099511628211) 14695981039346656037

/-- `flowHash`. -/
def flowHash (k : FlowKey) : UInt64 :=
  fnv64a (putUint32 k.srcIP ++ putUint32 k.dstIP ++ putUint16 k.srcPort ++ putUint16 k.dstPort ++
    [k.proto, 0])

/-- The table `flows` and the queues of the rooms `wss`.  An entry of the table is the `chIdx` of a
`flowSender`. -/
structure CupsonlineTransport (n : ℕ) where
  flows : FlowKey → Option (Fin n)
  queues : Fin n → List Bytes

namespace CupsonlineTransport

variable {n : ℕ}

/-- The transport that `Start` leaves behind once `n` rooms are connected. -/
def start : CupsonlineTransport n where
  flows _ := none
  queues _ := []

/-- The room of a key, from the table or else by its hash. -/
def room (t : CupsonlineTransport n) (hn : 0 < n) (key : FlowKey) : Fin n :=
  match t.flows key with
  | some chIdx => chIdx
  | none => ⟨(flowHash key).toNat % n, Nat.mod_lt _ hn⟩

/-- `cupsWS.Send`: the queue after it and its result.  It blocks while the queue is full. -/
def sendWS (cfg : Config) (queue : List Bytes) (data : Bytes) :
    Option (List Bytes × Except String Unit) :=
  if cfg.maxPayloadBytes < data.length then some (queue, .error s!"too large: {data.length}")
  else if queue.length < cfg.sendQueueSize then some (queue ++ [data], .ok ())
  else none

/-- `Send`. -/
def send (cfg : Config) (t : CupsonlineTransport n) (data : Bytes) :
    Option (CupsonlineTransport n × Except String Unit) :=
  if hn : 0 < n then
    let key := extractFlowKey data
    let chIdx := t.room hn key
    match sendWS cfg (t.queues chIdx) data with
    | some (queue, result) =>
      some ({ flows := Function.update t.flows key (some chIdx)
              queues := Function.update t.queues chIdx queue }, result)
    | none => none
  else some (t, .error "no ws")

/-- The `sendLoop` of a room takes the oldest packet from its queue. -/
def take (t : CupsonlineTransport n) (i : Fin n) : CupsonlineTransport n :=
  { t with queues := Function.update t.queues i (t.queues i).tail }

end CupsonlineTransport

end OpenFlux.Transport.Cupsonline
