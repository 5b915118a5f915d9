import Mathlib.Logic.Function.Basic
import OpenFlux.Go.Base64
import OpenFlux.Go.Json
import OpenFlux.Transport.Framing
import OpenFlux.Transport.Records

/-!
# The Volga transport (`transport/yandex/vyandex.go`)

Packets are collected into batches, and a batch is posted to the document's relay as the text of a
bundle that looks like an editing operation; the other side finds the text in what the web socket
pushes.  JSON is modelled by its values: `sendBatch` returns the payload it posts, and
`handleRelayMessage` takes the `message` that the relay passes on.
-/

namespace OpenFlux.Transport.Volga

/-- The fields of `VolgaConfig` that bound what is queued and batched. -/
structure Config where
  workerCount : ℕ
  queueSize : ℕ
  batchSize : ℕ
  batchMaxBytes : ℕ
  maxPayloadBytes : ℕ

/-- `DefaultVolgaConfig`. -/
def Config.default : Config where
  workerCount := 2000
  queueSize := 1000000
  batchSize := 20
  batchMaxBytes := 4 * 1024 * 1024
  maxPayloadBytes := 5000000

/-- `relayClient.Send`: the queue after it and its result. -/
def send (cfg : Config) (queue : List Bytes) (data : Bytes) : List Bytes × Except String Unit :=
  if data.length = 0 then (queue, .ok ())
  else if cfg.maxPayloadBytes < data.length then
    (queue, .error s!"packet too large: {data.length} > {cfg.maxPayloadBytes}")
  else if queue.length < cfg.queueSize then (queue ++ [data], .ok ())
  else (queue, .error "queue full")

/-- What `relayClient` puts into its messages: the user id, the counters and the frontier. -/
structure RelayClient where
  userID : ℤ
  bundleID : UInt64
  seq : UInt64
  localID : UInt64
  frontier : Bytes

/-- `fmt.Sprintf("1-%d.%d", userID, seq)`. -/
def opID (userID : ℤ) (seq : UInt64) : Bytes :=
  literal "1-" ++ decimal userID ++ literal "." ++ decimal seq.toNat

/-- `getFrontier`. -/
def RelayClient.getFrontier (r : RelayClient) : Json :=
  if r.frontier = [] then .arr [] else .arr [.str r.frontier]

/-- The range of a caret in the first text of the document. -/
def caret : Json := .arr [.str (literal "vyd:t/00000000000008"), .num 0, .num (-1)]

/-- The operation `textInsert` of a bundle. -/
def textInsert (id : Bytes) (frontier : Json) (localID : UInt64) : Json :=
  .obj [
    (literal "actionName", .str (literal "textInsert")),
    (literal "frontier", frontier),
    (literal "id", .str id),
    (literal "localId", .num localID.toNat),
    (literal "ops", .arr [.arr [.str (literal "it"), .str (literal "vyd:t/00000000000008"), .num 0,
      .str (literal "A")]]),
    (literal "sideEffect", .bool false),
    (literal "undoable", .bool true)]

/-- The operation `setCaret` of a bundle. -/
def setCaret (id opID : Bytes) (userID : ℤ) (localID : UInt64) : Json :=
  .obj [
    (literal "actionName", .str (literal "setCaret")),
    (literal "frontier", .arr [.str opID]),
    (literal "id", .str id),
    (literal "localId", .num localID.toNat),
    (literal "ops", .arr [.arr [.str (literal "us"), .num userID, .arr [.arr [caret, caret]]]]),
    (literal "sideEffect", .bool true),
    (literal "undoable", .bool false)]

/-- `sendBatch`: the client after it and the payload it posts. -/
def sendBatch (r : RelayClient) (batch : List Bytes) : RelayClient × Json :=
  let encoded := Base64.encode stdEncoding (frameBatch batch)
  let op := opID r.userID (r.seq + 1)
  let relayOp := opID r.userID (r.seq + 2)
  let bundle := Json.arr [textInsert op r.getFrontier (r.localID + 1),
    setCaret relayOp op r.userID (r.localID + 2), .str encoded]
  ({ r with seq := r.seq + 2, localID := r.localID + 2, bundleID := r.bundleID + 1 },
    .obj [
      (literal "message", .obj [
        (literal "bundle", bundle),
        (literal "bundleId", .num (r.bundleID + 1).toNat)]),
      (literal "targetUserId", .null)])

/-- The message of a payload, which the relay passes on. -/
def postedMessage (payload : Json) : Option Json := payload.get (literal "message")

/-- What the workers share, and the batch of each. -/
structure Workers (cfg : Config) where
  client : RelayClient
  queue : List Bytes := []
  batches : Fin cfg.workerCount → List Bytes := fun _ => []

namespace Workers

variable {cfg : Config}

/-- `worker` takes a packet; a batch that is full is posted first. -/
def take (r : Workers cfg) (w : Fin cfg.workerCount) : Option (Workers cfg) :=
  let batch := r.batches w
  if batch ≠ [] ∧ (cfg.batchSize ≤ batch.length ∨ cfg.batchMaxBytes ≤ totalBytes batch) then none
  else
    match r.queue with
    | pkt :: queue => some { r with queue, batches := Function.update r.batches w (batch ++ [pkt]) }
    | [] => none

/-- `flush` of a worker whose batch is not empty, because it is full or its timer has fired: the
workers after it, and the client and the batch of the `sendBatch`. -/
def flush (r : Workers cfg) (w : Fin cfg.workerCount) :
    Option (Workers cfg × RelayClient × List Bytes) :=
  let batch := r.batches w
  if batch = [] then none
  else
    some ({ r with
        client := (sendBatch r.client batch).1
        batches := Function.update r.batches w [] },
      r.client, batch)

/-- `keepAliveLoop` sends a packet of one zero byte. -/
def keepAlive (r : Workers cfg) : Workers cfg := { r with queue := (send cfg r.queue [0x00]).1 }

end Workers

/-! ### The receiving side -/

/-- `decodeBatch`. -/
def decodeBatch (decoded : Bytes) : List Bytes :=
  let r := readRecords decoded
  if r.1 = [] ∧ r.2 ≠ [] then [r.2] else r.1

/-- `handleBundleItem`: the frontier after it and the packets passed to `onData`. -/
def handleBundleItem (frontier : Bytes) (item : Json) : Bytes × List Bytes :=
  match item with
  | .obj members =>
    match Json.stringField (Json.fields (literal "id") members),
      Json.stringField (Json.fields (literal "actionName") members) with
    | some id, some action => (if action ≠ [] ∧ id ≠ [] then id else frontier, [])
    | _, _ => (frontier, [])
  | .str asStr =>
    if asStr = [] then (frontier, [])
    else
      match Base64.decode stdEncoding asStr with
      | none => (frontier, [])
      | some decoded => (frontier, decodeBatch decoded)
  | _ => (frontier, [])

/-- The loop over the items of a bundle. -/
def handleBundleItems (frontier : Bytes) : List Json → Bytes × List Bytes
  | [] => (frontier, [])
  | item :: items =>
    let r := handleBundleItem frontier item
    let rest := handleBundleItems r.1 items
    (rest.1, r.2 ++ rest.2)

/-- `handleRelayMessage`. -/
def handleRelayMessage (frontier : Bytes) (raw : Json) : Bytes × List Bytes :=
  match raw with
  | .obj members =>
    match Json.rawArrayField (Json.fields (literal "bundle") members) with
    | some bundle => handleBundleItems frontier bundle
    | none => (frontier, [])
  | _ => (frontier, [])

end OpenFlux.Transport.Volga
