import OpenFlux.Go.Base64
import OpenFlux.Go.Json
import OpenFlux.Transport.Framing
import OpenFlux.Transport.Records

/-!
# A room of the Cups.online transport (`transport/cupsonline/cupsonline.go`)

A batch of packets is published as the column of a cursor in the shared editor of the room, and
found in the pushes of other users' cursors.  JSON is modelled by its values: `sendBatch` returns
the message it writes, and `handleMessage` takes the value of the text it is given.
-/

namespace OpenFlux.Transport.Cupsonline

/-- The fields of `cupsAuth` and `channelStats` that messages are made of and counted in. -/
structure Room where
  roomUUID : Bytes
  userUUID : Bytes
  rpcID : ℤ
  packetsSent : UInt64
  bytesSent : UInt64
  batchesSent : UInt64
  packetsRecv : UInt64
  bytesRecv : UInt64
  batchesRecv : UInt64
  deriving DecidableEq

/-- The column string of a batch. -/
def batchColumn (batch : List Bytes) : Bytes := Base64.encode rawStdEncoding (frameBatch batch)

/-- The message with which `sendBatch` publishes a column. -/
def changeCursors (w : Room) (col : Bytes) : Json :=
  .obj [
    (literal "id", .num (w.rpcID + 1)),
    (literal "rpc", .obj [
      (literal "data", .obj [
        (literal "cursors", .arr [.obj [(literal "column", .str col), (literal "row", .num 0)]]),
        (literal "ranges", .arr []),
        (literal "room", .str w.roomUUID),
        (literal "user", .str w.userUUID)]),
      (literal "method", .str (literal "shared_editor_change_cursors"))])]

/-- `sendBatch`: the room after it, and the message.  `written` is whether the web socket took the
message. -/
def sendBatch (w : Room) (batch : List Bytes) (written : Except String Unit) :
    Room × Json × Except String Unit :=
  let msg := changeCursors w (batchColumn batch)
  let w := { w with rpcID := w.rpcID + 1 }
  match written with
  | .error err => (w, msg, .error err)
  | .ok _ =>
    ({ w with
        packetsSent := w.packetsSent + UInt64.ofNat batch.length
        bytesSent := w.bytesSent + UInt64.ofNat (totalBytes batch)
        batchesSent := w.batchesSent + 1 }, msg, .ok ())

/-- The message of `keepAliveLoop`. -/
def sharedEditorPing (w : Room) : Json :=
  .obj [
    (literal "id", .num (w.rpcID + 1)),
    (literal "rpc", .obj [
      (literal "data", .obj [
        (literal "room", .str w.roomUUID),
        (literal "user", .str w.userUUID)]),
      (literal "method", .str (literal "shared_editor_ping"))])]

/-- A push of the cursors of `user`, the first one with this column. -/
structure CursorsUpdate (raw : Json) (user col : Bytes) : Prop where
  push : ∃ push pub data payload cursor cursors,
    raw.get (literal "push") = some (.obj push) ∧ (Json.obj push).get (literal "pub") = some pub ∧
    pub.get (literal "data") = some (.obj data) ∧
    (Json.obj data).get (literal "type") = some (.str (literal "cursors_update")) ∧
    (Json.obj data).get (literal "payload") = some (.obj payload) ∧
    (Json.obj payload).get (literal "user_uuid") = some (.str user) ∧
    (Json.obj payload).get (literal "cursors") = some (.arr (.obj cursor :: cursors)) ∧
    (Json.obj cursor).get (literal "column") = some (.str col)

/-- The column string of a push, up to the checks of `handleMessage` that lead to it. -/
def pushedColumn (w : Room) (raw : Json) : Option Bytes := do
  let push ← (raw.get (literal "push")).bind Json.asMap
  let pub ← push.get (literal "pub")
  let data ← (pub.get (literal "data")).bind Json.asMap
  guard (((data.get (literal "type")).bind Json.asString).getD [] = literal "cursors_update")
  let payload ← (data.get (literal "payload")).bind Json.asMap
  guard (((payload.get (literal "user_uuid")).bind Json.asString).getD [] ≠ w.userUUID)
  let cursors ← (payload.get (literal "cursors")).bind Json.asArray
  let c0 ← cursors.head?.bind Json.asMap
  let colStr ← (c0.get (literal "column")).bind Json.asString
  guard (colStr ≠ [])
  return colStr

/-- The bytes of a column string. -/
def decodeColumn (colStr : Bytes) : Option Bytes :=
  (Base64.decode rawStdEncoding colStr).or (Base64.decode stdEncoding colStr)

/-- What `handleMessage` counts for the packets it has read. -/
def Room.receive (w : Room) (packets : List Bytes) : Room :=
  if packets.length = 0 then w
  else
    { w with
      packetsRecv := w.packetsRecv + UInt64.ofNat packets.length
      bytesRecv := w.bytesRecv + UInt64.ofNat (totalBytes packets)
      batchesRecv := w.batchesRecv + 1 }

/-- `handleMessage` of a text other than `{}`: the room after it and the packets passed to
`onData`. -/
def handleMessage (w : Room) (raw : Json) : Room × List Bytes :=
  match (pushedColumn w raw).bind decodeColumn with
  | none => (w, [])
  | some decoded =>
    let packets := (readRecords decoded).1
    (w.receive packets, packets)

end OpenFlux.Transport.Cupsonline
