import OpenFlux.Transport.Cupsonline.Flows
import OpenFlux.Transport.Cupsonline.Room
import OpenFlux.Transport.Equiv.Records

/-!
# Batches of the Cups.online transport

The column of another user's push is found and decoded whatever else the push says
(`handleMessage_of_push`), so what arrives of a published batch is what the record loop makes of
its frame: the batch itself, fully counted, exactly when each of its packets has between 1 and
65535 bytes (`handleMessage_batch_iff`).
-/

namespace OpenFlux.Transport.Cupsonline

theorem CursorsUpdate.pushedColumn_eq {w : Room} {raw : Json} {user col : Bytes}
    (h : CursorsUpdate raw user col) (huser : user ≠ w.userUUID) :
    pushedColumn w raw = if col = [] then none else some col := by
  obtain ⟨push, pub, data, payload, cursor, cursors, h1, h2, h3, h4, h5, h6, h7, h8⟩ := h.push
  by_cases hcol : col = []
  · simp [pushedColumn, h1, h2, h3, h4, h5, h6, h7, h8, Json.asMap, Json.asString, Json.asArray,
      huser, hcol]
  · simp [pushedColumn, h1, h2, h3, h4, h5, h6, h7, h8, Json.asMap, Json.asString, Json.asArray,
      huser, hcol]

/-- A room's own cursors are not taken. -/
theorem CursorsUpdate.pushedColumn_own {w : Room} {raw : Json} {col : Bytes}
    (h : CursorsUpdate raw w.userUUID col) : pushedColumn w raw = none := by
  obtain ⟨push, pub, data, payload, cursor, cursors, h1, h2, h3, h4, h5, h6, -, -⟩ := h.push
  simp [pushedColumn, h1, h2, h3, h4, h5, h6, Json.asMap, Json.asString]

theorem handleMessage_of_none {w : Room} {raw : Json} (h : pushedColumn w raw = none) :
    handleMessage w raw = (w, []) := by
  rw [handleMessage, h]
  rfl

theorem decodeColumn_batchColumn (batch : List Bytes) :
    decodeColumn (batchColumn batch) = some (frameBatch batch) := by
  rw [decodeColumn, batchColumn, Base64.decode_encode]
  rfl

theorem frameBatch_eq_nil_iff {batch : List Bytes} : frameBatch batch = [] ↔ batch = [] := by
  rcases batch with _ | ⟨p, ps⟩
  · exact iff_of_true rfl rfl
  · rw [frameBatch_eq_frame, LengthPrefixed.frame_cons]
    exact iff_of_false nofun nofun

/-- **What arrives** of a published batch: what the loop reads of its frame. -/
theorem handleMessage_of_push {w : Room} {raw : Json} {user : Bytes} {batch : List Bytes}
    (h : CursorsUpdate raw user (batchColumn batch)) (huser : user ≠ w.userUUID) :
    handleMessage w raw =
      (w.receive (readRecords (frameBatch batch)).1, (readRecords (frameBatch batch)).1) := by
  rw [handleMessage, h.pushedColumn_eq huser]
  by_cases hcol : batchColumn batch = []
  · have hnil := frameBatch_eq_nil_iff.mp (Base64.encode_eq_nil_iff.mp hcol)
    have hread : readRecords (frameBatch []) = ([], []) := readRecords_nil
    rw [if_pos hcol, hnil, hread]
    rfl
  · rw [if_neg hcol, Option.bind_some, decodeColumn_batchColumn]

theorem Room.receive_packetsRecv (w : Room) (packets : List Bytes) :
    (w.receive packets).packetsRecv = w.packetsRecv + UInt64.ofNat packets.length := by
  rcases packets with _ | ⟨p, ps⟩
  · exact (UInt64.add_zero _).symm
  · rfl

theorem Room.receive_bytesRecv (w : Room) (packets : List Bytes) :
    (w.receive packets).bytesRecv = w.bytesRecv + UInt64.ofNat (totalBytes packets) := by
  rcases packets with _ | ⟨p, ps⟩
  · exact (UInt64.add_zero _).symm
  · rfl

/-- **The column round trip**: a published batch that another user's room is pushed arrives whole,
in order and counted packet by packet and byte by byte, exactly when each of its packets has
between 1 and 65535 bytes. -/
theorem handleMessage_batch_iff {w : Room} {raw : Json} {user : Bytes} {batch : List Bytes}
    (h : CursorsUpdate raw user (batchColumn batch)) (huser : user ≠ w.userUUID) :
    ((handleMessage w raw).2 = batch ∧
      (handleMessage w raw).1.packetsRecv = w.packetsRecv + UInt64.ofNat batch.length ∧
      (handleMessage w raw).1.bytesRecv = w.bytesRecv + UInt64.ofNat (totalBytes batch)) ↔
    ∀ p ∈ batch, 0 < p.length ∧ p.length ≤ 65535 := by
  rw [handleMessage_of_push h huser]
  dsimp only
  refine Iff.trans ⟨fun hall => hall.1, fun heq => ⟨heq, ?_, ?_⟩⟩ readRecords_frameBatch_iff
  · rw [heq, Room.receive_packetsRecv]
  · rw [heq, Room.receive_bytesRecv]

/-- A push with one cursor. -/
def samplePush (user col : Bytes) : Json :=
  .obj [(literal "push", .obj [(literal "pub", .obj [(literal "data", .obj [
    (literal "type", .str (literal "cursors_update")),
    (literal "payload", .obj [
      (literal "user_uuid", .str user),
      (literal "cursors", .arr [.obj [(literal "column", .str col), (literal "row", .num 0)]])])])])])]

theorem cursorsUpdate_samplePush (user col : Bytes) : CursorsUpdate (samplePush user col) user col :=
  ⟨⟨_, _, _, _, _, _, rfl, rfl, rfl, rfl, rfl, rfl, rfl, rfl⟩⟩

/-- A room that has sent and received nothing. -/
def sampleRoom : Room where
  roomUUID := literal "room"
  userUUID := literal "me"
  rpcID := 2
  packetsSent := 0
  bytesSent := 0
  batchesSent := 0
  packetsRecv := 0
  bytesRecv := 0
  batchesRecv := 0

theorem handleMessage_batch_short :
    (handleMessage sampleRoom (samplePush (literal "peer") (batchColumn [[1, 2, 3], [4]]))).2 =
      [[1, 2, 3], [4]] :=
  ((handleMessage_batch_iff (cursorsUpdate_samplePush _ _) (by decide)).mpr (by decide)).1

/-- An empty packet, which `Send` accepts, ends the batch it is in. -/
theorem emptyPacket_ends_batch :
    (∀ p ∈ [[], [4]], CupsonlineTransport.sendWS .default [] p = some ([p], .ok ())) ∧
    (handleMessage sampleRoom (samplePush (literal "peer") (batchColumn [[], [4]]))).2 ≠
      [[], [4]] := by
  refine ⟨by decide, ?_⟩
  rw [handleMessage_of_push (cursorsUpdate_samplePush _ _) (by decide)]
  show (readRecords (frameBatch [[], [4]])).1 ≠ _
  rw [Ne, readRecords_frameBatch_iff]
  decide

end OpenFlux.Transport.Cupsonline
