import OpenFlux.Transport.Equiv.Records
import OpenFlux.Transport.Volga

/-!
# Batches of the Volga transport

`decodeBatch` reads the frame of a batch back exactly when every packet fits its header, or the
batch is one packet whose length the header holds as zero: then the loop reads nothing and the
fallback takes all that is left (`decodeBatch_frameBatch_iff`).  The bundle around the batch is
taken apart as it was put together (`handleRelayMessage_sendBatch`), so the same condition decides
whether a posted batch arrives (`relayed_sendBatch_iff`).

The fallback is meant for input that is not framed, but by then the loop has taken the first two
bytes for a header (`decodeBatch_of_not_begins`).  So of an input of three or more bytes that begins
with no record `decodeBatch` returns a tail (`intact_decodeBatch_iff`).
-/

namespace OpenFlux.Transport.Volga

/-- What `Send` queues. -/
theorem send_eq_ok {cfg : Config} {queue : List Bytes} {p : Bytes} (hpos : 0 < p.length)
    (hle : p.length ≤ cfg.maxPayloadBytes) (hroom : queue.length < cfg.queueSize) :
    send cfg queue p = (queue ++ [p], .ok ()) := by
  rw [send, if_neg (by omega), if_neg (by omega), if_pos hroom]

/-! ### Batches -/

/-- **The batch format, both ways**, for packets that are not empty. -/
theorem decodeBatch_frameBatch_iff {batch : List Bytes} (hne : ∀ p ∈ batch, p ≠ []) :
    decodeBatch (frameBatch batch) = batch ↔
      (∀ p ∈ batch, p.length ≤ 65535) ∨ ∃ p, batch = [p] ∧ 65536 ∣ p.length := by
  have hfits : (∀ p ∈ batch, p.length ≤ 65535) ↔ ∀ p ∈ batch, Fits p :=
    forall₂_congr fun p hp => (and_iff_right (List.length_pos_of_ne_nil (hne p hp))).symm
  rw [hfits, ← readRecords_frameBatch_iff]
  rcases batch with _ | ⟨p, ps⟩
  · have hnil : readRecords (frameBatch []) = ([], []) := readRecords_nil
    rw [decodeBatch, hnil]
    exact iff_of_true rfl (.inl rfl)
  · have hp : p ≠ [] := hne p (List.mem_cons_self ..)
    by_cases hzero : p.length % 65536 = 0
    · -- the loop ends at once, and all that is left is one packet
      have hread : readRecords (frameBatch (p :: ps)) = ([], p ++ frameBatch ps) := by
        rw [readRecords_cons, if_pos hzero]
      have hrest : p ++ frameBatch ps ≠ [] := fun h => hp (List.append_eq_nil_iff.mp h).1
      rw [decodeBatch, hread, if_pos ⟨rfl, hrest⟩]
      constructor
      · intro heq
        obtain ⟨-, rfl⟩ := List.cons.inj heq
        exact .inr ⟨p, rfl, Nat.dvd_of_mod_eq_zero hzero⟩
      · rintro (heq | ⟨q, heq, -⟩)
        · cases heq
        · obtain ⟨-, rfl⟩ := List.cons.inj heq
          exact congrArg (fun x => [x]) (List.append_nil p)
    · have hread : (readRecords (frameBatch (p :: ps))).1 ≠ [] := by
        rw [readRecords_cons, if_neg hzero]
        exact nofun
      rw [decodeBatch, if_neg fun h => hread h.1]
      refine (or_iff_left ?_).symm
      rintro ⟨q, heq, hdvd⟩
      obtain ⟨rfl, -⟩ := List.cons.inj heq
      exact hzero (Nat.mod_eq_zero_of_dvd hdvd)

/-! ### Unframed input -/

/-- What `decodeBatch` is to return: the records in front of the input, whole and in order, or all
of an input that begins with none. -/
def Intact (decoded : Bytes) (packets : List Bytes) : Prop :=
  (frameBatch packets <+: decoded ∧ ∀ p ∈ packets, p.length ≤ 65535) ∨
    (¬ Begins decoded ∧ packets = [decoded])

theorem intact_nil (decoded : Bytes) : Intact decoded [] :=
  .inl ⟨List.nil_prefix, List.forall_mem_nil _⟩

/-- Records in front of the input are all that is returned. -/
theorem decodeBatch_of_begins {decoded : Bytes} (h : Begins decoded) :
    decodeBatch decoded = (readRecords decoded).1 :=
  if_neg fun hnil => readRecords_ne_nil_iff.mpr h hnil.1

/-- The fallback, without the two bytes that were read as a header. -/
theorem decodeBatch_of_not_begins {decoded : Bytes} (h : ¬ Begins decoded) :
    decodeBatch decoded =
      if decoded = [] ∨ decoded.length = 2 then []
      else if decoded.length = 1 then [decoded]
      else [decoded.drop 2] := by
  rw [decodeBatch, readRecords_of_not_begins h]
  match decoded with
  | [] => rfl
  | [_] => rfl
  | [_, _] => rfl
  | _ :: _ :: _ :: _ => rfl

/-- The tail is no record, and not all of the input. -/
theorem not_intact_drop_two {decoded : Bytes} (h : ¬ Begins decoded) (hlen : 3 ≤ decoded.length) :
    ¬ Intact decoded [decoded.drop 2] := by
  have hdrop : (decoded.drop 2).length = decoded.length - 2 := List.length_drop
  rintro (⟨hfront, hle⟩ | ⟨-, hall⟩)
  · have hshort := hle _ (List.mem_singleton_self _)
    exact h ⟨decoded.drop 2, ⟨by omega, hshort⟩, hfront⟩
  · have heq := congrArg List.length (List.cons.inj hall).1
    omega

/-- **What comes back whole**: `decodeBatch` returns records of the input or all of it exactly when
the input has at most two bytes or begins with a complete record that is not empty. -/
theorem intact_decodeBatch_iff (decoded : Bytes) :
    Intact decoded (decodeBatch decoded) ↔ decoded.length ≤ 2 ∨ Begins decoded := by
  by_cases hbegins : Begins decoded
  · rw [decodeBatch_of_begins hbegins]
    obtain ⟨hfront, hfits⟩ := frameBatch_readRecords_isPrefix decoded
    exact iff_of_true (.inl ⟨hfront, fun p hp => (hfits p hp).2⟩) (.inr hbegins)
  · rw [or_iff_left hbegins, decodeBatch_of_not_begins hbegins]
    split_ifs with hnone hone
    · refine iff_of_true (intact_nil decoded) ?_
      rcases hnone with rfl | htwo
      · exact Nat.zero_le 2
      · exact htwo.le
    · exact iff_of_true (.inr ⟨hbegins, rfl⟩) (hone.le.trans (by omega))
    · have hpos := List.length_pos_of_ne_nil fun hnil => hnone (.inl hnil)
      have htwo : decoded.length ≠ 2 := fun h => hnone (.inr h)
      exact iff_of_false (not_intact_drop_two hbegins (by omega)) (by omega)

/-- A header of five bytes with one behind it. -/
def cutRecord : Bytes := [0x00, 0x05, 0x61]

/-- The one byte comes back as a packet. -/
theorem cutRecord_not_intact : decodeBatch cutRecord = [[0x61]] ∧
    ¬ ∀ decoded, Intact decoded (decodeBatch decoded) := by
  have hnil : (readRecords cutRecord).1 = [] := by
    rw [cutRecord, readRecords]
    rfl
  have hbegins : ¬ Begins cutRecord := fun h => readRecords_ne_nil_iff.mpr h hnil
  have htail : decodeBatch cutRecord = [cutRecord.drop 2] := decodeBatch_of_not_begins hbegins
  refine ⟨htail, fun hall => not_intact_drop_two hbegins (by decide) ?_⟩
  rw [← htail]
  exact hall cutRecord

/-! ### Bundles -/

theorem opID_ne_nil (userID : ℤ) (seq : UInt64) : opID userID seq ≠ [] := by
  show 0x31 :: _ ≠ []
  exact nofun

/-- An operation moves the frontier to its id. -/
theorem handleBundleItem_textInsert {frontier id : Bytes} (hid : id ≠ []) (front : Json)
    (localID : UInt64) : handleBundleItem frontier (textInsert id front localID) = (id, []) := by
  show ((if literal "textInsert" ≠ [] ∧ id ≠ [] then id else frontier), ([] : List Bytes)) = _
  rw [if_pos ⟨by decide, hid⟩]

theorem handleBundleItem_setCaret {frontier id : Bytes} (hid : id ≠ []) (op : Bytes) (userID : ℤ)
    (localID : UInt64) : handleBundleItem frontier (setCaret id op userID localID) = (id, []) := by
  show ((if literal "setCaret" ≠ [] ∧ id ≠ [] then id else frontier), ([] : List Bytes)) = _
  rw [if_pos ⟨by decide, hid⟩]

theorem decodeBatch_nil : decodeBatch [] = [] := by
  rw [decodeBatch, readRecords_nil]
  rfl

/-- The text of a batch is taken for its bytes. -/
theorem handleBundleItem_encode (frontier s : Bytes) :
    handleBundleItem frontier (.str (Base64.encode stdEncoding s)) = (frontier, decodeBatch s) := by
  by_cases hs : s = []
  · rw [handleBundleItem, if_pos (Base64.encode_eq_nil_iff.mpr hs), hs, decodeBatch_nil]
  · rw [handleBundleItem, if_neg (mt Base64.encode_eq_nil_iff.mp hs), Base64.decode_encode]

/-- The id of the second operation of a message's bundle. -/
def secondID (message : Json) : Option Bytes :=
  (message.get (literal "bundle")).bind fun bundle => bundle.asArray.bind fun items =>
    items[1]?.bind fun op => (op.get (literal "id")).bind Json.asString

/-- **What arrives** of a posted batch: what `decodeBatch` makes of its frame, with the frontier at
the second operation. -/
theorem handleRelayMessage_sendBatch (r : RelayClient) (frontier : Bytes) (batch : List Bytes) :
    ∃ message id, postedMessage (sendBatch r batch).2 = some message ∧
      secondID message = some id ∧
      handleRelayMessage frontier message = (id, decodeBatch (frameBatch batch)) := by
  refine ⟨_, opID r.userID (r.seq + 2), rfl, rfl, ?_⟩
  show handleBundleItems frontier [_, _, _] = _
  simp only [handleBundleItems, handleBundleItem_textInsert (opID_ne_nil _ _),
    handleBundleItem_setCaret (opID_ne_nil _ _), handleBundleItem_encode,
    List.nil_append, List.append_nil]

/-- The message of the payload, passed on as it is, hands `onData` exactly these packets and leaves
the frontier at its second operation. -/
def Relayed (payload : Json) (frontier : Bytes) (packets : List Bytes) : Prop :=
  ∃ message id, postedMessage payload = some message ∧ secondID message = some id ∧
    handleRelayMessage frontier message = (id, packets)

theorem relayed_iff_decodeBatch {r : RelayClient} {frontier : Bytes} {batch : List Bytes} :
    Relayed (sendBatch r batch).2 frontier batch ↔ decodeBatch (frameBatch batch) = batch := by
  obtain ⟨message, id, hposted, hid, hhandle⟩ := handleRelayMessage_sendBatch r frontier batch
  constructor
  · rintro ⟨message', id', hposted', -, hhandle'⟩
    obtain rfl := Option.some.inj (hposted.symm.trans hposted')
    rw [hhandle, Prod.mk.injEq] at hhandle'
    exact hhandle'.2
  · intro heq
    exact ⟨message, id, hposted, hid, by rw [hhandle, heq]⟩

/-- **The relay round trip**: a batch of packets that `Send` accepts arrives as it was exactly when
no packet is longer than its header can say, or it is one packet of a multiple of `2^16` bytes. -/
theorem relayed_sendBatch_iff (r : RelayClient) (frontier : Bytes) {batch : List Bytes}
    (hne : ∀ p ∈ batch, p ≠ []) :
    Relayed (sendBatch r batch).2 frontier batch ↔
      (∀ p ∈ batch, p.length ≤ 65535) ∨ ∃ p, batch = [p] ∧ 65536 ∣ p.length := by
  rw [relayed_iff_decodeBatch, decodeBatch_frameBatch_iff hne]

/-- A client that has posted nothing yet. -/
def sampleClient : RelayClient := ⟨1, 0, 0, 0, []⟩

theorem relayed_sendBatch_short : Relayed (sendBatch sampleClient [[1, 2, 3], [4]]).2 []
    [[1, 2, 3], [4]] :=
  (relayed_sendBatch_iff _ _ (by decide)).mpr (.inl (by decide))

/-- Two packets that `Send` accepts, the first of 65537 bytes. -/
def longBatch : List Bytes := [List.replicate 65537 0x41, [0x42]]

/-- They do not arrive: the header of the first says one byte. -/
theorem longBatch_not_relayed : (∀ p ∈ longBatch, send .default [] p = ([p], .ok ())) ∧
    ¬ Relayed (sendBatch sampleClient longBatch).2 [] longBatch := by
  have hlen : (List.replicate 65537 (0x41 : UInt8)).length = 65537 := List.length_replicate
  have hall : ∀ p ∈ longBatch, 0 < p.length ∧ p.length ≤ 5000000 :=
    List.forall_mem_cons.mpr ⟨by rw [hlen]; omega, by decide⟩
  refine ⟨fun p hp => send_eq_ok (hall p hp).1 (hall p hp).2 (by decide), ?_⟩
  rw [relayed_iff_decodeBatch,
    decodeBatch_frameBatch_iff fun p hp => List.ne_nil_of_length_pos (hall p hp).1]
  rintro (hshort | ⟨p, hone, -⟩)
  · have hle := hshort _ (List.mem_cons_self ..)
    rw [hlen] at hle
    omega
  · cases hone

end OpenFlux.Transport.Volga
