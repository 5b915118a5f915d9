import OpenFlux.Transport.Equiv.Batched

/-!
# The sender's limits and the receiver's

The sender's limits come from the environment, the receiver's, `decoderMaxMemory`, is a constant.
Every batch the flush loop emits is within the sender's limits (`WellBatched`), and every batch
within them is emitted by some run (`exists_emits`).  The receiver takes a batch exactly when its
frame fits the decoder or was sent uncompressed (`decodeBatch_encodeBatch_iff`).  So a pair of
limits is safe exactly when no batch within them is both too large and compressed
(`emitted_accepted_iff`); a count of at most 127 or a size of at most 8 MiB less 65536 leaves no
batch that is too large (`framedSize_le_of_count`, `framedSize_le_of_bytes`), and every other pair
leaves one, of packets of zeros (`exists_admissible_lt_framedSize`).
-/

namespace OpenFlux.Transport

/-! ### What the decoder accepts -/

/-- Decoding inverts encoding up to the limit, and fails on what was longer. -/
structure Zstd.CappedAt (z : Zstd) (limit : ℕ) : Prop where
  inverts : z.Inverts limit
  rejects : ∀ x, limit < x.length → ∃ err, z.decodeAll (z.encodeAll x) = .error err

/-- The encoder's output is shorter than its input. -/
def Zstd.Shrinks (z : Zstd) (x : Bytes) : Prop := (z.encodeAll x).length < x.length

/-- The peer's `decodeBatch` accepts the encoding of the batch. -/
def Accepted (z : Zstd) (batch : List Bytes) : Prop :=
  ∃ pkts, decodeBatch z (encodeBatch z batch) = .ok pkts

/-- The framed payload of an encoded batch, by the form the encoder picked. -/
theorem framedPayload_encodeBatch_eq (z : Zstd) (batch : List Bytes) :
    (z.Shrinks (frameBatch batch) →
        framedPayload z (encodeBatch z batch) = z.decodeAll (z.encodeAll (frameBatch batch))) ∧
      (¬ z.Shrinks (frameBatch batch) →
        framedPayload z (encodeBatch z batch) = .ok (frameBatch batch)) := by
  unfold encodeBatch Zstd.Shrinks
  dsimp only
  split_ifs with h
  · exact ⟨fun _ => rfl, fun hno => absurd h hno⟩
  · exact ⟨fun hyes => absurd hyes h, fun _ => rfl⟩

/-- A batch of packets that fit their headers is accepted unless its frame exceeds the decoder and
was compressed. -/
theorem accepted_iff {z : Zstd} {limit : ℕ} (hz : z.CappedAt limit) {batch : List Bytes}
    (hlen : ∀ p ∈ batch, p.length ≤ 65535) :
    Accepted z batch ↔ (limit < framedSize batch → ¬ z.Shrinks (frameBatch batch)) := by
  obtain ⟨hcompressed, hraw⟩ := framedPayload_encodeBatch_eq z batch
  constructor
  · rintro ⟨pkts, hok⟩ hlt hshrinks
    obtain ⟨err, herr⟩ := hz.rejects (frameBatch batch) (by rwa [length_frameBatch])
    have hframed := ((decodeBatch_eq_ok_iff z _ _).mp hok).2.1
    rw [hcompressed hshrinks, herr] at hframed
    cases hframed
  · intro h
    refine ⟨batch, (decodeBatch_eq_ok_iff z _ _).mpr ⟨head?_encodeBatch z batch, ?_, hlen⟩⟩
    by_cases hlt : limit < framedSize batch
    · exact hraw (h hlt)
    · exact framedPayload_encodeBatch hz.inverts (Nat.le_of_not_lt hlt)

namespace Batched

variable {z : Zstd} {cfg : Config} {inner : InnerSend} {limit : ℕ} {batch : List Bytes}

/-! ### Every batch within the limits is emitted -/

theorem framedSize_dropLast_le (batch : List Bytes) :
    framedSize batch.dropLast ≤ framedSize batch := by
  rcases List.eq_nil_or_concat batch with rfl | ⟨batch, p, rfl⟩
  · exact Nat.le_refl _
  · rw [List.concat_eq_append, List.dropLast_concat, framedSize_append_singleton]
    omega

/-- The batch before its last packet had room, and was within the limits. -/
theorem WellBatched.of_append_singleton {p : Bytes} (h : WellBatched cfg (batch ++ [p]))
    (hne : batch ≠ []) : WellBatched cfg batch ∧ cfg.room batch (framedSize batch) = true := by
  have hsize := h.dropLast_lt
  rw [List.dropLast_concat] at hsize
  have hcount := h.length_le
  rw [List.length_append, List.length_singleton] at hcount
  refine ⟨⟨hne, by omega, ?_⟩, ?_⟩
  · exact (framedSize_dropLast_le batch).trans_lt hsize
  · simp only [Config.room, Bool.and_eq_true, decide_eq_true_eq]
    exact ⟨hsize, by omega⟩

/-- The calls that queued the packets. -/
def sent (pkts : List Bytes) : List (Bytes × Except String Unit) := pkts.map fun p => (p, .ok ())

theorem sent_append_singleton (pkts : List Bytes) (p : Bytes) :
    sent (pkts ++ [p]) = sent pkts ++ [(p, .ok ())] := by
  simp [sent]

theorem short_sent {n : ℕ} (h : ∀ p ∈ batch, p.length ≤ n) : ∀ c ∈ sent batch, c.1.length ≤ n := by
  intro c hc
  obtain ⟨p, hp, rfl⟩ := List.mem_map.mp hc
  exact h p hp

/-- Packets that come one by one are absorbed as long as the limits allow. -/
theorem reachable_drain (z : Zstd) (inner : InnerSend) (h : WellBatched cfg batch) :
    (system z cfg inner).Reachable
      { pc := .drain batch (framedSize batch), calls := sent batch } := by
  induction batch using List.reverseRecOn with
  | nil => exact absurd rfl h.ne_nil
  | append_singleton batch p ih =>
    rw [sent_append_singleton]
    by_cases hne : batch = []
    · subst hne
      refine ⟨[.flush false, .send p, .flush false], ?_⟩
      rfl
    · obtain ⟨hb, hroom⟩ := h.of_append_singleton hne
      have hsend := (ih hb).step (e := .send p) rfl
      apply hsend.step (e := .flush false)
      simp [system, State.flush, State.send, Batched.send, batchQueueDepth, flushStep, hroom]

/-- **Every batch within the limits is emitted** by a run that sends its packets only. -/
theorem exists_emits (z : Zstd) (inner : InnerSend) (h : WellBatched cfg batch) :
    ∃ s, (system z cfg inner).Reachable s ∧ s.calls = sent batch ∧ s.emitted = [batch] := by
  have hdrain := reachable_drain z inner h
  have hafter : (system z cfg inner).step
      { pc := .drain batch (framedSize batch), calls := sent batch } (.flush false) =
      some { pc := afterDrain cfg batch (framedSize batch), calls := sent batch } := by
    by_cases hroom : cfg.room batch (framedSize batch) = true <;>
      simp [system, State.flush, flushStep, hroom]
  have hemit : (system z cfg inner).Reachable { pc := .emit batch, calls := sent batch } := by
    have hreach := hdrain.step hafter
    unfold afterDrain at hreach
    split_ifs at hreach with hlinger
    · refine hreach.step (e := .flush true) ?_
      simp [system, State.flush, flushStep, hlinger.2]
    · exact hreach
  exact ⟨_, hemit.step (e := .flush false) rfl, rfl, rfl⟩

/-! ### Sizes -/

/-- A batch that some run of packets of at most 65535 bytes emits. -/
structure Admissible (cfg : Config) (batch : List Bytes) : Prop where
  well : WellBatched cfg batch
  short : ∀ p ∈ batch, p.length ≤ 65535

theorem framedSize_le_mul (h : ∀ p ∈ batch, p.length ≤ 65535) :
    framedSize batch ≤ 65537 * batch.length := by
  induction batch using List.reverseRecOn with
  | nil => exact Nat.zero_le _
  | append_singleton batch p ih =>
    have hp := h p (by simp)
    have hbatch := ih fun q hq => h q (List.mem_append_left _ hq)
    rw [framedSize_append_singleton, List.length_append, List.length_singleton]
    omega

theorem framedSize_le_of_count (hcfg : 65537 * cfg.maxBatchCount ≤ limit)
    (h : Admissible cfg batch) : framedSize batch ≤ limit :=
  calc framedSize batch ≤ 65537 * batch.length := framedSize_le_mul h.short
    _ ≤ 65537 * cfg.maxBatchCount := Nat.mul_le_mul_left _ h.well.length_le
    _ ≤ limit := hcfg

theorem framedSize_le_of_bytes (hcfg : cfg.maxBatchBytes + 65536 ≤ limit)
    (h : Admissible cfg batch) : framedSize batch ≤ limit := by
  have := h.well.framedSize_lt h.short
  omega

/-- `n` packets of `len` zeros. -/
def zeros (n len : ℕ) : List Bytes := List.replicate n (List.replicate len 0)

theorem length_of_mem_zeros {n len : ℕ} {p : Bytes} (h : p ∈ zeros n len) : p.length = len := by
  rw [List.eq_of_mem_replicate h, List.length_replicate]

theorem framedSize_append_zeros (batch : List Bytes) (n len : ℕ) :
    framedSize (batch ++ zeros n len) = framedSize batch + n * (2 + len) := by
  simp [framedSize, zeros]

/-- A batch whose frame is one byte too large for the decoder. -/
def tooLarge : List Bytes := zeros 126 65535 ++ zeros 1 65408 ++ zeros 1 65535

theorem framedSize_tooLarge : framedSize tooLarge = decoderMaxMemory + 1 := by
  rw [tooLarge, framedSize_append_zeros, framedSize_append_zeros, ← List.nil_append (zeros 126 _),
    framedSize_append_zeros]
  rfl

/-- Every other pair of limits admits a batch that is too large. -/
theorem admissible_tooLarge (hcount : decoderMaxMemory < 65537 * cfg.maxBatchCount)
    (hbytes : decoderMaxMemory < cfg.maxBatchBytes + 65536) : Admissible cfg tooLarge := by
  have hmax : decoderMaxMemory = 8388608 := rfl
  have hsize := framedSize_tooLarge
  refine ⟨⟨?_, ?_, ?_⟩, ?_⟩
  · intro hnil
    rw [hnil, framedSize_nil] at hsize
    omega
  · simp only [tooLarge, zeros, List.length_append, List.length_replicate]
    omega
  · have hlast : tooLarge = (zeros 126 65535 ++ zeros 1 65408) ++ [List.replicate 65535 0] := rfl
    rw [hlast, framedSize_append_singleton, List.length_replicate] at hsize
    rw [hlast, List.dropLast_concat]
    omega
  · intro p hp
    rcases List.mem_append.mp hp with hp | hp
    · rcases List.mem_append.mp hp with hp | hp
      · exact (length_of_mem_zeros hp).le
      · have := length_of_mem_zeros hp
        omega
    · exact (length_of_mem_zeros hp).le

/-! ### The limits together -/

/-- Whatever stream of packets of at most 65535 bytes the layer is sent, every batch it emits is
within its limits and accepted by the peer. -/
def EmitsAccepted (z : Zstd) (cfg : Config) (inner : InnerSend) : Prop :=
  ∀ s, (system z cfg inner).Reachable s → (∀ c ∈ s.calls, c.1.length ≤ 65535) →
    ∀ batch ∈ s.emitted, WellBatched cfg batch ∧ Accepted z batch

/-- In a run of short packets every emitted batch is within the limits. -/
theorem admissible_of_reachable {s : State} (hz : z.Inverts limit)
    (h : (system z cfg inner).Reachable s) (hlen : ∀ c ∈ s.calls, c.1.length ≤ 65535)
    (hb : batch ∈ s.emitted) : Admissible cfg batch := by
  have hinv := inv_reachable hz h
  refine ⟨hinv.emitted batch hb, fun p hp => ?_⟩
  have hmem := (accepted_map_sublist s.calls).subset
    (List.mem_map_of_mem (hinv.mem_accepted hb hp))
  exact hlen _ hmem

/-- **Which limits are safe.**  Every batch of every run is within the limits; the peer accepts
all of them exactly when the count or the size keeps every frame within the decoder's memory, or
the compressor shrinks none of the larger frames. -/
theorem emitted_accepted_iff (hz : z.CappedAt decoderMaxMemory) (getenv : Bytes → Bytes)
    (inner : InnerSend) :
    EmitsAccepted z (newBatchedTransport getenv) inner ↔
      65537 * (newBatchedTransport getenv).maxBatchCount ≤ decoderMaxMemory ∨
        (newBatchedTransport getenv).maxBatchBytes + 65536 ≤ decoderMaxMemory ∨
        ∀ batch, Admissible (newBatchedTransport getenv) batch →
          decoderMaxMemory < framedSize batch → ¬ z.Shrinks (frameBatch batch) := by
  constructor
  · intro h
    refine .inr (.inr fun batch hb => ?_)
    obtain ⟨s, hs, hcalls, hemitted⟩ := exists_emits z inner hb.well
    have hmem : batch ∈ s.emitted := by rw [hemitted]; exact List.mem_singleton_self batch
    have haccepted := (h s hs (hcalls ▸ short_sent hb.short) batch hmem).2
    exact (accepted_iff hz hb.short).mp haccepted
  · intro h s hs hlen batch hmem
    have hb := admissible_of_reachable hz.inverts hs hlen hmem
    refine ⟨hb.well, (accepted_iff hz hb.short).mpr ?_⟩
    rcases h with hcount | hbytes | hraw
    · intro hlt
      exact absurd (framedSize_le_of_count hcount hb) (Nat.not_le_of_lt hlt)
    · intro hlt
      exact absurd (framedSize_le_of_bytes hbytes hb) (Nat.not_le_of_lt hlt)
    · exact hraw batch hb

/-- A compressor that stores what the decoder can take and shrinks everything longer to one
byte. -/
def capZstd : Zstd where
  encodeAll x := if x.length ≤ decoderMaxMemory then 0 :: x else [1]
  decodeAll
    | 0 :: x => .ok x
    | _ => .error "decompressed size exceeds configured limit"

theorem capZstd_cappedAt : capZstd.CappedAt decoderMaxMemory where
  inverts x hx := by
    show capZstd.decodeAll (if x.length ≤ decoderMaxMemory then 0 :: x else [1]) = _
    rw [if_pos hx]
    rfl
  rejects x hx := by
    show ∃ err, capZstd.decodeAll (if x.length ≤ decoderMaxMemory then 0 :: x else [1]) = _
    rw [if_neg (Nat.not_le_of_lt hx)]
    exact ⟨_, rfl⟩

theorem capZstd_shrinks {x : Bytes} (h : decoderMaxMemory < x.length) : capZstd.Shrinks x := by
  have hpos : 1 < decoderMaxMemory := by decide
  show (if x.length ≤ decoderMaxMemory then 0 :: x else [1]).length < x.length
  rw [if_neg (Nat.not_le_of_lt h), List.length_singleton]
  omega

/-- The defaults are safe. -/
theorem emitted_accepted_iff_default :
    EmitsAccepted capZstd (newBatchedTransport fun _ => []) .later :=
  (emitted_accepted_iff capZstd_cappedAt (fun _ => []) .later).mpr (.inl (by decide))

/-- An environment with a batch size of 9 MiB and 128 packets a batch. -/
def largeBatches (name : Bytes) : Bytes :=
  if name = literal "OPENFLUX_BATCH_BYTES" then literal "9437184"
  else if name = literal "OPENFLUX_BATCH_COUNT" then literal "128"
  else []

/-- With it a run emits a batch that the peer rejects. -/
theorem not_emitsAccepted_largeBatches :
    capZstd.CappedAt decoderMaxMemory ∧
      ¬ EmitsAccepted capZstd (newBatchedTransport largeBatches) .later := by
  refine ⟨capZstd_cappedAt, fun h => ?_⟩
  have hbytes : (newBatchedTransport largeBatches).maxBatchBytes = 9437184 := by decide +kernel
  have hcount : (newBatchedTransport largeBatches).maxBatchCount = 128 := by decide +kernel
  have hmax : decoderMaxMemory = 8388608 := rfl
  have hb : Admissible (newBatchedTransport largeBatches) tooLarge :=
    admissible_tooLarge (by omega) (by omega)
  obtain ⟨s, hs, hcalls, hemitted⟩ := exists_emits capZstd .later hb.well
  have hmem : tooLarge ∈ s.emitted := by rw [hemitted]; exact List.mem_singleton_self _
  have haccepted := (h s hs (hcalls ▸ short_sent hb.short) tooLarge hmem).2
  have hlt : decoderMaxMemory < framedSize tooLarge := framedSize_tooLarge ▸ Nat.lt_succ_self _
  apply (accepted_iff capZstd_cappedAt hb.short).mp haccepted hlt
  apply capZstd_shrinks
  rwa [length_frameBatch]

end Batched

end OpenFlux.Transport
