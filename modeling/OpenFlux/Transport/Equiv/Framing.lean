import OpenFlux.Transport.Framing

/-!
# Correctness of the batch format

`frameBatch` is `LengthPrefixed.frame` for the two-byte header (`frameBatch_eq_frame`), and the
record loop of `decodeBatch` succeeds exactly on what parses (`decodeRecords_eq_ok_iff`).  So
`decodeBatch` succeeds with `ps` exactly when the version is right and the framed payload is the
frame of `ps`, each packet short enough for its header (`decodeBatch_eq_ok_iff`); the round trip
in both directions follows.
-/

namespace OpenFlux.Transport

open LengthPrefixed

/-! ### Frames -/

theorem foldl_frame (pkts : List Bytes) : ∀ out : Bytes,
    pkts.foldl (fun out p => out ++ putUint16 (UInt16.ofNat p.length) ++ p) out
      = out ++ frame uint16Header pkts := by
  induction pkts with
  | nil => simp
  | cons p pkts ih =>
    intro out
    rw [List.foldl_cons, ih, frame_cons]
    simp [uint16Header]

/-- `frameBatch` writes length-prefixed records with a two-byte header. -/
theorem frameBatch_eq_frame (pkts : List Bytes) : frameBatch pkts = frame uint16Header pkts :=
  foldl_frame pkts []

theorem length_frameBatch (pkts : List Bytes) : (frameBatch pkts).length = framedSize pkts := by
  rw [frameBatch_eq_frame, frame_length]
  rfl

@[simp] theorem framedSize_nil : framedSize [] = 0 := rfl

@[simp] theorem framedSize_append_singleton (pkts : List Bytes) (p : Bytes) :
    framedSize (pkts ++ [p]) = framedSize pkts + (2 + p.length) := by
  simp [framedSize]

/-! ### The record loop -/

/-- The loop collects what the rest parses as. -/
theorem decodeRecords_of_parses {s : Bytes} {rs : List Bytes} (h : Parses uint16Header s rs) :
    ∀ pkts, decodeRecords s pkts = .ok (pkts ++ rs) := by
  induction h with
  | nil => intro pkts; simp [decodeRecords]
  | cons hd r s rs hlen hdec _ ih =>
    intro pkts
    obtain ⟨hi, lo, rfl⟩ := List.length_eq_two.mp hlen
    have hn : (beUint16 hi lo).toNat = r.length := hdec
    show decodeRecords (hi :: lo :: (r ++ s)) pkts = _
    rw [decodeRecords]
    simp only [hn, List.length_append, Nat.not_lt.mpr (Nat.le_add_right _ _), if_false,
      List.drop_left, List.take_left, ih]
    simp

/-- Whatever the loop returns, it read by the grammar. -/
theorem parses_of_decodeRecords (s : Bytes) (pkts ps : List Bytes)
    (h : decodeRecords s pkts = .ok ps) : ∃ rs, ps = pkts ++ rs ∧ Parses uint16Header s rs := by
  induction s, pkts using decodeRecords.induct with
  | case1 pkts =>
    rw [decodeRecords] at h
    exact ⟨[], by simpa using (Except.ok.inj h).symm, .nil⟩
  | case2 pkts b => simp [decodeRecords] at h
  | case3 pkts hi lo rest n hn =>
    rw [decodeRecords] at h
    simp only [show rest.length < (beUint16 hi lo).toNat from hn, if_true] at h
    cases h
  | case4 pkts hi lo rest n hn ih =>
    rw [decodeRecords] at h
    simp only [show ¬ rest.length < (beUint16 hi lo).toNat from hn, if_false] at h
    obtain ⟨rs, hps, hrs⟩ := ih h
    refine ⟨rest.take n :: rs, by rw [hps, List.append_assoc]; rfl, ?_⟩
    have hlen : (rest.take n).length = n := by rw [List.length_take]; omega
    have hcons := Parses.cons (c := uint16Header) [hi, lo] (rest.take n) (rest.drop n) rs rfl
      hlen.symm hrs
    rwa [List.take_append_drop] at hcons

/-- **The record loop decides the format**: it succeeds with `ps` exactly on the frame of `ps`,
when every packet fits its header. -/
theorem decodeRecords_eq_ok_iff {s : Bytes} {ps : List Bytes} :
    decodeRecords s [] = .ok ps ↔ s = frameBatch ps ∧ ∀ p ∈ ps, p.length ≤ 65535 := by
  have hbound : (∀ p ∈ ps, p.length ≤ 65535) ↔ ∀ p ∈ ps, p.length < uint16Header.bound :=
    forall₂_congr fun p _ => (Nat.lt_succ_iff (m := p.length) (n := 65535)).symm
  rw [frameBatch_eq_frame, hbound, ← parses_iff]
  constructor
  · intro h
    obtain ⟨rs, rfl, hrs⟩ := parses_of_decodeRecords s [] ps h
    exact hrs
  · intro h
    exact decodeRecords_of_parses h []

/-! ### The whole frame -/

/-- The framed payload of a wire frame: the bytes after the two-byte header, decompressed when
bit 0 of the flags is set. -/
def framedPayload (z : Zstd) : Bytes → Except String Bytes
  | _ :: flags :: payload => if flags.toNat.testBit 0 then z.decodeAll payload else .ok payload
  | _ => .error "no header"

theorem and_batchFlagZstd_ne_zero_iff (flags : UInt8) :
    flags &&& batchFlagZstd ≠ 0 ↔ flags.toNat.testBit 0 = true := by
  rw [Ne, ← UInt8.toNat_inj, UInt8.toNat_and]
  show ¬ flags.toNat &&& 1 = 0 ↔ _
  rw [Nat.and_one_is_mod, Nat.testBit_zero, decide_eq_true_iff]
  omega

/-- **What `decodeBatch` accepts**: a frame of the right version whose framed payload is the
frame of packets of at most 65535 bytes. -/
theorem decodeBatch_eq_ok_iff (z : Zstd) (d : Bytes) (ps : List Bytes) :
    decodeBatch z d = .ok ps ↔
      d.head? = some batchFormatVersion ∧ framedPayload z d = .ok (frameBatch ps) ∧
        ∀ p ∈ ps, p.length ≤ 65535 := by
  match d with
  | [] => simp [decodeBatch, framedPayload]
  | [b] => simp [decodeBatch, framedPayload]
  | version :: flags :: payload =>
    simp only [decodeBatch, framedPayload, List.head?_cons, Option.some.injEq]
    by_cases hv : version = batchFormatVersion
    · simp only [hv, ne_eq, not_true_eq_false, if_false, true_and]
      by_cases hf : flags.toNat.testBit 0 = true
      · rw [if_pos ((and_batchFlagZstd_ne_zero_iff flags).mpr hf), if_pos hf]
        cases z.decodeAll payload with
        | error err => simp
        | ok framed => simpa using decodeRecords_eq_ok_iff
      · rw [if_neg (fun h => hf ((and_batchFlagZstd_ne_zero_iff flags).mp h)), if_neg hf]
        simpa using decodeRecords_eq_ok_iff
    · simp [hv]

/-- The framed payload of an encoded batch is its frame, in either form. -/
theorem framedPayload_encodeBatch {z : Zstd} {limit : ℕ} (hz : z.Inverts limit)
    {pkts : List Bytes} (hsize : framedSize pkts ≤ limit) :
    framedPayload z (encodeBatch z pkts) = .ok (frameBatch pkts) := by
  unfold encodeBatch
  dsimp only
  split_ifs
  · show z.decodeAll (z.encodeAll (frameBatch pkts)) = _
    exact hz _ (by rwa [length_frameBatch])
  · rfl

theorem head?_encodeBatch (z : Zstd) (pkts : List Bytes) :
    (encodeBatch z pkts).head? = some batchFormatVersion := by
  unfold encodeBatch
  dsimp only
  split_ifs <;> rfl

/-- An encoded batch decodes to its packets, when each fits its header and the frame fits the
decoder. -/
theorem decodeBatch_encodeBatch {z : Zstd} {limit : ℕ} (hz : z.Inverts limit) {pkts : List Bytes}
    (hlen : ∀ p ∈ pkts, p.length ≤ 65535) (hsize : framedSize pkts ≤ limit) :
    decodeBatch z (encodeBatch z pkts) = .ok pkts :=
  (decodeBatch_eq_ok_iff z _ _).mpr
    ⟨head?_encodeBatch z pkts, framedPayload_encodeBatch hz hsize, hlen⟩

/-- **The round trip, both ways.**  An encoded batch decodes to its packets, whichever form the
encoder picked; and what decodes to `ps` carries the frame of `ps` as its framed payload, so no
truncated, padded or partly consumed frame is accepted. -/
theorem decodeBatch_round_trip (z : Zstd) (hz : z.Inverts decoderMaxMemory) :
    (∀ pkts : List Bytes, (∀ p ∈ pkts, p.length ≤ 65535) → framedSize pkts ≤ decoderMaxMemory →
        decodeBatch z (encodeBatch z pkts) = .ok pkts) ∧
      ∀ (d : Bytes) (ps : List Bytes), decodeBatch z d = .ok ps →
        framedPayload z d = .ok (frameBatch ps) :=
  ⟨fun _ hlen hsize => decodeBatch_encodeBatch hz hlen hsize,
    fun d ps h => ((decodeBatch_eq_ok_iff z d ps).mp h).2.1⟩

/-- A codec that stores its input behind the zstd magic number. -/
def storeZstd : Zstd where
  encodeAll x := 0x28 :: 0xB5 :: 0x2F :: 0xFD :: x
  decodeAll
    | 0x28 :: 0xB5 :: 0x2F :: 0xFD :: x => .ok x
    | _ => .error "invalid input: magic number mismatch"

theorem storeZstd_inverts (limit : ℕ) : storeZstd.Inverts limit := fun _ _ => rfl

theorem decodeBatch_round_trip_store :
    decodeBatch storeZstd (encodeBatch storeZstd [[1, 2, 3], [], [0xFF]]) =
        .ok [[1, 2, 3], [], [0xFF]] ∧
      framedPayload storeZstd (encodeBatch storeZstd [[1, 2, 3], [], [0xFF]]) =
        .ok (frameBatch [[1, 2, 3], [], [0xFF]]) := by
  have h := decodeBatch_round_trip storeZstd (storeZstd_inverts _)
  have hdecode := h.1 [[1, 2, 3], [], [0xFF]] (by decide) (by decide)
  exact ⟨hdecode, h.2 _ _ hdecode⟩

end OpenFlux.Transport
