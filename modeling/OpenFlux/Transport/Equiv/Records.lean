import OpenFlux.Transport.Equiv.Framing
import OpenFlux.Transport.Records

/-!
# What the lenient loop makes of a frame

The header of a record holds its length modulo `2^16`.  So of a frame the loop reads the first
record whole, in part, or not at all (`readRecords_cons`), and it reads all of them exactly when
each has between 1 and 65535 bytes (`readRecords_frameBatch_iff`).

Of any input the loop reads records that stand in front of it (`frameBatch_readRecords_isPrefix`).
It reads none exactly when no such record is in front, and then it leaves all but the two bytes it
took for a header (`readRecords_of_not_begins`).
-/

namespace OpenFlux.Transport

open LengthPrefixed

/-- A record that is not empty and fits its header. -/
def Fits (p : Bytes) : Prop := 0 < p.length ∧ p.length ≤ 65535

instance (p : Bytes) : Decidable (Fits p) := inferInstanceAs (Decidable (_ ∧ _))

theorem readRecords_nil : readRecords [] = ([], []) := by
  rw [readRecords]
  intro hi lo decoded h
  cases h

theorem frameBatch_cons (p : Bytes) (ps : List Bytes) :
    frameBatch (p :: ps) = frameBatch [p] ++ frameBatch ps := by
  simp only [frameBatch_eq_frame, frame_cons, frame_nil, List.append_nil, List.append_assoc]

/-- A record in front: nothing is read behind a length of zero, and else as many bytes as the header
says, which the record has. -/
theorem readRecords_append (p rest : Bytes) :
    readRecords (frameBatch [p] ++ rest) =
      if p.length % 65536 = 0 then ([], p ++ rest)
      else
        let r := readRecords ((p ++ rest).drop (p.length % 65536))
        (p.take (p.length % 65536) :: r.1, r.2) := by
  have hle := Nat.mod_le p.length 65536
  have hheader : (beUint16 (UInt16.ofNat p.length >>> 8).toUInt8
      (UInt16.ofNat p.length).toUInt8).toNat = p.length % 65536 := by
    rw [beUint16_putUint16, UInt16.toNat_ofNat']
  show readRecords (_ :: _ :: (p ++ rest)) = _
  rw [readRecords, hheader]
  dsimp only
  by_cases hzero : p.length % 65536 = 0
  · rw [if_pos (.inl hzero), if_pos hzero]
  · have hfull : ¬ (p.length % 65536 = 0 ∨ (p ++ rest).length < p.length % 65536) := by
      rw [List.length_append]
      omega
    rw [if_neg hfull, if_neg hzero, List.take_append_of_le_length hle]

/-- The record in front of a frame. -/
theorem readRecords_cons (p : Bytes) (ps : List Bytes) :
    readRecords (frameBatch (p :: ps)) =
      if p.length % 65536 = 0 then ([], p ++ frameBatch ps)
      else
        let r := readRecords ((p ++ frameBatch ps).drop (p.length % 65536))
        (p.take (p.length % 65536) :: r.1, r.2) := by
  rw [frameBatch_cons, readRecords_append]

theorem readRecords_cons_of_fits {p : Bytes} (h : Fits p) (ps : List Bytes) :
    readRecords (frameBatch (p :: ps)) =
      (p :: (readRecords (frameBatch ps)).1, (readRecords (frameBatch ps)).2) := by
  obtain ⟨hpos, hle⟩ := h
  have hmod : p.length % 65536 = p.length := Nat.mod_eq_of_lt (by omega)
  rw [readRecords_cons, hmod, if_neg (by omega), List.take_length, List.drop_left]

/-- A record longer than its header can say is cut, or ends the loop. -/
theorem readRecords_cons_of_long {p : Bytes} (h : 65535 < p.length) (ps : List Bytes) :
    (readRecords (frameBatch (p :: ps))).1 ≠ p :: ps := by
  rw [readRecords_cons]
  split_ifs
  · exact nofun
  · intro heq
    have hlen := congrArg List.length (List.cons.inj heq).1
    rw [List.length_take] at hlen
    omega

/-- **What the loop reads** of a frame is what was framed exactly when every record fits. -/
theorem readRecords_frameBatch_iff {ps : List Bytes} :
    (readRecords (frameBatch ps)).1 = ps ↔ ∀ p ∈ ps, Fits p := by
  induction ps with
  | nil =>
    refine iff_of_true ?_ (List.forall_mem_nil _)
    show (readRecords []).1 = []
    rw [readRecords_nil]
  | cons p ps ih =>
    rw [List.forall_mem_cons]
    by_cases hfits : Fits p
    · rw [readRecords_cons_of_fits hfits, and_iff_right hfits, ← ih]
      exact ⟨fun heq => (List.cons.inj heq).2, fun heq => congrArg (p :: ·) heq⟩
    · refine iff_of_false ?_ fun h => hfits h.1
      rcases Nat.eq_zero_or_pos p.length with hzero | hpos
      · rw [readRecords_cons, hzero, if_pos rfl]
        exact nofun
      · apply readRecords_cons_of_long
        by_contra hle
        exact hfits ⟨hpos, Nat.le_of_not_lt hle⟩

/-! ### Any input -/

/-- The input begins with a complete record. -/
def Begins (decoded : Bytes) : Prop := ∃ p, Fits p ∧ frameBatch [p] <+: decoded

/-- A header and as many bytes as it says are a record. -/
theorem frameBatch_take {hi lo : UInt8} {rest : Bytes}
    (h : (beUint16 hi lo).toNat ≤ rest.length) :
    frameBatch [rest.take (beUint16 hi lo).toNat] ++ rest.drop (beUint16 hi lo).toNat =
      hi :: lo :: rest := by
  have hlen : (rest.take (beUint16 hi lo).toNat).length = uint16Header.decode [hi, lo] :=
    List.length_take_of_le h
  rw [frameBatch_eq_frame, frame_cons, hlen, uint16Header.encode_decode [hi, lo] rfl, frame_nil,
    List.append_nil, List.append_assoc, List.take_append_drop]
  rfl

/-- What is read is in front of the input, in order, and complete. -/
theorem frameBatch_readRecords_isPrefix (decoded : Bytes) :
    frameBatch (readRecords decoded).1 <+: decoded ∧ ∀ p ∈ (readRecords decoded).1, Fits p := by
  induction decoded using readRecords.induct with
  | case1 hi lo rest ln hend =>
    rw [readRecords, if_pos hend]
    exact ⟨List.nil_prefix, List.forall_mem_nil _⟩
  | case2 hi lo rest ln hrecord ih =>
    obtain ⟨hpos, hle⟩ := not_or.mp hrecord
    have hlen : (rest.take ln).length = ln := List.length_take_of_le (Nat.le_of_not_lt hle)
    have hlt : ln < 65536 := (beUint16 hi lo).toNat_lt
    have hfits : Fits (rest.take ln) := by
      rw [Fits, hlen]
      omega
    rw [readRecords, if_neg hrecord]
    refine ⟨?_, List.forall_mem_cons.mpr ⟨hfits, ih.2⟩⟩
    rw [frameBatch_cons, ← frameBatch_take (Nat.le_of_not_lt hle)]
    exact (List.prefix_append_right_inj _).mpr ih.1
  | case3 decoded hshort =>
    rw [readRecords]
    · exact ⟨List.nil_prefix, List.forall_mem_nil _⟩
    · exact hshort

/-- A complete record in front is read. -/
theorem readRecords_ne_nil_iff {decoded : Bytes} :
    (readRecords decoded).1 ≠ [] ↔ Begins decoded := by
  obtain ⟨hfront, hfits⟩ := frameBatch_readRecords_isPrefix decoded
  constructor
  · intro hne
    obtain ⟨p, ps, heq⟩ := List.exists_cons_of_ne_nil hne
    rw [heq, frameBatch_cons] at hfront
    exact ⟨p, hfits p (heq ▸ List.mem_cons_self ..), (List.prefix_append ..).trans hfront⟩
  · rintro ⟨p, ⟨hpos, hle⟩, rest, rfl⟩
    rw [readRecords_append, if_neg (by omega)]
    exact nofun

/-- Without one, the loop ends at once, behind the header if there are two bytes for it. -/
theorem readRecords_of_not_begins {decoded : Bytes} (h : ¬ Begins decoded) :
    readRecords decoded = ([], if decoded.length < 2 then decoded else decoded.drop 2) := by
  rw [← readRecords_ne_nil_iff, not_not] at h
  rcases decoded with _ | ⟨hi, _ | ⟨lo, rest⟩⟩
  · exact readRecords_nil
  · rw [readRecords]
    · rfl
    · simp
  · rw [readRecords] at h ⊢
    by_cases hend : (beUint16 hi lo).toNat = 0 ∨ rest.length < (beUint16 hi lo).toNat
    · rw [if_pos hend]
      rfl
    · rw [if_neg hend] at h
      cases h

end OpenFlux.Transport
