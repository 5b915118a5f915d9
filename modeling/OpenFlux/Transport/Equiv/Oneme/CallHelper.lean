import OpenFlux.Transport.Oneme.CallHelper

/-!
# Which call details are decoded without a panic

`decodeCallDetails_returns_iff` says exactly for which `vcp` the decoder returns: it panics where
the size is read as a negative number and the details are base64.
-/

namespace OpenFlux.Transport.Oneme

variable {uncompressBlock : Bytes → Bytes → Option (ℕ × Bytes)}

/-- A decompression that stays within its destination. -/
def WithinDestination (uncompressBlock : Bytes → Bytes → Option (ℕ × Bytes)) : Prop :=
  ∀ block dst n out, uncompressBlock block dst = some (n, out) →
    out.length = dst.length ∧ n ≤ dst.length

/-- The decoder returns an error, or details that are at most as long as it was told. -/
def ReturnsDetails (uncompressBlock : Bytes → Bytes → Option (ℕ × Bytes)) (vcp : Bytes) : Prop :=
  ∃ r, decodeCallDetails uncompressBlock vcp = some r ∧
    ∀ details, r = .ok details → (details.length : ℤ) ≤ detailsSize vcp

/-- The details are characters of the standard alphabet and up to two `=` at the end, in fours;
line breaks do not count. -/
def HasBase64 (vcp : Bytes) : Prop :=
  4 ≤ vcp.length ∧
    Base64.IsGroups stdEncoding 0x3D ((vcp.drop 4).filter fun c => c ≠ 0x0A ∧ c ≠ 0x0D)

/-! ### The size -/

theorem detailsSize_neg_iff (vcp : Bytes) :
    detailsSize vcp < 0 ↔ StartsNegative (vcp.take 3) := by
  rw [← scanInt_neg_iff (by simp), detailsSize]
  cases scanInt (vcp.take 3) <;> simp

/-! ### The decoder -/

theorem hasBase64_iff {vcp : Bytes} (hlen : 4 ≤ vcp.length) :
    HasBase64 vcp ↔ (Base64.decode stdEncoding (vcp.drop 4)).isSome := by
  rw [HasBase64, Base64.decode_isSome_iff rfl, and_iff_right hlen]

/-- **The decoder returns except at a negative size before base64**, and the size is valid except
where a negative number is read. -/
theorem decodeCallDetails_returns_iff (hlz4 : WithinDestination uncompressBlock) (vcp : Bytes) :
    (ReturnsDetails uncompressBlock vcp ↔
      ¬ (StartsNegative (vcp.take 3) ∧ HasBase64 vcp)) ∧
    (0 ≤ detailsSize vcp ↔ ¬ StartsNegative (vcp.take 3)) := by
  rw [← detailsSize_neg_iff, Int.not_lt]
  refine ⟨?_, Iff.rfl⟩
  by_cases hlen : vcp.length < 4
  · have hshort : decodeCallDetails uncompressBlock vcp = some (.error .tooShort) := if_pos hlen
    refine iff_of_true ⟨_, hshort, nofun⟩ ?_
    rintro ⟨-, hge, -⟩
    omega
  rw [hasBase64_iff (Nat.le_of_not_lt hlen), ReturnsDetails, decodeCallDetails, if_neg hlen]
  cases Base64.decode stdEncoding (vcp.drop 4) with
  | none => exact iff_of_true ⟨_, rfl, nofun⟩ nofun
  | some decoded =>
    dsimp only
    by_cases hsize : detailsSize vcp < 0
    · rw [if_pos hsize]
      refine iff_of_false ?_ (not_not_intro ⟨hsize, rfl⟩)
      rintro ⟨_, h, -⟩
      cases h
    · rw [if_neg hsize]
      refine iff_of_true ?_ fun h => hsize h.1
      cases hblock : uncompressBlock decoded (List.replicate (detailsSize vcp).toNat 0) with
      | none => exact ⟨_, rfl, nofun⟩
      | some written =>
        obtain ⟨n, out⟩ := written
        obtain ⟨hout, hn⟩ := hlz4 _ _ _ _ hblock
        refine ⟨_, if_pos (hn.trans hout.ge), ?_⟩
        rintro _ ⟨⟩
        rw [List.length_replicate] at hn
        rw [List.length_take]
        omega

/-- `lz4.UncompressBlock` on a block of up to 14 literals and no match; other blocks are refused. -/
def uncompressLiterals : Bytes → Bytes → Option (ℕ × Bytes)
  | token :: literals, dst =>
    if token.toNat = literals.length * 16 ∧ literals.length ≤ dst.length then
      some (literals.length, literals ++ dst.drop literals.length)
    else none
  | [], _ => none

theorem uncompressLiterals_within : WithinDestination uncompressLiterals := by
  intro block dst n out h
  cases block with
  | nil => cases h
  | cons token literals =>
    rw [uncompressLiterals] at h
    split_ifs at h with hfits
    cases h
    simp [hfits.2]

theorem decodeCallDetails_returns_braces :
    decodeCallDetails uncompressLiterals (literal "002:IHt9") =
      some (.ok (literal "\x7b\x7d")) ∧
    (ReturnsDetails uncompressLiterals (literal "002:IHt9") ↔
      ¬ (StartsNegative ((literal "002:IHt9").take 3) ∧ HasBase64 (literal "002:IHt9"))) ∧
    (0 ≤ detailsSize (literal "002:IHt9") ↔ ¬ StartsNegative ((literal "002:IHt9").take 3)) :=
  ⟨by decide +kernel, decodeCallDetails_returns_iff uncompressLiterals_within _⟩

/-- Four characters that read as -1: the decoder panics, whatever the decompression does. -/
theorem decodeCallDetails_minusOne : detailsSize (literal "-1::") = -1 ∧
    ∀ uncompressBlock, decodeCallDetails uncompressBlock (literal "-1::") = none ∧
      ¬ ReturnsDetails uncompressBlock (literal "-1::") := by
  have hsize : detailsSize (literal "-1::") = -1 := by decide +kernel
  refine ⟨hsize, fun uncompressBlock => ?_⟩
  have hnone : decodeCallDetails uncompressBlock (literal "-1::") = none := by
    have hdecode : Base64.decode stdEncoding ((literal "-1::").drop 4) = some [] := rfl
    rw [decodeCallDetails, if_neg (by decide), hdecode]
    exact if_pos (by omega)
  refine ⟨hnone, ?_⟩
  rintro ⟨_, h, -⟩
  rw [hnone] at h
  cases h

end OpenFlux.Transport.Oneme
