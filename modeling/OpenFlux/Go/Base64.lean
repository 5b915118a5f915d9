import OpenFlux.Algorithm.Base64
import OpenFlux.Go.Strings

/-!
# Base64 (`encoding/base64`)

The standard encodings, and the one that `encodeRawURL` writes.
-/

namespace OpenFlux

/-- The alphabet of `base64.StdEncoding`: the letters, the digits, `+` and `/`. -/
def stdAlphabet : Bytes :=
  (List.range 26).map (fun i => UInt8.ofNat (0x41 + i)) ++
    (List.range 26).map (fun i => UInt8.ofNat (0x61 + i)) ++
    (List.range 10).map (fun i => UInt8.ofNat (0x30 + i)) ++ [0x2B, 0x2F]

/-- `base64.StdEncoding`. -/
def stdEncoding : Base64.Encoding where
  alphabet := stdAlphabet
  padding := some 0x3D
  length_eq := by decide
  nodup := by decide +kernel
  padding_notMem := by decide +kernel
  noLineBreak := by
    rintro c (h | h)
    · exact (show ∀ c ∈ stdAlphabet, c ≠ 0x0A ∧ c ≠ 0x0D by decide +kernel) c h
    · obtain rfl : 0x3D = c := Option.some.inj h
      decide

/-- `base64.RawStdEncoding`. -/
def rawStdEncoding : Base64.Encoding where
  alphabet := stdAlphabet
  padding := none
  length_eq := stdEncoding.length_eq
  nodup := stdEncoding.nodup
  padding_notMem := nofun
  noLineBreak := by
    rintro c (h | h)
    · exact stdEncoding.noLineBreak c (.inl h)
    · exact absurd h (Option.not_mem_none c)

/-- `base64.RawURLEncoding`. -/
def rawURLEncoding : Base64.Encoding where
  alphabet := urlAlphabet
  padding := none
  length_eq := length_urlAlphabet
  nodup := by decide +kernel
  padding_notMem := nofun
  noLineBreak := by
    rintro c (h | h)
    · have hrange := urlAlphabet_range c h
      exact ⟨by rintro rfl; revert hrange; decide, by rintro rfl; revert hrange; decide⟩
    · exact absurd h (Option.not_mem_none c)

theorem encodeRawURL_eq (b : Bytes) : encodeRawURL b = Base64.encode rawURLEncoding b := by
  induction b using encodeRawURL.induct with
  | case1 a b c rest ih =>
    rw [encodeRawURL, Base64.encode, ih]
    rfl
  | case2 a b => rfl
  | case3 a => rfl
  | case4 => rfl

end OpenFlux
