import OpenFlux.Algorithm.Strip
import OpenFlux.Go.Strings

/-!
# Trimming by characters

`strings.TrimSpace` cuts the encodings of white space.  On the encoding of a text this is stripping
the text of its white space (`trimSpace_utf8`): no encoding of a character starts or ends with
another one's.
-/

namespace OpenFlux

open Strip

/-- The encoding of a text. -/
def utf8 (s : List Char) : Bytes := s.flatMap String.utf8EncodeChar

theorem utf8_append (s t : List Char) : utf8 (s ++ t) = utf8 s ++ utf8 t := List.flatMap_append

/-! ### Encodings in encodings -/

/-- The first byte of an encoding, and the bytes after it. -/
theorem utf8EncodeChar_eq_cons (c : Char) : ∃ b t, String.utf8EncodeChar c = b :: t ∧
    b.IsUTF8FirstByte ∧ ∀ d ∈ t, ¬ d.IsUTF8FirstByte := by
  obtain ⟨b, t, hbt⟩ := List.exists_cons_of_ne_nil (String.utf8EncodeChar_ne_nil (c := c))
  refine ⟨b, t, hbt, ?_, ?_⟩
  · have hfirst := UInt8.isUTF8FirstByte_getElem_zero_utf8EncodeChar (c := c)
    simpa only [hbt, List.getElem_cons_zero] using hfirst
  · intro d hd
    obtain ⟨i, hi, rfl⟩ := List.getElem_of_mem hd
    have hlater := @UInt8.isUTF8FirstByte_getElem_utf8EncodeChar c (i + 1)
      (by rw [hbt]; simpa using hi)
    simp only [hbt, List.getElem_cons_succ] at hlater
    simp [hlater]

theorem utf8EncodeChar_inj {c d : Char} (h : String.utf8EncodeChar c = String.utf8EncodeChar d) :
    c = d := by
  have hc := ByteArray.utf8DecodeChar?_utf8EncodeChar_append (b := .empty) (c := c)
  have hd := ByteArray.utf8DecodeChar?_utf8EncodeChar_append (b := .empty) (c := d)
  rw [h, hd] at hc
  exact (Option.some.inj hc).symm

theorem utf8EncodeChar_prefixFree {c d : Char} {s : Bytes}
    (h : String.utf8EncodeChar c <+: String.utf8EncodeChar d ++ s) : c = d := by
  obtain ⟨t, ht⟩ := h
  have hc := ByteArray.utf8DecodeChar?_utf8EncodeChar_append (b := t.toByteArray) (c := c)
  have hd := ByteArray.utf8DecodeChar?_utf8EncodeChar_append (b := s.toByteArray) (c := d)
  rw [← List.toByteArray_append, ht, List.toByteArray_append, hd] at hc
  exact (Option.some.inj hc).symm

theorem utf8EncodeChar_suffixFree {c d : Char} {s : Bytes}
    (h : String.utf8EncodeChar c <:+ s ++ String.utf8EncodeChar d) : c = d := by
  apply utf8EncodeChar_inj
  obtain ⟨b, t, hc, hb, ht⟩ := utf8EncodeChar_eq_cons c
  obtain ⟨b', t', hd, hb', ht'⟩ := utf8EncodeChar_eq_cons d
  rw [hc, hd] at h ⊢
  -- the longer one of two suffixes of the same bytes ends with the other, first byte and all
  rcases List.suffix_or_suffix_of_suffix h (List.suffix_append s (b' :: t')) with hle | hle
  · obtain heq | hle := List.suffix_cons_iff.mp hle
    · exact heq
    · exact absurd hb (ht' b (hle.subset (List.mem_cons_self ..)))
  · obtain heq | hle := List.suffix_cons_iff.mp hle
    · exact heq.symm
    · exact absurd hb' (ht b' (hle.subset (List.mem_cons_self ..)))

theorem utf8_inj {s t : List Char} (h : utf8 s = utf8 t) : s = t := by
  induction s generalizing t with
  | nil =>
    cases t with
    | nil => rfl
    | cons d t => exact absurd (List.append_eq_nil_iff.mp h.symm).1 String.utf8EncodeChar_ne_nil
  | cons c s ih =>
    cases t with
    | nil => exact absurd (List.append_eq_nil_iff.mp h).1 String.utf8EncodeChar_ne_nil
    | cons d t =>
      obtain rfl : c = d := utf8EncodeChar_prefixFree ⟨utf8 s, h⟩
      rw [ih (List.append_cancel_left h)]

theorem length_utf8_le {s t : List Char} (h : s <:+: t) : (utf8 s).length ≤ (utf8 t).length := by
  obtain ⟨u, v, rfl⟩ := h
  rw [utf8_append, utf8_append, List.length_append, List.length_append]
  omega

/-! ### Trimming -/

variable (chars : List Char)

theorem trimCuts_utf8 (s : List Char) :
    trimCuts (chars.map String.utf8EncodeChar) 0 (utf8 s) = utf8 (s.dropWhile (· ∈ chars)) := by
  induction s with
  | nil => rfl
  | cons c s ih =>
    obtain ⟨b, t, hc, -⟩ := utf8EncodeChar_eq_cons c
    have hcons : utf8 (c :: s) = b :: t ++ utf8 s := by
      rw [← hc]
      rfl
    by_cases hmem : c ∈ chars
    · rw [List.dropWhile_cons_of_pos (by simpa using hmem), ← ih, hcons, ← hc]
      apply trimCuts_append
      · intro hnil
        obtain ⟨d, -, hd⟩ := List.mem_map.mp hnil
        exact String.utf8EncodeChar_ne_nil hd
      · intro cut hcut cut' hcut' hpre
        obtain ⟨d, -, rfl⟩ := List.mem_map.mp hcut
        obtain ⟨d', -, rfl⟩ := List.mem_map.mp hcut'
        rw [utf8EncodeChar_prefixFree (hpre.trans (List.prefix_append _ []))]
      · exact List.mem_map_of_mem hmem
    · have hnone : (chars.map String.utf8EncodeChar).find? (·.isPrefixOf (b :: (t ++ utf8 s))) =
          none := by
        rw [List.find?_eq_none]
        intro cut hcut hpre
        obtain ⟨d, hd, rfl⟩ := List.mem_map.mp hcut
        rw [List.isPrefixOf_iff_prefix, ← List.cons_append, ← hc] at hpre
        exact hmem (utf8EncodeChar_prefixFree hpre ▸ hd)
      rw [List.dropWhile_cons_of_neg (by simpa using hmem), hcons, List.cons_append, trimCuts,
        hnone]

theorem trimCuts_reverse_utf8 (s : List Char) :
    (trimCuts ((chars.map String.utf8EncodeChar).map List.reverse) 0 (utf8 s).reverse).reverse =
      utf8 (s.rdropWhile (· ∈ chars)) := by
  induction s using List.reverseRecOn with
  | nil => rfl
  | append_singleton s c ih =>
    obtain ⟨b, t, hc, -⟩ := utf8EncodeChar_eq_cons c
    have hconcat :
        (utf8 (s ++ [c])).reverse = (String.utf8EncodeChar c).reverse ++ (utf8 s).reverse := by
      rw [utf8_append, List.reverse_append]
      simp [utf8]
    by_cases hmem : c ∈ chars
    · rw [List.rdropWhile_concat_pos _ _ _ (by simpa using hmem), ← ih, hconcat]
      congr 1
      apply trimCuts_append
      · intro hnil
        obtain ⟨cut, hcut, hreverse⟩ := List.mem_map.mp hnil
        obtain ⟨d, -, rfl⟩ := List.mem_map.mp hcut
        exact String.utf8EncodeChar_ne_nil (List.reverse_eq_nil_iff.mp hreverse)
      · intro cut hcut cut' hcut' hpre
        obtain ⟨u, hu, rfl⟩ := List.mem_map.mp hcut
        obtain ⟨u', hu', rfl⟩ := List.mem_map.mp hcut'
        obtain ⟨d, -, rfl⟩ := List.mem_map.mp hu
        obtain ⟨d', -, rfl⟩ := List.mem_map.mp hu'
        rw [List.reverse_prefix] at hpre
        rw [utf8EncodeChar_suffixFree (hpre.trans (List.suffix_append [] _))]
      · exact List.mem_map_of_mem (List.mem_map_of_mem hmem)
    · rw [List.rdropWhile_concat_neg _ _ _ (by simpa using hmem)]
      have hnone : ((chars.map String.utf8EncodeChar).map List.reverse).find?
          (·.isPrefixOf (utf8 (s ++ [c])).reverse) = none := by
        rw [List.find?_eq_none]
        intro cut hcut hpre
        obtain ⟨u, hu, rfl⟩ := List.mem_map.mp hcut
        obtain ⟨d, hd, rfl⟩ := List.mem_map.mp hu
        rw [List.isPrefixOf_iff_prefix, hconcat, ← List.reverse_append, List.reverse_prefix]
          at hpre
        exact hmem (utf8EncodeChar_suffixFree hpre ▸ hd)
      have hne : (utf8 (s ++ [c])).reverse ≠ [] := by
        rw [hconcat, hc]
        simp
      obtain ⟨b', r, hcons⟩ := List.exists_cons_of_ne_nil hne
      rw [hcons] at hnone ⊢
      rw [trimCuts, hnone]
      dsimp only
      rw [← hcons, List.reverse_reverse]

/-- The white space of `unicode.IsSpace`. -/
def whiteSpace : List Char :=
  ['\t', '\n', '\x0B', '\x0C', '\r', ' ', '\u0085', '\u00A0', '\u1680', '\u2000', '\u2001',
    '\u2002', '\u2003', '\u2004', '\u2005', '\u2006', '\u2007', '\u2008', '\u2009', '\u200A',
    '\u2028', '\u2029', '\u202F', '\u205F', '\u3000']

theorem spaces_eq : spaces = whiteSpace.map String.utf8EncodeChar := by decide

theorem trimSpace_utf8 (s : List Char) : trimSpace (utf8 s) = utf8 (strip (· ∈ whiteSpace) s) := by
  rw [trimSpace, spaces_eq, trimCuts_utf8, trimCuts_reverse_utf8, strip]

end OpenFlux
