import Mathlib.Data.Bool.AllAny
import OpenFlux.App.Strings
import OpenFlux.Go.Runes

/-!
# Strings as Kotlin has them

A `String` is a list of UTF-16 code units, and not every one of them is a text: half of a surrogate
pair can stand alone.  `toByteArray` writes a question mark for it.  `trim` works on the code units;
`toByteArray_trim` says that on the encodings it is `Kotlin.trim`.
-/

namespace OpenFlux.Kotlin.Utf16

open Strip

/-- A code unit that begins a surrogate pair. -/
def isHighSurrogate (u : UInt16) : Bool := 0xD800 ≤ u && u < 0xDC00

/-- A code unit that ends a surrogate pair. -/
def isLowSurrogate (u : UInt16) : Bool := 0xDC00 ≤ u && u < 0xE000

/-- The character of a code unit on its own. -/
def single (u : UInt16) : Char :=
  if isHighSurrogate u || isLowSurrogate u then '?' else Char.ofNat u.toNat

/-- The character of a surrogate pair. -/
def pair (u v : UInt16) : Char :=
  Char.ofNat (0x10000 + (u.toNat - 0xD800) * 0x400 + (v.toNat - 0xDC00))

/-- The characters that are written for a string. -/
def chars : List UInt16 → List Char
  | [] => []
  | [u] => [single u]
  | u :: v :: s =>
    if isHighSurrogate u && isLowSurrogate v then pair u v :: chars s
    else single u :: chars (v :: s)

/-- `toByteArray` in UTF-8. -/
def toByteArray (s : List UInt16) : Bytes := utf8 (chars s)

/-- `isWhitespace`: Java's `isWhitespace` or `isSpaceChar`. -/
def isWhitespace (u : UInt16) : Bool :=
  u ∈ [0x09, 0x0A, 0x0B, 0x0C, 0x0D, 0x1C, 0x1D, 0x1E, 0x1F, 0x20, 0xA0, 0x1680, 0x2000, 0x2001,
    0x2002, 0x2003, 0x2004, 0x2005, 0x2006, 0x2007, 0x2008, 0x2009, 0x200A, 0x2028, 0x2029, 0x202F,
    0x205F, 0x3000]

/-- `trim`. -/
def trim (s : List UInt16) : List UInt16 := strip isWhitespace s

/-! ### White space -/

/-- The characters of `isWhitespace`. -/
def whitespaceChars : List Char :=
  ['\t', '\n', '\x0B', '\x0C', '\r', '\x1C', '\x1D', '\x1E', '\x1F', ' ', '\u00A0', '\u1680',
    '\u2000', '\u2001', '\u2002', '\u2003', '\u2004', '\u2005', '\u2006', '\u2007', '\u2008',
    '\u2009', '\u200A', '\u2028', '\u2029', '\u202F', '\u205F', '\u3000']

theorem not_surrogate_of_isWhitespace {u : UInt16} (h : isWhitespace u = true) :
    isHighSurrogate u = false ∧ isLowSurrogate u = false := by
  simp only [isWhitespace, decide_eq_true_iff] at h
  exact (List.all_iff_forall_prop
    (p := fun u => isHighSurrogate u = false ∧ isLowSurrogate u = false)).mp rfl u h

theorem toNat_ofNat {n : ℕ} (h : n.isValidChar) : (Char.ofNat n).toNat = n := by
  rw [Char.ofNat, dif_pos h]
  rfl

theorem toNat_single {u : UInt16} (hhigh : isHighSurrogate u = false)
    (hlow : isLowSurrogate u = false) : (single u).toNat = u.toNat := by
  have hvalid : u.toNat.isValidChar := by
    simp only [isHighSurrogate, isLowSurrogate, Bool.and_eq_false_iff, decide_eq_false_iff_not,
      UInt16.le_iff_toNat_le, UInt16.lt_iff_toNat_lt,
      UInt16.reduceToNat] at hhigh hlow
    have hlt := u.toNat_lt
    unfold Nat.isValidChar
    omega
  rw [single, hhigh, hlow]
  exact toNat_ofNat hvalid

theorem toNat_pair {u v : UInt16} (hhigh : isHighSurrogate u = true)
    (hlow : isLowSurrogate v = true) : 0x10000 ≤ (pair u v).toNat := by
  simp only [isHighSurrogate, isLowSurrogate, Bool.and_eq_true, decide_eq_true_iff,
    UInt16.le_iff_toNat_le, UInt16.lt_iff_toNat_lt, UInt16.reduceToNat] at hhigh hlow
  have hvalid : (0x10000 + (u.toNat - 0xD800) * 0x400 + (v.toNat - 0xDC00)).isValidChar := by
    unfold Nat.isValidChar
    omega
  rw [pair, toNat_ofNat hvalid]
  omega

theorem single_mem_iff (u : UInt16) : single u ∈ whitespaceChars ↔ isWhitespace u = true := by
  have hunits : ∀ c ∈ whitespaceChars, isWhitespace (UInt16.ofNat c.toNat) = true :=
    List.all_eq_true.mp rfl
  constructor
  · intro h
    by_cases hsurrogate : (isHighSurrogate u || isLowSurrogate u) = true
    · rw [single, if_pos hsurrogate] at h
      exact absurd h (by decide)
    · rw [Bool.not_eq_true, Bool.or_eq_false_iff] at hsurrogate
      have hu := hunits _ h
      rwa [toNat_single hsurrogate.1 hsurrogate.2, UInt16.ofNat_toNat] at hu
  · intro h
    simp only [isWhitespace, decide_eq_true_iff] at h
    exact (List.all_iff_forall_prop (p := fun u => single u ∈ whitespaceChars)).mp rfl u h

theorem pair_not_mem {u v : UInt16} (hhigh : isHighSurrogate u = true)
    (hlow : isLowSurrogate v = true) : pair u v ∉ whitespaceChars := by
  have hbound : ∀ c ∈ whitespaceChars, c.toNat < 0x10000 := List.all_iff_forall_prop.mp rfl
  intro h
  exact absurd (hbound _ h) (Nat.not_lt.mpr (toNat_pair hhigh hlow))

/-! ### The ends of a string -/

/-- The first character is white space if the first code unit is. -/
theorem chars_cons (u : UInt16) (s : List UInt16) :
    ∃ c t, chars (u :: s) = c :: t ∧ (c ∈ whitespaceChars ↔ isWhitespace u = true) ∧
      (isHighSurrogate u = false → c = single u ∧ t = chars s) := by
  cases s with
  | nil => exact ⟨single u, [], rfl, single_mem_iff u, fun _ => ⟨rfl, rfl⟩⟩
  | cons v s =>
    by_cases hpair : (isHighSurrogate u && isLowSurrogate v) = true
    · have hboth := Bool.and_eq_true_iff.mp hpair
      refine ⟨pair u v, chars s, by rw [chars, if_pos hpair], ?_, ?_⟩
      · refine iff_of_false (pair_not_mem hboth.1 hboth.2) fun h => ?_
        rw [(not_surrogate_of_isWhitespace h).1] at hboth
        cases hboth.1
      · intro hhigh
        rw [hhigh] at hboth
        cases hboth.1
    · exact ⟨single u, chars (v :: s), by rw [chars, if_neg hpair], single_mem_iff u,
        fun _ => ⟨rfl, rfl⟩⟩

/-- The last character is white space if the last code unit is. -/
theorem chars_concat (s : List UInt16) (u : UInt16) :
    ∃ t c, chars (s ++ [u]) = t ++ [c] ∧ (c ∈ whitespaceChars ↔ isWhitespace u = true) ∧
      (isLowSurrogate u = false → c = single u ∧ t = chars s) := by
  induction s using chars.induct with
  | case1 => exact ⟨[], single u, rfl, single_mem_iff u, fun _ => ⟨rfl, rfl⟩⟩
  | case2 v =>
    by_cases hpair : (isHighSurrogate v && isLowSurrogate u) = true
    · have hboth := Bool.and_eq_true_iff.mp hpair
      refine ⟨[], pair v u, by rw [List.singleton_append, chars, if_pos hpair]; rfl, ?_, ?_⟩
      · refine iff_of_false (pair_not_mem hboth.1 hboth.2) fun h => ?_
        rw [(not_surrogate_of_isWhitespace h).2] at hboth
        cases hboth.2
      · intro hlow
        rw [hlow] at hboth
        cases hboth.2
    · exact ⟨[single v], single u, by rw [List.singleton_append, chars, if_neg hpair]; rfl,
        single_mem_iff u, fun _ => ⟨rfl, rfl⟩⟩
  | case3 v w s hpair ih =>
    obtain ⟨t, c, heq, hmem, hsingle⟩ := ih
    refine ⟨pair v w :: t, c, ?_, hmem, fun hlow => ⟨(hsingle hlow).1, ?_⟩⟩
    · rw [List.cons_append, List.cons_append, chars, if_pos hpair, heq, List.cons_append]
    · rw [chars, if_pos hpair, (hsingle hlow).2]
  | case4 v w s hpair ih =>
    obtain ⟨t, c, heq, hmem, hsingle⟩ := ih
    refine ⟨single v :: t, c, ?_, hmem, fun hlow => ⟨(hsingle hlow).1, ?_⟩⟩
    · rw [List.cons_append, List.cons_append, chars, if_neg hpair, ← List.cons_append, heq,
        List.cons_append]
    · rw [chars, if_neg hpair, (hsingle hlow).2]

theorem chars_dropWhile (s : List UInt16) :
    chars (s.dropWhile isWhitespace) = (chars s).dropWhile (· ∈ whitespaceChars) := by
  induction s with
  | nil => rfl
  | cons u s ih =>
    obtain ⟨c, t, heq, hmem, hsingle⟩ := chars_cons u s
    by_cases hu : isWhitespace u = true
    · have ht := (hsingle (not_surrogate_of_isWhitespace hu).1).2
      have hc : c ∈ whitespaceChars := hmem.mpr hu
      rw [List.dropWhile_cons_of_pos hu, ih, heq,
        List.dropWhile_cons_of_pos (by simpa using hc), ht]
    · have hc : c ∉ whitespaceChars := fun h => hu (hmem.mp h)
      rw [List.dropWhile_cons_of_neg hu, heq, List.dropWhile_cons_of_neg (by simpa using hc)]

theorem chars_rdropWhile (s : List UInt16) :
    chars (s.rdropWhile isWhitespace) = (chars s).rdropWhile (· ∈ whitespaceChars) := by
  induction s using List.reverseRecOn with
  | nil => rfl
  | append_singleton s u ih =>
    obtain ⟨t, c, heq, hmem, hsingle⟩ := chars_concat s u
    by_cases hu : isWhitespace u = true
    · have ht := (hsingle (not_surrogate_of_isWhitespace hu).2).2
      have hc : c ∈ whitespaceChars := hmem.mpr hu
      rw [List.rdropWhile_concat_pos _ _ _ hu, ih, heq,
        List.rdropWhile_concat_pos _ _ _ (by simpa using hc), ht]
    · have hc : c ∉ whitespaceChars := fun h => hu (hmem.mp h)
      rw [List.rdropWhile_concat_neg _ _ _ hu, heq,
        List.rdropWhile_concat_neg _ _ _ (by simpa using hc)]

theorem chars_trim (s : List UInt16) : chars (trim s) = strip (· ∈ whitespaceChars) (chars s) := by
  rw [trim, strip, chars_rdropWhile, chars_dropWhile, strip]

/-! ### The encodings -/

theorem whitespace_eq : whitespace = whitespaceChars.map String.utf8EncodeChar := by decide

theorem trim_utf8 (s : List Char) :
    Kotlin.trim (utf8 s) = utf8 (strip (· ∈ whitespaceChars) s) := by
  rw [Kotlin.trim, trimEnd, whitespace_eq, trimCuts_utf8, trimCuts_reverse_utf8, strip]

theorem toByteArray_trim (s : List UInt16) :
    toByteArray (trim s) = Kotlin.trim (toByteArray s) := by
  rw [toByteArray, toByteArray, chars_trim, trim_utf8]

end OpenFlux.Kotlin.Utf16
