import OpenFlux.Go.Utf8

/-!
# Strings (`kotlin.text`)

Kotlin's strings as byte strings in UTF-8, with three bytes for an unpaired surrogate.  What is
searched for is always in ASCII.
-/

namespace OpenFlux.Kotlin

/-- The characters of `isWhitespace`, encoded. -/
def whitespace : List Bytes :=
  [[0x09], [0x0A], [0x0B], [0x0C], [0x0D], [0x1C], [0x1D], [0x1E], [0x1F], [0x20], [0xC2, 0xA0],
    [0xE1, 0x9A, 0x80], [0xE2, 0x80, 0x80], [0xE2, 0x80, 0x81], [0xE2, 0x80, 0x82],
    [0xE2, 0x80, 0x83], [0xE2, 0x80, 0x84], [0xE2, 0x80, 0x85], [0xE2, 0x80, 0x86],
    [0xE2, 0x80, 0x87], [0xE2, 0x80, 0x88], [0xE2, 0x80, 0x89], [0xE2, 0x80, 0x8A],
    [0xE2, 0x80, 0xA8], [0xE2, 0x80, 0xA9], [0xE2, 0x80, 0xAF], [0xE2, 0x81, 0x9F],
    [0xE3, 0x80, 0x80]]

/-- `trimEnd` of these characters. -/
def trimEnd (chars : List Bytes) (s : Bytes) : Bytes :=
  (trimCuts (chars.map List.reverse) 0 s.reverse).reverse

/-- `trim`. -/
def trim (s : Bytes) : Bytes := trimEnd whitespace (trimCuts whitespace 0 s)

theorem validUTF8_trim {s : Bytes} (h : validUTF8 s = true) : validUTF8 (trim s) = true :=
  validUTF8_trimCuts (by decide) (by decide) (by decide +kernel) (by decide +kernel) h

/-- `isNotBlank`. -/
def isNotBlank (s : Bytes) : Bool := trim s ≠ []

/-- A string whose characters that Java takes for letters of the alphabet when it ignores case are
these letters: the dotted and the dotless i, the long s and the Kelvin sign are. -/
def foldCase : Bytes → Bytes
  | 0xC4 :: 0xB0 :: s => 0x49 :: foldCase s
  | 0xC4 :: 0xB1 :: s => 0x49 :: foldCase s
  | 0xC5 :: 0xBF :: s => 0x53 :: foldCase s
  | 0xE2 :: 0x84 :: 0xAA :: s => 0x4B :: foldCase s
  | c :: s => (if 0x61 ≤ c ∧ c ≤ 0x7A then c - 0x20 else c) :: foldCase s
  | [] => []

/-- `equals` with `ignoreCase`. -/
def equalsIgnoreCase (s t : Bytes) : Bool := foldCase s = foldCase t

/-- `startsWith`. -/
def startsWith (s pre : Bytes) : Bool := pre.isPrefixOf s

/-- `startsWith` with `ignoreCase`. -/
def startsWithIgnoreCase (s pre : Bytes) : Bool := (foldCase pre).isPrefixOf (foldCase s)

/-- `trimStart` of one character. -/
def trimStart (s : Bytes) (c : UInt8) : Bytes := s.dropWhile (· == c)

/-- `substringBefore` of one character. -/
def substringBefore (s : Bytes) (c : UInt8) : Bytes := s.takeWhile (· != c)

/-- `substringAfter` of one character. -/
def substringAfter (s : Bytes) (c : UInt8) : Bytes :=
  if c ∈ s then (s.dropWhile (· != c)).drop 1 else s

/-- The first code unit of the character that starts with these bytes, which is beyond the basic
plane. -/
def highSurrogate (c₀ c₁ c₂ : UInt8) : Bytes :=
  let unit := 0xD7C0 + (c₀.toNat % 8 * 0x100 + c₁.toNat % 0x40 * 4 + c₂.toNat % 0x40 / 0x10)
  [0xED, UInt8.ofNat (0x80 + unit / 0x40 % 0x40), UInt8.ofNat (0x80 + unit % 0x40)]

/-- `take`, which counts a character beyond the basic plane as two. -/
def take : ℕ → Bytes → Bytes
  | _, [] => []
  | n, c :: s =>
    -- a byte that continues a character comes with it
    if 0x80 ≤ c ∧ c < 0xC0 then c :: take n s
    else if n = 0 then []
    else if n = 1 ∧ 0xF0 ≤ c then highSurrogate c (s.getD 0 0) (s.getD 1 0)
    else c :: take (if 0xF0 ≤ c then n - 2 else n - 1) s

example : take 2 (literal "aбв") = literal "aб" ∧
    take 2 (literal "a😀") = [0x61, 0xED, 0xA0, 0xBD] := by
  decide +kernel

end OpenFlux.Kotlin
