import Mathlib.Data.List.DropRight
import Mathlib.Data.List.Infix
import OpenFlux.Go.Bytes

/-!
# Strings (`strings`, `encoding/hex`, `encoding/base64`)

Go's strings as byte strings.  `strings.TrimSpace` cuts runes: no encoding of a rune is the start
or the end of another one's, so it cuts the encodings of the white space as long as the string
starts or ends with one.
-/

namespace OpenFlux

/-- A string literal as Go's `[]byte`. -/
def literal (s : String) : Bytes := s.toList.flatMap String.utf8EncodeChar

/-! ### Searching -/

/-- `strings.Contains`. -/
def contains (s substr : Bytes) : Bool := substr <:+: s

/-- `strings.Index`, with `none` for -1. -/
def index (s substr : Bytes) : Option ℕ :=
  (List.range (s.length + 1)).find? fun i => substr.isPrefixOf (s.drop i)

theorem contains_iff {s substr : Bytes} : contains s substr = true ↔ substr <:+: s :=
  decide_eq_true_iff

theorem index_eq_none_of_not_infix {s substr : Bytes} (h : ¬ substr <:+: s) :
    index s substr = none := by
  rw [index, List.find?_eq_none]
  intro i _ hprefix
  apply h
  exact (List.isPrefixOf_iff_prefix.mp hprefix).isInfix.trans (List.drop_suffix i s).isInfix

/-! ### Trimming -/

/-- `strings.TrimPrefix`. -/
def trimPrefix (s pre : Bytes) : Bytes := if pre.isPrefixOf s then s.drop pre.length else s

/-- `strings.Trim` with a cutset of one ASCII character. -/
def trim (s : Bytes) (c : UInt8) : Bytes := (s.dropWhile (· == c)).rdropWhile (· == c)

/-- The white space of `unicode.IsSpace`, encoded. -/
def spaces : List Bytes :=
  [[0x09], [0x0A], [0x0B], [0x0C], [0x0D], [0x20], [0xC2, 0x85], [0xC2, 0xA0], [0xE1, 0x9A, 0x80],
    [0xE2, 0x80, 0x80], [0xE2, 0x80, 0x81], [0xE2, 0x80, 0x82], [0xE2, 0x80, 0x83],
    [0xE2, 0x80, 0x84], [0xE2, 0x80, 0x85], [0xE2, 0x80, 0x86], [0xE2, 0x80, 0x87],
    [0xE2, 0x80, 0x88], [0xE2, 0x80, 0x89], [0xE2, 0x80, 0x8A], [0xE2, 0x80, 0xA8],
    [0xE2, 0x80, 0xA9], [0xE2, 0x80, 0xAF], [0xE2, 0x81, 0x9F], [0xE3, 0x80, 0x80]]

/-- The string less the cuts it starts with; `skip` more bytes of a cut are to be dropped. -/
def trimCuts (cuts : List Bytes) : ℕ → Bytes → Bytes
  | _, [] => []
  | skip + 1, _ :: s => trimCuts cuts skip s
  | 0, b :: s =>
    match cuts.find? (·.isPrefixOf (b :: s)) with
    | some cut => trimCuts cuts (cut.length - 1) s
    | none => b :: s

/-- `strings.TrimSpace`. -/
def trimSpace (s : Bytes) : Bytes :=
  let s := trimCuts spaces 0 s
  (trimCuts (spaces.map List.reverse) 0 s.reverse).reverse

theorem trimCuts_skip (cuts : List Bytes) (skip : ℕ) (s : Bytes) :
    trimCuts cuts skip s = trimCuts cuts 0 (s.drop skip) := by
  induction s generalizing skip with
  | nil => cases skip <;> rfl
  | cons b s ih =>
    cases skip with
    | zero => rfl
    | succ skip => exact ih skip

theorem trimCuts_of_find {cuts : List Bytes} {b : UInt8} {cut s : Bytes}
    (h : cuts.find? (·.isPrefixOf (b :: cut ++ s)) = some (b :: cut)) :
    trimCuts cuts 0 (b :: cut ++ s) = trimCuts cuts 0 s := by
  rw [List.cons_append] at h ⊢
  rw [trimCuts, h]
  dsimp only
  rw [trimCuts_skip, List.length_cons, Nat.add_sub_cancel, List.drop_left]

/-- A cut that the string starts with is dropped. -/
theorem trimCuts_append {cuts : List Bytes} (hne : [] ∉ cuts)
    (hfree : ∀ cut ∈ cuts, ∀ cut' ∈ cuts, cut <+: cut' → cut = cut') {cut : Bytes}
    (hcut : cut ∈ cuts) (s : Bytes) : trimCuts cuts 0 (cut ++ s) = trimCuts cuts 0 s := by
  obtain ⟨b, cut, rfl⟩ := List.exists_cons_of_ne_nil (ne_of_mem_of_not_mem hcut hne)
  apply trimCuts_of_find
  have hprefix : b :: cut <+: b :: cut ++ s := List.prefix_append (b :: cut) s
  cases hfind : cuts.find? (·.isPrefixOf (b :: cut ++ s)) with
  | none =>
    have hnot := List.find?_eq_none.mp hfind _ hcut
    exact absurd (List.isPrefixOf_iff_prefix.mpr hprefix) hnot
  | some cut' =>
    have hcut' := List.mem_of_find?_eq_some hfind
    have hprefix' := List.find?_some hfind
    rw [List.isPrefixOf_iff_prefix] at hprefix'
    -- of two cuts that the string starts with, one starts with the other
    rcases List.prefix_or_prefix_of_prefix hprefix hprefix' with hle | hle
    · rw [hfree _ hcut _ hcut' hle]
    · rw [hfree _ hcut' _ hcut hle]

/-- What is cut is a sequence of cuts. -/
theorem exists_trimCuts {cuts : List Bytes} (hne : [] ∉ cuts) (s : Bytes) :
    ∃ pre : List Bytes, (∀ cut ∈ pre, cut ∈ cuts) ∧ s = pre.flatten ++ trimCuts cuts 0 s := by
  induction hlen : s.length using Nat.strong_induction_on generalizing s with
  | _ n ih =>
    subst hlen
    cases s with
    | nil => exact ⟨[], nofun, rfl⟩
    | cons b s =>
      cases hfind : cuts.find? (·.isPrefixOf (b :: s)) with
      | none =>
        refine ⟨[], nofun, ?_⟩
        rw [trimCuts, hfind]
        rfl
      | some cut =>
        have hcut : cut ∈ cuts := List.mem_of_find?_eq_some hfind
        have hprefix := List.find?_some hfind
        obtain ⟨s', hs'⟩ := List.isPrefixOf_iff_prefix.mp hprefix
        obtain ⟨c, cut, rfl⟩ := List.exists_cons_of_ne_nil (ne_of_mem_of_not_mem hcut hne)
        rw [← hs'] at hfind ih ⊢
        have hlt : s'.length < (c :: cut ++ s').length := by
          rw [List.length_append, List.length_cons]
          omega
        obtain ⟨pre, hpre, heq⟩ := ih s'.length hlt s' rfl
        refine ⟨(c :: cut) :: pre, List.forall_mem_cons.mpr ⟨hcut, hpre⟩, ?_⟩
        rw [trimCuts_of_find hfind, List.flatten_cons, List.append_assoc, ← heq]

theorem trimCuts_of_head {cuts : List Bytes} {c : UInt8} {s : Bytes}
    (h : ∀ cut ∈ cuts, ∃ d ∈ cut.head?, d ≠ c) : trimCuts cuts 0 (c :: s) = c :: s := by
  have hfind : cuts.find? (·.isPrefixOf (c :: s)) = none := by
    rw [List.find?_eq_none]
    intro cut hcut hpre
    obtain ⟨d, hd, hne⟩ := h cut hcut
    rcases cut with _ | ⟨d', cut⟩
    · cases hd
    · obtain rfl := Option.some.inj hd
      exact hne (List.cons_prefix_cons.mp (List.isPrefixOf_iff_prefix.mp hpre)).1
  rw [trimCuts, hfind]

/-! ### Hexadecimal digits -/

/-- The hexadecimal digit of a number below 16. -/
def hexDigit (v : ℕ) : UInt8 := UInt8.ofNat (if v < 10 then 0x30 + v else 0x57 + v)

/-- `hex.EncodeToString`. -/
def hexEncode (b : Bytes) : Bytes :=
  b.flatMap fun c : UInt8 => [hexDigit (c.toNat / 16), hexDigit (c.toNat % 16)]

/-! ### Base64 -/

/-- The alphabet of `base64.RawURLEncoding`. -/
def urlAlphabet : Bytes :=
  literal "ABCDEFGHIJKLMNOPQRSTUVWXYZabcdefghijklmnopqrstuvwxyz0123456789-_"

/-- The character of a six-bit number. -/
def urlChar (v : ℕ) : UInt8 := urlAlphabet.getD (v % 64) 0

/-- The four characters of three bytes. -/
def urlChars (val : ℕ) : Bytes :=
  [urlChar (val / 262144), urlChar (val / 4096), urlChar (val / 64), urlChar val]

/-- `base64.RawURLEncoding.EncodeToString`. -/
def encodeRawURL : Bytes → Bytes
  | a :: b :: c :: rest =>
    urlChars (a.toNat * 65536 + b.toNat * 256 + c.toNat) ++ encodeRawURL rest
  | [a, b] => (urlChars (a.toNat * 65536 + b.toNat * 256)).take 3
  | [a] => (urlChars (a.toNat * 65536)).take 2
  | [] => []

theorem length_urlAlphabet : urlAlphabet.length = 64 := by decide +kernel

/-- The alphabet has neither white space nor the characters that separate the parts of a token. -/
theorem urlAlphabet_range : ∀ ch ∈ urlAlphabet,
    ch = 0x2D ∨ 0x30 ≤ ch ∧ ch ≤ 0x39 ∨ 0x41 ≤ ch ∧ ch ≤ 0x7A := by
  decide +kernel

theorem urlChar_mem (v : ℕ) : urlChar v ∈ urlAlphabet := by
  have hlt : v % 64 < urlAlphabet.length := by
    rw [length_urlAlphabet]
    exact Nat.mod_lt _ (by omega)
  rw [urlChar, List.getD_eq_getElem?_getD, List.getElem?_eq_getElem hlt, Option.getD_some]
  exact List.getElem_mem hlt

theorem urlChars_subset (val : ℕ) : ∀ ch ∈ urlChars val, ch ∈ urlAlphabet := by
  simp [urlChars, urlChar_mem]

/-- The encoding stays in its alphabet. -/
theorem encodeRawURL_subset (b : Bytes) : ∀ ch ∈ encodeRawURL b, ch ∈ urlAlphabet := by
  induction b using encodeRawURL.induct with
  | case1 a b c rest ih =>
    intro ch hch
    rw [encodeRawURL, List.mem_append] at hch
    exact hch.elim (urlChars_subset _ ch) (ih ch)
  | case2 a b => exact fun ch hch => urlChars_subset _ ch (List.mem_of_mem_take hch)
  | case3 a => exact fun ch hch => urlChars_subset _ ch (List.mem_of_mem_take hch)
  | case4 => exact fun _ hch => absurd hch List.not_mem_nil

end OpenFlux
