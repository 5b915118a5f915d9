import OpenFlux.Go.Path

/-!
# URLs and their queries (`net/url`)

`Parse` and `ParseQuery`, as far as the query goes: of a URL only `RawQuery` is kept, and an error
is `none`.  `authorityOk` says which authorities `parseAuthority` takes; it is not the same in all
versions of Go.
-/

namespace OpenFlux.URL

/-- `strings.Cut` of one character. -/
def cut (s : Bytes) (sep : UInt8) : Bytes × Bytes :=
  (s.takeWhile (· != sep), (s.dropWhile (· != sep)).drop 1)

/-- Every `%` starts an escape, as `unescape` checks before it writes. -/
def escapesOk : Bytes → Bool
  | 0x25 :: h :: l :: s => (unhex h).isSome && (unhex l).isSome && escapesOk s
  | 0x25 :: _ => false
  | _ :: s => escapesOk s
  | [] => true

/-- `QueryUnescape`. -/
def queryUnescape : Bytes → Option Bytes
  | 0x25 :: h :: l :: s => do
    let v ← unhex h
    let w ← unhex l
    return UInt8.ofNat (v * 16 + w) :: (← queryUnescape s)
  | 0x25 :: _ => none
  | 0x2B :: s => (queryUnescape s).map (0x20 :: ·)
  | c :: s => (queryUnescape s).map (c :: ·)
  | [] => some []

def isLetter (c : UInt8) : Bool := (0x61 ≤ c && c ≤ 0x7A) || (0x41 ≤ c && c ≤ 0x5A)

/-- What `getScheme` takes after the first letter. -/
def isSchemeChar (c : UInt8) : Bool :=
  isLetter c || (0x30 ≤ c && c ≤ 0x39) || c == 0x2B || c == 0x2D || c == 0x2E

/-- `getScheme`: the scheme and what follows its colon. -/
def getScheme (s : Bytes) : Option (Bytes × Bytes) :=
  match s.takeWhile isSchemeChar, s.dropWhile isSchemeChar with
  | [], 0x3A :: _ => none
  | c :: scheme, 0x3A :: rest => if isLetter c then some (c :: scheme, rest) else some ([], s)
  | _, _ => some ([], s)

/-- What `parse` checks between the scheme and the query: the authority and the path. -/
def hierarchyOk (authorityOk : Bytes → Bool) (scheme rest : Bytes) : Bool :=
  if rest.head? = some 0x2F then
    let slashes := rest.takeWhile (· == 0x2F)
    if 2 ≤ slashes.length ∧ (scheme ≠ [] ∨ slashes.length < 3) then
      let authority := (rest.drop 2).takeWhile (· != 0x2F)
      authorityOk authority && escapesOk ((rest.drop 2).dropWhile (· != 0x2F))
    else escapesOk rest
  -- a path after a scheme is left as it is, and the first segment of another one has no colon
  else scheme ≠ [] || (0x3A ∉ (cut rest 0x2F).1 && escapesOk rest)

/-- `parse` of a URL without a fragment. -/
def parseUnfragmented (authorityOk : Bytes → Bool) (s : Bytes) : Option Bytes :=
  if s.any fun c => c < 0x20 || c == 0x7F then none
  else
    (getScheme s).bind fun (scheme, rest) =>
      let (rest, rawQuery) := cut rest 0x3F
      if hierarchyOk authorityOk scheme rest then some rawQuery else none

/-- `Parse`. -/
def parse (authorityOk : Bytes → Bool) (rawURL : Bytes) : Option Bytes :=
  let (s, fragment) := cut rawURL 0x23
  (parseUnfragmented authorityOk s).bind fun rawQuery =>
    if escapesOk fragment then some rawQuery else none

/-- The parameters that `ParseQuery` finds, in order; it leaves out those it cannot read. -/
def parseQuery (query : Bytes) : List (Bytes × Bytes) :=
  let params := query.splitOn 0x26
  if 10000 < params.length then []
  else params.filterMap fun param => do
    if 0x3B ∈ param ∨ param = [] then none
    let (key, value) := cut param 0x3D
    return (← queryUnescape key, ← queryUnescape value)

/-- `Values.Get`. -/
def get (values : List (Bytes × Bytes)) (key : Bytes) : Bytes :=
  ((values.find? fun p => p.1 = key).map Prod.snd).getD []

/-! ### URLs without a query -/

theorem cut_eq {s : Bytes} {sep : UInt8} (h : sep ∉ s) : cut s sep = (s, []) := by
  have htake : s.takeWhile (· != sep) = s :=
    List.takeWhile_eq_self_iff.mpr fun c hc => bne_iff_ne.mpr (ne_of_mem_of_not_mem hc h)
  have hdrop : s.dropWhile (· != sep) = [] :=
    List.dropWhile_eq_nil_iff.mpr fun c hc => bne_iff_ne.mpr (ne_of_mem_of_not_mem hc h)
  rw [cut, htake, hdrop]
  rfl

/-- What follows the scheme is part of the URL. -/
theorem suffix_of_getScheme {s scheme rest : Bytes} (h : getScheme s = some (scheme, rest)) :
    rest <:+ s := by
  unfold getScheme at h
  split at h
  · cases h
  · next hrest =>
    split at h
    · cases h
      exact (List.suffix_cons _ _).trans (hrest ▸ List.dropWhile_suffix _)
    · cases h
      exact List.suffix_rfl
  · cases h
    exact List.suffix_rfl

theorem rawQuery_of_parseUnfragmented {authorityOk : Bytes → Bool} {s rawQuery : Bytes}
    (h : parseUnfragmented authorityOk s = some rawQuery) :
    ∃ scheme rest, getScheme s = some (scheme, rest) ∧ rawQuery = (cut rest 0x3F).2 := by
  unfold parseUnfragmented at h
  split at h
  · cases h
  · obtain ⟨⟨scheme, rest⟩, hscheme, h⟩ := Option.bind_eq_some_iff.mp h
    dsimp only at h
    split at h
    · exact ⟨scheme, rest, hscheme, (Option.some.inj h).symm⟩
    · cases h

/-- A URL without a question mark has no query. -/
theorem parse_eq_nil {authorityOk : Bytes → Bool} {rawURL rawQuery : Bytes}
    (hmark : 0x3F ∉ rawURL) (h : parse authorityOk rawURL = some rawQuery) : rawQuery = [] := by
  obtain ⟨rawQuery', hparse, h⟩ := Option.bind_eq_some_iff.mp h
  obtain ⟨scheme, rest, hscheme, hcut⟩ := rawQuery_of_parseUnfragmented hparse
  have hrest : 0x3F ∉ rest := fun hmem =>
    hmark ((List.takeWhile_prefix _).subset ((suffix_of_getScheme hscheme).subset hmem))
  rw [cut_eq hrest] at hcut
  split at h
  · exact (Option.some.inj h).symm.trans hcut
  · cases h

end OpenFlux.URL
