import OpenFlux.Go.Json

/-!
# Valid UTF-8 (`unicode/utf8`)

Which byte strings are valid, and which JSON values have only valid strings: those that
`encoding/json` writes and reads without replacing anything.  Trimming leaves a string valid
(`validUTF8_trimCuts`).
-/

namespace OpenFlux

/-- The ranges of the bytes after a first byte, if an encoding starts with it. -/
def acceptRanges (c : UInt8) : Option (List (UInt8 × UInt8)) :=
  if c < 0x80 then some []
  else if 0xC2 ≤ c ∧ c ≤ 0xDF then some [(0x80, 0xBF)]
  else if c = 0xE0 then some [(0xA0, 0xBF), (0x80, 0xBF)]
  else if c = 0xED then some [(0x80, 0x9F), (0x80, 0xBF)]
  else if 0xE1 ≤ c ∧ c ≤ 0xEF then some [(0x80, 0xBF), (0x80, 0xBF)]
  else if c = 0xF0 then some [(0x90, 0xBF), (0x80, 0xBF), (0x80, 0xBF)]
  else if 0xF1 ≤ c ∧ c ≤ 0xF3 then some [(0x80, 0xBF), (0x80, 0xBF), (0x80, 0xBF)]
  else if c = 0xF4 then some [(0x80, 0x8F), (0x80, 0xBF), (0x80, 0xBF)]
  else none

/-- The string is valid after bytes in these ranges. -/
def validFrom : List (UInt8 × UInt8) → Bytes → Bool
  | [], [] => true
  | _ :: _, [] => false
  | range :: ranges, c :: s => range.1 ≤ c && c ≤ range.2 && validFrom ranges s
  | [], c :: s =>
    match acceptRanges c with
    | some ranges => validFrom ranges s
    | none => false

/-- `utf8.Valid`. -/
def validUTF8 (s : Bytes) : Bool := validFrom [] s

theorem validUTF8_cons {c : UInt8} (hc : c < 0x80) (s : Bytes) :
    validUTF8 (c :: s) = validUTF8 s := by
  rw [validUTF8, validFrom, acceptRanges, if_pos hc]
  rfl

theorem validUTF8_of_ascii {s : Bytes} (h : ∀ c ∈ s, c < 0x80) : validUTF8 s = true := by
  induction s with
  | nil => rfl
  | cons c s ih =>
    obtain ⟨hc, h⟩ := List.forall_mem_cons.mp h
    rw [validUTF8_cons hc]
    exact ih h

/-! ### Concatenation -/

theorem validFrom_append {ranges : List (UInt8 × UInt8)} {s : Bytes} (h : validFrom ranges s = true)
    (t : Bytes) : validFrom ranges (s ++ t) = validUTF8 t := by
  induction ranges, s using validFrom.induct with
  | case1 => rfl
  | case2 range ranges => exact absurd h Bool.false_ne_true
  | case3 range ranges c s ih =>
    rw [validFrom, Bool.and_eq_true] at h
    rw [List.cons_append, validFrom, h.1, ih h.2, Bool.true_and]
  | case4 c s ranges hranges ih =>
    rw [validFrom, hranges] at h
    rw [List.cons_append, validFrom, hranges]
    exact ih h
  | case5 c s hranges =>
    rw [validFrom, hranges] at h
    exact absurd h Bool.false_ne_true

theorem validUTF8_append {s : Bytes} (h : validUTF8 s = true) (t : Bytes) :
    validUTF8 (s ++ t) = validUTF8 t :=
  validFrom_append h t

/-- Bytes after the first one continue a character. -/
theorem continues_of_acceptRanges {c : UInt8} {ranges : List (UInt8 × UInt8)}
    (h : acceptRanges c = some ranges) : ∀ r ∈ ranges, 0x80 ≤ r.1 ∧ r.2 ≤ 0xBF := by
  unfold acceptRanges at h
  split_ifs at h <;> cases h <;> simp

/-- No character starts with a byte that continues one. -/
theorem acceptRanges_of_continues {c : UInt8} (h : 0x80 ≤ c) (h' : c ≤ 0xBF) :
    acceptRanges c = none := by
  simp only [UInt8.le_iff_toNat_le, UInt8.reduceToNat] at h h'
  have hne : ∀ d : UInt8, 0xBF < d.toNat → c ≠ d := by
    rintro d hd rfl
    omega
  have hle : ∀ d : UInt8, 0xBF < d.toNat → ¬ d ≤ c := by
    intro d hd
    rw [UInt8.le_iff_toNat_le]
    omega
  have hlt : ¬ c < 0x80 := by
    rw [UInt8.lt_iff_toNat_lt]
    exact Nat.not_lt.mpr h
  rw [acceptRanges, if_neg hlt, if_neg fun hc => hle 0xC2 (by decide) hc.1,
    if_neg (hne 0xE0 (by decide)), if_neg (hne 0xED (by decide)),
    if_neg fun hc => hle 0xE1 (by decide) hc.1, if_neg (hne 0xF0 (by decide)),
    if_neg fun hc => hle 0xF1 (by decide) hc.1, if_neg (hne 0xF4 (by decide))]

theorem validFrom_of_append {ranges : List (UInt8 × UInt8)}
    (hranges : ∀ r ∈ ranges, 0x80 ≤ r.1 ∧ r.2 ≤ 0xBF) {s t : Bytes}
    (h : validFrom ranges (s ++ t) = true) (ht : validUTF8 t = true) :
    validFrom ranges s = true := by
  induction ranges, s using validFrom.induct with
  | case1 => rfl
  | case2 range ranges =>
    -- the string after it would start in the middle of a character
    cases t with
    | nil => exact absurd h Bool.false_ne_true
    | cons c t =>
      rw [List.nil_append, validFrom, Bool.and_eq_true, Bool.and_eq_true, decide_eq_true_iff,
        decide_eq_true_iff] at h
      obtain ⟨hlow, hhigh⟩ := hranges range List.mem_cons_self
      have hnone : acceptRanges c = none :=
        acceptRanges_of_continues (UInt8.le_trans hlow h.1.1) (UInt8.le_trans h.1.2 hhigh)
      rw [validUTF8, validFrom, hnone] at ht
      exact absurd ht Bool.false_ne_true
  | case3 range ranges c s ih =>
    rw [List.cons_append, validFrom, Bool.and_eq_true] at h
    rw [validFrom, h.1, Bool.true_and]
    exact ih (fun r hr => hranges r (List.mem_cons_of_mem _ hr)) h.2
  | case4 c s ranges haccept ih =>
    rw [List.cons_append, validFrom, haccept] at h
    rw [validFrom, haccept]
    exact ih (continues_of_acceptRanges haccept) h
  | case5 c s haccept =>
    rw [List.cons_append, validFrom, haccept] at h
    exact absurd h Bool.false_ne_true

/-- What is left of a valid string without a valid end is valid. -/
theorem validUTF8_of_append {s t : Bytes} (h : validUTF8 (s ++ t) = true)
    (ht : validUTF8 t = true) : validUTF8 s = true :=
  validFrom_of_append (fun _ hr => absurd hr List.not_mem_nil) h ht

theorem validUTF8_flatten {ss : List Bytes} (h : ∀ s ∈ ss, validUTF8 s = true) :
    validUTF8 ss.flatten = true := by
  induction ss with
  | nil => rfl
  | cons s ss ih =>
    obtain ⟨hs, h⟩ := List.forall_mem_cons.mp h
    rw [List.flatten_cons, validUTF8_append hs]
    exact ih h

/-- Cutting characters off both ends of a string leaves it valid. -/
theorem validUTF8_trimCuts {cuts cuts' : List Bytes} (hne : [] ∉ cuts) (hne' : [] ∉ cuts')
    (hcuts : ∀ cut ∈ cuts, validUTF8 cut = true) (hcuts' : ∀ cut ∈ cuts', validUTF8 cut = true)
    {s : Bytes} (h : validUTF8 s = true) :
    validUTF8 (trimCuts (cuts'.map List.reverse) 0 (trimCuts cuts 0 s).reverse).reverse = true := by
  obtain ⟨pre, hpre, hs⟩ := exists_trimCuts hne s
  have hstart : validUTF8 (trimCuts cuts 0 s) = true := by
    rw [hs, validUTF8_append (validUTF8_flatten fun cut hcut => hcuts cut (hpre cut hcut))] at h
    exact h
  have hreverse : ([] : Bytes) ∉ cuts'.map List.reverse := by
    intro hmem
    obtain ⟨cut, hcut, hnil⟩ := List.mem_map.mp hmem
    exact hne' (List.reverse_eq_nil_iff.mp hnil ▸ hcut)
  obtain ⟨post, hpost, ht⟩ := exists_trimCuts hreverse (trimCuts cuts 0 s).reverse
  set rest := trimCuts (cuts'.map List.reverse) 0 (trimCuts cuts 0 s).reverse
  have hsplit : trimCuts cuts 0 s = rest.reverse ++ (post.map List.reverse).reverse.flatten := by
    rw [← List.reverse_reverse (trimCuts cuts 0 s), ht, List.reverse_append, List.reverse_flatten]
  rw [hsplit] at hstart
  refine validUTF8_of_append hstart (validUTF8_flatten fun cut hcut => ?_)
  obtain ⟨reversed, hreversed, rfl⟩ := List.mem_map.mp (List.mem_reverse.mp hcut)
  obtain ⟨cut', hcut', rfl⟩ := List.mem_map.mp (hpost reversed hreversed)
  rw [List.reverse_reverse]
  exact hcuts' cut' hcut'

theorem validUTF8_trimSpace {s : Bytes} (h : validUTF8 s = true) : validUTF8 (trimSpace s) = true :=
  validUTF8_trimCuts (by decide) (by decide) (by decide +kernel) (by decide +kernel) h

/-! ### Values -/

mutual

/-- The strings of the value are valid. -/
def Json.valid : Json → Bool
  | .str s => validUTF8 s
  | .arr items => validItems items
  | .obj members => validMembers members
  | .null | .bool _ | .num _ => true

def validItems : List Json → Bool
  | [] => true
  | v :: items => v.valid && validItems items

def validMembers : List (Bytes × Json) → Bool
  | [] => true
  | (name, v) :: members => validUTF8 name && v.valid && validMembers members

end

theorem validItems_iff {items : List Json} :
    validItems items = true ↔ ∀ v ∈ items, v.valid = true := by
  induction items with
  | nil => simp [validItems]
  | cons v items ih => rw [validItems, Bool.and_eq_true, ih, List.forall_mem_cons]

theorem validMembers_iff {members : List (Bytes × Json)} :
    validMembers members = true ↔
      ∀ m ∈ members, validUTF8 m.1 = true ∧ m.2.valid = true := by
  induction members with
  | nil => simp [validMembers]
  | cons m members ih =>
    rw [validMembers, Bool.and_eq_true, Bool.and_eq_true, ih, List.forall_mem_cons]

theorem validMembers_append (m n : List (Bytes × Json)) :
    validMembers (m ++ n) = (validMembers m && validMembers n) := by
  rw [Bool.eq_iff_iff, Bool.and_eq_true, validMembers_iff, validMembers_iff, validMembers_iff,
    List.forall_mem_append]

end OpenFlux
