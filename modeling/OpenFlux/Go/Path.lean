import OpenFlux.Go.Strconv
import OpenFlux.Go.Strings

/-!
# Paths of URLs (`path`, `net/url`, `net/http`)

A slash of a path cannot come out of an escape that was cut through by it, so a path is unescaped
segment by segment (`unescapePath_slash`).
-/

namespace OpenFlux

/-- `strings.TrimSuffix`. -/
def trimSuffix (s suffix : Bytes) : Bytes :=
  if suffix.isSuffixOf s then s.take (s.length - suffix.length) else s

/-- The value of a hexadecimal digit. -/
def unhex (c : UInt8) : Option ℕ := (digitValue c).filter (· < 16)

/-- `url.PathUnescape`.  A path with an escape that is none is refused before it comes here. -/
def unescapePath : Bytes → Bytes
  | 0x25 :: h :: l :: s =>
    match unhex h, unhex l with
    | some v, some w => UInt8.ofNat (v * 16 + w) :: unescapePath s
    | _, _ => 0x25 :: unescapePath (h :: l :: s)
  | c :: s => c :: unescapePath s
  | [] => []

/-- What `path.Clean` leaves of the segments of a path. -/
def cleanSegments (segments : List Bytes) : List Bytes :=
  segments.foldl (fun kept segment =>
    if segment = [] ∨ segment = literal "." then kept
    else if segment = literal ".." then kept.dropLast
    else kept ++ [segment]) []

/-- `cleanPath` of `net/http`. -/
def cleanPath (p : Bytes) : Bytes :=
  let p := if p.head? = some 0x2F then p else 0x2F :: p
  let kept := cleanSegments (p.splitOn 0x2F)
  let clean := 0x2F :: [0x2F].intercalate kept
  if p.getLast? = some 0x2F ∧ kept ≠ [] then clean ++ [0x2F] else clean

/-! ### Trimming -/

theorem trimPrefix_append (pre s : Bytes) : trimPrefix (pre ++ s) pre = s := by
  rw [trimPrefix, if_pos (List.isPrefixOf_iff_prefix.mpr (List.prefix_append pre s)),
    List.drop_left]

/-- A suffix is cut off, if it is there. -/
theorem trimSuffix_cases (s suffix : Bytes) :
    s = trimSuffix s suffix ++ suffix ∨ ¬ suffix <:+ s ∧ trimSuffix s suffix = s := by
  unfold trimSuffix
  by_cases h : suffix <:+ s
  · left
    rw [if_pos (List.isSuffixOf_iff_suffix.mpr h)]
    obtain ⟨t, rfl⟩ := h
    rw [List.length_append, Nat.add_sub_cancel, List.take_left]
  · right
    rw [if_neg fun hsuffix => h (List.isSuffixOf_iff_suffix.mp hsuffix)]
    exact ⟨h, rfl⟩

theorem length_trim_le (s : Bytes) (c : UInt8) : (trim s c).length ≤ s.length :=
  (List.rdropWhile_prefix (p := (· == c)) _).length_le.trans
    (List.dropWhile_suffix (· == c)).length_le

/-- What is left does not start with the character. -/
theorem head_trim (s : Bytes) (c : UInt8) : (trim s c).head? ≠ some c := by
  intro h
  have hhead := List.head?_dropWhile_not (· == c) s
  obtain ⟨t, ht⟩ : trim s c <+: s.dropWhile (· == c) := List.rdropWhile_prefix ..
  have hdrop : (s.dropWhile (· == c)).head? = some c := by
    rw [← ht, List.head?_append, h]
    rfl
  rw [hdrop] at hhead
  exact absurd (beq_self_eq_true c) (Bool.eq_false_iff.mp hhead)

/-- A string that neither starts nor ends with the character is left alone. -/
theorem trim_eq_self_iff {s : Bytes} {c : UInt8} :
    trim s c = s ↔ s.head? ≠ some c ∧ s.getLast? ≠ some c := by
  have hdrop : s.dropWhile (· == c) = s ↔ s.head? ≠ some c := by
    cases s with
    | nil => simp
    | cons b s => simp [List.dropWhile_eq_self_iff]
  have hrdrop : s.rdropWhile (· == c) = s ↔ s.getLast? ≠ some c := by
    rw [List.rdropWhile_eq_self_iff]
    cases s using List.reverseRecOn with
    | nil => simp
    | append_singleton s b => simp
  constructor
  · intro h
    have hle : (trim s c).length ≤ (s.dropWhile (· == c)).length :=
      (List.rdropWhile_prefix (p := (· == c)) _).length_le
    have hself : s.dropWhile (· == c) = s :=
      (List.dropWhile_suffix (· == c)).eq_of_length_le (by rw [h] at hle; exact hle)
    rw [trim, hself] at h
    exact ⟨hdrop.mp hself, hrdrop.mp h⟩
  · rintro ⟨hhead, hlast⟩
    rw [trim, hdrop.mpr hhead, hrdrop.mpr hlast]

/-! ### Escapes -/

theorem unhex_slash : unhex 0x2F = none := by decide

theorem unescapePath_percent {h l : UInt8} (s : Bytes) (hnone : unhex h = none ∨ unhex l = none) :
    unescapePath (0x25 :: h :: l :: s) = 0x25 :: unescapePath (h :: l :: s) := by
  rw [unescapePath]
  split
  · next v w hh hl =>
    rcases hnone with hnone | hnone
    · cases hnone.symm.trans hh
    · cases hnone.symm.trans hl
  · rfl

theorem unescapePath_of_ne {c : UInt8} (hc : c ≠ 0x25) (s : Bytes) :
    unescapePath (c :: s) = c :: unescapePath s :=
  unescapePath.eq_2 c s fun _ _ _ h _ => hc h

theorem unescapePath_slash (a b : Bytes) :
    unescapePath (a ++ 0x2F :: b) = unescapePath a ++ 0x2F :: unescapePath b := by
  induction a using unescapePath.induct with
  | case1 h l s v w hh hl ih =>
    simp only [List.cons_append, unescapePath, hh, hl, ih]
  | case2 h l s hnone ih =>
    have hnone : unhex h = none ∨ unhex l = none := by
      by_contra hsome
      obtain ⟨hh, hl⟩ := not_or.mp hsome
      obtain ⟨v, hv⟩ := Option.ne_none_iff_exists'.mp hh
      obtain ⟨w, hw⟩ := Option.ne_none_iff_exists'.mp hl
      exact hnone v w hv hw
    simp only [List.cons_append] at ih ⊢
    rw [unescapePath_percent _ hnone, unescapePath_percent _ hnone, ih]
    rfl
  | case3 c s hne ih =>
    rw [unescapePath.eq_2 _ _ hne, List.cons_append, List.cons_append, ← ih]
    by_cases hc : c = 0x25
    · -- the slash cuts the escape short
      subst hc
      match s with
      | [] =>
        cases b with
        | nil => rfl
        | cons l b => exact unescapePath_percent b (.inl unhex_slash)
      | [h] => exact unescapePath_percent b (.inr unhex_slash)
      | h :: l :: s => exact (hne h l s rfl rfl).elim
    · exact unescapePath_of_ne hc _
  | case4 => exact unescapePath_of_ne (by decide) b

theorem unescapePath_eq_self {s : Bytes} (h : 0x25 ∉ s) : unescapePath s = s := by
  induction s with
  | nil => rw [unescapePath]
  | cons c s ih =>
    obtain ⟨hc, hs⟩ := not_or.mp (mt List.mem_cons.mpr h)
    rw [unescapePath_of_ne (Ne.symm hc), ih hs]

/-! ### Clean paths -/

/-- A path of these segments. -/
def pathOf (segments : List Bytes) : Bytes := 0x2F :: [0x2F].intercalate segments

/-- The segment is not empty and none of those for the same and the upper directory. -/
def IsSegment (s : Bytes) : Prop :=
  0x2F ∉ s ∧ s ≠ [] ∧ s ≠ literal "." ∧ s ≠ literal ".."

instance (s : Bytes) : Decidable (IsSegment s) := inferInstanceAs (Decidable (_ ∧ _))

variable {segments : List Bytes}

theorem splitOn_pathOf (hne : segments ≠ []) (h : ∀ s ∈ segments, 0x2F ∉ s) :
    (pathOf segments).splitOn 0x2F = [] :: segments := by
  show ([] ++ 0x2F :: [0x2F].intercalate segments).splitOn 0x2F = _
  rw [List.splitOn_append_cons_self_of_not_mem List.not_mem_nil, List.splitOn_intercalate _ h hne]

theorem foldl_cleanSegments (h : ∀ s ∈ segments, IsSegment s) (kept : List Bytes) :
    segments.foldl (fun kept segment =>
      if segment = [] ∨ segment = literal "." then kept
      else if segment = literal ".." then kept.dropLast
      else kept ++ [segment]) kept = kept ++ segments := by
  induction segments generalizing kept with
  | nil => rw [List.foldl_nil, List.append_nil]
  | cons s segments ih =>
    obtain ⟨⟨-, hempty, hdot, hdots⟩, hrest⟩ := List.forall_mem_cons.mp h
    rw [List.foldl_cons, if_neg (not_or.mpr ⟨hempty, hdot⟩), if_neg hdots, ih hrest,
      List.append_assoc, List.singleton_append]

theorem getLast?_pathOf (hne : segments ≠ []) (h : ∀ s ∈ segments, IsSegment s) :
    (pathOf segments).getLast? ≠ some 0x2F := by
  intro hlast
  obtain ⟨pre, hpre⟩ := List.getLast?_eq_some_iff.mp hlast
  have hsplit := splitOn_pathOf hne fun s hs => (h s hs).1
  rw [hpre, List.splitOn_append_cons_self, List.splitOn_nil] at hsplit
  have hend := congrArg List.getLast? hsplit
  obtain ⟨s, hs⟩ := Option.ne_none_iff_exists'.mp (mt List.getLast?_eq_none_iff.mp hne)
  rw [List.getLast?_concat, List.getLast?_cons, hs] at hend
  exact (h s (List.mem_of_getLast? hs)).2.1 (Option.some.inj hend).symm

/-- `cleanPath` leaves a path of segments alone. -/
theorem cleanPath_pathOf (hne : segments ≠ []) (h : ∀ s ∈ segments, IsSegment s) :
    cleanPath (pathOf segments) = pathOf segments := by
  have hkept : cleanSegments ((pathOf segments).splitOn 0x2F) = segments := by
    rw [splitOn_pathOf hne fun s hs => (h s hs).1, cleanSegments, List.foldl_cons, if_pos (.inl rfl),
      foldl_cleanSegments h, List.nil_append]
  have hhead : (pathOf segments).head? = some 0x2F := rfl
  simp only [cleanPath, hhead, if_true, hkept, getLast?_pathOf hne h, false_and, if_false]
  rfl

end OpenFlux
