import OpenFlux.Go.Strconv

/-!
# Scanning a number (`fmt`)

What `Sscanf` with the format `%d` reads.  An error is `none`: the scanned variable is left as it
was.  `scanInt_neg_iff` says which texts are read as a negative number.
-/

namespace OpenFlux

/-- The white space of a scan in which a new line is none. -/
def blanks : List Bytes := spaces.filter (· ≠ [0x0A])

/-- `SkipSpace`, where to come to a new line is an error. -/
def skipSpace (s : Bytes) : Option Bytes :=
  let s := trimCuts blanks 0 s
  if s.head? = some 0x0A then none else some s

/-- A digit of `decimalDigits`. -/
def isDecimal (c : UInt8) : Bool := 0x30 ≤ c && c ≤ 0x39

/-- The token of `scanInt`: a sign, if there is one, and digits. -/
def intToken : Bytes → Bytes
  | 0x2B :: s => 0x2B :: s.takeWhile isDecimal
  | 0x2D :: s => 0x2D :: s.takeWhile isDecimal
  | s => s.takeWhile isDecimal

/-- `fmt.Sscanf` with `%d`. -/
def scanInt (s : Bytes) : Option ℤ := (skipSpace s).bind fun s => parseInt (intToken s) 10

/-- A sequence of blanks before another character is skipped. -/
theorem skipSpace_flatten_append {pre : List Bytes} (hpre : ∀ cut ∈ pre, cut ∈ blanks) {c : UInt8}
    (hc : ∀ cut ∈ blanks, ∃ d ∈ cut.head?, d ≠ c) (hline : c ≠ 0x0A) (s : Bytes) :
    skipSpace (pre.flatten ++ c :: s) = some (c :: s) := by
  have hskip : trimCuts blanks 0 (pre.flatten ++ c :: s) = c :: s := by
    induction pre with
    | nil => exact trimCuts_of_head hc
    | cons cut pre ih =>
      rw [List.forall_mem_cons] at hpre
      rw [List.flatten_cons, List.append_assoc,
        trimCuts_append (by decide) (by decide) hpre.1, ih hpre.2]
  rw [skipSpace, hskip, List.head?_cons]
  exact if_neg (by simpa using hline)

/-! ### Digits -/

/-- The number of decimal digits. -/
def decimalValue (digits : Bytes) : ℕ := digits.foldl (fun n c => n * 10 + (c.toNat - 0x30)) 0

theorem parseDigits_decimal {digits : Bytes} (h : ∀ c ∈ digits, isDecimal c) (n : ℕ) :
    parseDigits 10 false digits n =
      some (digits.foldl (fun n c => n * 10 + (c.toNat - 0x30)) n) := by
  induction digits generalizing n with
  | nil => rfl
  | cons c digits ih =>
    obtain ⟨hc, h⟩ := List.forall_mem_cons.mp h
    have hrange : 0x30 ≤ c ∧ c ≤ 0x39 := by simpa [isDecimal] using hc
    have hlt : c.toNat - 0x30 < 10 := by
      have hle : c.toNat ≤ 0x39 := UInt8.le_iff_toNat_le.mp hrange.2
      omega
    rw [parseDigits, digitValue, if_pos hrange]
    simp only [Bool.false_and, Bool.false_eq_true, if_false, if_pos hlt]
    exact ih h _

theorem decimalValue_pos_iff {digits : Bytes} (h : ∀ c ∈ digits, isDecimal c) :
    0 < decimalValue digits ↔ ∃ c ∈ digits, c ≠ 0x30 := by
  have hfold : ∀ n : ℕ, 0 < digits.foldl (fun n c => n * 10 + (c.toNat - 0x30)) n ↔
      0 < n ∨ ∃ c ∈ digits, c ≠ 0x30 := by
    induction digits with
    | nil => simp
    | cons c digits ih =>
      intro n
      obtain ⟨hc, h⟩ := List.forall_mem_cons.mp h
      have hrange : 0x30 ≤ c.toNat := by
        simp only [isDecimal, Bool.and_eq_true, decide_eq_true_eq] at hc
        exact UInt8.le_iff_toNat_le.mp hc.1
      have hzero : c ≠ 0x30 ↔ 0 < c.toNat - 0x30 := by
        rw [Ne, ← UInt8.toNat_inj, show (0x30 : UInt8).toNat = 0x30 from rfl]
        omega
      rw [List.foldl_cons, ih h, List.exists_mem_cons_iff, hzero, ← or_assoc]
      refine or_congr_left ?_
      omega
  rw [decimalValue, hfold 0]
  simp

theorem decimalValue_lt {digits : Bytes} (h : ∀ c ∈ digits, isDecimal c) :
    decimalValue digits < 10 ^ digits.length := by
  have hfold : ∀ n : ℕ, digits.foldl (fun n c => n * 10 + (c.toNat - 0x30)) n <
      (n + 1) * 10 ^ digits.length := by
    induction digits with
    | nil => simp
    | cons c digits ih =>
      intro n
      obtain ⟨hc, h⟩ := List.forall_mem_cons.mp h
      have hle : c.toNat ≤ 0x39 := by
        simp only [isDecimal, Bool.and_eq_true, decide_eq_true_eq] at hc
        exact UInt8.le_iff_toNat_le.mp hc.2
      rw [List.foldl_cons, List.length_cons, pow_succ']
      calc _ < (n * 10 + (c.toNat - 0x30) + 1) * 10 ^ digits.length := ih h _
        _ ≤ (n + 1) * 10 * 10 ^ digits.length := Nat.mul_le_mul_right _ (by omega)
        _ = _ := Nat.mul_assoc ..
  simpa [decimalValue] using hfold 0

theorem parseMagnitude_decimal {digits : Bytes} (h : ∀ c ∈ digits, isDecimal c) :
    parseMagnitude digits 10 = if digits = [] then none else some (decimalValue digits) := by
  cases digits with
  | nil => rfl
  | cons c digits =>
    rw [parseMagnitude, if_neg (by simp), if_neg (by simp)]
    simp only [if_false, Nat.reduceBEq, Bool.false_and, Bool.false_eq_true]
    rw [parseDigits_decimal h]
    rfl

/-! ### Negative numbers -/

/-- A text that starts with a negative number, maybe after blanks. -/
def StartsNegative (s : Bytes) : Prop :=
  ∃ (pre : List Bytes) (digits rest : Bytes), (∀ cut ∈ pre, cut ∈ blanks) ∧
    s = pre.flatten ++ 0x2D :: (digits ++ rest) ∧ (∀ c ∈ digits, isDecimal c) ∧
    ∃ c ∈ digits, c ≠ 0x30

theorem parseInt_nonneg {s : Bytes} (hs : ∀ t, s ≠ 0x2D :: t) {base : ℕ} {n : ℤ}
    (h : parseInt s base = some n) : 0 ≤ n := by
  rw [parseInt.eq_def] at h
  split at h
  · next t => exact absurd rfl (hs t)
  all_goals
    obtain ⟨m, -, hm⟩ := Option.bind_eq_some_iff.mp h
    split_ifs at hm
    cases hm
    exact Int.natCast_nonneg m

theorem intToken_ne {s : Bytes} (hs : ∀ t, s ≠ 0x2D :: t) (t : Bytes) :
    intToken s ≠ 0x2D :: t := by
  rw [intToken.eq_def]
  split
  · nofun
  · next s => exact absurd rfl (hs s)
  · intro heq
    have hmem := List.mem_cons_self (a := 0x2D) (l := t)
    rw [← heq] at hmem
    exact absurd (List.mem_takeWhile_imp hmem) (by decide)

theorem parseInt_minus {digits : Bytes} (h : ∀ c ∈ digits, isDecimal c) (hlen : digits.length ≤ 18)
    (hne : digits ≠ []) : parseInt (0x2D :: digits) 10 = some (-(decimalValue digits : ℤ)) := by
  have hle : decimalValue digits ≤ 2 ^ 63 := by
    calc _ ≤ 10 ^ digits.length := (decimalValue_lt h).le
      _ ≤ 10 ^ 18 := Nat.pow_le_pow_right (by omega) hlen
      _ ≤ 2 ^ 63 := by decide
  rw [parseInt, parseMagnitude_decimal h, if_neg hne, Option.bind_some, if_pos hle]

/-- **What is read as a negative number.** -/
theorem scanInt_neg_iff {s : Bytes} (hlen : s.length ≤ 19) :
    (∃ n < 0, scanInt s = some n) ↔ StartsNegative s := by
  constructor
  · rintro ⟨n, hn, h⟩
    obtain ⟨s', hs', h⟩ := Option.bind_eq_some_iff.mp h
    rw [skipSpace] at hs'
    split_ifs at hs'
    cases hs'
    obtain ⟨pre, hpre, heq⟩ := exists_trimCuts (by decide : [] ∉ blanks) s
    have hsign : ∃ t, trimCuts blanks 0 s = 0x2D :: t := by
      by_contra hno
      rw [not_exists] at hno
      exact absurd hn (parseInt_nonneg (intToken_ne hno) h).not_gt
    obtain ⟨t, ht⟩ := hsign
    rw [ht] at heq h
    have hdigits : ∀ c ∈ t.takeWhile isDecimal, isDecimal c := fun c hc =>
      List.mem_takeWhile_imp hc
    refine ⟨pre, t.takeWhile isDecimal, t.dropWhile isDecimal, hpre, ?_, hdigits, ?_⟩
    · rw [List.takeWhile_append_dropWhile]
      exact heq
    · rw [← decimalValue_pos_iff hdigits]
      rw [intToken, parseInt, parseMagnitude_decimal hdigits] at h
      split_ifs at h
      · cases h
      · rw [Option.bind_some] at h
        split_ifs at h
        cases h
        omega
  · rintro ⟨pre, digits, rest, hpre, rfl, hdigits, c, hc, hne⟩
    have htoken : ∀ c ∈ (digits ++ rest).takeWhile isDecimal, isDecimal c := fun c hc =>
      List.mem_takeWhile_imp hc
    have hmem : c ∈ (digits ++ rest).takeWhile isDecimal := by
      rw [List.takeWhile_append_of_pos hdigits]
      exact List.mem_append_left _ hc
    have hpos := (decimalValue_pos_iff htoken).mpr ⟨c, hmem, hne⟩
    have hlen' : ((digits ++ rest).takeWhile isDecimal).length ≤ 18 := by
      have hle := (List.takeWhile_prefix isDecimal (l := digits ++ rest)).length_le
      rw [List.length_append, List.length_cons] at hlen
      omega
    have hskip := skipSpace_flatten_append hpre (c := 0x2D) (by decide) (by decide)
      (digits ++ rest)
    refine ⟨-(decimalValue ((digits ++ rest).takeWhile isDecimal) : ℤ), by omega, ?_⟩
    rw [scanInt, hskip, Option.bind_some, intToken,
      parseInt_minus htoken hlen' (List.ne_nil_of_mem hmem)]

end OpenFlux
