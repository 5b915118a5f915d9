import Mathlib.Algebra.BigOperators.Group.List.Basic
import Mathlib.Data.List.Induction
import Mathlib.Data.Nat.ModEq
import Mathlib.Tactic.Common

/-!
# Ones' complement sums

The Internet checksum adds words modulo `M = 2^w - 1`, with the carry out of the top bit added back
at the bottom.  The result depends on the plain sum `n` of the words only: it is `0` when all words
are `0` and else the residue of `n` modulo `M`, with `M` itself in place of `0` (`endAround`).
Folding the high part of the sum into the low part keeps it (`endAround_fold`), so any loop that
does so until nothing is left computes it.

`add` is the addition of two words; adding up words with it is the end-around sum of their plain sum
(`foldl_add`).

A checksum field that holds the complement of the sum of everything else makes the sum of the whole
`M` (`endAround_add_complement`); it is the only value below `M` that does (`eq_complement_iff`).

`words` are the big-endian 16-bit words of a byte string, the last byte of an odd string counting as
the high byte of a word, and `wordSum` is their plain sum.
-/

namespace OnesComplement

/-- The sum with end-around carry of words whose plain sum is `n`. -/
def endAround (M n : ℕ) : ℕ := if n = 0 then 0 else (n - 1) % M + 1

variable {M : ℕ}

theorem endAround_zero : endAround M 0 = 0 := rfl

theorem endAround_of_pos {n : ℕ} (hn : 0 < n) : endAround M n = (n - 1) % M + 1 :=
  if_neg hn.ne'

theorem endAround_le (hM : 0 < M) (n : ℕ) : endAround M n ≤ M := by
  unfold endAround
  split_ifs
  · exact Nat.zero_le M
  · exact Nat.mod_lt _ hM

theorem endAround_pos {n : ℕ} (hn : 0 < n) : 0 < endAround M n := by
  rw [endAround_of_pos hn]
  exact Nat.succ_pos _

theorem endAround_of_le {n : ℕ} (hn : n ≤ M) : endAround M n = n := by
  rcases Nat.eq_zero_or_pos n with rfl | hpos
  · rfl
  · rw [endAround_of_pos hpos, Nat.mod_eq_of_lt (by omega)]
    omega

/-- The end-around sum is congruent to the plain one. -/
theorem endAround_modEq (M n : ℕ) : endAround M n ≡ n [MOD M] := by
  rcases Nat.eq_zero_or_pos n with rfl | hpos
  · rfl
  · have hstep : (n - 1) % M + 1 ≡ (n - 1) + 1 [MOD M] :=
      Nat.ModEq.add_right 1 (Nat.mod_modEq (n - 1) M)
    rw [Nat.sub_add_cancel hpos] at hstep
    rw [endAround_of_pos hpos]
    exact hstep

/-- Nonzero plain sums that are congruent have the same end-around sum. -/
theorem endAround_congr {m n : ℕ} (hm : 0 < m) (hn : 0 < n) (h : m ≡ n [MOD M]) :
    endAround M m = endAround M n := by
  rw [endAround_of_pos hm, endAround_of_pos hn]
  have hsub : m - 1 ≡ n - 1 [MOD M] := by
    refine Nat.ModEq.add_right_cancel' 1 ?_
    rwa [Nat.sub_add_cancel hm, Nat.sub_add_cancel hn]
  rw [hsub]

/-- The end-around sum is all ones exactly on the nonzero multiples of `M`. -/
theorem endAround_eq_iff (hM : 0 < M) {n : ℕ} : endAround M n = M ↔ 0 < n ∧ M ∣ n := by
  constructor
  · intro h
    have hpos : 0 < n := by
      rcases Nat.eq_zero_or_pos n with rfl | hpos
      · rw [endAround_zero] at h
        omega
      · exact hpos
    have hmod := endAround_modEq M n
    rw [h] at hmod
    exact ⟨hpos, (Nat.modEq_zero_iff_dvd.mp (hmod.symm.trans (Nat.mod_self M)))⟩
  · rintro ⟨hpos, hdvd⟩
    rw [endAround_congr hpos hM (Nat.modEq_zero_iff_dvd.mpr hdvd |>.trans (Nat.mod_self M).symm),
      endAround_of_le (Nat.le_refl M)]

/-- **Folding**: adding the high part of the sum to the low part keeps the end-around sum. -/
theorem endAround_fold (M n : ℕ) :
    endAround M (n % (M + 1) + n / (M + 1)) = endAround M n := by
  rcases Nat.eq_zero_or_pos n with rfl | hpos
  · simp
  · have hdiv := Nat.mod_add_div n (M + 1)
    generalize n % (M + 1) = low at hdiv ⊢
    generalize n / (M + 1) = high at hdiv ⊢
    have hfold : 0 < low + high := by
      by_contra hzero
      have hhigh : high = 0 := by omega
      rw [hhigh, Nat.mul_zero] at hdiv
      omega
    have hsum : low + high + M * high = n := by
      rw [← hdiv, Nat.add_mul, Nat.one_mul]
      omega
    refine endAround_congr hfold hpos ?_
    rw [← hsum]
    exact (Nat.add_mul_mod_self_left (low + high) M high).symm

/-- Addition of two words with end-around carry. -/
def add (M a b : ℕ) : ℕ := if a + b ≤ M then a + b else a + b - M

theorem add_endAround {w : ℕ} (hM : 0 < M) (hw : w ≤ M) (m : ℕ) :
    add M (endAround M m) w = endAround M (m + w) := by
  have hsame : endAround M (endAround M m + w) = endAround M (m + w) := by
    rcases Nat.eq_zero_or_pos m with rfl | hm
    · rfl
    · have hpos := endAround_pos (M := M) hm
      exact endAround_congr (by omega) (by omega) (Nat.ModEq.add_right w (endAround_modEq M m))
  have hle := endAround_le hM m
  rw [← hsame, add]
  split_ifs with hsmall
  · rw [endAround_of_le hsmall]
  · have hcarry : endAround M m + w - M ≡ endAround M m + w [MOD M] := by
      have hsum : endAround M m + w - M + M ≡ endAround M m + w - M [MOD M] :=
        Nat.add_mod_right ..
      rw [Nat.sub_add_cancel (by omega)] at hsum
      exact hsum.symm
    rw [← endAround_of_le (show endAround M m + w - M ≤ M by omega)]
    exact endAround_congr (by omega) (by omega) hcarry

/-- **Adding up words** gives the end-around sum. -/
theorem foldl_add (hM : 0 < M) {ws : List ℕ} (h : ∀ w ∈ ws, w ≤ M) :
    ws.foldl (add M) 0 = endAround M ws.sum := by
  induction ws using List.reverseRecOn with
  | nil => rfl
  | append_singleton ws w ih =>
    obtain ⟨hws, hw⟩ := List.forall_mem_append.mp h
    rw [List.foldl_append, List.sum_append, ih hws, List.foldl_cons, List.foldl_nil,
      List.sum_singleton]
    exact add_endAround hM (hw w (List.mem_singleton_self w)) _

/-- **The checksum field**: the complement of the sum of the rest completes it to all ones. -/
theorem endAround_add_complement (hM : 0 < M) (n : ℕ) :
    endAround M (n + (M - endAround M n)) = M := by
  rw [endAround_eq_iff hM]
  have hle := endAround_le hM n
  constructor
  · rcases Nat.eq_zero_or_pos n with rfl | hpos
    · rw [endAround_zero]
      omega
    · omega
  · have hsum : n + (M - endAround M n) ≡ endAround M n + (M - endAround M n) [MOD M] :=
      Nat.ModEq.add_right _ (endAround_modEq M n).symm
    rw [Nat.add_sub_cancel' hle] at hsum
    exact Nat.modEq_zero_iff_dvd.mp (hsum.trans (Nat.mod_self M))

/-- A field holds the complement of the sum of the rest, which is not `0`, exactly when it completes
the sum to a multiple of `M` and is not all ones. -/
theorem eq_complement_iff (hM : 0 < M) {n g : ℕ} (hn : 0 < n) (hg : g ≤ M) :
    g = M - endAround M n ↔ M ∣ n + g ∧ g ≠ M := by
  have hle := endAround_le hM n
  have hpos := endAround_pos (M := M) hn
  constructor
  · rintro rfl
    exact ⟨((endAround_eq_iff hM).mp (endAround_add_complement hM n)).2, by omega⟩
  · rintro ⟨hdvd, hne⟩
    have hsum : endAround M n + g ≡ 0 [MOD M] :=
      (Nat.ModEq.add_right g (endAround_modEq M n)).trans (Nat.modEq_zero_iff_dvd.mpr hdvd)
    obtain ⟨k, hk⟩ := Nat.modEq_zero_iff_dvd.mp hsum
    -- the sum of the two lies strictly between `0` and `2 * M`
    have hk1 : k = 1 := by
      have hk0 : k ≠ 0 := by
        rintro rfl
        omega
      have hk2 : k < 2 := by
        by_contra hbig
        have hmul : M * 2 ≤ M * k := Nat.mul_le_mul_left M (by omega)
        omega
      omega
    rw [hk1, Nat.mul_one] at hk
    omega

/-! ### Words of a byte string -/

/-- The big-endian 16-bit words of a byte string, padded with a zero byte. -/
def words : List UInt8 → List ℕ
  | hi :: lo :: rest => (hi.toNat * 256 + lo.toNat) :: words rest
  | [hi] => [hi.toNat * 256]
  | [] => []

/-- The sum of the big-endian 16-bit words of a byte string, padded with a zero byte. -/
def wordSum : List UInt8 → ℕ
  | hi :: lo :: rest => hi.toNat * 256 + lo.toNat + wordSum rest
  | [hi] => hi.toNat * 256
  | [] => 0

@[simp] theorem wordSum_nil : wordSum [] = 0 := rfl

@[simp] theorem wordSum_cons_cons (hi lo : UInt8) (rest : List UInt8) :
    wordSum (hi :: lo :: rest) = hi.toNat * 256 + lo.toNat + wordSum rest := rfl

theorem sum_words (a : List UInt8) : (words a).sum = wordSum a := by
  induction a using wordSum.induct with
  | case1 hi lo rest ih => rw [words, wordSum, List.sum_cons, ih]
  | case2 hi => rw [words, wordSum, List.sum_singleton]
  | case3 => rw [words, wordSum, List.sum_nil]

theorem le_of_mem_words {a : List UInt8} {w : ℕ} (h : w ∈ words a) : w ≤ 65535 := by
  induction a using wordSum.induct with
  | case1 hi lo rest ih =>
    have hhi := hi.toNat_lt
    have hlo := lo.toNat_lt
    rw [words, List.mem_cons] at h
    rcases h with rfl | hrest
    · omega
    · exact ih hrest
  | case2 hi =>
    have hhi := hi.toNat_lt
    rw [words, List.mem_singleton] at h
    omega
  | case3 => exact absurd h List.not_mem_nil

/-- The words of a byte string, added up with end-around carry. -/
theorem foldl_words (a : List UInt8) :
    (words a).foldl (add 65535) 0 = endAround 65535 (wordSum a) := by
  rw [foldl_add (by omega) fun w hw => le_of_mem_words hw, sum_words]

/-- Words do not straddle the end of a string of even length. -/
theorem wordSum_append {a : List UInt8} (ha : 2 ∣ a.length) (b : List UInt8) :
    wordSum (a ++ b) = wordSum a + wordSum b := by
  induction a using wordSum.induct with
  | case1 hi lo rest ih =>
    have hrest : 2 ∣ rest.length := by
      rw [List.length_cons, List.length_cons] at ha
      omega
    rw [List.cons_append, List.cons_append, wordSum_cons_cons, wordSum_cons_cons, ih hrest]
    omega
  | case2 hi =>
    rw [List.length_singleton] at ha
    omega
  | case3 => rw [List.nil_append, wordSum_nil, Nat.zero_add]

theorem wordSum_le (a : List UInt8) : wordSum a ≤ 65535 * ((a.length + 1) / 2) := by
  induction a using wordSum.induct with
  | case1 hi lo rest ih =>
    have hhi := hi.toNat_lt
    have hlo := lo.toNat_lt
    rw [wordSum_cons_cons, List.length_cons, List.length_cons]
    omega
  | case2 hi =>
    have hhi := hi.toNat_lt
    rw [wordSum, List.length_singleton]
    omega
  | case3 => simp

end OnesComplement
