import Mathlib.Data.List.DropRight
import Mathlib.Data.List.Infix

/-!
# Stripping both ends of a list

`strip p l` is `l` without the elements of `p` at its ends.  Two such functions agree up to
stripping (`strip_strip_eq_iff`) exactly if the first cuts nothing that the second does not, which
is decided at each end by the run of elements that the second cuts and the element after it
(`Guarded`).
-/

namespace Strip

variable {α : Type*}

/-- The list without the elements of `p` at its ends. -/
def strip (p : α → Bool) (l : List α) : List α := (l.dropWhile p).rdropWhile p

def both (p q : α → Bool) (x : α) : Bool := p x && q x

/-- If `p` has the first element that is not in `q`, it does not have all those before it. -/
def Guarded (p q : α → Bool) (l : List α) : Prop :=
  ∀ x ∈ (l.dropWhile q).head?, p x = true → ∃ y ∈ l.takeWhile q, p y = false

/-! ### The two ends -/

theorem rdropWhile_cons (p : α → Bool) (x : α) (l : List α) :
    (x :: l).rdropWhile p =
      if l.rdropWhile p = [] ∧ p x = true then [] else x :: l.rdropWhile p := by
  have hnil : l.rdropWhile p = [] ↔ l.reverse.dropWhile p = [] := List.reverse_eq_nil_iff
  simp only [hnil]
  rw [List.rdropWhile, List.reverse_cons, List.dropWhile_append]
  by_cases hl : l.reverse.dropWhile p = []
  · by_cases hx : p x = true
    · simp [hl, hx]
    · simp [hl, hx, List.rdropWhile]
  · simp [hl, List.rdropWhile]

/-- It does not matter which end is stripped first. -/
theorem dropWhile_rdropWhile (p q : α → Bool) (l : List α) :
    (l.rdropWhile q).dropWhile p = (l.dropWhile p).rdropWhile q := by
  induction l with
  | nil => simp
  | cons x l ih =>
    rw [rdropWhile_cons]
    by_cases hx : p x = true
    · rw [List.dropWhile_cons_of_pos hx, ← ih]
      split_ifs with hnil
      · rw [hnil.1]
      · rw [List.dropWhile_cons_of_pos hx]
    · rw [List.dropWhile_cons_of_neg hx, rdropWhile_cons]
      split_ifs
      · rfl
      · rw [List.dropWhile_cons_of_neg hx]

theorem strip_reverse (p : α → Bool) (l : List α) : strip p l.reverse = (strip p l).reverse := by
  rw [strip, strip, ← dropWhile_rdropWhile, List.rdropWhile_reverse, List.rdropWhile,
    List.reverse_reverse]

theorem isInfix_strip (p : α → Bool) (l : List α) : strip p l <:+: l :=
  (List.rdropWhile_prefix ..).isInfix.trans (List.dropWhile_suffix p).isInfix

theorem dropWhile_dropWhile_of_imp {p q : α → Bool} (h : ∀ x, p x = true → q x = true)
    (l : List α) : (l.dropWhile p).dropWhile q = l.dropWhile q := by
  induction l with
  | nil => rfl
  | cons x l ih =>
    by_cases hx : p x = true
    · rw [List.dropWhile_cons_of_pos hx, List.dropWhile_cons_of_pos (h x hx), ih]
    · rw [List.dropWhile_cons_of_neg hx]

theorem rdropWhile_rdropWhile_of_imp {p q : α → Bool} (h : ∀ x, p x = true → q x = true)
    (l : List α) : (l.rdropWhile p).rdropWhile q = l.rdropWhile q := by
  rw [List.rdropWhile, List.rdropWhile, List.reverse_reverse, dropWhile_dropWhile_of_imp h,
    List.rdropWhile]

/-- Stripping less before does not change what is stripped. -/
theorem strip_strip_of_imp {p q : α → Bool} (h : ∀ x, p x = true → q x = true) (l : List α) :
    strip q (strip p l) = strip q l := by
  rw [strip, strip, strip, dropWhile_rdropWhile, dropWhile_dropWhile_of_imp h,
    rdropWhile_rdropWhile_of_imp h]

/-! ### Cutting no more than `q` -/

theorem dropWhile_eq_iff_guarded (p q : α → Bool) (l : List α) :
    l.dropWhile p = l.dropWhile (both p q) ↔ Guarded p q l := by
  induction l with
  | nil => simp [Guarded]
  | cons x l ih =>
    by_cases hp : p x = true
    · by_cases hq : q x = true
      · have hand : both p q x = true := by simp [both, hp, hq]
        rw [List.dropWhile_cons_of_pos hp, List.dropWhile_cons_of_pos hand, ih]
        simp [Guarded, List.dropWhile_cons_of_pos hq, List.takeWhile_cons_of_pos hq, hp]
      · have hand : ¬ both p q x = true := by simp [both, hq]
        rw [List.dropWhile_cons_of_pos hp, List.dropWhile_cons_of_neg hand]
        constructor
        · intro h
          have hlength := congrArg List.length h
          have hle := (List.dropWhile_suffix p (l := l)).length_le
          rw [List.length_cons] at hlength
          omega
        · intro h
          rw [Guarded, List.dropWhile_cons_of_neg hq, List.takeWhile_cons_of_neg hq] at h
          obtain ⟨y, hy, -⟩ := h x rfl hp
          cases hy
    · have hand : ¬ both p q x = true := by simp [both, hp]
      rw [List.dropWhile_cons_of_neg hp, List.dropWhile_cons_of_neg hand]
      refine iff_of_true rfl fun y hy hpy => ?_
      by_cases hq : q x = true
      · rw [List.takeWhile_cons_of_pos hq]
        exact ⟨x, List.mem_cons_self .., by simpa using hp⟩
      · rw [List.dropWhile_cons_of_neg hq] at hy
        obtain rfl := Option.some.inj hy
        exact absurd hpy hp

theorem rdropWhile_eq_iff_guarded (p q : α → Bool) (l : List α) :
    l.rdropWhile p = l.rdropWhile (both p q) ↔ Guarded p q l.reverse := by
  rw [← dropWhile_eq_iff_guarded, List.rdropWhile, List.rdropWhile, List.reverse_inj]

theorem strip_eq_of_guarded {p q : α → Bool} {l : List α} (h : Guarded p q l)
    (hreverse : Guarded p q l.reverse) : strip p l = strip (both p q) l := by
  calc strip p l = (l.dropWhile (both p q)).rdropWhile p := by
        rw [strip, (dropWhile_eq_iff_guarded p q l).mpr h]
    _ = (l.rdropWhile p).dropWhile (both p q) := (dropWhile_rdropWhile ..).symm
    _ = (l.rdropWhile (both p q)).dropWhile (both p q) := by
        rw [(rdropWhile_eq_iff_guarded p q l).mpr hreverse]
    _ = strip (both p q) l := dropWhile_rdropWhile ..

/-! ### Stripping twice -/

/-- `strip q` keeps the elements that are not in `q`. -/
theorem countP_strip (q : α → Bool) (l : List α) :
    (strip q l).countP (fun x => !q x) = l.countP (fun x => !q x) := by
  have hdrop : ∀ l : List α, (l.dropWhile q).countP (fun x => !q x) = l.countP (fun x => !q x) := by
    intro l
    induction l with
    | nil => rfl
    | cons x l ih =>
      by_cases hx : q x = true
      · rw [List.dropWhile_cons_of_pos hx, ih, List.countP_cons_of_neg (by simp [hx])]
      · rw [List.dropWhile_cons_of_neg hx]
  rw [strip, List.rdropWhile, List.countP_reverse, hdrop, List.countP_reverse, hdrop]

/-- An element that is not in `q` goes first. -/
theorem countP_dropWhile_lt {p q : α → Bool} {l : List α} (h : ¬ Guarded p q l) :
    (l.dropWhile p).countP (fun x => !q x) < l.countP (fun x => !q x) := by
  induction l with
  | nil => exact absurd (by simp [Guarded]) h
  | cons x l ih =>
    by_cases hp : p x = true
    · rw [List.dropWhile_cons_of_pos hp]
      by_cases hq : q x = true
      · rw [List.countP_cons_of_neg (by simp [hq])]
        apply ih
        intro hguarded
        apply h
        simpa [Guarded, List.dropWhile_cons_of_pos hq, List.takeWhile_cons_of_pos hq, hp]
          using hguarded
      · rw [List.countP_cons_of_pos (by simp [hq])]
        exact Nat.lt_succ_of_le (List.dropWhile_suffix p).sublist.countP_le
    · have hboth : ¬ both p q x = true := by simp [both, hp]
      have heq : (x :: l).dropWhile p = (x :: l).dropWhile (both p q) := by
        rw [List.dropWhile_cons_of_neg hp, List.dropWhile_cons_of_neg hboth]
      exact absurd ((dropWhile_eq_iff_guarded p q _).mp heq) h

theorem guarded_of_strip_strip {p q : α → Bool} {l : List α}
    (h : strip q (strip p l) = strip q l) : Guarded p q l := by
  by_contra hnot
  have hlt := countP_dropWhile_lt hnot
  have hle : (strip p l).countP (fun x => !q x) ≤ (l.dropWhile p).countP (fun x => !q x) :=
    (List.rdropWhile_prefix ..).sublist.countP_le
  have heq : (strip p l).countP (fun x => !q x) = l.countP (fun x => !q x) := by
    rw [← countP_strip, h, countP_strip]
  omega

theorem strip_strip_eq_iff (p q : α → Bool) (l : List α) :
    strip q (strip p l) = strip q l ↔ Guarded p q l ∧ Guarded p q l.reverse := by
  constructor
  · intro h
    refine ⟨guarded_of_strip_strip h, guarded_of_strip_strip ?_⟩
    rw [strip_reverse, strip_reverse, strip_reverse, h]
  · rintro ⟨h, hreverse⟩
    rw [strip_eq_of_guarded h hreverse, strip_strip_of_imp (by simp [both])]

end Strip
