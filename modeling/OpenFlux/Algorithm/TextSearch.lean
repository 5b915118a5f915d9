import Mathlib.Data.List.Infix

/-!
# Searching in texts

`firstMatch` tries a matcher at every position of a text from the left, as a search for a pattern
does.

A text is often made of fixed parts around one that is arbitrary.  `Avoids w s` says that no
occurrence of `w` begins in `s`, whatever comes after `s`: it is decidable, so for fixed parts it is
checked by evaluation.  What is searched for can then only begin after the fixed part
(`Avoids.infix_append_iff`, `firstMatch_append`).
-/

namespace TextSearch

variable {β γ : Type*}

/-- The result of the matcher at the leftmost position where it has one. -/
def firstMatch (f : List β → Option γ) : List β → Option γ
  | [] => f []
  | c :: s => (f (c :: s)).or (firstMatch f s)

/-- No occurrence of `w` begins in `s`, not even one that goes on after `s`. -/
def Avoids (w s : List β) : Prop := ∀ t ∈ s.tails, t ≠ [] → ¬ w <+: t ∧ ¬ t <+: w

instance [DecidableEq β] (w s : List β) : Decidable (Avoids w s) :=
  inferInstanceAs (Decidable (∀ t ∈ s.tails, t ≠ [] → ¬ w <+: t ∧ ¬ t <+: w))

theorem Avoids.not_prefix {w pre s t : List β} (h : Avoids w pre) (ht : t <:+ pre) (hne : t ≠ []) :
    ¬ w <+: t ++ s := by
  intro hw
  obtain ⟨hwt, htw⟩ := h t ((List.mem_tails t pre).mpr ht) hne
  rcases List.prefix_or_prefix_of_prefix hw (List.prefix_append t s) with hcase | hcase
  · exact hwt hcase
  · exact htw hcase

/-- An occurrence in a text with a beginning that is avoided is in the rest. -/
theorem Avoids.infix_append_iff {w pre s : List β} (h : Avoids w pre) :
    w <:+: pre ++ s ↔ w <:+: s := by
  have hall : ∀ t, t <:+ pre → (w <:+: t ++ s ↔ w <:+: s) := by
    intro t
    induction t with
    | nil => exact fun _ => Iff.rfl
    | cons c t ih =>
      intro ht
      have hnot : ¬ w <+: c :: (t ++ s) := h.not_prefix ht (List.cons_ne_nil c t)
      rw [List.cons_append, List.infix_cons_iff, or_iff_right hnot]
      exact ih ((List.suffix_cons c t).trans ht)
  exact hall pre List.suffix_rfl

/-- A part without the first character is avoided. -/
theorem avoids_of_head {c : β} {w s : List β} (h : c ∉ s) : Avoids (c :: w) s := by
  intro t ht hne
  obtain ⟨d, t, rfl⟩ := List.exists_cons_of_ne_nil hne
  have hd : d ∈ s := ((List.mem_tails _ _).mp ht).subset (List.mem_cons_self ..)
  constructor
  · rintro ⟨u, hu⟩
    exact h ((List.cons.inj hu).1 ▸ hd)
  · rintro ⟨u, hu⟩
    exact h ((List.cons.inj hu).1 ▸ hd)

/-- An occurrence does not reach into an end that has none of its characters. -/
theorem infix_append_of_disjoint {w s post : List β} (hw : w ≠ []) (h : ∀ c ∈ w, c ∉ post) :
    w <:+: s ++ post ↔ w <:+: s := by
  refine ⟨fun hinfix => ?_, fun hinfix => hinfix.trans (List.prefix_append s post).isInfix⟩
  rcases List.infix_append_iff.mp hinfix with hs | hpost | ⟨w₁, w₂, rfl, hw₁, hw₂⟩
  · exact hs
  · obtain ⟨c, w, rfl⟩ := List.exists_cons_of_ne_nil hw
    exact absurd (hpost.subset (List.mem_cons_self ..)) (h c (List.mem_cons_self ..))
  · rcases w₂ with _ | ⟨c, w₂⟩
    · rw [List.append_nil]
      exact hw₁.isInfix
    · exact absurd (hw₂.subset (List.mem_cons_self ..)) (h c (by simp))

/-- A matcher for texts that begin with `w` finds nothing in a part that avoids `w`. -/
theorem firstMatch_append {f : List β → Option γ} {w pre s : List β}
    (hf : ∀ t, ¬ w <+: t → f t = none) (h : Avoids w pre) :
    firstMatch f (pre ++ s) = firstMatch f s := by
  have hall : ∀ t, t <:+ pre → firstMatch f (t ++ s) = firstMatch f s := by
    intro t
    induction t with
    | nil => exact fun _ => rfl
    | cons c t ih =>
      intro ht
      have hnone : f (c :: t ++ s) = none := hf _ (h.not_prefix ht (List.cons_ne_nil c t))
      rw [List.cons_append, firstMatch, ← List.cons_append, hnone, Option.none_or]
      exact ih ((List.suffix_cons c t).trans ht)
  exact hall pre List.suffix_rfl

theorem firstMatch_of_eq_some {f : List β → Option γ} {s : List β} {r : γ} (h : f s = some r) :
    firstMatch f s = some r := by
  rcases s with _ | ⟨c, s⟩
  · exact h
  · rw [firstMatch, h, Option.some_or]

end TextSearch
