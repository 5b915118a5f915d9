import Mathlib.Data.List.DropRight
import Mathlib.Data.List.Induction
import Mathlib.Data.List.Nodup
import Mathlib.Tactic.Common

/-!
# A duplicate filter with bounded memory

A filter remembers the last `cap` values it let through, oldest first.  A value it remembers is
rejected; any other is let through and remembered, the oldest value being forgotten when the
memory is full (`remember`).

With unbounded memory no value would pass twice.  With memory `cap` that holds for exactly the
input sequences in which every repetition comes while the value is still among the `cap` most
recent distinct ones (`Within`, `passed_nodup_iff`).  The condition speaks of the input alone:
on such inputs the filter lets through the first occurrences (`passed_of_within`), so what it
remembers is the end of the list of distinct values seen so far.
-/

namespace DuplicateFilter

variable {α : Type*} [DecidableEq α]

/-- The memory after a value that is let through, or `none` for a value that is rejected. -/
def remember (cap : ℕ) (memory : List α) (a : α) : Option (List α) :=
  if a ∈ memory then none
  else if cap < (memory ++ [a]).length then some (memory ++ [a]).tail
  else some (memory ++ [a])

/-- The memory after a list of values. -/
def memoryAfter (cap : ℕ) (memory : List α) (as : List α) : List α :=
  as.foldl (fun m a => (remember cap m a).getD m) memory

/-- The values let through, in order. -/
def passed (cap : ℕ) : List α → List α → List α
  | _, [] => []
  | memory, a :: as =>
    match remember cap memory a with
    | some memory => a :: passed cap memory as
    | none => passed cap memory as

/-- The `cap` most recent distinct values, by first occurrence. -/
def recent (cap : ℕ) (as : List α) : List α :=
  as.eraseDups.drop (as.eraseDups.length - cap)

/-- Every repetition comes while the value is among the `cap` most recent distinct ones. -/
def Within (cap : ℕ) (as : List α) : Prop :=
  ∀ pre a post, as = pre ++ a :: post → a ∈ pre → a ∈ recent cap pre

/-! ### One value at a time -/

theorem remember_eq_none_iff {cap : ℕ} {memory : List α} {a : α} :
    remember cap memory a = none ↔ a ∈ memory := by
  unfold remember
  split_ifs with h h' <;> simp [h]

/-- What is remembered was remembered before or is the new value. -/
theorem mem_of_mem_remember {cap : ℕ} {memory memory' : List α} {a b : α}
    (h : remember cap memory a = some memory') (hb : b ∈ memory') : b ∈ memory ++ [a] := by
  unfold remember at h
  split_ifs at h
  · rw [← Option.some.inj h] at hb
    exact List.mem_of_mem_tail hb
  · rwa [← Option.some.inj h] at hb

theorem memoryAfter_concat (cap : ℕ) (memory as : List α) (a : α) :
    memoryAfter cap memory (as ++ [a]) =
      (remember cap (memoryAfter cap memory as) a).getD (memoryAfter cap memory as) := by
  simp [memoryAfter]

theorem passed_concat (cap : ℕ) (as : List α) (a : α) : ∀ memory,
    passed cap memory (as ++ [a]) =
      passed cap memory as ++ if a ∈ memoryAfter cap memory as then [] else [a] := by
  induction as with
  | nil =>
    intro memory
    have hafter : memoryAfter cap memory [] = memory := rfl
    cases h : remember cap memory a with
    | none => simp [passed, h, hafter, remember_eq_none_iff.mp h]
    | some m =>
      have hmem : a ∉ memory := by
        intro hmem
        rw [remember_eq_none_iff.mpr hmem] at h
        cases h
      simp [passed, h, hafter, hmem]
  | cons b as ih =>
    intro memory
    rw [List.cons_append, passed, passed]
    cases h : remember cap memory b with
    | none =>
      have hafter : memoryAfter cap memory (b :: as) = memoryAfter cap memory as := by
        simp [memoryAfter, h]
      simp only [ih, hafter]
    | some m =>
      have hafter : memoryAfter cap memory (b :: as) = memoryAfter cap m as := by
        simp [memoryAfter, h]
      simp only [ih, hafter, List.cons_append]

theorem eraseDups_concat (as : List α) (a : α) :
    (as ++ [a]).eraseDups = if a ∈ as then as.eraseDups else as.eraseDups ++ [a] := by
  rw [List.eraseDups_append]
  split_ifs with h
  · have hremove : [a].removeAll as = [] := by simp [List.removeAll, h]
    rw [hremove]
    simp
  · have hremove : [a].removeAll as = [a] := by simp [List.removeAll, h]
    rw [hremove]
    rfl

theorem nodup_eraseDups (as : List α) : as.eraseDups.Nodup := by
  induction as using List.reverseRecOn with
  | nil => simp
  | append_singleton as a ih =>
    rw [eraseDups_concat]
    split_ifs with h
    · exact ih
    · have ha : a ∉ as.eraseDups := fun hmem => h (List.mem_eraseDups.mp hmem)
      rw [List.nodup_append]
      refine ⟨ih, List.nodup_singleton a, fun b hb c hc => ?_⟩
      rw [List.mem_singleton.mp hc]
      exact fun hba => ha (hba ▸ hb)

theorem eraseDups_eq_self {as : List α} (h : as.Nodup) : as.eraseDups = as := by
  induction as using List.reverseRecOn with
  | nil => rfl
  | append_singleton as a ih =>
    have ha : a ∉ as := fun hmem =>
      List.disjoint_of_nodup_append h hmem (List.mem_singleton_self a)
    rw [eraseDups_concat, if_neg ha, ih h.of_append_left]

/-- A condition on all splits of a list, one value at a time. -/
theorem within_concat {cap : ℕ} {as : List α} {a : α} :
    Within cap (as ++ [a]) ↔ Within cap as ∧ (a ∈ as → a ∈ recent cap as) := by
  constructor
  · intro h
    refine ⟨fun pre b post hsplit => h pre b (post ++ [a]) (by simp [hsplit]), h as a [] rfl⟩
  · rintro ⟨hinit, hlast⟩ pre b post hsplit hmem
    rcases List.eq_nil_or_concat post with rfl | ⟨post', c, rfl⟩
    · obtain ⟨rfl, hab⟩ := List.append_inj' hsplit rfl
      cases hab
      exact hlast hmem
    · have hsplit' : as ++ [a] = (pre ++ b :: post') ++ [c] := by simp [hsplit]
      obtain ⟨has, -⟩ := List.append_inj' hsplit' rfl
      exact hinit pre b post' has hmem

/-- **What is remembered** is the end of what passed. -/
theorem memoryAfter_eq_rtake (cap : ℕ) (as : List α) :
    memoryAfter cap [] as = (passed cap [] as).rtake cap := by
  induction as using List.reverseRecOn with
  | nil => simp [memoryAfter, passed]
  | append_singleton as a ih =>
    rw [memoryAfter_concat, passed_concat]
    split_ifs with hmem
    · rw [remember_eq_none_iff.mpr hmem, Option.getD_none, List.append_nil, ih]
    · have hlen : ((passed cap [] as).rtake cap ++ [a]).length =
          min (passed cap [] as).length cap + 1 := by
        rw [List.length_append, List.rtake, List.length_drop, List.length_singleton]
        omega
      rw [ih] at hmem ⊢
      rw [remember, if_neg hmem, hlen]
      unfold List.rtake
      rw [List.length_append, List.length_singleton]
      split_ifs with hfull
      · rw [Option.getD_some, ← List.drop_append_of_le_length (by omega), List.tail_drop]
        congr 1
        omega
      · rw [Option.getD_some, ← List.drop_append_of_le_length (by omega)]
        congr 1
        omega

theorem mem_of_mem_passed {cap : ℕ} {as : List α} {a : α} :
    ∀ {memory : List α}, a ∈ passed cap memory as → a ∈ as := by
  induction as with
  | nil => exact fun h => h
  | cons b as ih =>
    intro memory h
    rw [passed] at h
    split at h
    · rcases List.mem_cons.mp h with rfl | h
      · exact List.mem_cons_self ..
      · exact List.mem_cons_of_mem _ (ih h)
    · exact List.mem_cons_of_mem _ (ih h)

/-! ### The filter on sequences within its memory -/

theorem mem_of_mem_recent {cap : ℕ} {as : List α} {a : α} (h : a ∈ recent cap as) : a ∈ as :=
  List.mem_eraseDups.mp (List.mem_of_mem_drop h)

/-- Remembering a new value keeps the memory at the most recent distinct values. -/
theorem remember_recent {cap : ℕ} {as : List α} {a : α} (ha : a ∉ as) :
    remember cap (recent cap as) a = some (recent cap (as ++ [a])) := by
  have hlen : (recent cap as ++ [a]).length = min as.eraseDups.length cap + 1 := by
    rw [List.length_append, recent, List.length_drop, List.length_singleton]
    omega
  rw [remember, if_neg fun h => ha (mem_of_mem_recent h), hlen]
  unfold recent
  rw [eraseDups_concat, if_neg ha, List.length_append, List.length_singleton]
  split_ifs with hfull
  · rw [← List.drop_append_of_le_length (by omega), List.tail_drop]
    congr 2
    omega
  · rw [← List.drop_append_of_le_length (by omega)]
    congr 2
    omega

/-- **Within its memory the filter is exact**: it lets through the first occurrences and
remembers the most recent of them. -/
theorem passed_of_within {cap : ℕ} {as : List α} (h : Within cap as) :
    passed cap [] as = as.eraseDups ∧ memoryAfter cap [] as = recent cap as := by
  induction as using List.reverseRecOn with
  | nil => simp [passed, memoryAfter, recent]
  | append_singleton as a ih =>
    obtain ⟨hinit, hlast⟩ := within_concat.mp h
    obtain ⟨hpassed, hmemory⟩ := ih hinit
    rw [passed_concat, memoryAfter_concat, hpassed, hmemory, eraseDups_concat]
    by_cases ha : a ∈ as
    · have hrecent := hlast ha
      rw [if_pos hrecent, if_pos ha, remember_eq_none_iff.mpr hrecent]
      refine ⟨List.append_nil _, ?_⟩
      unfold recent
      rw [eraseDups_concat, if_pos ha]
      rfl
    · rw [if_neg fun hrecent => ha (mem_of_mem_recent hrecent), if_neg ha, remember_recent ha]
      exact ⟨rfl, rfl⟩

/-- **When nothing passes twice**: exactly on the sequences within the filter's memory. -/
theorem passed_nodup_iff {cap : ℕ} {as : List α} : (passed cap [] as).Nodup ↔ Within cap as := by
  constructor
  · induction as using List.reverseRecOn with
    | nil => intro _ pre a post h; simp at h
    | append_singleton as a ih =>
      rw [passed_concat, within_concat]
      intro hnodup
      have hinit := ih hnodup.of_append_left
      obtain ⟨hpassed, hmemory⟩ := passed_of_within hinit
      refine ⟨hinit, fun ha => ?_⟩
      by_contra hold
      -- the value has been forgotten, so it passes a second time
      rw [hmemory, if_neg hold, hpassed] at hnodup
      have hdisjoint := List.disjoint_of_nodup_append hnodup
      exact hdisjoint (List.mem_eraseDups.mpr ha) (List.mem_singleton_self a)
  · intro h
    rw [(passed_of_within h).1]
    exact nodup_eraseDups as

/-- A value that comes back after `cap` other distinct ones is too old. -/
theorem not_within_of_nodup {cap : ℕ} {a : α} {as : List α} (hnodup : (a :: as).Nodup)
    (hlen : cap ≤ as.length) : ¬ Within cap (a :: as ++ [a]) := by
  intro h
  have hrecent := (within_concat.mp h).2 (List.mem_cons_self ..)
  unfold recent at hrecent
  rw [eraseDups_eq_self hnodup, List.length_cons, Nat.succ_sub hlen, List.drop_succ_cons] at hrecent
  exact (List.nodup_cons.mp hnodup).1 (List.mem_of_mem_drop hrecent)

end DuplicateFilter
