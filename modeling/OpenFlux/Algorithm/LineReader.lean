import Mathlib.Data.List.DropRight

/-!
# Reading lines from chunks

A text comes in chunks.  The lines that end in a chunk are taken out of it together with what was
pending before, and of what is left only the last elements stay pending.  What is pending then
depends on the text alone (`readChunks_rest`); the lines do if none of them is longer than what may
stay pending (`readChunks_lines`).
-/

namespace LineReader

variable {α β : Type*} [DecidableEq α] [DecidableEq β] {nl : α} {s : List α}

/-- The lines that end in a text, and what comes after the last of them. -/
def split (nl : α) : List α → List (List α) × List α
  | [] => ([], [])
  | a :: s =>
    if a = nl then ([] :: (split nl s).1, (split nl s).2)
    else
      match (split nl s).1 with
      | [] => ([], a :: (split nl s).2)
      | line :: lines => ((a :: line) :: lines, (split nl s).2)

theorem split_of_not_mem (h : nl ∉ s) : split nl s = ([], s) := by
  induction s with
  | nil => rfl
  | cons a s ih =>
    obtain ⟨ha, hs⟩ := not_or.mp (List.mem_cons.not.mp h)
    rw [split, if_neg (Ne.symm ha), ih hs]

theorem split_line (h : nl ∉ s) (t : List α) :
    split nl (s ++ nl :: t) = (s :: (split nl t).1, (split nl t).2) := by
  induction s with
  | nil => rw [List.nil_append, split, if_pos rfl]
  | cons a s ih =>
    obtain ⟨ha, hs⟩ := not_or.mp (List.mem_cons.not.mp h)
    rw [List.cons_append, split, if_neg (Ne.symm ha), ih hs]

/-- A text has no line end, or it is a line with its end before a text. -/
@[elab_as_elim]
theorem lines_induction (nl : α) {motive : List α → Prop} (rest : ∀ s, nl ∉ s → motive s)
    (line : ∀ s t, nl ∉ s → motive t → motive (s ++ nl :: t)) (s : List α) : motive s := by
  induction hn : s.length using Nat.strong_induction_on generalizing s with
  | _ n ih =>
    by_cases hs : nl ∈ s
    · obtain ⟨a, b, rfl, ha⟩ := List.eq_append_cons_of_mem hs
      refine line a b ha (ih b.length ?_ b rfl)
      rw [← hn, List.length_append, List.length_cons]
      omega
    · exact rest s hs

theorem split_append (s t : List α) :
    split nl (s ++ t) = ((split nl s).1 ++ (split nl ((split nl s).2 ++ t)).1,
      (split nl ((split nl s).2 ++ t)).2) := by
  induction s using lines_induction nl with
  | rest s hs => rw [split_of_not_mem hs, List.nil_append]
  | line s s' hs ih =>
    rw [List.append_assoc, List.cons_append, split_line hs, split_line hs, ih, List.cons_append]

theorem not_mem_rest (s : List α) : nl ∉ (split nl s).2 := by
  induction s using lines_induction nl with
  | rest s hs => rwa [split_of_not_mem hs]
  | line s t hs ih => rwa [split_line hs]

/-- Where a line is in the text. -/
theorem exists_of_mem {line : List α} (h : line ∈ (split nl s).1) :
    ∃ p t, s = p ++ (line ++ nl :: t) ∧ (split nl p).2 = [] ∧ nl ∉ line := by
  induction s using lines_induction nl with
  | rest s hs =>
    rw [split_of_not_mem hs] at h
    cases h
  | line s t hs ih =>
    rw [split_line hs] at h
    rcases List.mem_cons.mp h with rfl | h
    · exact ⟨[], t, rfl, rfl, hs⟩
    · obtain ⟨p, u, rfl, hp, hline⟩ := ih h
      refine ⟨s ++ nl :: p, u, by simp, ?_, hline⟩
      rw [split_line hs]
      exact hp

theorem split_map {nl' : β} {f : α → β} (hf : ∀ a, f a = nl' ↔ a = nl) (s : List α) :
    split nl' (s.map f) = ((split nl s).1.map (List.map f), (split nl s).2.map f) := by
  have hmem : ∀ s : List α, nl ∉ s → nl' ∉ s.map f := by
    intro s hs hmap
    obtain ⟨a, ha, heq⟩ := List.mem_map.mp hmap
    exact hs ((hf a).mp heq ▸ ha)
  induction s using lines_induction nl with
  | rest s hs =>
    rw [split_of_not_mem hs, split_of_not_mem (hmem s hs)]
    rfl
  | line s t hs ih =>
    rw [List.map_append, List.map_cons, (hf nl).mpr rfl, split_line (hmem s hs), split_line hs, ih]
    rfl

theorem length_split (s : List α) : (split nl s).1.length = s.count nl := by
  induction s using lines_induction nl with
  | rest s hs => rw [split_of_not_mem hs, List.count_eq_zero_of_not_mem hs]; rfl
  | line s t hs ih =>
    rw [split_line hs, List.count_append, List.count_eq_zero_of_not_mem hs, List.count_cons_self,
      ← ih, List.length_cons, Nat.zero_add]

/-- A part without a line end, in a text whose next line end is in `t` or nowhere. -/
theorem split_middle {m : List α} (hm : nl ∉ m) (s t : List α) :
    split nl (s ++ (m ++ t)) =
      match (split nl t).1 with
      | [] => ((split nl s).1, (split nl s).2 ++ (m ++ (split nl t).2))
      | line :: lines =>
        ((split nl s).1 ++ ((split nl s).2 ++ (m ++ line)) :: lines, (split nl t).2) := by
  rw [split_append]
  by_cases ht : nl ∈ t
  · obtain ⟨a, b, rfl, ha⟩ := List.eq_append_cons_of_mem ht
    have hline : nl ∉ (split nl s).2 ++ (m ++ a) :=
      List.not_mem_append (not_mem_rest s) (List.not_mem_append hm ha)
    have hassoc : (split nl s).2 ++ (m ++ (a ++ nl :: b)) =
        (split nl s).2 ++ (m ++ a) ++ nl :: b := by simp
    rw [hassoc, split_line hline, split_line ha]
  · have hrest : nl ∉ (split nl s).2 ++ (m ++ t) :=
      List.not_mem_append (not_mem_rest s) (List.not_mem_append hm ht)
    rw [split_of_not_mem hrest, split_of_not_mem ht, List.append_nil]

/-! ### Chunks -/

/-- The lines that are taken out, and what is pending in the end. -/
def readChunks (nl : α) (limit : ℕ) : List α → List (List α) → List (List α) × List α
  | pending, [] => ([], pending)
  | pending, chunk :: chunks =>
    let lines := split nl (pending ++ chunk)
    let later := readChunks nl limit (lines.2.rtake limit) chunks
    (lines.1 ++ later.1, later.2)

variable {limit : ℕ} {pending : List α} {chunks : List (List α)}

theorem readChunks_append (pending : List α) (chunks later : List (List α)) :
    readChunks nl limit pending (chunks ++ later) =
      ((readChunks nl limit pending chunks).1 ++
          (readChunks nl limit (readChunks nl limit pending chunks).2 later).1,
        (readChunks nl limit (readChunks nl limit pending chunks).2 later).2) := by
  induction chunks generalizing pending with
  | nil => rfl
  | cons chunk chunks ih =>
    rw [List.cons_append, readChunks, readChunks, ih]
    dsimp only
    rw [List.append_assoc]

omit [DecidableEq α] in
theorem rtake_append_rtake (s t : List α) (n : ℕ) :
    (s.rtake n ++ t).rtake n = (s ++ t).rtake n := by
  simp only [List.rtake_eq_reverse_take_reverse, List.reverse_append, List.reverse_reverse,
    List.take_append, List.take_take]
  rw [Nat.min_eq_left (Nat.sub_le ..)]

omit [DecidableEq α] in
theorem not_mem_rtake (h : nl ∉ s) (n : ℕ) : nl ∉ s.rtake n := fun hmem =>
  h (List.mem_of_mem_drop hmem)

/-- What is pending does not depend on the chunks. -/
theorem readChunks_rest (hpending : nl ∉ pending) :
    (readChunks nl limit (pending.rtake limit) chunks).2 =
      (split nl (pending ++ chunks.flatten)).2.rtake limit := by
  induction chunks generalizing pending with
  | nil => rw [List.flatten_nil, List.append_nil, split_of_not_mem hpending, readChunks]
  | cons chunk chunks ih =>
    rw [readChunks, List.flatten_cons, ← List.append_assoc, split_append (pending ++ chunk)]
    dsimp only
    rw [← ih (not_mem_rest _)]
    congr 2
    by_cases hchunk : nl ∈ chunk
    · obtain ⟨d, e, rfl, hd⟩ := List.eq_append_cons_of_mem hchunk
      have hline : ∀ q : List α, nl ∉ q → (split nl (q ++ (d ++ nl :: e))).2 = (split nl e).2 := by
        intro q hq
        rw [← List.append_assoc, split_line (List.not_mem_append hq hd)]
      rw [hline _ (not_mem_rtake hpending limit), hline _ hpending]
    · have hrest : ∀ q : List α, nl ∉ q → (split nl (q ++ chunk)).2 = q ++ chunk := by
        intro q hq
        rw [split_of_not_mem (List.not_mem_append hq hchunk)]
      rw [hrest _ (not_mem_rtake hpending limit), hrest _ hpending, rtake_append_rtake]

/-- The lines do not depend on the chunks either, if all of them may stay pending. -/
theorem readChunks_lines (hpending : nl ∉ pending)
    (hshort : ∀ line ∈ (split nl (pending ++ chunks.flatten)).1, line.length ≤ limit) :
    (readChunks nl limit (pending.rtake limit) chunks).1 =
      (split nl (pending ++ chunks.flatten)).1 := by
  induction chunks generalizing pending with
  | nil => rw [List.flatten_nil, List.append_nil, split_of_not_mem hpending, readChunks]
  | cons chunk chunks ih =>
    rw [List.flatten_cons, ← List.append_assoc, split_append (pending ++ chunk)] at hshort ⊢
    dsimp only at hshort ⊢
    have hlater := ih (not_mem_rest (pending ++ chunk)) fun line hline =>
      hshort line (List.mem_append_right _ hline)
    rw [readChunks]
    dsimp only
    by_cases hchunk : nl ∈ chunk
    · obtain ⟨d, e, rfl, hd⟩ := List.eq_append_cons_of_mem hchunk
      -- the first line is short, and what was pending is a part of it
      have hfirst := split_line (List.not_mem_append hpending hd) e
      rw [List.append_assoc] at hfirst
      have hle := hshort (pending ++ d) (List.mem_append_left _ (by rw [hfirst]; simp))
      rw [List.length_append] at hle
      have hall : pending.rtake limit = pending := by
        rw [List.rtake, Nat.sub_eq_zero_of_le (by omega), List.drop_zero]
      rw [hall, hlater]
    · rw [split_of_not_mem (List.not_mem_append hpending hchunk)] at hlater ⊢
      rw [split_of_not_mem (List.not_mem_append (not_mem_rtake hpending limit) hchunk)]
      dsimp only at hlater ⊢
      rw [rtake_append_rtake, hlater, List.nil_append]

/-- **Short lines**: nothing depends on the chunks. -/
theorem readChunks_eq (hshort : ∀ line ∈ (split nl chunks.flatten).1, line.length ≤ limit) :
    readChunks nl limit [] chunks =
      ((split nl chunks.flatten).1, (split nl chunks.flatten).2.rtake limit) := by
  have hlines := @readChunks_lines _ _ nl limit [] _ List.not_mem_nil hshort
  have hrest := @readChunks_rest _ _ nl limit [] chunks List.not_mem_nil
  rw [List.rtake_nil, List.nil_append] at hlines hrest
  exact Prod.ext hlines hrest

/-- A line whose end comes alone. -/
theorem readChunks_alone {a : α} (hpending : nl ∉ pending) (ha : a ≠ nl) (chunks : List (List α)) :
    readChunks nl limit pending ([a] :: [nl] :: chunks) =
      ((pending ++ [a]).rtake limit :: (readChunks nl limit [] chunks).1,
        (readChunks nl limit [] chunks).2) := by
  have hrest : nl ∉ pending ++ [a] :=
    List.not_mem_append hpending fun h => ha (List.mem_singleton.mp h).symm
  have hend := split_line (not_mem_rtake hrest limit) []
  simp only [readChunks, split_of_not_mem hrest, hend, split, List.rtake_nil, List.nil_append,
    List.singleton_append]

/-- A line whose end comes with its last element. -/
theorem readChunks_together {a : α} (hpending : nl ∉ pending) (ha : a ≠ nl)
    (chunks : List (List α)) :
    readChunks nl limit pending ([a, nl] :: chunks) =
      ((pending ++ [a]) :: (readChunks nl limit [] chunks).1,
        (readChunks nl limit [] chunks).2) := by
  have hrest : nl ∉ pending ++ [a] :=
    List.not_mem_append hpending fun h => ha (List.mem_singleton.mp h).symm
  have hend := split_line hrest []
  rw [List.append_assoc, List.singleton_append] at hend
  simp only [readChunks, hend, split, List.rtake_nil, List.singleton_append]

/-- There are as many lines as line ends. -/
theorem length_readChunks (hpending : nl ∉ pending) :
    (readChunks nl limit pending chunks).1.length = chunks.flatten.count nl := by
  induction chunks generalizing pending with
  | nil => rfl
  | cons chunk chunks ih =>
    rw [readChunks]
    dsimp only
    rw [List.length_append, ih (not_mem_rtake (not_mem_rest _) limit), length_split,
      List.count_append, List.count_eq_zero_of_not_mem hpending, List.flatten_cons,
      List.count_append, Nat.zero_add]

end LineReader
