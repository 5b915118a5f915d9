import Mathlib.Data.List.Basic
import Mathlib.Data.List.TakeWhile

/-!
# Regular expressions with backtracking

`ends` lists the matches of a regular expression at a place of a text, in the order in which a
matcher that backtracks tries them, so that the first one is the one it finds.  Replacing all
matches cuts the text into pieces, from left to right: elements that are kept, and matches
(`pieces`).  `Cuts` says what the pieces are, and `Cuts.drop` that of their last ones.
-/

/-- Patterns.  `many` is greedy, `group` is a capturing group, and the last two look at the element
before a place, or after it. -/
inductive Regex (α : Type)
  | empty
  | one (p : α → Bool)
  | seq (r t : Regex α)
  | alt (r t : Regex α)
  | many (p : α → Bool) (least : ℕ) (most : Option ℕ)
  | group (r : Regex α)
  | notBehind (p : α → Bool)
  | notAhead (p : α → Bool)

namespace Regex

variable {α β : Type}

/-- Patterns one after the other. -/
def chain : List (Regex α) → Regex α
  | [] => empty
  | r :: l => seq r (chain l)

/-- These elements, as `f` sees them. -/
def literal [DecidableEq β] (f : α → β) : List β → Regex α
  | [] => empty
  | b :: t => seq (one fun c => f c = b) (literal f t)

/-- A pattern, or nothing. -/
def optional (r : Regex α) : Regex α := alt r empty

/-- As many matches of a pattern as there are, and no more than `n`. -/
def upTo (r : Regex α) : ℕ → Regex α
  | 0 => empty
  | n + 1 => optional (seq r (r.upTo n))

/-- What is matched, what the groups have captured, and the text after it. -/
structure Match (α : Type) where
  body : List α
  groups : List (List α)
  rest : List α
  deriving DecidableEq

/-- A match after another one. -/
def Match.append (m n : Match α) : Match α where
  body := m.body ++ n.body
  groups := m.groups ++ n.groups
  rest := n.rest

/-- The element before a place, when `body` has been read since there was `prev`. -/
def behind (prev : Option α) (body : List α) : Option α := body.getLast?.or prev

/-- The lengths that `many` tries. -/
def lengths (p : α → Bool) (least : ℕ) (most : Option ℕ) (s : List α) : List ℕ :=
  let longest := (s.takeWhile p).length
  let longest := (most.map (min longest)).getD longest
  (List.range' least (longest + 1 - least)).reverse

/-- The matches at a place, in the order in which they are tried. -/
def ends : Regex α → Option α → List α → List (Match α)
  | empty, _, s => [⟨[], [], s⟩]
  | one _, _, [] => []
  | one p, _, c :: s => if p c then [⟨[c], [], s⟩] else []
  | seq r t, prev, s =>
    (r.ends prev s).flatMap fun m => (t.ends (behind prev m.body) m.rest).map m.append
  | alt r t, prev, s => r.ends prev s ++ t.ends prev s
  | many p least most, _, s => (lengths p least most s).map fun n => ⟨s.take n, [], s.drop n⟩
  | group r, prev, s => (r.ends prev s).map fun m => { m with groups := m.body :: m.groups }
  | notBehind p, prev, s => if prev.any p then [] else [⟨[], [], s⟩]
  | notAhead p, _, s => if s.head?.any p then [] else [⟨[], [], s⟩]

/-- The match that is found. -/
def first (r : Regex α) (prev : Option α) (s : List α) : Option (Match α) := (r.ends prev s).head?

-- an optional pattern is tried before nothing is
example (r : Regex α) (prev : Option α) (s : List α) :
    r.optional.ends prev s = r.ends prev s ++ [⟨[], [], s⟩] := by
  rw [optional, ends, ends]

/-! ### Matches -/

section Matches

variable {p : α → Bool} {r t : Regex α} {prev : Option α} {s : List α} {m : Match α}

theorem mem_ends_one : m ∈ (one p).ends prev s ↔
    ∃ c, s = c :: m.rest ∧ p c = true ∧ m.body = [c] ∧ m.groups = [] := by
  obtain ⟨body, groups, rest⟩ := m
  cases s with
  | nil => simp [ends]
  | cons c s =>
    by_cases hc : p c = true
    · simp only [ends, if_pos hc, List.mem_singleton, Match.mk.injEq, List.cons.injEq]
      constructor
      · rintro ⟨rfl, rfl, rfl⟩
        exact ⟨c, ⟨rfl, rfl⟩, hc, rfl, rfl⟩
      · rintro ⟨d, ⟨rfl, rfl⟩, -, rfl, rfl⟩
        exact ⟨rfl, rfl, rfl⟩
    · simp only [ends, if_neg hc, List.not_mem_nil, false_iff]
      rintro ⟨d, hd, hp, -⟩
      obtain ⟨rfl, -⟩ := List.cons.inj hd
      exact hc hp

theorem mem_ends_seq : m ∈ (seq r t).ends prev s ↔
    ∃ m₁ ∈ r.ends prev s, ∃ m₂ ∈ t.ends (behind prev m₁.body) m₁.rest, m = m₁.append m₂ := by
  simp only [ends, List.mem_flatMap, List.mem_map, eq_comm]

theorem mem_ends_alt : m ∈ (alt r t).ends prev s ↔ m ∈ r.ends prev s ∨ m ∈ t.ends prev s :=
  List.mem_append

theorem mem_ends_group : m ∈ (group r).ends prev s ↔
    ∃ m₁ ∈ r.ends prev s, m = { m₁ with groups := m₁.body :: m₁.groups } := by
  simp only [ends, List.mem_map, eq_comm]

theorem mem_ends_notBehind : m ∈ (notBehind p).ends prev s ↔
    prev.any p = false ∧ m = ⟨[], [], s⟩ := by
  rw [ends]
  split_ifs with h
  · simp [h]
  · simp [Bool.eq_false_iff.mpr h]

theorem mem_ends_notAhead : m ∈ (notAhead p).ends prev s ↔
    s.head?.any p = false ∧ m = ⟨[], [], s⟩ := by
  rw [ends]
  split_ifs with h
  · simp [h]
  · simp [Bool.eq_false_iff.mpr h]

theorem ends_seq_notBehind (p : α → Bool) (r : Regex α) (prev : Option α) (s : List α) :
    (seq (notBehind p) r).ends prev s = if prev.any p then [] else r.ends prev s := by
  rw [ends, ends]
  split_ifs with h
  · rfl
  · rw [List.flatMap_singleton]
    exact List.map_id _

theorem mem_lengths {least : ℕ} {most : Option ℕ} {n : ℕ} : n ∈ lengths p least most s ↔
    least ≤ n ∧ n ≤ (s.takeWhile p).length ∧ ∀ b ∈ most, n ≤ b := by
  rw [lengths, List.mem_reverse, List.mem_range'_1]
  cases most with
  | none =>
    simp only [Option.map_none, Option.getD_none, Option.not_mem_none, IsEmpty.forall_iff,
      implies_true, and_true]
    omega
  | some b =>
    simp only [Option.map_some, Option.getD_some, Option.mem_def, Option.some.injEq, forall_eq']
    omega

theorem mem_ends_many {least : ℕ} {most : Option ℕ} : m ∈ (many p least most).ends prev s ↔
    m.body ++ m.rest = s ∧ (∀ c ∈ m.body, p c = true) ∧ least ≤ m.body.length ∧
      (∀ b ∈ most, m.body.length ≤ b) ∧ m.groups = [] := by
  obtain ⟨body, groups, rest⟩ := m
  simp only [ends, List.mem_map, mem_lengths, Match.mk.injEq]
  constructor
  · rintro ⟨n, ⟨hleast, hrun, hmost⟩, rfl, rfl, rfl⟩
    have hn : n ≤ s.length := hrun.trans (List.takeWhile_sublist p).length_le
    rw [List.length_take_of_le hn]
    refine ⟨List.take_append_drop n s, fun c hc => ?_, hleast, hmost, rfl⟩
    rw [← List.takeWhile_append_dropWhile (p := p) (l := s), List.take_append_of_le_length hrun] at hc
    exact List.mem_takeWhile_imp (List.mem_of_mem_take hc)
  · rintro ⟨rfl, hbody, hleast, hmost, rfl⟩
    refine ⟨body.length, ⟨hleast, ?_, hmost⟩, List.take_left, rfl, List.drop_left⟩
    rw [List.takeWhile_append_of_pos hbody, List.length_append]
    omega

theorem mem_ends_chain_nil : m ∈ (chain []).ends prev s ↔ m = ⟨[], [], s⟩ :=
  List.mem_singleton

theorem mem_ends_chain_cons {l : List (Regex α)} : m ∈ (chain (r :: l)).ends prev s ↔
    ∃ m₁ ∈ r.ends prev s, ∃ m₂ ∈ (chain l).ends (behind prev m₁.body) m₁.rest,
      m = m₁.append m₂ :=
  mem_ends_seq

theorem ends_chain_singleton (r : Regex α) (prev : Option α) (s : List α) :
    (chain [r]).ends prev s = r.ends prev s := by
  simp only [chain, ends, Match.append, List.map_singleton, List.append_nil]
  exact List.flatMap_singleton' _

/-- A chain matches if its parts do in a row. -/
theorem exists_mem_chain_cons {l : List (Regex α)} {b z : List α}
    (h : ∃ g, ⟨b, g, z⟩ ∈ r.ends prev (b ++ z))
    (hl : ∃ m, m ∈ (chain l).ends (behind prev b) z) :
    ∃ m, m ∈ (chain (r :: l)).ends prev (b ++ z) := by
  obtain ⟨g, hg⟩ := h
  obtain ⟨m, hm⟩ := hl
  exact ⟨_, mem_ends_chain_cons.mpr ⟨_, hg, m, hm, rfl⟩⟩

theorem mem_ends_literal [DecidableEq β] {f : α → β} {t : List β} :
    m ∈ (literal f t).ends prev s ↔ m.body.map f = t ∧ m.body ++ m.rest = s ∧ m.groups = [] := by
  induction t generalizing prev s m with
  | nil =>
    obtain ⟨body, groups, rest⟩ := m
    simp only [literal, ends, List.mem_singleton, Match.mk.injEq, List.map_eq_nil_iff]
    constructor
    · rintro ⟨rfl, rfl, rfl⟩
      exact ⟨rfl, rfl, rfl⟩
    · rintro ⟨rfl, rfl, rfl⟩
      exact ⟨rfl, rfl, rfl⟩
  | cons b t ih =>
    rw [literal, mem_ends_seq]
    constructor
    · rintro ⟨m₁, h₁, m₂, h₂, rfl⟩
      obtain ⟨c, rfl, hc, hbody, hgroups⟩ := mem_ends_one.mp h₁
      obtain ⟨rfl, hrest, hgroups'⟩ := ih.mp h₂
      rw [Match.append, hbody, hgroups, hgroups', ← hrest, ← of_decide_eq_true hc]
      exact ⟨rfl, rfl, rfl⟩
    · rintro ⟨hmap, rfl, hgroups⟩
      obtain ⟨c, body, hbody, hc, ht⟩ := List.map_eq_cons_iff.mp hmap
      refine ⟨⟨[c], [], body ++ m.rest⟩, ?_, ⟨body, [], m.rest⟩, ih.mpr ⟨ht, rfl, rfl⟩, ?_⟩
      · rw [mem_ends_one, hbody]
        exact ⟨c, rfl, decide_eq_true hc, rfl, rfl⟩
      · rw [Match.append, List.singleton_append, ← hbody, List.nil_append, ← hgroups]

theorem body_append_rest (h : m ∈ r.ends prev s) : m.body ++ m.rest = s := by
  induction r generalizing prev s m with
  | empty =>
    obtain rfl := List.mem_singleton.mp h
    rfl
  | one p =>
    obtain ⟨c, rfl, -, hbody, -⟩ := mem_ends_one.mp h
    rw [hbody, List.singleton_append]
  | seq r t ihr iht =>
    obtain ⟨m₁, h₁, m₂, h₂, rfl⟩ := mem_ends_seq.mp h
    rw [Match.append, List.append_assoc, iht h₂, ihr h₁]
  | alt r t ihr iht => exact (mem_ends_alt.mp h).elim ihr iht
  | many p least most => exact (mem_ends_many.mp h).1
  | group r ih =>
    obtain ⟨m₁, h₁, rfl⟩ := mem_ends_group.mp h
    have hbody := ih h₁
    exact hbody
  | notBehind p =>
    obtain ⟨-, rfl⟩ := mem_ends_notBehind.mp h
    rfl
  | notAhead p =>
    obtain ⟨-, rfl⟩ := mem_ends_notAhead.mp h
    rfl

/-- No part of the pattern looks behind or ahead. -/
def Plain : Regex α → Prop
  | seq r t => r.Plain ∧ t.Plain
  | alt r t => r.Plain ∧ t.Plain
  | group r => r.Plain
  | notBehind _ => False
  | notAhead _ => False
  | _ => True

/-- A plain pattern matches the same text in other places, too. -/
theorem mem_ends_of_plain (hr : r.Plain) (h : m ∈ r.ends prev s) (prev' : Option α)
    (s' : List α) : { m with rest := s' } ∈ r.ends prev' (m.body ++ s') := by
  induction r generalizing prev s m prev' s' with
  | empty =>
    obtain rfl := List.mem_singleton.mp h
    exact List.mem_singleton_self _
  | one p =>
    obtain ⟨c, -, hc, hbody, hgroups⟩ := mem_ends_one.mp h
    exact mem_ends_one.mpr ⟨c, by rw [hbody, List.singleton_append], hc, hbody, hgroups⟩
  | seq r t ihr iht =>
    obtain ⟨m₁, h₁, m₂, h₂, rfl⟩ := mem_ends_seq.mp h
    rw [Match.append, List.append_assoc]
    exact mem_ends_seq.mpr ⟨_, ihr hr.1 h₁ _ _, _, iht hr.2 h₂ _ _, rfl⟩
  | alt r t ihr iht =>
    rcases mem_ends_alt.mp h with h | h
    · exact mem_ends_alt.mpr (.inl (ihr hr.1 h _ _))
    · exact mem_ends_alt.mpr (.inr (iht hr.2 h _ _))
  | many p least most =>
    obtain ⟨-, hmany⟩ := mem_ends_many.mp h
    exact mem_ends_many.mpr ⟨rfl, hmany⟩
  | group r ih =>
    obtain ⟨m₁, h₁, rfl⟩ := mem_ends_group.mp h
    exact mem_ends_group.mpr ⟨_, ih hr h₁ _ _, rfl⟩
  | notBehind p => exact hr.elim
  | notAhead p => exact hr.elim

/-- All that the pattern can match has a property. -/
def Over (P : α → Prop) : Regex α → Prop
  | one p => ∀ c, p c = true → P c
  | many p _ _ => ∀ c, p c = true → P c
  | seq r t => r.Over P ∧ t.Over P
  | alt r t => r.Over P ∧ t.Over P
  | group r => r.Over P
  | _ => True

theorem forall_mem_body {P : α → Prop} (hr : r.Over P) (h : m ∈ r.ends prev s) :
    ∀ c ∈ m.body, P c := by
  induction r generalizing prev s m with
  | empty =>
    obtain rfl := List.mem_singleton.mp h
    simp
  | one p =>
    obtain ⟨c, -, hc, hbody, -⟩ := mem_ends_one.mp h
    rw [hbody, List.forall_mem_singleton]
    exact hr c hc
  | seq r t ihr iht =>
    obtain ⟨m₁, h₁, m₂, h₂, rfl⟩ := mem_ends_seq.mp h
    exact List.forall_mem_append.mpr ⟨ihr hr.1 h₁, iht hr.2 h₂⟩
  | alt r t ihr iht =>
    rcases mem_ends_alt.mp h with h | h
    · exact ihr hr.1 h
    · exact iht hr.2 h
  | many p least most => exact fun c hc => hr c ((mem_ends_many.mp h).2.1 c hc)
  | group r ih =>
    obtain ⟨m₁, h₁, rfl⟩ := mem_ends_group.mp h
    have hbody := ih hr h₁
    exact hbody
  | notBehind p =>
    obtain ⟨-, rfl⟩ := mem_ends_notBehind.mp h
    simp
  | notAhead p =>
    obtain ⟨-, rfl⟩ := mem_ends_notAhead.mp h
    simp

/-! ### The first match -/

theorem mem_of_first (h : r.first prev s = some m) : m ∈ r.ends prev s := List.mem_of_head? h

theorem first_eq_none_iff : r.first prev s = none ↔ ∀ m, m ∉ r.ends prev s := by
  rw [first, List.head?_eq_none_iff, List.eq_nil_iff_forall_not_mem]

theorem exists_first (h : m ∈ r.ends prev s) : ∃ m', r.first prev s = some m' := by
  rw [← Option.isSome_iff_exists, ← Option.ne_none_iff_isSome]
  intro hnone
  exact first_eq_none_iff.mp hnone m h

/-- The first match of a sequence: those of the first part that come before lead nowhere. -/
theorem first_seq (h : (seq r t).first prev s = some m) : ∃ before m₁ after m₂,
    r.ends prev s = before ++ m₁ :: after ∧
      (∀ m' ∈ before, ∀ n, n ∉ t.ends (behind prev m'.body) m'.rest) ∧
      t.first (behind prev m₁.body) m₁.rest = some m₂ ∧ m = m₁.append m₂ := by
  rw [first, ends] at h
  generalize r.ends prev s = l at h
  induction l with
  | nil => cases h
  | cons m₁ l ih =>
    rw [List.flatMap_cons] at h
    cases hfirst : t.first (behind prev m₁.body) m₁.rest with
    | none =>
      have hnone := first_eq_none_iff.mp hfirst
      rw [List.eq_nil_iff_forall_not_mem.mpr hnone, List.map_nil, List.nil_append] at h
      obtain ⟨before, m', after, m₂, rfl, hbefore, hm₂, rfl⟩ := ih h
      exact ⟨m₁ :: before, m', after, m₂, rfl, List.forall_mem_cons.mpr ⟨hnone, hbefore⟩, hm₂, rfl⟩
    | some m₂ =>
      refine ⟨[], m₁, l, m₂, rfl, by simp, hfirst, ?_⟩
      rw [List.head?_append, List.head?_map, ← first, hfirst, Option.map_some, Option.some_or] at h
      exact (Option.some.inj h).symm

theorem exists_of_first_seq (h : (seq r t).first prev s = some m) : ∃ m₁ ∈ r.ends prev s,
    ∃ m₂, t.first (behind prev m₁.body) m₁.rest = some m₂ ∧ m = m₁.append m₂ := by
  obtain ⟨before, m₁, after, m₂, hends, -, hm₂, rfl⟩ := first_seq h
  exact ⟨m₁, by simp [hends], m₂, hm₂, rfl⟩

theorem pairwise_ends_many (p : α → Bool) (least : ℕ) (most : Option ℕ) (prev : Option α)
    (s : List α) : ((many p least most).ends prev s).Pairwise
      fun m m' => m'.body.length < m.body.length := by
  rw [ends, List.pairwise_map]
  have hlengths : (lengths p least most s).Pairwise (· > ·) := by
    rw [lengths, List.pairwise_reverse]
    exact List.pairwise_lt_range'
  refine hlengths.imp_of_mem fun {n n'} hn hn' hlt => ?_
  have hle : ∀ k ∈ lengths p least most s, k ≤ s.length := fun k hk =>
    (mem_lengths.mp hk).2.1.trans (List.takeWhile_sublist p).length_le
  dsimp only
  rw [List.length_take_of_le (hle n hn), List.length_take_of_le (hle n' hn')]
  exact hlt

/-- The longer matches of `many` come first. -/
theorem mem_before_of_longer {least : ℕ} {most : Option ℕ} {before after : List (Match α)}
    {m' : Match α} (h : (many p least most).ends prev s = before ++ m :: after)
    (hm' : m' ∈ (many p least most).ends prev s) (hlt : m.body.length < m'.body.length) :
    m' ∈ before := by
  have hpairwise := pairwise_ends_many p least most prev s
  rw [h] at hm' hpairwise
  rcases List.mem_append.mp hm' with hbefore | hlater
  · exact hbefore
  exfalso
  rcases List.mem_cons.mp hlater with rfl | hafter
  · exact lt_irrefl _ hlt
  · have hlt' := (List.pairwise_cons.mp (List.pairwise_append.mp hpairwise).2.1).1 m' hafter
    exact lt_asymm hlt hlt'

/-- `many` without a bound takes all it can. -/
theorem rest_of_first_many {least : ℕ} (h : (many p least none).first prev s = some m) :
    ∀ c ∈ m.rest.head?, p c = false := by
  intro c hc
  obtain ⟨z, hz⟩ := List.head?_eq_some_iff.mp hc
  obtain ⟨after, hafter⟩ := List.head?_eq_some_iff.mp h
  obtain ⟨hbody, hall, hleast, -, -⟩ := mem_ends_many.mp (mem_of_first h)
  rw [← Bool.not_eq_true]
  intro hpc
  have hlonger : (⟨m.body ++ [c], [], z⟩ : Match α) ∈ (many p least none).ends prev s := by
    refine mem_ends_many.mpr ⟨?_, ?_, ?_, by simp, rfl⟩
    · rw [← hbody, hz, List.append_assoc, List.singleton_append]
    · simpa [or_imp, forall_and] using ⟨hall, hpc⟩
    · rw [List.length_append]
      omega
  rw [← List.nil_append (m :: after)] at hafter
  have hmem := mem_before_of_longer hafter hlonger (by simp)
  cases hmem

end Matches

/-! ### Pieces -/

/-- What is left of a text whose matches are replaced. -/
inductive Piece (α : Type)
  | kept (c : α)
  | hit (m : Match α)
  deriving DecidableEq

/-- The pieces of a text, of which so many elements still belong to the last match.  No match of
the empty text is looked for. -/
def pieces (r : Regex α) : ℕ → Option α → List α → List (Piece α)
  | _, _, [] => []
  | n + 1, _, c :: s => r.pieces n (some c) s
  | 0, prev, c :: s =>
    match r.first prev (c :: s) with
    | some m =>
      if m.body = [] then .kept c :: r.pieces 0 (some c) s
      else .hit m :: r.pieces (m.body.length - 1) (some c) s
    | none => .kept c :: r.pieces 0 (some c) s

/-- The text of a piece before its replacement. -/
def Piece.old : Piece α → List α
  | kept c => [c]
  | hit m => m.body

/-- The text of a piece after it. -/
def Piece.new (f : Match α → List α) : Piece α → List α
  | kept c => [c]
  | hit m => f m

/-- `replace` of all matches. -/
def replace (r : Regex α) (f : Match α → List α) (s : List α) : List α :=
  (r.pieces 0 none s).flatMap (Piece.new f)

/-- These are the pieces of a text after `prev`. -/
inductive Cuts (r : Regex α) : Option α → List α → List (Piece α) → Prop
  | nil (prev : Option α) : Cuts r prev [] []
  | kept {prev : Option α} {c : α} {s : List α} {P : List (Piece α)}
    (hnone : ∀ m, r.first prev (c :: s) = some m → m.body = []) (hP : Cuts r (some c) s P) :
    Cuts r prev (c :: s) (.kept c :: P)
  | hit {prev : Option α} {s : List α} {m : Match α} {P : List (Piece α)}
    (hfirst : r.first prev s = some m) (hbody : m.body ≠ [])
    (hP : Cuts r (behind prev m.body) m.rest P) : Cuts r prev s (.hit m :: P)

variable {r : Regex α} {prev : Option α} {s : List α} {P Q : List (Piece α)}

theorem behind_cons (prev : Option α) (c : α) (s : List α) :
    behind prev (c :: s) = behind (some c) s := by
  rw [behind, behind, List.getLast?_cons]
  cases s.getLast? <;> rfl

theorem behind_append (prev : Option α) (s t : List α) :
    behind prev (s ++ t) = behind (behind prev s) t := by
  rw [behind, behind, behind, List.getLast?_append, Option.or_assoc]

theorem pieces_length_append (r : Regex α) (prev : Option α) (b s : List α) :
    r.pieces b.length prev (b ++ s) = r.pieces 0 (behind prev b) s := by
  induction b generalizing prev with
  | nil => rfl
  | cons c b ih => rw [List.length_cons, List.cons_append, pieces, ih, behind_cons]

theorem cuts_pieces (r : Regex α) (prev : Option α) (s : List α) :
    Cuts r prev s (r.pieces 0 prev s) := by
  induction hn : s.length using Nat.strong_induction_on generalizing prev s with
  | _ n ih =>
    cases s with
    | nil => exact .nil prev
    | cons c s =>
      have hkept := ih s.length (by rw [← hn, List.length_cons]; omega) (some c) s rfl
      rw [pieces]
      cases hfirst : r.first prev (c :: s) with
      | none => exact .kept (by simp [hfirst]) hkept
      | some m =>
        dsimp only
        split_ifs with hbody
        · refine .kept (fun m' hm' => ?_) hkept
          rw [hfirst] at hm'
          exact Option.some.inj hm' ▸ hbody
        · refine .hit hfirst hbody ?_
          -- the elements of the match are skipped
          have happend := body_append_rest (mem_of_first hfirst)
          obtain ⟨d, b, hb⟩ := List.exists_cons_of_ne_nil hbody
          rw [hb, List.cons_append, List.cons.injEq] at happend
          obtain ⟨rfl, rfl⟩ := happend
          rw [hb, List.length_cons, Nat.add_sub_cancel, pieces_length_append, behind_cons]
          refine ih m.rest.length ?_ _ _ rfl
          rw [← hn, List.length_cons, List.length_append]
          omega

theorem Cuts.old (h : Cuts r prev s P) : P.flatMap Piece.old = s := by
  induction h with
  | nil => rfl
  | kept _ _ ih => rw [List.flatMap_cons, ih, Piece.old, List.singleton_append]
  | hit hfirst _ _ ih =>
    rw [List.flatMap_cons, ih, Piece.old, body_append_rest (mem_of_first hfirst)]

theorem Cuts.of_hit {m : Match α} (h : Cuts r prev s (.hit m :: P)) :
    r.first prev s = some m ∧ P.flatMap Piece.old = m.rest := by
  cases h with
  | hit hfirst _ hP => exact ⟨hfirst, hP.old⟩

theorem Cuts.exists_first (h : Cuts r prev s P) {m : Match α} (hm : .hit m ∈ P) :
    ∃ prev' s', r.first prev' s' = some m := by
  induction h with
  | nil => cases hm
  | kept _ _ ih => exact ih (by simpa using hm)
  | hit hfirst _ _ ih =>
    rcases List.mem_cons.mp hm with hm | hm
    · cases hm
      exact ⟨_, _, hfirst⟩
    · exact ih hm

/-- The last pieces of a text are those of its end. -/
theorem Cuts.drop (h : Cuts r prev s (P ++ Q)) :
    Cuts r (behind prev (P.flatMap Piece.old)) (Q.flatMap Piece.old) Q := by
  induction P generalizing prev s with
  | nil =>
    have hold := h.old
    rw [List.nil_append] at h hold
    rw [hold]
    exact h
  | cons piece P ih =>
    rw [List.cons_append] at h
    rw [List.flatMap_cons, behind_append]
    cases h with
    | kept _ hP => exact ih hP
    | hit _ _ hP => exact ih hP

/-- A place in a text whose matches have been replaced: between two pieces, or in a replacement. -/
theorem new_eq_append {f : Match α → List α} {a t : List α}
    (h : P.flatMap (Piece.new f) = a ++ t) :
    (∃ P₁ P₂, P = P₁ ++ P₂ ∧ a = P₁.flatMap (Piece.new f) ∧ t = P₂.flatMap (Piece.new f)) ∨
      ∃ P₁ m P₂ x y, P = P₁ ++ .hit m :: P₂ ∧ f m = x ++ y ∧ x ≠ [] ∧ y ≠ [] ∧
        a = P₁.flatMap (Piece.new f) ++ x ∧ t = y ++ P₂.flatMap (Piece.new f) := by
  induction P generalizing a with
  | nil =>
    obtain ⟨rfl, rfl⟩ := List.append_eq_nil_iff.mp h.symm
    exact .inl ⟨[], [], rfl, rfl, rfl⟩
  | cons piece P ih =>
    rw [List.flatMap_cons] at h
    rcases List.append_eq_append_iff.mp h with ⟨a', rfl, hP⟩ | ⟨c', hpiece, rfl⟩
    · rcases ih hP with ⟨P₁, P₂, rfl, rfl, rfl⟩ | ⟨P₁, m, P₂, x, y, rfl, hm, hx, hy, rfl, rfl⟩
      · exact .inl ⟨piece :: P₁, P₂, rfl, rfl, rfl⟩
      · refine .inr ⟨piece :: P₁, m, P₂, x, y, rfl, hm, hx, hy, ?_, rfl⟩
        rw [List.flatMap_cons, List.append_assoc]
    · by_cases ha : a = []
      · subst ha
        rw [List.nil_append] at hpiece
        exact .inl ⟨[], piece :: P, rfl, rfl, by rw [List.flatMap_cons, hpiece]⟩
      by_cases hc : c' = []
      · subst hc
        rw [List.append_nil] at hpiece
        refine .inl ⟨[piece], P, rfl, ?_, List.nil_append _⟩
        rw [← hpiece, List.flatMap_singleton]
      -- one element cannot be cut
      cases piece with
      | kept c =>
        have hlength := congrArg List.length hpiece
        have hapos := List.length_pos_of_ne_nil ha
        have hcpos := List.length_pos_of_ne_nil hc
        rw [List.length_append, Piece.new, List.length_singleton] at hlength
        omega
      | hit m => exact .inr ⟨[], m, P, a, c', rfl, hpiece, ha, hc, rfl, rfl⟩

/-- The elements that are kept before the first match, and the other pieces. -/
theorem exists_kept (P : List (Piece α)) : ∃ (k : List α) (Q : List (Piece α)),
    P = k.map .kept ++ Q ∧ (Q = [] ∨ ∃ m Q', Q = .hit m :: Q') := by
  induction P with
  | nil => exact ⟨[], [], rfl, .inl rfl⟩
  | cons piece P ih =>
    cases piece with
    | kept c =>
      obtain ⟨k, Q, rfl, hQ⟩ := ih
      exact ⟨c :: k, Q, rfl, hQ⟩
    | hit m => exact ⟨[], .hit m :: P, rfl, .inr ⟨m, P, rfl⟩⟩

end Regex
