import OpenFlux.App.Equiv.SafeLog.Patterns

/-!
# What the masks of `SafeLog.kt` leave

The replacements are such that no name and no link begins in one of them or runs into it
(`foreign`), so that every mask keeps what the ones before it have hidden.  An address that would
stand after a replacement would have been a part of what was replaced.
-/

namespace OpenFlux.App.SafeLog

open Kotlin Regex

/-! ### Replacements -/

/-- One of the texts is how the other one begins. -/
def clashes (s t : Text) : Bool := s.isPrefixOf t || t.isPrefixOf s

/-- None of these texts runs into `r` or begins in it. -/
def foreign (l : List Text) (r : Text) : Bool :=
  l.all (fun t => t.tails.all fun y => y.isEmpty || !clashes y r) &&
    r.tails.all fun y => y.isEmpty || l.all fun t => !clashes t y

theorem clashes_iff {s t : Text} : clashes s t = true ↔ Compatible s t := by
  rw [clashes, Bool.or_eq_true, List.isPrefixOf_iff_prefix, List.isPrefixOf_iff_prefix, Compatible]

theorem not_compatible_of_foreign_left {l : List Text} {r t y : Text} (h : foreign l r = true)
    (ht : t ∈ l) (hy : y <:+ t) (hne : y ≠ []) : ¬Compatible y r := by
  rw [foreign, Bool.and_eq_true] at h
  have hall := List.all_eq_true.mp (List.all_eq_true.mp h.1 t ht) y ((List.mem_tails y t).mpr hy)
  rw [← clashes_iff]
  simpa [hne] using hall

theorem not_compatible_of_foreign_right {l : List Text} {r t y : Text} (h : foreign l r = true)
    (ht : t ∈ l) (hy : y <:+ r) (hne : y ≠ []) : ¬Compatible t y := by
  rw [foreign, Bool.and_eq_true] at h
  have hall := List.all_eq_true.mp h.2 y ((List.mem_tails y r).mpr hy)
  rw [← clashes_iff]
  simp only [hne, List.isEmpty_iff, Bool.or_eq_true, false_or, List.all_eq_true] at hall
  simpa using hall t ht

theorem compatible_of_isPrefix {n h r : Text} (hn : n <+: h) (hr : Compatible h r) :
    Compatible n r := by
  rcases hr with hr | hr
  · exact .inl (hn.trans hr)
  · exact List.prefix_or_prefix_of_prefix hn hr

theorem compatible_lowercase {s t : Text} (h : Compatible s t) :
    Compatible (s.map lowercase) (t.map lowercase) :=
  h.imp (fun h => h.map lowercase) fun h => h.map lowercase

/-- Texts whose first characters differ. -/
theorem not_compatible_of_head {p : UInt16 → Bool} {s t : Text} (hs : ∃ u ∈ s.head?, p u = true)
    (ht : ∃ u ∈ t.head?, p u = false) : ¬Compatible s t := by
  obtain ⟨u, hu, hpu⟩ := hs
  obtain ⟨w, hw, hpw⟩ := ht
  obtain ⟨s, rfl⟩ := List.head?_eq_some_iff.mp hu
  obtain ⟨t, rfl⟩ := List.head?_eq_some_iff.mp hw
  have hne : u ≠ w := by
    rintro rfl
    rw [hpu] at hpw
    cases hpw
  rintro (h | h)
  · exact hne (List.cons_prefix_cons.mp h).1
  · exact hne (List.cons_prefix_cons.mp h).1.symm

def isBlankOrSeparator (u : UInt16) : Bool := isBlank u || isSeparator u

section Screens

variable {old r : Text}

theorem screens_link (hr : foreign links (r.map lowercase) = true)
    (hold : ∃ u ∈ old.head?, isBlank u = false) (hnew : ∃ u ∈ r.head?, isBlank u = false) :
    Screens isBlank IsLinkHead old r where
  old_head := hold
  new_head := hnew
  apart k h hh _ hne hcompatible := by
    refine not_compatible_of_foreign_left hr hh (y := h.map lowercase) ?_ (by simpa using hne)
      (compatible_lowercase hcompatible)
    rw [List.map_append]
    exact List.suffix_append _ _
  free x y h hxy _ hy hh hcompatible := by
    refine not_compatible_of_foreign_right hr hh (y := y.map lowercase) ?_ (by simpa using hy)
      (compatible_lowercase hcompatible)
    rw [hxy, List.map_append]
    exact List.suffix_append _ _

/-- How the head of a secret can be cut: in its name, or after it. -/
theorem cut_of_isSecretHead {k h : Text} (hh : IsSecretHead (k ++ h)) (hne : h ≠ []) :
    (∃ n b e t, n = k ++ b ∧ h = b ++ e :: t ∧ n.map lowercase ∈ names ∧ b ≠ [] ∧
      isBlankOrSeparator e = true) ∨ ∃ u ∈ h.head?, isBlankOrSeparator u = true := by
  obtain ⟨n, w, c, w', heq, hn, hw, hc, hw'⟩ := hh
  have hafter : ∀ u ∈ w ++ c :: w', isBlankOrSeparator u = true := by
    simp only [List.forall_mem_append, List.forall_mem_cons, isBlankOrSeparator, hc, Bool.or_true,
      true_and]
    exact ⟨fun u hu => by rw [hw u hu, Bool.true_or], fun u hu => by rw [hw' u hu, Bool.true_or]⟩
  obtain ⟨e, t, het⟩ := List.exists_cons_of_ne_nil
    (List.append_ne_nil_of_right_ne_nil w (List.cons_ne_nil c w'))
  have he : isBlankOrSeparator e = true := hafter e (by rw [het]; exact List.mem_cons_self)
  rcases List.append_eq_append_iff.mp heq with ⟨b, rfl, hb⟩ | ⟨b, rfl, hb⟩
  · by_cases hbne : b = []
    · subst hbne
      rw [List.nil_append, het] at hb
      exact .inr ⟨e, by rw [hb]; rfl, he⟩
    · exact .inl ⟨_, b, e, t, rfl, by rw [hb, het], hn, hbne, he⟩
  · right
    obtain ⟨u, y, rfl⟩ := List.exists_cons_of_ne_nil hne
    exact ⟨u, rfl, hafter u (by simp [hb])⟩

theorem exists_name_of_isSecretHead {h : Text} (hh : IsSecretHead h) :
    ∃ n, n <+: h ∧ n.map lowercase ∈ names := by
  obtain ⟨n, w, c, w', rfl, hn, -⟩ := hh
  exact ⟨n, List.prefix_append _ _, hn⟩

theorem screens_secret (hr : foreign names (r.map lowercase) = true)
    (hold : ∃ u ∈ old.head?, isBlank u = false)
    (hnew : ∃ u ∈ r.head?, isBlankOrSeparator u = false) :
    Screens isBlank IsSecretHead old r where
  old_head := hold
  new_head := by
    obtain ⟨u, hu, hnot⟩ := hnew
    exact ⟨u, hu, (Bool.or_eq_false_iff.mp hnot).1⟩
  apart k h hh _ hne hcompatible := by
    rcases cut_of_isSecretHead hh hne with ⟨n, b, e, t, rfl, rfl, hn, hb, -⟩ | hhead
    · refine not_compatible_of_foreign_left hr hn (y := b.map lowercase) ?_ (by simpa using hb)
        (compatible_lowercase (compatible_of_isPrefix (List.prefix_append _ _) hcompatible))
      rw [List.map_append]
      exact List.suffix_append _ _
    · exact not_compatible_of_head hhead hnew hcompatible
  free x y h hxy _ hy hh hcompatible := by
    obtain ⟨n, hprefix, hn⟩ := exists_name_of_isSecretHead hh
    refine not_compatible_of_foreign_right hr hn (y := y.map lowercase) ?_ (by simpa using hy)
      (compatible_lowercase (compatible_of_isPrefix hprefix hcompatible))
    rw [hxy, List.map_append]
    exact List.suffix_append _ _

/-- No name runs into this replacement so far that a separator could follow, and none begins inside
of it but at its start. -/
def foreignInside (n : Text) : Bool :=
  names.all (fun t => t.tails.tail.all fun b => b.isEmpty ||
      [0x09, 0x0A, 0x0B, 0x0C, 0x0D, 0x20, 0x3D, 0x3A].all fun e =>
        !clashes (b ++ [e]) (n ++ units ": скрыто")) &&
    (n ++ units ": скрыто").tails.tail.all fun y => y.isEmpty || names.all fun t => !clashes t y

theorem foreignInside_names {n : Text} (hn : n ∈ names) : foreignInside n = true := by
  have hall : names.all foreignInside = true := rfl
  exact List.all_eq_true.mp hall n hn

theorem isBlankOrSeparator_iff {u : UInt16} : isBlankOrSeparator u = true ↔
    u ∈ ([0x09, 0x0A, 0x0B, 0x0C, 0x0D, 0x20, 0x3D, 0x3A] : Text) := by
  rw [isBlankOrSeparator, Bool.or_eq_true, isBlank_iff, isSeparator_iff, ← List.mem_append]
  rfl

theorem lowercase_of_isBlankOrSeparator {u : UInt16} (h : isBlankOrSeparator u = true) :
    lowercase u = u :=
  (List.all_iff_forall_prop (p := fun v => lowercase v = v)).mp rfl u (isBlankOrSeparator_iff.mp h)

/-- A name begins with a letter. -/
theorem head_of_mem_names {n : Text} (hn : n.map lowercase ∈ names) :
    ∃ u ∈ n.head?, isBlankOrSeparator u = false := by
  have hletters : ∀ t ∈ names, t.head?.any (fun u => !isBlankOrSeparator u) = true :=
    (List.all_iff_forall_prop
      (p := fun t : Text => t.head?.any (fun u => !isBlankOrSeparator u) = true)).mp rfl
  have hhead := hletters _ hn
  cases n with
  | nil => cases hhead
  | cons u n =>
    refine ⟨u, rfl, ?_⟩
    rw [← Bool.not_eq_true]
    intro hu
    rw [List.map_cons, lowercase_of_isBlankOrSeparator hu, List.head?_cons, Option.any_some,
      Bool.not_eq_true'] at hhead
    rw [hu] at hhead
    cases hhead

theorem mem_tail_tails {k b t : Text} (ht : t = k ++ b) (hk : k ≠ []) : b ∈ t.tails.tail := by
  obtain ⟨c, k, rfl⟩ := List.exists_cons_of_ne_nil hk
  rw [ht, List.cons_append, List.tails_cons, List.tail_cons, List.mem_tails]
  exact List.suffix_append _ _

/-- The replacement of a secret. -/
theorem screens_own {n : Text} (hn : n.map lowercase ∈ names)
    (hold : ∃ u ∈ old.head?, isBlank u = false) :
    Screens isBlank IsSecretHead old (n ++ units ": скрыто") := by
  obtain ⟨u, hu, hnot⟩ := head_of_mem_names hn
  have hfirst : u ∈ (n ++ units ": скрыто").head? := by
    rw [List.head?_append, hu]
    rfl
  have hinside := foreignInside_names hn
  rw [foreignInside, Bool.and_eq_true, List.all_eq_true, List.all_eq_true] at hinside
  have hlower : (n ++ units ": скрыто").map lowercase = n.map lowercase ++ units ": скрыто" := by
    rw [List.map_append]
    rfl
  refine ⟨hold, ⟨u, hfirst, (Bool.or_eq_false_iff.mp hnot).1⟩, ?_, ?_⟩
  · intro k h hh hk hne hcompatible
    rcases cut_of_isSecretHead hh hne with ⟨n', b, e, t, rfl, rfl, hn', hb, he⟩ | hstart
    · have hmap : (k ++ b).map lowercase = k.map lowercase ++ b.map lowercase := List.map_append
      have hmem := mem_tail_tails hmap (by simpa using hk)
      have hall := List.all_eq_true.mp (hinside.1 _ hn') _ hmem
      have hprefix : b ++ [e] <+: b ++ e :: t := ⟨t, by simp⟩
      have hclash := compatible_lowercase (compatible_of_isPrefix hprefix hcompatible)
      rw [hlower, List.map_append, List.map_singleton, lowercase_of_isBlankOrSeparator he,
        ← clashes_iff] at hclash
      simp only [List.isEmpty_iff, List.map_eq_nil_iff, hb, Bool.or_eq_true, false_or,
        List.all_eq_true] at hall
      have hnot := hall e (isBlankOrSeparator_iff.mp he)
      rw [hclash] at hnot
      cases hnot
    · exact not_compatible_of_head hstart ⟨u, hfirst, hnot⟩ hcompatible
  · intro x y h hxy hx hy hh hcompatible
    obtain ⟨n', hprefix, hn'⟩ := exists_name_of_isSecretHead hh
    have hmem : y.map lowercase ∈ (n.map lowercase ++ units ": скрыто").tails.tail := by
      refine mem_tail_tails (k := x.map lowercase) ?_ (by simpa using hx)
      rw [← hlower, hxy, List.map_append]
    have hall := hinside.2 _ hmem
    have hclash := compatible_lowercase (compatible_of_isPrefix hprefix hcompatible)
    rw [← clashes_iff] at hclash
    simp only [List.isEmpty_iff, List.map_eq_nil_iff, hy, Bool.or_eq_true, false_or,
      List.all_eq_true] at hall
    have hnot := hall _ hn'
    rw [hclash] at hnot
    cases hnot

end Screens

/-! ### What is hidden -/

/-- The value of every secret is the word that is shown in its place. -/
def SecretsHidden (t : Text) : Prop :=
  ∀ a s v, t = a ++ s → Opens isBlank IsSecretHead s v → v = hidden

def NoLink (t : Text) : Prop := ∀ a s v, t = a ++ s → ¬Opens isBlank IsLinkHead s v

def NoAddress (t : Text) : Prop := ∀ a s m, t = a ++ s → m ∉ address.ends a.getLast? s

def NoIpv4 (t : Text) : Prop := ∀ a s m, t = a ++ s → m ∉ ipv4.ends a.getLast? s

variable {T : Text} {prev : Option UInt16} {s : Text} {m : Match UInt16}

/-- The replacements of the other three patterns. -/
def replacements : List Text :=
  [units "Hysteria 2: скрыто", units "адрес скрыт", units "IP скрыт"]

theorem foreign_names {r : Text} (hr : r ∈ replacements) :
    foreign names (r.map lowercase) = true := by
  have hall : replacements.all (fun r => foreign names (r.map lowercase)) = true := rfl
  exact List.all_eq_true.mp hall r hr

theorem foreign_links {r : Text} (hr : r ∈ replacements) :
    foreign links (r.map lowercase) = true := by
  have hall : replacements.all (fun r => foreign links (r.map lowercase)) = true := rfl
  exact List.all_eq_true.mp hall r hr

theorem head_of_mem_replacements {r : Text} (hr : r ∈ replacements) :
    ∃ u ∈ r.head?, isBlankOrSeparator u = false := by
  have hall : replacements.all (fun r => r.head?.any fun u => !isBlankOrSeparator u) = true := rfl
  have hhead := List.all_eq_true.mp hall r hr
  obtain ⟨u, hu, hnot⟩ := (Option.any_eq_true _ _).mp hhead
  exact ⟨u, hu, by simpa using hnot⟩

/-- What is replaced begins with no blank, and not as the word does. -/
def Visible (p : Regex UInt16) : Prop := ∀ prev s m, p.first prev s = some m →
  ∃ u ∈ m.body.head?, isBlank u = false ∧ u ∉ hidden

theorem not_mem_hidden_of_isAddress {u : UInt16} (h : isAddress u = true) : u ∉ hidden := by
  intro hmem
  have hall : ∀ v ∈ hidden, isAddress v = false :=
    (List.all_iff_forall_prop (p := fun v => isAddress v = false)).mp rfl
  rw [hall u hmem] at h
  cases h

theorem visible_address : Visible address := by
  intro prev s m hm
  obtain ⟨u, hu, haddress⟩ := head_address (mem_of_first hm)
  exact ⟨u, hu, isBlank_of_isAddress haddress, not_mem_hidden_of_isAddress haddress⟩

theorem visible_ipv4 : Visible ipv4 := by
  intro prev s m hm
  obtain ⟨u, hu, hdigit⟩ := head_numbers (mem_ipv4.mp (mem_of_first hm)).2.1
  have haddress := isAddress_of_isDigit hdigit
  exact ⟨u, hu, isBlank_of_isAddress haddress, not_mem_hidden_of_isAddress haddress⟩

theorem visible_hysteriaUri : Visible hysteriaUri := by
  intro prev s m hm
  obtain ⟨l, v, hbody, hl, -⟩ := opens_of_mem_hysteriaUri (mem_of_first hm)
  have hletter : ∃ t ∈ links, ∃ u ∈ l.head?, lowercase u ∈ t.head? := by
    refine ⟨_, hl, ?_⟩
    cases l with
    | nil => exact absurd (show ([] : Text) ∈ links from hl) (by decide)
    | cons u l => exact ⟨u, rfl, rfl⟩
  obtain ⟨t, ht, u, hu, hut⟩ := hletter
  have hh : lowercase u = 0x68 := by
    have hall : ∀ t ∈ links, t.head? = some 0x68 :=
      (List.all_iff_forall_prop (p := fun t : Text => t.head? = some 0x68)).mp rfl
    exact (Option.some.inj ((hall t ht).symm.trans hut)).symm
  refine ⟨u, by rw [hbody, List.head?_append, hu]; rfl, ?_, ?_⟩
  · rw [← Bool.not_eq_true]
    intro hblank
    rw [lowercase_of_isBlankOrSeparator (by rw [isBlankOrSeparator, hblank]; rfl)] at hh
    subst hh
    cases hblank
  · intro hmem
    have hall : ∀ v ∈ hidden, lowercase v ≠ 0x68 :=
      (List.all_iff_forall_prop (p := fun v => lowercase v ≠ 0x68)).mp rfl
    exact hall u hmem hh

section Kept

variable {p : Regex UInt16} {r : Text}

theorem secretsHidden_replace (hT : SecretsHidden T) (hp : Visible p) (hr : r ∈ replacements) :
    SecretsHidden (replace p (fun _ => r) T) := by
  obtain ⟨w, hw, hwblank⟩ := head_of_mem_replacements hr
  refine opens_replace_of_old hT ?_ ?_ ?_
  · intro prev s m hm
    obtain ⟨u, hu, hblank, -⟩ := hp prev s m hm
    exact screens_secret (foreign_names hr) ⟨u, hu, hblank⟩ ⟨w, hw, hwblank⟩
  · intro _ _ _ _ h hh hcompatible
    obtain ⟨n, hprefix, hn⟩ := exists_name_of_isSecretHead hh
    refine not_compatible_of_foreign_right (foreign_names hr) hn (List.suffix_refl _) ?_
      (compatible_lowercase (compatible_of_isPrefix hprefix hcompatible))
    rintro heq
    rw [List.map_eq_nil_iff] at heq
    rw [heq] at hw
    cases hw
  · rintro prev s m hm d hd v rfl
    obtain ⟨u, hu, -, hhidden⟩ := hp prev s m hm
    rwa [Option.mem_unique hd hu]

theorem noLink_replace (hT : NoLink T) (hp : Visible p) (hr : r ∈ replacements) :
    NoLink (replace p (fun _ => r) T) := by
  obtain ⟨w, hw, hwblank⟩ := head_of_mem_replacements hr
  refine opens_replace_of_old (Q := fun _ => False) hT ?_ ?_ fun _ _ _ _ _ _ _ hv => hv.elim
  · intro prev s m hm
    obtain ⟨u, hu, hblank, -⟩ := hp prev s m hm
    exact screens_link (foreign_links hr) ⟨u, hu, hblank⟩
      ⟨w, hw, (Bool.or_eq_false_iff.mp hwblank).1⟩
  · intro _ _ _ _ h hh hcompatible
    refine not_compatible_of_foreign_right (foreign_links hr) hh (List.suffix_refl _) ?_
      (compatible_lowercase hcompatible)
    rintro heq
    rw [List.map_eq_nil_iff] at heq
    rw [heq] at hw
    cases hw

end Kept

/-! ### The four masks -/

theorem head_of_first_secret (h : secret.first prev s = some m) :
    ∃ u ∈ m.body.head?, isBlankOrSeparator u = false := by
  obtain ⟨n, hd, v, -, -, hbody, hhd, -⟩ := first_secret h
  obtain ⟨n', w, c, w', rfl, hn', -⟩ := hhd
  obtain ⟨u, hu, hnot⟩ := head_of_mem_names hn'
  exact ⟨u, by rw [hbody, List.append_assoc, List.head?_append, hu]; rfl, hnot⟩

/-- A blank that follows a secret stays where it is. -/
theorem head_of_cuts_secret {P : List (Piece UInt16)} (hP : Cuts secret prev s P)
    (hs : ∀ u ∈ s.head?, isBlank u = true) (f : Match UInt16 → Text) :
    ∀ u ∈ (P.flatMap (Piece.new f)).head?, isBlank u = true := by
  cases hP with
  | nil => simp
  | kept _ _ => exact hs
  | hit hm _ _ =>
    obtain ⟨u, hu, hnot⟩ := head_of_first_secret hm
    have hblank := hs u (by rw [← body_append_rest (mem_of_first hm), List.head?_append, hu]; rfl)
    rw [isBlankOrSeparator, hblank] at hnot
    cases hnot

theorem word_of_own {n t v : Text} (hn : n.map lowercase ∈ names)
    (ht : ∀ u ∈ t.head?, isBlank u = true)
    (h : Opens isBlank IsSecretHead (n ++ units ": скрыто" ++ t) v) : v = hidden := by
  have hhead : IsSecretHead (n ++ units ": ") :=
    ⟨n, [], 0x3A, [0x20], rfl, hn, by simp, rfl, List.forall_mem_singleton.mpr rfl⟩
  have hsplit : n ++ units ": скрыто" ++ t = (n ++ units ": ") ++ (hidden ++ t) := by
    rw [List.append_assoc, List.append_assoc]
    rfl
  have hword := word_of_opens h
  rw [hsplit, afterSeparator_head hhead fun u hu => by cases hu; rfl,
    List.takeWhile_append_of_pos (List.all_eq_true.mp rfl)] at hword
  rw [← hword]
  cases t with
  | nil => exact List.append_nil _
  | cons u t =>
    rw [List.takeWhile_cons_of_neg (by simp [ht u rfl])]
    exact List.append_nil _

theorem secretsHidden_replace_secret (raw : Text) :
    SecretsHidden (replace secret (fun m => m.groups.headD [] ++ units ": скрыто") raw) := by
  refine opens_replace_of_first ?_ ?_ ?_
  · intro prev s v hopens
    obtain ⟨m, hm⟩ := exists_first_secret hopens prev
    obtain ⟨u, hu, -⟩ := head_of_first_secret hm
    refine ⟨m, hm, ?_⟩
    rintro hbody
    rw [hbody] at hu
    cases hu
  · intro prev s m hm
    obtain ⟨n, hd, v, hgroups, hn, -⟩ := first_secret hm
    obtain ⟨u, hu, hnot⟩ := head_of_first_secret hm
    rw [hgroups]
    exact screens_own hn ⟨u, hu, (Bool.or_eq_false_iff.mp hnot).1⟩
  · intro prev s m P v hcuts hopens
    cases hcuts with
    | hit hm _ hP =>
      obtain ⟨n, hd, v', hgroups, hn, -, -, -, -, hrest⟩ := first_secret hm
      rw [hgroups, List.headD_cons] at hopens
      exact word_of_own hn (head_of_cuts_secret hP hrest _) hopens

theorem noLink_replace_hysteriaUri (t : Text) :
    NoLink (replace hysteriaUri (fun _ => units "Hysteria 2: скрыто") t) := by
  have hr : units "Hysteria 2: скрыто" ∈ replacements := List.mem_cons_self
  refine opens_replace_of_first (Q := fun _ => False) ?_ ?_ ?_
  · intro prev s v hopens
    obtain ⟨m, hm⟩ := exists_mem_hysteriaUri_iff.mpr ⟨v, hopens⟩
    obtain ⟨m', hm'⟩ := exists_first hm
    obtain ⟨l, v', hbody, -, hv', -⟩ := opens_of_mem_hysteriaUri (mem_of_first hm')
    exact ⟨m', hm', by simp [hbody, hv']⟩
  · intro prev s m hm
    obtain ⟨u, hu, hblank, -⟩ := visible_hysteriaUri prev s m hm
    exact screens_link (foreign_links hr) ⟨u, hu, hblank⟩ ⟨0x48, rfl, rfl⟩
  · rintro prev s m P v - ⟨h, z, heq, hh, -⟩
    exact not_compatible_of_foreign_right (foreign_links hr) hh (List.suffix_refl _) (by decide)
      (compatible_lowercase (compatible_of_append_eq heq.symm))

/-- Where a piece of a text stands: at its beginning, after an element that has stayed, or after a
match. -/
theorem eq_nil_or_concat_piece (P : List (Piece UInt16)) :
    P = [] ∨ (∃ P' c, P = P' ++ [.kept c]) ∨ ∃ P' m, P = P' ++ [.hit m] := by
  rcases List.eq_nil_or_concat' P with rfl | ⟨P', piece, rfl⟩
  · exact .inl rfl
  · cases piece with
    | kept c => exact .inr (.inl ⟨P', c, rfl⟩)
    | hit m => exact .inr (.inr ⟨P', m, rfl⟩)

section Stayed

variable {p : Regex UInt16} {P₁ P₂ : List (Piece UInt16)} {x : Text} {f : Match UInt16 → Text}

/-- The old place of elements that have stayed. -/
theorem old_place (hcuts : Cuts p none T (P₁ ++ (x.map .kept ++ P₂))) :
    T = P₁.flatMap Piece.old ++ (x ++ P₂.flatMap Piece.old) := by
  have hold := hcuts.old
  rw [List.flatMap_append, List.flatMap_append, flatMap_map_kept_old] at hold
  exact hold.symm

/-- Elements that have stayed, but not after a match, are at no match, and the element before them
is the same. -/
theorem stayed_or_after (hcuts : Cuts p none T (P₁ ++ (x.map .kept ++ P₂))) (hx : x ≠ []) :
    ((P₁.flatMap (Piece.new f)).getLast? = (P₁.flatMap Piece.old).getLast? ∧
      ∀ m, p.first (P₁.flatMap Piece.old).getLast? (x ++ P₂.flatMap Piece.old) = some m →
        m.body = []) ∨
    ∃ a m, T = a ++ (m.body ++ (x ++ P₂.flatMap Piece.old)) ∧
      p.first a.getLast? (m.body ++ (x ++ P₂.flatMap Piece.old)) = some m ∧
      m.rest = x ++ P₂.flatMap Piece.old := by
  have hnone : ∀ m, p.first (P₁.flatMap Piece.old).getLast? (x ++ P₂.flatMap Piece.old) = some m →
      m.body = [] := by
    have hdrop := hcuts.drop
    rw [List.flatMap_append, flatMap_map_kept_old, behind, Option.or_none] at hdrop
    obtain ⟨c, x, rfl⟩ := List.exists_cons_of_ne_nil hx
    cases hdrop with
    | kept hnone _ => exact hnone
  rcases eq_nil_or_concat_piece P₁ with rfl | ⟨P, c, rfl⟩ | ⟨P, m, rfl⟩
  · exact .inl ⟨rfl, hnone⟩
  · refine .inl ⟨?_, hnone⟩
    rw [List.flatMap_append, List.flatMap_append]
    exact (List.getLast?_concat ..).trans (List.getLast?_concat ..).symm
  · right
    have hplace := old_place hcuts
    rw [List.flatMap_append, List.flatMap_singleton, Piece.old, List.append_assoc] at hplace
    rw [List.append_assoc, List.singleton_append] at hcuts
    refine ⟨_, m, hplace, ?_⟩
    obtain ⟨hfirst, hrest⟩ := hcuts.drop.of_hit
    rw [behind, Option.or_none, List.flatMap_cons, List.flatMap_append, flatMap_map_kept_old,
      Piece.old] at hfirst
    rw [List.flatMap_append, flatMap_map_kept_old] at hrest
    exact ⟨hfirst, hrest.symm⟩

end Stayed

/-- The characters of addresses are in none of the replacements for them. -/
theorem not_mem_of_isAddress {r x : Text} (hr : r ∈ replacements.tail)
    (hx : ∀ u ∈ x, isAddress u = true) : ∀ u ∈ r, u ∉ x := by
  have hall : replacements.tail.all (fun r => r.all fun u => !isAddress u) = true := rfl
  intro u hu hux
  have hnot := List.all_eq_true.mp (List.all_eq_true.mp hall r hr) u hu
  rw [hx u hux] at hnot
  cases hnot

theorem ne_nil_of_head {x : Text} {P : UInt16 → Prop} (h : ∃ u ∈ x.head?, P u) : x ≠ [] := by
  rintro rfl
  obtain ⟨u, hu, -⟩ := h
  cases hu

/-- The same address stands in the old text. -/
theorem mem_address_append (h : m ∈ address.ends prev s) (prev' : Option UInt16)
    (hprev : prev'.any isAlphanumeric = false) (z : Text) :
    { m with rest := z } ∈ address.ends prev' (m.body ++ z) :=
  mem_address.mpr ⟨hprev, mem_ends_of_plain plain_addressBody (mem_address.mp h).2 prev' z⟩

theorem noAddress_replace_address (t : Text) :
    NoAddress (replace address (fun _ => units "адрес скрыт") t) := by
  intro a s m heq hm
  have hcuts := cuts_pieces address none t
  have hne := ne_nil_of_head (head_address hm)
  rw [← body_append_rest hm] at heq
  obtain ⟨P₁, P₂, hP, rfl, -⟩ := kept_of_append heq hne fun _ _ => ⟨by decide,
    not_mem_of_isAddress (by decide) (isAddress_of_mem_address hm)⟩
  rw [hP] at hcuts
  rcases stayed_or_after hcuts hne with ⟨hlast, hnone⟩ | ⟨b, m', -, hfirst, hrest⟩
  · rw [hlast] at hm
    obtain ⟨m', hm'⟩ := exists_first
      (mem_address_append hm _ (mem_address.mp hm).1 (P₂.flatMap Piece.old))
    exact ne_nil_of_head (head_address (mem_of_first hm')) (hnone m' hm')
  · refine not_address_after hfirst none { m with rest := P₂.flatMap Piece.old } ?_
    rw [hrest]
    exact mem_address_append hm none rfl _

/-- An address that more characters of addresses come before. -/
theorem exists_mem_address_append (h : m ∈ address.ends prev s) {b : Text}
    (hb : ∀ u ∈ b, isAddress u = true) {prev' : Option UInt16}
    (hprev : prev'.any isAlphanumeric = false) : ∃ m', m' ∈ address.ends prev' (b ++ s) := by
  obtain ⟨m₁, h₁, m₂, h₂, -⟩ := mem_ends_chain_cons.mp (mem_address.mp h).2
  obtain ⟨hbody, hall, hlength, -, -⟩ := mem_ends_many.mp h₁
  have hlonger : (⟨b ++ m₁.body, [], m₁.rest⟩ : Match UInt16) ∈
      (many isAddress 3 none).ends prev' (b ++ s) := by
    refine mem_ends_many.mpr ⟨by rw [List.append_assoc, hbody], ?_, ?_, by simp, rfl⟩
    · exact List.forall_mem_append.mpr ⟨hb, hall⟩
    · rw [List.length_append]
      omega
  have hplain := mem_ends_of_plain plain_addressBody.2 h₂ (behind prev' (b ++ m₁.body)) m₂.rest
  rw [body_append_rest h₂] at hplain
  exact ⟨_, mem_address.mpr ⟨hprev, mem_ends_chain_cons.mpr ⟨_, hlonger, _, hplain, rfl⟩⟩⟩

theorem noAddress_replace_ipv4 (hT : NoAddress T) :
    NoAddress (replace ipv4 (fun _ => units "IP скрыт") T) := by
  intro a s m heq hm
  have hcuts := cuts_pieces ipv4 none T
  have hne := ne_nil_of_head (head_address hm)
  rw [← body_append_rest hm] at heq
  obtain ⟨P₁, P₂, hP, rfl, -⟩ := kept_of_append heq hne fun _ _ => ⟨by decide,
    not_mem_of_isAddress (by decide) (isAddress_of_mem_address hm)⟩
  rw [hP] at hcuts
  rcases stayed_or_after hcuts hne with ⟨hlast, -⟩ | ⟨b, m', hplace, hfirst, -⟩
  · rw [hlast] at hm
    exact hT _ _ _ (old_place hcuts) (mem_address_append hm _ (mem_address.mp hm).1 _)
  · obtain ⟨hprev, hnumbers, -⟩ := mem_ipv4.mp (mem_of_first hfirst)
    obtain ⟨m'', hm''⟩ := exists_mem_address_append
      (mem_address_append hm none rfl (P₂.flatMap Piece.old))
      (isAddress_of_mem_numbers hnumbers) hprev
    exact hT _ _ _ hplace hm''

theorem noIpv4_replace_ipv4 (t : Text) :
    NoIpv4 (replace ipv4 (fun _ => units "IP скрыт") t) := by
  intro a s m heq hm
  have hcuts := cuts_pieces ipv4 none t
  obtain ⟨hprev, hnumbers, hahead⟩ := mem_ipv4.mp hm
  have hne := ne_nil_of_head (head_numbers hnumbers)
  rw [← body_append_rest hm] at heq
  obtain ⟨P₁, P₂, hP, rfl, hrest⟩ := kept_of_append heq hne fun _ _ => ⟨by decide,
    not_mem_of_isAddress (by decide) (isAddress_of_mem_numbers hnumbers)⟩
  rw [hP] at hcuts
  rcases stayed_or_after hcuts hne with ⟨hlast, hnone⟩ | ⟨b, m', -, hfirst, hrest'⟩
  · -- what follows is the same, as no replacement does
    have hhead : (P₂.flatMap Piece.old).head? = m.rest.head? := by
      rw [hrest] at hahead ⊢
      cases P₂ with
      | nil => rfl
      | cons piece P₂ =>
        cases piece with
        | kept c => rfl
        | hit m' => cases hahead
    rw [hlast] at hprev
    have hold : { m with rest := P₂.flatMap Piece.old } ∈
        ipv4.ends (P₁.flatMap Piece.old).getLast? (m.body ++ P₂.flatMap Piece.old) :=
      mem_ipv4.mpr ⟨hprev, mem_ends_of_plain plain_numbers hnumbers _ _, hhead ▸ hahead⟩
    obtain ⟨m', hm'⟩ := exists_first hold
    exact ne_nil_of_head (head_numbers (mem_ipv4.mp (mem_of_first hm')).2.1) (hnone m' hm')
  · obtain ⟨u, hu, hdigit⟩ := head_numbers hnumbers
    have hahead' := (mem_ipv4.mp (mem_of_first hfirst)).2.2
    rw [hrest', List.head?_append, hu, Option.some_or, Option.any_some,
      isAlphanumeric_of_isDigit hdigit] at hahead'
    cases hahead'

/-- What the masks hide: no link and no address is left, and the value of every secret is the word
that is shown in its place. -/
theorem mask_hides (raw : Text) : SecretsHidden (mask raw) ∧ NoLink (mask raw) ∧
    NoAddress (mask raw) ∧ NoIpv4 (mask raw) := by
  refine ⟨?_, ?_, ?_, noIpv4_replace_ipv4 _⟩
  · refine secretsHidden_replace ?_ visible_ipv4 (by decide)
    refine secretsHidden_replace ?_ visible_address (by decide)
    refine secretsHidden_replace ?_ visible_hysteriaUri (by decide)
    exact secretsHidden_replace_secret raw
  · refine noLink_replace ?_ visible_ipv4 (by decide)
    refine noLink_replace ?_ visible_address (by decide)
    exact noLink_replace_hysteriaUri _
  · refine noAddress_replace_ipv4 ?_
    exact noAddress_replace_address _

end OpenFlux.App.SafeLog
