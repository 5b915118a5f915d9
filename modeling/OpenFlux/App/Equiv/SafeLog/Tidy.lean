import OpenFlux.App.Equiv.SafeLog.Masks

/-!
# What the clean-up of `SafeLog.kt` keeps hidden

Collapsing blanks and trimming show nothing that is hidden.  Deleting tags does exactly if one of
the patterns is in what is left and right of a tag together (`Split`, `clean_deleteTags_iff`), and
cutting a clean line exactly if a part of a secret's replacement or of a number stays
(`Shortens`, `clean_iff_not_shortens`).
-/

namespace OpenFlux.App.SafeLog

open Kotlin Regex

variable {prev prev' : Option UInt16} {s t e : Text} {m : Match UInt16}

/-! ### Patterns that are shown -/

/-- The value of a secret that is found. -/
def value (m : Match UInt16) : Text := afterSeparator m.body

/-- One of the patterns matches here, but not with the word that is shown in place of a secret. -/
inductive Shows (prev : Option UInt16) (s : Text) : Prop
  | ofAddress {m : Match UInt16} (h : m ∈ address.ends prev s)
  | ofIpv4 {m : Match UInt16} (h : m ∈ ipv4.ends prev s)
  | ofLink {m : Match UInt16} (h : m ∈ hysteriaUri.ends prev s)
  | ofSecret {m : Match UInt16} (h : secret.first prev s = some m) (hvalue : value m ≠ hidden)

/-- No pattern is shown anywhere. -/
def Clean (t : Text) : Prop := ∀ a s, t = a ++ s → ¬Shows a.getLast? s

theorem head_value_of_first_secret (h : secret.first prev s = some m) :
    ∃ hd, s = hd ++ (value m ++ m.rest) ∧ IsSecretHead hd ∧ value m ≠ [] ∧
      (∀ u ∈ value m, isBlank u = false) ∧ ∀ u ∈ m.rest.head?, isBlank u = true := by
  obtain ⟨n, hd, v, -, -, hbody, hhd, hv, hblank, hrest⟩ := first_secret h
  have hvalue : value m = v := by
    rw [value, hbody]
    exact afterSeparator_head hhd fun u hu => hblank u (List.mem_of_mem_head? hu)
  have happend := body_append_rest (mem_of_first h)
  rw [hbody, List.append_assoc] at happend
  rw [hvalue]
  exact ⟨hd, happend.symm, hhd, hv, hblank, hrest⟩

theorem opens_of_first_secret (h : secret.first prev s = some m) :
    Opens isBlank IsSecretHead s (value m) := by
  obtain ⟨hd, heq, hhd, hv, hblank, hrest⟩ := head_value_of_first_secret h
  exact ⟨hd, m.rest, heq, hhd, hv, hblank, hrest⟩

theorem shows_of_opens_secret {v : Text} (h : Opens isBlank IsSecretHead s v) (hv : v ≠ hidden)
    (prev : Option UInt16) : Shows prev s := by
  obtain ⟨m, hm⟩ := exists_first_secret h prev
  refine .ofSecret hm ?_
  rwa [← word_of_opens (opens_of_first_secret hm), word_of_opens h]

theorem shows_of_opens_link {v : Text} (h : Opens isBlank IsLinkHead s v)
    (prev : Option UInt16) : Shows prev s := by
  obtain ⟨m, hm⟩ := exists_mem_hysteriaUri_iff.mpr ⟨v, h⟩
  exact .ofLink hm

theorem clean_iff :
    Clean t ↔ SecretsHidden t ∧ NoLink t ∧ NoAddress t ∧ NoIpv4 t := by
  constructor
  · intro h
    refine ⟨fun a s v heq hv => ?_, fun a s v heq hv => h a s heq (shows_of_opens_link hv _),
      fun a s m heq hm => h a s heq (.ofAddress hm), fun a s m heq hm => h a s heq (.ofIpv4 hm)⟩
    by_contra hne
    exact h a s heq (shows_of_opens_secret hv hne _)
  · rintro ⟨hsecret, hlink, haddress, hipv4⟩ a s heq hshows
    cases hshows with
    | ofAddress hm => exact haddress a s _ heq hm
    | ofIpv4 hm => exact hipv4 a s _ heq hm
    | ofLink hm =>
      obtain ⟨v, hv⟩ := exists_mem_hysteriaUri_iff.mp ⟨_, hm⟩
      exact hlink a s v heq hv
    | ofSecret hm hvalue => exact hvalue (hsecret a s _ heq (opens_of_first_secret hm))

theorem not_shows_nil (prev : Option UInt16) : ¬Shows prev [] := by
  intro h
  cases h with
  | ofAddress hm =>
    exact ne_nil_of_head (head_address hm) (List.append_eq_nil_iff.mp (body_append_rest hm)).1
  | ofIpv4 hm =>
    exact ne_nil_of_head (head_numbers (mem_ipv4.mp hm).2.1)
      (List.append_eq_nil_iff.mp (body_append_rest hm)).1
  | ofLink hm =>
    obtain ⟨v, h, z, heq, -, hv, -⟩ := exists_mem_hysteriaUri_iff.mp ⟨_, hm⟩
    exact hv (by simp_all)
  | ofSecret hm _ =>
    exact ne_nil_of_head (head_of_first_secret hm)
      (List.append_eq_nil_iff.mp (body_append_rest (mem_of_first hm))).1

/-- Behind anything that is neither letter nor digit, the same patterns are shown. -/
theorem Shows.of_behind (h : Shows prev s)
    (hprev : prev' = prev ∨ prev'.any isAlphanumeric = false) : Shows prev' s := by
  rcases hprev with rfl | hprev
  · exact h
  cases h with
  | @ofAddress m hm =>
    have happend := mem_address_append hm prev' hprev m.rest
    rw [body_append_rest hm] at happend
    exact .ofAddress happend
  | @ofIpv4 m hm =>
    obtain ⟨-, hnumbers, hahead⟩ := mem_ipv4.mp hm
    have happend := mem_ends_of_plain plain_numbers hnumbers prev' m.rest
    rw [body_append_rest hm] at happend
    exact .ofIpv4 (mem_ipv4.mpr ⟨hprev, happend, hahead⟩)
  | ofLink hm =>
    obtain ⟨v, hv⟩ := exists_mem_hysteriaUri_iff.mp ⟨_, hm⟩
    exact shows_of_opens_link hv prev'
  | ofSecret hm hvalue => exact shows_of_opens_secret (opens_of_first_secret hm) hvalue prev'

/-! ### Cutting -/

/-- What is shown only because the text ends here: an IPv4 address that a letter or a digit
follows, or a part of the word that is shown in place of a secret. -/
inductive CutShort (prev : Option UInt16) (s e : Text) : Prop
  | ofIpv4 {m : Match UInt16} (h : m ∈ ipv4.ends prev s) (hrest : m.rest = [])
    (he : e.head?.any isAlphanumeric = true)
  | ofSecret {m : Match UInt16} (h : secret.first prev s = some m) (hrest : m.rest = [])
    (hvalue : value m ≠ hidden) (he : value m ++ e.takeWhile (!isBlank ·) = hidden)

/-- The text ends with something that `e` after it would hide. -/
def Shortens (t e : Text) : Prop := ∃ a s, t = a ++ s ∧ CutShort a.getLast? s e

theorem plain_hysteriaUri : hysteriaUri.Plain := by
  have hliteral : ∀ t, (Regex.literal lowercase t).Plain := by
    intro t
    induction t with
    | nil => exact trivial
    | cons b t ih => exact ⟨trivial, ih⟩
  exact ⟨hliteral _, ⟨hliteral _, trivial⟩, hliteral _, trivial, trivial⟩

/-- What is shown stays when a text goes on, unless it was cut short. -/
theorem Shows.append (h : Shows prev s) (e : Text) : Shows prev (s ++ e) ∨ CutShort prev s e := by
  cases h with
  | @ofAddress m hm =>
    have happend := mem_address_append hm prev (mem_address.mp hm).1 (m.rest ++ e)
    rw [← List.append_assoc, body_append_rest hm] at happend
    exact .inl (.ofAddress happend)
  | @ofIpv4 m hm =>
    obtain ⟨hprev, hnumbers, hahead⟩ := mem_ipv4.mp hm
    by_cases hcut : m.rest = [] ∧ e.head?.any isAlphanumeric = true
    · exact .inr (.ofIpv4 hm hcut.1 hcut.2)
    left
    have happend := mem_ends_of_plain plain_numbers hnumbers prev (m.rest ++ e)
    rw [← List.append_assoc, body_append_rest hm] at happend
    refine .ofIpv4 (mem_ipv4.mpr ⟨hprev, happend, ?_⟩)
    rw [List.head?_append]
    cases hrest : m.rest with
    | nil => simpa [hrest] using hcut
    | cons u z => simpa [hrest] using hahead
  | @ofLink m hm =>
    have happend := mem_ends_of_plain plain_hysteriaUri hm prev (m.rest ++ e)
    rw [← List.append_assoc, body_append_rest hm] at happend
    exact .inl (.ofLink happend)
  | @ofSecret m hm hvalue =>
    obtain ⟨hd, heq, hhd, hv, hblank, hz⟩ := head_value_of_first_secret hm
    by_cases hrest : m.rest = []
    · rw [hrest, List.append_nil] at heq
      have hopens : Opens isBlank IsSecretHead (s ++ e) (value m ++ e.takeWhile (!isBlank ·)) := by
        refine ⟨hd, e.dropWhile (!isBlank ·), ?_, hhd, by simp [hv], ?_, ?_⟩
        · rw [heq, List.append_assoc, List.append_assoc, List.takeWhile_append_dropWhile]
        · refine List.forall_mem_append.mpr ⟨hblank, fun u hu => ?_⟩
          simpa using List.mem_takeWhile_imp hu
        · intro u hu
          simpa using head?_dropWhile u hu
      by_cases hcut : value m ++ e.takeWhile (!isBlank ·) = hidden
      · exact .inr (.ofSecret hm hrest hvalue hcut)
      · exact .inl (shows_of_opens_secret hopens hcut prev)
    · obtain ⟨u, z, hu⟩ := List.exists_cons_of_ne_nil hrest
      rw [hu] at heq hz
      exact .inl (shows_of_opens_secret ⟨hd, u :: z ++ e, by simp [heq], hhd, hv, hblank, hz⟩ hvalue
        prev)

/-- A part of a clean text is clean, unless it is cut short. -/
theorem Clean.middle {a : Text} (h : Clean (a ++ (t ++ e)))
    (ha : a.getLast?.any isAlphanumeric = false) (he : ¬Shortens t e) : Clean t := by
  rintro b s rfl hshows
  rcases hshows.append e with hshows | hcut
  · refine h (a ++ b) (s ++ e) (by simp) (hshows.of_behind ?_)
    cases hb : b.getLast? with
    | none =>
      right
      rwa [List.getLast?_append, hb, Option.none_or]
    | some u =>
      left
      rw [List.getLast?_append, hb, Option.some_or]
  · exact he ⟨b, s, rfl, hcut⟩

/-- A text that is cut stays clean exactly if nothing is cut short. -/
theorem clean_iff_not_shortens (h : Clean (t ++ e)) : Clean t ↔ ¬Shortens t e := by
  refine ⟨?_, Clean.middle (a := []) h rfl⟩
  rintro ht ⟨a, s, rfl, hcut⟩
  refine ht a s rfl ?_
  cases hcut with
  | ofIpv4 hm _ _ => exact .ofIpv4 hm
  | ofSecret hm _ hvalue _ => exact .ofSecret hm hvalue

theorem not_mem_of_isWhitespace {u : UInt16} (h : Utf16.isWhitespace u = true) :
    isAlphanumeric u = false ∧ u ∉ hidden := by
  simp only [Utf16.isWhitespace, decide_eq_true_iff] at h
  exact (List.all_iff_forall_prop
    (p := fun u => isAlphanumeric u = false ∧ u ∉ hidden)).mp rfl u h

theorem any_getLast? {p : UInt16 → Bool} {a : Text} (h : ∀ u ∈ a, p u = false) :
    a.getLast?.any p = false := by
  rw [← Bool.not_eq_true, Option.any_eq_true]
  rintro ⟨u, hu, hp⟩
  rw [h u (List.mem_of_getLast? hu)] at hp
  cases hp

/-- White space after a text hides nothing of it. -/
theorem not_shortens_of_isWhitespace (t : Text) (he : ∀ u ∈ e, Utf16.isWhitespace u = true) :
    ¬Shortens t e := by
  rintro ⟨a, s, rfl, hcut⟩
  cases hcut with
  | ofIpv4 _ _ hhead =>
    obtain ⟨u, hu, halphanumeric⟩ := (Option.any_eq_true _ _).mp hhead
    rw [(not_mem_of_isWhitespace (he u (List.mem_of_mem_head? hu))).1] at halphanumeric
    cases halphanumeric
  | @ofSecret m _ _ hvalue hword =>
    cases hrun : e.takeWhile (!isBlank ·) with
    | nil =>
      rw [hrun, List.append_nil] at hword
      exact hvalue hword
    | cons u r =>
      have hu : u ∈ e.takeWhile (!isBlank ·) := by rw [hrun]; exact List.mem_cons_self
      refine (not_mem_of_isWhitespace (he u ((List.takeWhile_prefix _).subset hu))).2 ?_
      rw [← hword]
      exact List.mem_append_right _ hu

theorem Clean.trim (h : Clean t) : Clean (Utf16.trim t) := by
  obtain ⟨a, e, heq, ha, he⟩ : ∃ a e, t = a ++ (Utf16.trim t ++ e) ∧
      (∀ u ∈ a, Utf16.isWhitespace u = true) ∧ ∀ u ∈ e, Utf16.isWhitespace u = true := by
    refine ⟨t.takeWhile Utf16.isWhitespace, (t.dropWhile Utf16.isWhitespace).rtakeWhile
      Utf16.isWhitespace, ?_, fun u => List.mem_takeWhile_imp, fun u => List.mem_rtakeWhile_imp⟩
    rw [Utf16.trim, Strip.strip, List.rdropWhile_append_rtakeWhile, List.takeWhile_append_dropWhile]
  rw [heq] at h
  refine h.middle ?_ (not_shortens_of_isWhitespace _ he)
  exact any_getLast? fun u hu => (not_mem_of_isWhitespace (ha u hu)).1

/-! ### Tags -/

/-- The text that is left of these pieces when tags are deleted. -/
def deleteTags (P : List (Piece UInt16)) : Text := P.flatMap (Piece.new fun _ => [])

/-- One of the patterns begins in the first text, and only the second one completes it. -/
def Split (t e : Text) : Prop :=
  ∃ a k, t = a ++ k ∧ k ≠ [] ∧ Shows a.getLast? (k ++ e) ∧ ¬Shows a.getLast? k

theorem brackets_of_mem_tag (h : m ∈ tag.ends prev s) :
    m.body.head? = some 0x5B ∧ m.body.getLast? = some 0x5D := by
  obtain ⟨m₁, h₁, k₁, hk₁, rfl⟩ := mem_ends_chain_cons.mp h
  obtain ⟨m₂, h₂, k₂, hk₂, rfl⟩ := mem_ends_chain_cons.mp hk₁
  obtain ⟨m₃, h₃, m₄, hm₄, rfl⟩ := mem_ends_chain_cons.mp hk₂
  rw [ends_chain_singleton] at hm₄
  obtain ⟨c, -, hc, hbody, -⟩ := mem_ends_one.mp h₁
  obtain ⟨d, -, hd, hbody', -⟩ := mem_ends_one.mp hm₄
  obtain rfl := beq_iff_eq.mp hc
  obtain rfl := beq_iff_eq.mp hd
  rw [Match.append, Match.append, Match.append, hbody, hbody']
  refine ⟨rfl, ?_⟩
  rw [← List.append_assoc, ← List.append_assoc]
  exact List.getLast?_concat ..

/-- A tag cuts nothing short. -/
theorem not_cutShort_of_bracket {e' : Text} : ¬CutShort prev s (0x5B :: e') := by
  intro h
  cases h with
  | ofIpv4 _ _ he => cases he
  | ofSecret _ _ _ he =>
    have hmem : (0x5B : UInt16) ∈ hidden := by
      rw [← he, List.takeWhile_cons_of_pos rfl]
      exact List.mem_append_right _ List.mem_cons_self
    exact absurd hmem (by decide)

/-- What is left of a text with tags, from an element on. -/
theorem exists_kept_of_deleteTags {P : List (Piece UInt16)} {a : Text} {c : UInt16}
    (h : deleteTags P = a ++ c :: s) : ∃ P₁ P₂, P = P₁ ++ .kept c :: P₂ ∧ a = deleteTags P₁ ∧
      s = deleteTags P₂ := by
  induction P generalizing a with
  | nil => simp [deleteTags] at h
  | cons piece P ih =>
    rw [deleteTags, List.flatMap_cons, ← deleteTags] at h
    cases piece with
    | hit m =>
      obtain ⟨P₁, P₂, rfl, rfl, rfl⟩ := ih h
      exact ⟨.hit m :: P₁, P₂, rfl, rfl, rfl⟩
    | kept d =>
      cases a with
      | nil =>
        obtain ⟨rfl, rfl⟩ := List.cons.inj h
        exact ⟨[], P, rfl, rfl, rfl⟩
      | cons b a =>
        obtain ⟨rfl, htail⟩ := List.cons.inj h
        obtain ⟨P₁, P₂, rfl, rfl, rfl⟩ := ih htail
        exact ⟨.kept d :: P₁, P₂, rfl, rfl, rfl⟩

/-- Deleting the tags of a clean text shows something exactly if they split it. -/
theorem clean_deleteTags_iff (h : Clean t) : Clean (deleteTags (tag.pieces 0 none t)) ↔
    ∀ P₁ m P₂, tag.pieces 0 none t = P₁ ++ .hit m :: P₂ →
      ¬Split (deleteTags P₁) (deleteTags P₂) := by
  constructor
  · rintro hclean P₁ m P₂ hP ⟨a, k, hak, -, hshows, -⟩
    refine hclean a (k ++ deleteTags P₂) ?_ hshows
    rw [hP, deleteTags, List.flatMap_append, List.flatMap_cons, ← deleteTags, ← deleteTags, hak,
      List.append_assoc]
    rfl
  · intro hsplit a s heq hshows
    have hcuts := cuts_pieces tag none t
    cases s with
    | nil => exact not_shows_nil _ hshows
    | cons c s =>
      obtain ⟨P₁, P₂, hP, rfl, rfl⟩ := exists_kept_of_deleteTags heq
      obtain ⟨k, Q, rfl, hQ⟩ := exists_kept P₂
      have hkept : tag.pieces 0 none t = P₁ ++ ((c :: k).map .kept ++ Q) := by simpa using hP
      rw [hkept] at hcuts
      -- what is before the place in the old text
      have hbehind : (P₁.flatMap Piece.old).getLast? = (deleteTags P₁).getLast? ∨
          (P₁.flatMap Piece.old).getLast?.any isAlphanumeric = false := by
        rcases eq_nil_or_concat_piece P₁ with rfl | ⟨P, d, rfl⟩ | ⟨P, m, rfl⟩
        · exact .inl rfl
        · left
          rw [deleteTags, List.flatMap_append, List.flatMap_append]
          exact (List.getLast?_concat ..).trans (List.getLast?_concat ..).symm
        · right
          obtain ⟨prev', s', hm⟩ := (cuts_pieces tag none t).exists_first
            (m := m) (by rw [hkept]; simp)
          rw [List.flatMap_append, List.flatMap_singleton, Piece.old, List.getLast?_append,
            (brackets_of_mem_tag (mem_of_first hm)).2]
          rfl
      have hplace := old_place hcuts
      have hnew : c :: deleteTags (k.map .kept ++ Q) = c :: k ++ deleteTags Q := by
        rw [deleteTags, List.flatMap_append, flatMap_map_kept_new, List.cons_append, ← deleteTags]
      rw [hnew] at hshows
      rcases hQ with rfl | ⟨m, Q, rfl⟩
      · refine h _ _ hplace (Shows.of_behind ?_ hbehind)
        simpa [deleteTags] using hshows
      · by_cases hk : Shows (deleteTags P₁).getLast? (c :: k)
        · obtain ⟨prev', s', hm⟩ := (cuts_pieces tag none t).exists_first
            (m := m) (by rw [hkept]; simp)
          obtain ⟨b, hb⟩ := List.head?_eq_some_iff.mp (brackets_of_mem_tag (mem_of_first hm)).1
          rw [List.flatMap_cons, Piece.old, hb, List.cons_append] at hplace
          refine h _ _ hplace (Shows.of_behind ?_ hbehind)
          exact (hk.append _).resolve_right not_cutShort_of_bracket
        · refine hsplit (P₁ ++ (c :: k).map .kept) m Q (by rw [hkept, List.append_assoc])
            ⟨deleteTags P₁, c :: k, ?_, List.cons_ne_nil c k, hshows, hk⟩
          rw [deleteTags, List.flatMap_append, flatMap_map_kept_new, ← deleteTags]

/-! ### Blanks -/

/-- The text of pieces whose runs of blanks are collapsed. -/
def collapse (P : List (Piece UInt16)) : Text := P.flatMap (Piece.new fun _ => units " ")

/-- All matches in these pieces are runs of blanks. -/
def BlankHits (P : List (Piece UInt16)) : Prop :=
  ∀ m, .hit m ∈ P → m.body ≠ [] ∧ ∀ u ∈ m.body, isBlank u = true

variable {P : List (Piece UInt16)} {x v : Text}

theorem blankHits_of_append {P₁ P₂ : List (Piece UInt16)} (h : BlankHits (P₁ ++ P₂)) :
    BlankHits P₁ ∧ BlankHits P₂ :=
  ⟨fun m hm => h m (List.mem_append_left _ hm), fun m hm => h m (List.mem_append_right _ hm)⟩

/-- No place is inside of a blank. -/
theorem exists_append_of_collapse {a : Text} (h : collapse P = a ++ s) :
    ∃ P₁ P₂, P = P₁ ++ P₂ ∧ a = collapse P₁ ∧ s = collapse P₂ := by
  rcases new_eq_append h with ⟨P₁, P₂, rfl, rfl, rfl⟩ | ⟨_, _, _, x, y, -, hxy, hx, hy, -, -⟩
  · exact ⟨P₁, P₂, rfl, rfl, rfl⟩
  · have hlength := congrArg List.length hxy
    have hxpos := List.length_pos_of_ne_nil hx
    have hypos := List.length_pos_of_ne_nil hy
    rw [List.length_append, show (units " ").length = 1 from rfl] at hlength
    omega

/-- Where no blank is, nothing has been collapsed. -/
theorem old_of_collapse (h : ∀ u ∈ collapse P, isBlank u = false) :
    P.flatMap Piece.old = collapse P := by
  induction P with
  | nil => rfl
  | cons piece P ih =>
    rw [collapse, List.flatMap_cons, List.forall_mem_append, ← collapse] at h
    cases piece with
    | kept c =>
      rw [collapse, List.flatMap_cons, List.flatMap_cons, ih h.2]
      rfl
    | hit m =>
      have hblank := h.1 0x20 (List.mem_singleton_self _)
      cases hblank

theorem isBlank_old_of_collapse (hP : BlankHits P) (h : ∀ u ∈ collapse P, isBlank u = true) :
    ∀ u ∈ P.flatMap Piece.old, isBlank u = true := by
  induction P with
  | nil => simp
  | cons piece P ih =>
    rw [collapse, List.flatMap_cons, List.forall_mem_append, ← collapse] at h
    rw [List.flatMap_cons, List.forall_mem_append]
    refine ⟨?_, ih (fun m hm => hP m (List.mem_cons_of_mem _ hm)) h.2⟩
    cases piece with
    | kept c => exact h.1
    | hit m => exact (hP m List.mem_cons_self).2

/-- What is next in the old text: the same, or a blank instead of a blank. -/
theorem head_old_of_collapse (hP : BlankHits P) :
    (P.flatMap Piece.old).head? = (collapse P).head? ∨
      ∃ u ∈ (P.flatMap Piece.old).head?, isBlank u = true := by
  cases P with
  | nil => exact .inl rfl
  | cons piece P =>
    cases piece with
    | kept c => exact .inl rfl
    | hit m =>
      right
      obtain ⟨hne, hblank⟩ := hP m List.mem_cons_self
      obtain ⟨u, b, hb⟩ := List.exists_cons_of_ne_nil hne
      rw [hb] at hblank
      exact ⟨u, by rw [List.flatMap_cons, Piece.old, hb]; rfl, hblank u List.mem_cons_self⟩

/-- The heads that are the same in the old text, up to blanks. -/
theorem opens_old_of_collapse {H : Text → Prop} (hP : BlankHits P)
    (hH : ∀ P', BlankHits P' → H (collapse P') → H (P'.flatMap Piece.old))
    (h : Opens isBlank H (collapse P) v) : Opens isBlank H (P.flatMap Piece.old) v := by
  obtain ⟨hd, z, heq, hhd, hv, hblank, hz⟩ := h
  obtain ⟨P₁, P', rfl, rfl, hP'⟩ := exists_append_of_collapse heq
  obtain ⟨P₂, P₃, rfl, rfl, rfl⟩ := exists_append_of_collapse hP'.symm
  obtain ⟨hP₁, hP₂₃⟩ := blankHits_of_append hP
  refine ⟨P₁.flatMap Piece.old, P₃.flatMap Piece.old, ?_, hH P₁ hP₁ hhd, hv, hblank, ?_⟩
  · rw [List.flatMap_append, List.flatMap_append, old_of_collapse hblank]
  · rcases head_old_of_collapse (blankHits_of_append hP₂₃).2 with hsame | ⟨u, hu, hublank⟩
    · rw [hsame]
      exact hz
    · intro w hw
      rwa [Option.mem_unique hw hu]

/-- A text that is one of these up to case has no blanks if they have none. -/
theorem not_isBlank_of_map {l : List Text} (hl : l.all (fun t => t.all fun u => !isBlank u) = true)
    {n : Text} (hn : n.map lowercase ∈ l) : ∀ u ∈ n, isBlank u = false := by
  intro u hu
  have hlower := List.all_eq_true.mp (List.all_eq_true.mp hl _ hn) _ (List.mem_map_of_mem hu)
  rw [← Bool.not_eq_true]
  intro hblank
  rw [lowercase_of_isBlankOrSeparator (by rw [isBlankOrSeparator, hblank]; rfl), hblank] at hlower
  cases hlower

theorem isLinkHead_old {P : List (Piece UInt16)} (h : IsLinkHead (collapse P)) :
    IsLinkHead (P.flatMap Piece.old) := by
  rwa [old_of_collapse (not_isBlank_of_map rfl h)]

theorem isSecretHead_old (hP : BlankHits P) (h : IsSecretHead (collapse P)) :
    IsSecretHead (P.flatMap Piece.old) := by
  obtain ⟨n, w, c, w', heq, hn, hw, hc, hw'⟩ := h
  obtain ⟨P₁, P', rfl, rfl, hP'⟩ := exists_append_of_collapse heq
  obtain ⟨P₂, P₃', rfl, rfl, hP₃'⟩ := exists_append_of_collapse hP'.symm
  rw [← List.singleton_append] at hP₃'
  obtain ⟨P₃, P₄, rfl, hP₃, rfl⟩ := exists_append_of_collapse hP₃'.symm
  obtain ⟨-, hP'⟩ := blankHits_of_append hP
  obtain ⟨hP₂, hP'⟩ := blankHits_of_append hP'
  obtain ⟨-, hP₄⟩ := blankHits_of_append hP'
  have hseparator : P₃.flatMap Piece.old = [c] := by
    rw [hP₃]
    refine old_of_collapse ?_
    rw [← hP₃, List.forall_mem_singleton]
    exact isBlank_of_isSeparator hc
  refine ⟨_, P₂.flatMap Piece.old, c, P₄.flatMap Piece.old, ?_, hn,
    isBlank_old_of_collapse hP₂ hw, hc, isBlank_old_of_collapse hP₄ hw'⟩
  rw [List.flatMap_append, List.flatMap_append, List.flatMap_append, hseparator,
    old_of_collapse (not_isBlank_of_map rfl hn), List.singleton_append]

/-- A blank is no part of an address and no letter. -/
theorem not_isAddress_of_isBlank {u : UInt16} (h : isBlank u = true) :
    isAddress u = false ∧ isAlphanumeric u = false :=
  (List.all_iff_forall_prop (p := fun v => isAddress v = false ∧ isAlphanumeric v = false)).mp rfl u
    (isBlank_iff.mp h)

theorem any_getLast?_old (hP : BlankHits P) (h : (collapse P).getLast?.any isAlphanumeric = false) :
    (P.flatMap Piece.old).getLast?.any isAlphanumeric = false := by
  rcases eq_nil_or_concat_piece P with rfl | ⟨P, c, rfl⟩ | ⟨P, m, rfl⟩
  · rfl
  · rw [collapse, List.flatMap_append] at h
    rw [List.flatMap_append, List.flatMap_singleton, Piece.old, List.getLast?_concat]
    rwa [List.flatMap_singleton, Piece.new, List.getLast?_concat] at h
  · obtain ⟨hne, hblank⟩ := hP m (by simp)
    obtain ⟨u, hu⟩ := Option.ne_none_iff_exists'.mp (mt List.getLast?_eq_none_iff.mp hne)
    rw [List.flatMap_append, List.flatMap_singleton, Piece.old, List.getLast?_append, hu]
    exact (not_isAddress_of_isBlank (hblank u (List.mem_of_getLast? hu))).2

/-- Collapsing blanks shows nothing. -/
theorem Clean.collapse (h : Clean t) : Clean (replace space (fun _ => units " ") t) := by
  have hcuts := cuts_pieces space none t
  have hP : BlankHits (space.pieces 0 none t) := by
    intro m hm
    obtain ⟨prev, s, hfirst⟩ := hcuts.exists_first hm
    obtain ⟨-, hblank, hlength, -⟩ := mem_ends_many.mp (mem_of_first hfirst)
    exact ⟨List.ne_nil_of_length_pos hlength, hblank⟩
  have hold := hcuts.old
  rw [clean_iff] at h ⊢
  obtain ⟨hsecret, hlink, haddress, hipv4⟩ := h
  have hstay : ∀ x : Text, (∀ u ∈ x, isAddress u = true) → ∀ m : Match UInt16,
      .hit m ∈ space.pieces 0 none t → units " " ≠ [] ∧ ∀ u ∈ units " ", u ∉ x := by
    refine fun x hx m _ => ⟨by decide, fun u hu hux => ?_⟩
    rw [List.mem_singleton.mp hu] at hux
    cases hx _ hux
  refine ⟨?_, ?_, ?_, ?_⟩
  · intro a s v heq hopens
    obtain ⟨P₁, P₂, hsplit, rfl, rfl⟩ := exists_append_of_collapse heq
    rw [hsplit] at hP hold
    rw [List.flatMap_append] at hold
    exact hsecret _ _ v hold.symm
      (opens_old_of_collapse (blankHits_of_append hP).2 (fun _ => isSecretHead_old) hopens)
  · intro a s v heq hopens
    obtain ⟨P₁, P₂, hsplit, rfl, rfl⟩ := exists_append_of_collapse heq
    rw [hsplit] at hP hold
    rw [List.flatMap_append] at hold
    exact hlink _ _ v hold.symm
      (opens_old_of_collapse (blankHits_of_append hP).2 (fun _ _ => isLinkHead_old) hopens)
  · intro a s m heq hm
    rw [← body_append_rest hm] at heq
    obtain ⟨P₁, P₂, hsplit, rfl, -⟩ := kept_of_append heq (ne_nil_of_head (head_address hm))
      (hstay _ (isAddress_of_mem_address hm))
    rw [hsplit] at hP hcuts
    have hprev := any_getLast?_old (blankHits_of_append hP).1 (mem_address.mp hm).1
    exact haddress _ _ _ (old_place hcuts) (mem_address_append hm _ hprev _)
  · intro a s m heq hm
    obtain ⟨hprev, hnumbers, hahead⟩ := mem_ipv4.mp hm
    rw [← body_append_rest hm] at heq
    obtain ⟨P₁, P₂, hsplit, rfl, hrest⟩ := kept_of_append heq
      (ne_nil_of_head (head_numbers hnumbers)) (hstay _ (isAddress_of_mem_numbers hnumbers))
    rw [hsplit] at hP hcuts
    have hP₂ := (blankHits_of_append (blankHits_of_append hP).2).2
    have hold := any_getLast?_old (blankHits_of_append hP).1 hprev
    refine hipv4 _ _ { m with rest := P₂.flatMap Piece.old } (old_place hcuts) (mem_ipv4.mpr
      ⟨hold, mem_ends_of_plain plain_numbers hnumbers _ _, ?_⟩)
    rcases head_old_of_collapse hP₂ with hsame | ⟨u, hu, hblank⟩
    · rw [hsame]
      rwa [hrest] at hahead
    · rw [hu]
      exact (not_isAddress_of_isBlank hblank).2

end OpenFlux.App.SafeLog
