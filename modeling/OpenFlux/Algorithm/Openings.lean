import OpenFlux.Algorithm.Regex

/-!
# Texts that open with something, and what replacing does to them

A text opens with a word when an opening and a run of elements that are no blanks come first, and
then a blank or the end.  `cases_of_opens` says where an opening in a text with replaced matches
comes from, if none begins inside of a replacement or runs into it (`Screens`): the place is that of
a replacement, or the old text opens there, too.
-/

namespace Regex

variable {α : Type} {blank : α → Bool} {H : List α → Prop}

/-- The text opens as `H` says, with this word. -/
def Opens (blank : α → Bool) (H : List α → Prop) (s v : List α) : Prop :=
  ∃ h z, s = h ++ (v ++ z) ∧ H h ∧ v ≠ [] ∧ (∀ c ∈ v, blank c = false) ∧
    ∀ c ∈ z.head?, blank c = true

/-- One of the texts is how the other one begins. -/
def Compatible (s t : List α) : Prop := s <+: t ∨ t <+: s

theorem compatible_of_append_eq {h r s t : List α} (heq : h ++ s = r ++ t) : Compatible h r :=
  List.prefix_or_prefix_of_prefix (List.prefix_append h s) (heq ▸ List.prefix_append r t)

theorem head?_dropWhile {p : α → Bool} {s : List α} : ∀ c ∈ (s.dropWhile p).head?, p c = false := by
  intro c hc
  have hnot := List.head?_dropWhile_not p s
  rw [hc] at hnot
  exact hnot

/-- After an opening, what is not blank is a word. -/
theorem opens_of_not_blank {h v s : List α} {d : α} (hh : H h) (hv : ∀ c ∈ v, blank c = false)
    (hd : blank d = false) : ∃ v', Opens blank H (h ++ (v ++ d :: s)) (v ++ d :: v') := by
  refine ⟨s.takeWhile fun c => !blank c, h, s.dropWhile fun c => !blank c, ?_, hh, by simp, ?_, ?_⟩
  · rw [List.append_assoc, List.cons_append, List.takeWhile_append_dropWhile]
  · rw [List.forall_mem_append, List.forall_mem_cons]
    refine ⟨hv, hd, fun c hc => ?_⟩
    simpa using List.mem_takeWhile_imp hc
  · intro c hc
    simpa using head?_dropWhile c hc

/-- No opening is affected by what is matched but by the word in it, and none begins inside of the
replacement. -/
structure Screens (blank : α → Bool) (H : List α → Prop) (old new : List α) : Prop where
  old_head : ∃ c ∈ old.head?, blank c = false
  new_head : ∃ c ∈ new.head?, blank c = false
  apart : ∀ k h, H (k ++ h) → k ≠ [] → h ≠ [] → ¬Compatible h new
  free : ∀ x y h, new = x ++ y → x ≠ [] → y ≠ [] → H h → ¬Compatible h y

/-- The openings of a text after elements that stay are those of the old text, unless the word
meets a replacement. -/
theorem Screens.opens_of_kept {k old new s t v : List α} (hscreens : Screens blank H old new)
    (hk : k ≠ []) (h : Opens blank H (k ++ (new ++ t)) v) :
    ∃ v', Opens blank H (k ++ (old ++ s)) v' ∧ (v' = v ∨ ∃ d ∈ old.head?, d ∈ v') := by
  obtain ⟨d, hd, hdblank⟩ := hscreens.old_head
  obtain ⟨old', rfl⟩ := List.head?_eq_some_iff.mp hd
  obtain ⟨e, he, heblank⟩ := hscreens.new_head
  obtain ⟨new', hnew⟩ := List.head?_eq_some_iff.mp he
  obtain ⟨o, z, heq, ho, hv, hvblank, hz⟩ := h
  -- the new text from the replacement on, when the opening is left of it
  have hleft : ∀ k', k = o ++ k' → v ++ z = k' ++ (new ++ t) →
      ∃ v', Opens blank H (k ++ (d :: old' ++ s)) v' ∧ (v' = v ∨ ∃ d' ∈ (d :: old').head?, d' ∈ v')
      := by
    rintro k' rfl hv'
    rcases List.append_eq_append_iff.mp hv' with ⟨k'', rfl, rfl⟩ | ⟨v'', rfl, -⟩
    · refine ⟨v, ⟨o, k'' ++ (d :: old' ++ s), by simp, ho, hv, hvblank, ?_⟩, .inl rfl⟩
      cases k'' with
      | nil =>
        have hblank := hz e (by simp [hnew])
        rw [heblank] at hblank
        cases hblank
      | cons c k'' => exact hz
    · obtain ⟨v', hopens⟩ := opens_of_not_blank (s := old' ++ s) ho
        (List.forall_mem_append.mp hvblank).1 hdblank
      refine ⟨k' ++ d :: v', ?_, .inr ⟨d, hd, by simp⟩⟩
      simpa using hopens
  rcases List.append_eq_append_iff.mp heq with ⟨h', rfl, hrest⟩ | ⟨k', hk', hrest⟩
  · by_cases hh' : h' = []
    · subst hh'
      exact hleft [] (by simp) (by simpa using hrest.symm)
    · exact (hscreens.apart k h' ho hk hh' (compatible_of_append_eq hrest.symm)).elim
  · exact hleft k' hk' hrest

section Pieces

variable {f : Match α → List α} {P : List (Piece α)} {a t v : List α}

theorem flatMap_map_kept_old (k : List α) : (k.map Piece.kept).flatMap Piece.old = k := by
  rw [List.flatMap_map]
  exact List.flatMap_singleton' k

theorem flatMap_map_kept_new (f : Match α → List α) (k : List α) :
    (k.map Piece.kept).flatMap (Piece.new f) = k := by
  rw [List.flatMap_map]
  exact List.flatMap_singleton' k

/-- Where an opening in a text with replaced matches comes from. -/
theorem cases_of_opens (hscreens : ∀ m, .hit m ∈ P → Screens blank H m.body (f m))
    (ht : P.flatMap (Piece.new f) = a ++ t) (h : Opens blank H t v) :
    (∃ P₁ m P₂, P = P₁ ++ .hit m :: P₂ ∧ t = f m ++ P₂.flatMap (Piece.new f)) ∨
      ∃ P₁ c P₂ v', P = P₁ ++ .kept c :: P₂ ∧
        Opens blank H ((Piece.kept c :: P₂).flatMap Piece.old) v' ∧
        (v' = v ∨ ∃ m, .hit m ∈ P ∧ ∃ d ∈ m.body.head?, d ∈ v') := by
  rcases new_eq_append ht with ⟨P₁, P₂, rfl, -, rfl⟩ | ⟨P₁, m, P₂, x, y, rfl, hm, hx, hy, -, rfl⟩
  · obtain ⟨k, Q, rfl, hQ⟩ := exists_kept P₂
    rcases hQ with rfl | ⟨m, Q, rfl⟩
    · -- nothing is replaced
      rw [List.append_nil, flatMap_map_kept_new] at h
      cases k with
      | nil =>
        obtain ⟨o, z, heq, -, hv, -⟩ := h
        simp [hv] at heq
      | cons c k =>
        refine .inr ⟨P₁, c, k.map .kept, v, by simp, ?_, .inl rfl⟩
        rw [← List.map_cons, flatMap_map_kept_old]
        exact h
    · cases k with
      | nil => exact .inl ⟨P₁, m, Q, rfl, rfl⟩
      | cons c k =>
        have hmem : Piece.hit m ∈ P₁ ++ ((c :: k).map Piece.kept ++ Piece.hit m :: Q) := by simp
        rw [List.flatMap_append, flatMap_map_kept_new, List.flatMap_cons, Piece.new] at h
        obtain ⟨v', hopens, hv'⟩ := (hscreens m hmem).opens_of_kept
          (s := Q.flatMap Piece.old) (List.cons_ne_nil c k) h
        refine .inr ⟨P₁, c, k.map .kept ++ .hit m :: Q, v', by simp, ?_,
          hv'.imp_right fun hd => ⟨m, hmem, hd⟩⟩
        rw [← List.cons_append, ← List.map_cons, List.flatMap_append, flatMap_map_kept_old,
          List.flatMap_cons, Piece.old]
        exact hopens
  · obtain ⟨o, z, heq, ho, -⟩ := h
    exact ((hscreens m (by simp)).free x y o hm hx hy ho (compatible_of_append_eq heq.symm)).elim

section Replace

variable {r : Regex α} {T : List α} {Q : List α → Prop}

/-- What holds of the words of a text still holds of them when the matches of another pattern are
replaced. -/
theorem opens_replace_of_old (hT : ∀ a s v, T = a ++ s → Opens blank H s v → Q v)
    (hscreens : ∀ prev s m, r.first prev s = some m → Screens blank H m.body (f m))
    (hbegin : ∀ prev s m, r.first prev s = some m → ∀ h, H h → ¬Compatible h (f m))
    (hword : ∀ prev s m, r.first prev s = some m → ∀ c ∈ m.body.head?, ∀ v, Q v → c ∉ v) :
    ∀ a s v, replace r f T = a ++ s → Opens blank H s v → Q v := by
  intro a s v heq hopens
  have hcuts := cuts_pieces r none T
  have hhit : ∀ m, .hit m ∈ r.pieces 0 none T → ∃ prev s, r.first prev s = some m :=
    fun m hm => hcuts.exists_first hm
  rcases cases_of_opens (fun m hm => by
    obtain ⟨prev, s', hfirst⟩ := hhit m hm
    exact hscreens prev s' m hfirst) heq hopens with
    ⟨P₁, m, P₂, hP, rfl⟩ | ⟨P₁, c, P₂, v', hP, hopens', hv'⟩
  · obtain ⟨prev, s', hfirst⟩ := hhit m (by rw [hP]; simp)
    obtain ⟨h, z, heq', hh, -⟩ := hopens
    exact (hbegin prev s' m hfirst h hh (compatible_of_append_eq heq'.symm)).elim
  · have hold := hcuts.old
    rw [hP, List.flatMap_append] at hold
    have hQ := hT _ _ v' hold.symm hopens'
    rcases hv' with rfl | ⟨m, hm, d, hd, hdv⟩
    · exact hQ
    · obtain ⟨prev, s', hfirst⟩ := hhit m hm
      exact (hword prev s' m hfirst d hd v' hQ hdv).elim

/-- When the matches of a pattern are replaced that finds all openings, none is left but those at
the replacements. -/
theorem opens_replace_of_first
    (hfirst : ∀ prev s v, Opens blank H s v → ∃ m, r.first prev s = some m ∧ m.body ≠ [])
    (hscreens : ∀ prev s m, r.first prev s = some m → Screens blank H m.body (f m))
    (hat : ∀ prev s m P v, Cuts r prev s (.hit m :: P) →
      Opens blank H (f m ++ P.flatMap (Piece.new f)) v → Q v) :
    ∀ a s v, replace r f T = a ++ s → Opens blank H s v → Q v := by
  intro a s v heq hopens
  have hcuts := cuts_pieces r none T
  rcases cases_of_opens (fun m hm => by
    obtain ⟨prev, s', hfirst'⟩ := hcuts.exists_first hm
    exact hscreens prev s' m hfirst') heq hopens with
    ⟨P₁, m, P₂, hP, rfl⟩ | ⟨P₁, c, P₂, v', hP, hopens', -⟩
  · rw [hP] at hcuts
    exact hat _ _ m P₂ v hcuts.drop hopens
  · rw [hP] at hcuts
    obtain ⟨m, hm, hbody⟩ := hfirst (behind none (P₁.flatMap Piece.old)) _ v' hopens'
    cases hcuts.drop with
    | kept hnone _ => exact (hbody (hnone m hm)).elim

end Replace

/-- Elements that are in no replacement have stayed. -/
theorem kept_of_append {x z : List α} (h : P.flatMap (Piece.new f) = a ++ (x ++ z)) (hx : x ≠ [])
    (hnew : ∀ m, .hit m ∈ P → f m ≠ [] ∧ ∀ c ∈ f m, c ∉ x) :
    ∃ P₁ P₂, P = P₁ ++ (x.map .kept ++ P₂) ∧ a = P₁.flatMap (Piece.new f) ∧
      z = P₂.flatMap (Piece.new f) := by
  have hrun : ∀ (Q : List (Piece α)) (x : List α), Q.flatMap (Piece.new f) = x ++ z →
      (∀ m, .hit m ∈ Q → f m ≠ [] ∧ ∀ c ∈ f m, c ∉ x) →
      ∃ P₂, Q = x.map .kept ++ P₂ ∧ z = P₂.flatMap (Piece.new f) := by
    intro Q x hQ hnew
    induction x generalizing Q with
    | nil => exact ⟨Q, rfl, hQ.symm⟩
    | cons c x ih =>
      cases Q with
      | nil => simp at hQ
      | cons piece Q =>
        rw [List.flatMap_cons] at hQ
        cases piece with
        | kept d =>
          obtain ⟨rfl, htail⟩ := List.cons.inj hQ
          obtain ⟨P₂, rfl, hz⟩ := ih Q htail fun m hm => by
            obtain ⟨hne, hnot⟩ := hnew m (List.mem_cons_of_mem _ hm)
            exact ⟨hne, fun c hc hcx => hnot c hc (List.mem_cons_of_mem _ hcx)⟩
          exact ⟨P₂, rfl, hz⟩
        | hit m =>
          obtain ⟨hne, hnot⟩ := hnew m (by simp)
          obtain ⟨d, y, hd⟩ := List.exists_cons_of_ne_nil hne
          rw [Piece.new, hd] at hQ
          obtain ⟨rfl, -⟩ := List.cons.inj hQ
          exact (hnot d (by simp [hd]) (by simp)).elim
  rcases new_eq_append h with ⟨P₁, P₂, rfl, ha, hP₂⟩ | ⟨P₁, m, P₂, y, y', rfl, hm, -, hy', -, hP₂⟩
  · obtain ⟨P₂, rfl, hz⟩ := hrun P₂ x hP₂.symm fun m hm => hnew m (by simp [hm])
    exact ⟨P₁, P₂, rfl, ha, hz⟩
  · obtain ⟨c, x, rfl⟩ := List.exists_cons_of_ne_nil hx
    obtain ⟨d, y', rfl⟩ := List.exists_cons_of_ne_nil hy'
    obtain ⟨rfl, -⟩ := List.cons.inj hP₂
    exact ((hnew m (by simp)).2 c (by simp [hm]) (by simp)).elim

end Pieces

end Regex
