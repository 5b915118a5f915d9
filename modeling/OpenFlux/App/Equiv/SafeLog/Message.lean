import OpenFlux.App.Equiv.SafeLog.Tidy

/-!
# What `SafeLog.message` shows

The masks leave nothing to hide (`clean_mask`), and the texts of `message` itself have nothing to
hide.  So a pattern can only be shown again where tags have been deleted, or at the end of a line
that has been cut (`KeepsApart`).
-/

namespace OpenFlux.App.SafeLog

open Kotlin Regex

/-! ### Texts of its own -/

/-- No colon, no equals sign, and no digit if there is a dot. -/
def bare (t : Text) : Bool :=
  t.all (fun u => !isSeparator u) && (t.all (fun u => !isDigit u) || t.all fun u => u != 0x2E)

/-- A colon has no case. -/
theorem colon_of_lowercase {u : UInt16} (h : lowercase u = 0x3A) : u = 0x3A := by
  rw [lowercase] at h
  split_ifs at h with hcase
  · exfalso
    simp only [Bool.and_eq_true, decide_eq_true_iff, UInt16.le_iff_toNat_le,
      UInt16.reduceToNat] at hcase
    have hsum := congrArg UInt16.toNat h
    simp only [UInt16.toNat_add, UInt16.reduceToNat] at hsum
    omega
  · exact h

theorem clean_of_bare {t : Text} (ht : bare t = true) : Clean t := by
  rw [bare, Bool.and_eq_true, Bool.or_eq_true, List.all_eq_true, List.all_eq_true,
    List.all_eq_true] at ht
  obtain ⟨hseparator, hnumber⟩ := ht
  have hno : ∀ u ∈ t, isSeparator u = true → False := fun u hu hsep => by
    simpa [hsep] using hseparator u hu
  rintro a s rfl hshows
  cases hshows with
  | @ofAddress m hm =>
    obtain ⟨m₁, -, k₁, hk₁, rfl⟩ := mem_ends_chain_cons.mp (mem_address.mp hm).2
    obtain ⟨m₂, h₂, m₃, -, rfl⟩ := mem_ends_chain_cons.mp hk₁
    obtain ⟨c, -, hc, hbody, -⟩ := mem_ends_one.mp h₂
    refine hno c ?_ (by rw [beq_iff_eq.mp hc]; rfl)
    rw [← body_append_rest hm, Match.append, Match.append, hbody]
    simp
  | @ofIpv4 m hm =>
    obtain ⟨-, hnumbers, -⟩ := mem_ipv4.mp hm
    obtain ⟨u, hu, hdigit⟩ := head_numbers hnumbers
    have hmem : ∀ w ∈ m.body, w ∈ a ++ s := fun w hw => by
      rw [← body_append_rest hm]
      simp [hw]
    obtain ⟨m₁, -, k₁, hk₁, heq⟩ := mem_ends_chain_cons.mp hnumbers
    obtain ⟨m₂, h₂, k₂, -, rfl⟩ := mem_ends_chain_cons.mp hk₁
    obtain ⟨c, -, hc, hbody, -⟩ := mem_ends_one.mp h₂
    rcases hnumber with hdigits | hdots
    · simpa [hdigit] using hdigits u (hmem u (List.mem_of_mem_head? hu))
    · have hc' := hdots c (hmem c (by rw [heq, Match.append, Match.append, hbody]; simp))
      rw [beq_iff_eq.mp hc] at hc'
      cases hc'
  | @ofLink m hm =>
    obtain ⟨v, l, z, rfl, hl, -⟩ := exists_mem_hysteriaUri_iff.mp ⟨m, hm⟩
    have hcolon : (0x3A : UInt16) ∈ l.map lowercase := by
      have hall : links.all (fun t => t.contains 0x3A) = true := rfl
      exact List.contains_iff_mem.mp (List.all_eq_true.mp hall _ hl)
    obtain ⟨u, hu, hlower⟩ := List.mem_map.mp hcolon
    refine hno u (by simp [hu]) ?_
    rw [colon_of_lowercase hlower]
    rfl
  | @ofSecret m hm _ =>
    obtain ⟨v, z, heq, ⟨n, w, c, w', rfl, -, -, hc, -⟩, -⟩ := opens_of_first_secret hm
    exact hno c (by simp [heq]) hc

/-- The text of a reply that is not the line has nothing to hide. -/
def Reply.bare : Reply → Bool
  | .text t => SafeLog.bare (units t)
  | .line _ blank => blank.all fun t => SafeLog.bare (units t)

theorem bare_ite {c : Prop} [Decidable c] {r r' : Reply} (hr : r.bare = true)
    (hr' : r'.bare = true) : (if c then r else r').bare = true := by
  split
  · exact hr
  · exact hr'

theorem units_ofList (l : List Char) :
    units (String.ofList l) = l.flatMap fun c => codeUnits c.toNat := by
  rw [units, String.toList_ofList]

theorem bare_text {l : List Char} (h : SafeLog.bare (l.flatMap fun c => codeUnits c.toNat) = true) :
    (Reply.text (String.ofList l)).bare = true := by
  rwa [Reply.bare, units_ofList]

theorem bare_line {limit : ℕ} {l : List Char}
    (h : SafeLog.bare (l.flatMap fun c => codeUnits c.toNat) = true) :
    (Reply.line limit (some (String.ofList l))).bare = true := by
  rwa [Reply.bare, Option.all_some, units_ofList]

theorem bare_reply (lower : Text) : (reply lower).bare = true := by
  unfold reply
  dsimp only
  refine bare_ite (bare_text rfl) ?_
  refine bare_ite rfl ?_
  refine bare_ite rfl ?_
  repeat refine bare_ite (bare_text rfl) ?_
  exact bare_line rfl

/-! ### The line -/

/-- After the four masks no pattern is left in a line, but with the word that is shown in place of
a secret. -/
theorem clean_mask (raw : Text) : Clean (mask raw) := clean_iff.mpr (mask_hides raw)

/-- No deleted tag splits a pattern, and nothing is cut short at the end of what is shown. -/
def KeepsApart (lower : Text → Text) (raw : Text) : Prop :=
  ∀ limit blank, reply (lower raw) = .line limit blank →
    (∀ P₁ m P₂, tag.pieces 0 none (mask raw) = P₁ ++ .hit m :: P₂ →
      ¬Split (deleteTags P₁) (deleteTags P₂)) ∧
    ¬Shortens ((sanitize raw).take limit) ((sanitize raw).drop limit)

theorem clean_sanitize {raw : Text}
    (h : ∀ P₁ m P₂, tag.pieces 0 none (mask raw) = P₁ ++ .hit m :: P₂ →
      ¬Split (deleteTags P₁) (deleteTags P₂)) : Clean (sanitize raw) := by
  have hdelete := (clean_deleteTags_iff (clean_iff.mpr (mask_hides raw))).mpr h
  exact hdelete.collapse.trim

/-- What `message` shows is clean if no deleted tag splits a pattern and nothing is cut short. -/
theorem clean_message (lower : Text → Text) (raw : Text) (h : KeepsApart lower raw) :
    Clean (message lower raw) := by
  have hbare := bare_reply (lower raw)
  have hline : ∀ limit blank, reply (lower raw) = .line limit blank →
      Clean ((sanitize raw).take limit) := by
    intro limit blank hreply
    obtain ⟨hsplit, hshortens⟩ := h limit blank hreply
    refine (clean_iff_not_shortens ?_).mpr hshortens
    rw [List.take_append_drop]
    exact clean_sanitize hsplit
  rw [message]
  cases hreply : reply (lower raw) with
  | text t =>
    rw [hreply] at hbare
    exact clean_of_bare hbare
  | line limit blank =>
    cases blank with
    | none => exact hline limit none hreply
    | some t =>
      rw [hreply] at hbare
      dsimp only
      split
      · exact clean_of_bare (by simpa [Reply.bare] using hbare)
      · exact hline limit _ hreply

/-- A line with a tag before it. -/
def taggedLine : Text := units "[x] hy2: key=1"

theorem keepsApart_taggedLine : KeepsApart id taggedLine := by
  have hpieces : tag.pieces 0 none (mask taggedLine) =
      .hit ⟨units "[x]", [], units " hy2: key: скрыто"⟩ ::
        (units " hy2: key: скрыто").map .kept := by
    decide +kernel
  have hreply : reply taggedLine = .line 360 none := by decide +kernel
  have hdrop : (sanitize taggedLine).drop 360 = [] := by decide +kernel
  intro limit blank hlimit
  rw [id, hreply] at hlimit
  cases hlimit
  constructor
  · rintro P₁ m P₂ hP ⟨a, k, heq, hk, -⟩
    rw [hpieces] at hP
    cases P₁ with
    | nil => exact hk (List.append_eq_nil_iff.mp heq.symm).2
    | cons piece P₁ =>
      have hmem : Piece.hit m ∈ (units " hy2: key: скрыто").map Piece.kept := by
        rw [(List.cons.inj hP).2]
        exact List.mem_append_right _ List.mem_cons_self
      obtain ⟨u, -, hu⟩ := List.mem_map.mp hmem
      cases hu
  · rw [hdrop]
    exact not_shortens_of_isWhitespace _ (by simp)

theorem clean_message_taggedLine :
    message id taggedLine = units "hy2: key: скрыто" ∧ Clean (message id taggedLine) :=
  ⟨by decide +kernel, clean_message id taggedLine keepsApart_taggedLine⟩

/-- A tag inside of an address. -/
theorem not_clean_message_joined : ¬ ∀ lower raw, Clean (message lower raw) := by
  intro h
  have hmessage : message (fun s => s.map lowercase) (units "hy2: 1.2.[x]3.4") =
      units "hy2: " ++ units "1.2.3.4" := by decide +kernel
  have hfirst : ipv4.first (units "hy2: ").getLast? (units "1.2.3.4") =
      some ⟨units "1.2.3.4", [], []⟩ := by decide +kernel
  exact h _ _ _ _ hmessage (.ofIpv4 (mem_of_first hfirst))

end OpenFlux.App.SafeLog
