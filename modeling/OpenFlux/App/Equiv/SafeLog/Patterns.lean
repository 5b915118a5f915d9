import Mathlib.Data.Bool.AllAny
import OpenFlux.Algorithm.Openings
import OpenFlux.App.SafeLog

/-!
# What the patterns of `SafeLog.kt` match

Addresses are runs of certain characters.  A link and a secret are openings with a word; `secret`
takes it to its end (`first_secret`), and the opening determines the word (`word_of_opens`).
-/

namespace OpenFlux.App.SafeLog

open Kotlin Regex

variable {prev : Option UInt16} {s : Text} {m : Match UInt16}

/-! ### Classes -/

theorem isAlphanumeric_of_isDigit {u : UInt16} (h : isDigit u = true) :
    isAlphanumeric u = true := by
  rw [isAlphanumeric, h, Bool.or_true]

theorem isAddress_of_isDigit {u : UInt16} (h : isDigit u = true) : isAddress u = true := by
  simp [isAddress, h]

theorem isBlank_iff {u : UInt16} :
    isBlank u = true ↔ u ∈ ([0x09, 0x0A, 0x0B, 0x0C, 0x0D, 0x20] : Text) := by
  rw [isBlank, decide_eq_true_iff]

theorem isSeparator_iff {u : UInt16} : isSeparator u = true ↔ u ∈ ([0x3D, 0x3A] : Text) := by
  simp [isSeparator]

theorem isBlank_of_isAddress {u : UInt16} (h : isAddress u = true) : isBlank u = false := by
  rw [← Bool.not_eq_true, isBlank_iff]
  intro hmem
  rw [(List.all_iff_forall_prop (p := fun v => isAddress v = false)).mp rfl u hmem] at h
  cases h

theorem isSeparator_of_isBlank {u : UInt16} (h : isBlank u = true) : isSeparator u = false :=
  (List.all_iff_forall_prop (p := fun v => isSeparator v = false)).mp rfl u (isBlank_iff.mp h)

theorem isBlank_of_isSeparator {u : UInt16} (h : isSeparator u = true) : isBlank u = false :=
  (List.all_iff_forall_prop (p := fun v => isBlank v = false)).mp rfl u (isSeparator_iff.mp h)

/-! ### Addresses -/

/-- The part of `address` after the look behind it. -/
def addressBody : Regex UInt16 :=
  chain [many isAddress 3 none, one (· == 0x3A), many isDigit 1 (some 5)]

theorem mem_address : m ∈ address.ends prev s ↔
    prev.any isAlphanumeric = false ∧ m ∈ addressBody.ends prev s := by
  rw [address, chain, ends_seq_notBehind, ← addressBody]
  split_ifs with h <;> simp [h]

theorem plain_addressBody : addressBody.Plain := by simp [addressBody, chain, Plain]

theorem isAddress_of_mem_address (h : m ∈ address.ends prev s) :
    ∀ u ∈ m.body, isAddress u = true := by
  refine forall_mem_body ?_ (mem_address.mp h).2
  refine ⟨fun c hc => hc, fun c hc => ?_, fun c hc => isAddress_of_isDigit hc, trivial⟩
  rw [beq_iff_eq.mp hc]
  rfl

theorem head_address (h : m ∈ address.ends prev s) : ∃ u ∈ m.body.head?, isAddress u = true := by
  have hall := isAddress_of_mem_address h
  obtain ⟨m₁, h₁, m₂, -, rfl⟩ := mem_ends_chain_cons.mp (mem_address.mp h).2
  obtain ⟨-, -, hlength, -⟩ := mem_ends_many.mp h₁
  obtain ⟨u, body, hbody⟩ := List.exists_cons_of_length_pos (l := m₁.body) (by omega)
  rw [Match.append, hbody] at hall ⊢
  exact ⟨u, rfl, hall u (by simp)⟩

/-- No address begins where one has ended: it would have been taken for a part of the first. -/
theorem not_address_after (h : address.first prev s = some m) (prev' : Option UInt16)
    (n : Match UInt16) : n ∉ address.ends prev' m.rest := by
  intro hn
  obtain ⟨n₁, hn₁, n₂, hn₂, -⟩ := mem_ends_chain_cons.mp (mem_address.mp hn).2
  have hfirst : addressBody.first prev s = some m := by
    rw [first, address, chain, ends_seq_notBehind, ← addressBody] at h
    split_ifs at h
    · cases h
    · exact h
  obtain ⟨before, m₁, after, m₂, hends, hbefore, hm₂, rfl⟩ := first_seq hfirst
  have hm₁ : m₁ ∈ (many isAddress 3 none).ends prev s := by rw [hends]; simp
  obtain ⟨happend, hall, hlength, -, -⟩ := mem_ends_many.mp hm₁
  obtain ⟨happend', hall', hlength', -, -⟩ := mem_ends_many.mp hn₁
  have hmiddle := isAddress_of_mem_address (mem_address.mpr
    ⟨(mem_address.mp (mem_of_first h)).1, mem_of_first hfirst⟩)
  -- all characters of both together
  have hlonger : (⟨m₁.body ++ (m₂.body ++ n₁.body), [], n₁.rest⟩ : Match UInt16) ∈
      (many isAddress 3 none).ends prev s := by
    refine mem_ends_many.mpr ⟨?_, ?_, ?_, by simp, rfl⟩
    · rw [List.append_assoc, List.append_assoc, happend', ← happend]
      exact congrArg _ (body_append_rest (mem_of_first hm₂))
    · simp only [List.forall_mem_append]
      exact ⟨hall, (List.forall_mem_append.mp hmiddle).2, hall'⟩
    · rw [List.length_append]
      omega
  refine hbefore _ (mem_before_of_longer hends hlonger ?_) { n₂ with rest := n₂.rest } ?_
  · simp only [List.length_append]
    omega
  · have hplain := mem_ends_of_plain plain_addressBody.2 hn₂
      (behind prev (m₁.body ++ (m₂.body ++ n₁.body))) n₂.rest
    rw [body_append_rest hn₂] at hplain
    exact hplain

/-! ### IPv4 addresses -/

theorem mem_ipv4 : m ∈ ipv4.ends prev s ↔ prev.any isAlphanumeric = false ∧
    m ∈ numbers.ends prev s ∧ m.rest.head?.any isAlphanumeric = false := by
  rw [ipv4, chain, ends_seq_notBehind]
  split_ifs with h
  · simp [h]
  · simp only [mem_ends_chain_cons, mem_ends_chain_nil, mem_ends_notAhead, h, true_and]
    constructor
    · rintro ⟨m₁, h₁, m₂, ⟨m₃, ⟨hahead, rfl⟩, m₄, rfl, rfl⟩, rfl⟩
      simpa [Match.append] using ⟨h₁, hahead⟩
    · rintro ⟨h₁, hahead⟩
      exact ⟨m, h₁, _, ⟨_, ⟨hahead, rfl⟩, _, rfl, rfl⟩, by simp [Match.append]⟩

theorem plain_numbers : numbers.Plain := by simp [numbers, number, chain, Plain]

theorem isAddress_of_mem_numbers (h : m ∈ numbers.ends prev s) :
    ∀ u ∈ m.body, isAddress u = true := by
  refine forall_mem_body ?_ h
  have hdot : ∀ c : UInt16, (c == 0x2E) = true → isAddress c = true := fun c hc => by
    rw [beq_iff_eq.mp hc]
    rfl
  simp only [numbers, number, chain, Over, and_true]
  exact ⟨fun c => isAddress_of_isDigit, hdot, fun c => isAddress_of_isDigit, hdot,
    fun c => isAddress_of_isDigit, hdot, fun c => isAddress_of_isDigit⟩

theorem head_numbers (h : m ∈ numbers.ends prev s) : ∃ u ∈ m.body.head?, isDigit u = true := by
  obtain ⟨m₁, h₁, m₂, -, rfl⟩ := mem_ends_chain_cons.mp h
  obtain ⟨-, hall, hlength, -⟩ := mem_ends_many.mp h₁
  obtain ⟨u, body, hbody⟩ := List.exists_cons_of_length_pos (l := m₁.body) (by omega)
  rw [hbody] at hall
  exact ⟨u, by simp [Match.append, hbody], hall u (by simp)⟩

/-! ### Links -/

/-- What a link begins with, in small letters. -/
def links : List Text := [units "hysteria2://", units "hysteria2+realm://"]

def IsLinkHead (h : Text) : Prop := h.map lowercase ∈ links

theorem mem_ends_word {t : String} : m ∈ (word t).ends prev s ↔
    m.body.map lowercase = units t ∧ m.body ++ m.rest = s ∧ m.groups = [] :=
  mem_ends_literal

theorem opens_of_mem_hysteriaUri (h : m ∈ hysteriaUri.ends prev s) :
    ∃ l v, m.body = l ++ v ∧ IsLinkHead l ∧ v ≠ [] ∧ ∀ u ∈ v, isBlank u = false := by
  obtain ⟨m₁, h₁, k₁, hk₁, rfl⟩ := mem_ends_chain_cons.mp h
  obtain ⟨m₂, h₂, k₂, hk₂, rfl⟩ := mem_ends_chain_cons.mp hk₁
  obtain ⟨m₃, h₃, k₃, hk₃, rfl⟩ := mem_ends_chain_cons.mp hk₂
  obtain ⟨m₄, h₄, k₄, hk₄, rfl⟩ := mem_ends_chain_cons.mp hk₃
  obtain rfl := mem_ends_chain_nil.mp hk₄
  obtain ⟨hm₁, -, -⟩ := mem_ends_word.mp h₁
  obtain ⟨hm₃, -, -⟩ := mem_ends_word.mp h₃
  obtain ⟨-, hall, hlength, -⟩ := mem_ends_many.mp h₄
  refine ⟨m₁.body ++ (m₂.body ++ m₃.body), m₄.body, by simp [Match.append], ?_, ?_, ?_⟩
  · rw [IsLinkHead, List.map_append, List.map_append, hm₁, hm₃]
    rcases mem_ends_alt.mp h₂ with h₂ | h₂
    · rw [(mem_ends_word.mp h₂).1]
      decide
    · obtain rfl := List.mem_singleton.mp h₂
      show units "hysteria2" ++ ([] ++ units "://") ∈ links
      decide
  · exact List.ne_nil_of_length_pos hlength
  · simpa using hall

theorem exists_mem_nonblanks {v z : Text} (hv : v ≠ []) (hblank : ∀ u ∈ v, isBlank u = false)
    (prev : Option UInt16) : ∃ m, m ∈ (chain [nonblanks]).ends prev (v ++ z) := by
  rw [ends_chain_singleton]
  exact ⟨⟨v, [], z⟩, mem_ends_many.mpr ⟨rfl, by simpa using hblank, List.length_pos_of_ne_nil hv,
    by simp, rfl⟩⟩

theorem exists_mem_hysteriaUri {l v z : Text} (hl : IsLinkHead l) (hv : v ≠ [])
    (hblank : ∀ u ∈ v, isBlank u = false) (prev : Option UInt16) :
    ∃ m, m ∈ hysteriaUri.ends prev (l ++ (v ++ z)) := by
  -- the three parts, the second of which may be empty
  have hparts : ∀ a b c : Text, a.map lowercase = units "hysteria2" →
      (b = [] ∨ b.map lowercase = units "+realm") → c.map lowercase = units "://" →
      ∃ m, m ∈ hysteriaUri.ends prev (a ++ (b ++ (c ++ (v ++ z)))) := by
    intro a b c ha hb hc
    refine exists_mem_chain_cons ⟨[], mem_ends_word.mpr ⟨ha, rfl, rfl⟩⟩ ?_
    refine exists_mem_chain_cons ⟨[], mem_ends_alt.mpr ?_⟩ ?_
    · rcases hb with rfl | hb
      · exact .inr (List.mem_singleton_self _)
      · exact .inl (mem_ends_word.mpr ⟨hb, rfl, rfl⟩)
    · refine exists_mem_chain_cons ⟨[], mem_ends_word.mpr ⟨hc, rfl, rfl⟩⟩ ?_
      exact exists_mem_nonblanks hv hblank _
  rw [IsLinkHead, links, List.mem_pair] at hl
  rcases hl with hl | hl
  · have hsplit : units "hysteria2://" = units "hysteria2" ++ units "://" := rfl
    obtain ⟨a, c, rfl, ha, hc⟩ := List.map_eq_append_iff.mp (hl.trans hsplit)
    rw [List.append_assoc]
    exact hparts a [] c ha (.inl rfl) hc
  · have hsplit : units "hysteria2+realm://" =
        units "hysteria2" ++ (units "+realm" ++ units "://") := rfl
    obtain ⟨a, c, rfl, ha, hc⟩ := List.map_eq_append_iff.mp (hl.trans hsplit)
    obtain ⟨b, c, rfl, hb, hc⟩ := List.map_eq_append_iff.mp hc
    rw [List.append_assoc, List.append_assoc]
    exact hparts a b c ha (.inr hb) hc

/-- `hysteriaUri` matches where a text opens with a link. -/
theorem exists_mem_hysteriaUri_iff :
    (∃ m, m ∈ hysteriaUri.ends prev s) ↔ ∃ v, Opens isBlank IsLinkHead s v := by
  constructor
  · rintro ⟨m, hm⟩
    obtain ⟨l, v, hbody, hl, hv, hblank⟩ := opens_of_mem_hysteriaUri hm
    have happend := body_append_rest hm
    obtain ⟨u, v, rfl⟩ := List.exists_cons_of_ne_nil hv
    obtain ⟨hu, hblank⟩ := List.forall_mem_cons.mp hblank
    rw [hbody, List.append_assoc, List.cons_append] at happend
    obtain ⟨v', hopens⟩ := opens_of_not_blank (v := []) (s := v ++ m.rest) hl (by simp) hu
    rw [List.nil_append, List.nil_append, happend] at hopens
    exact ⟨_, hopens⟩
  · rintro ⟨v, l, z, rfl, hl, hv, hblank, -⟩
    exact exists_mem_hysteriaUri hl hv hblank prev

/-! ### Secrets -/

/-- What is shown in place of a secret. -/
def hidden : Text := units "скрыто"

def names : List Text := [units "password", units "token", units "secret", units "key", units "url"]

/-- A name, a separator, and blanks after both. -/
def IsSecretHead (h : Text) : Prop :=
  ∃ n w c w', h = n ++ (w ++ c :: w') ∧ n.map lowercase ∈ names ∧ (∀ u ∈ w, isBlank u = true) ∧
    isSeparator c = true ∧ ∀ u ∈ w', isBlank u = true

/-- What is after the separator, without the blanks before it. -/
def afterSeparator (s : Text) : Text := ((s.dropWhile (!isSeparator ·)).drop 1).dropWhile isBlank

theorem mem_ends_name : m ∈ name.ends prev s ↔
    m.body.map lowercase ∈ names ∧ m.body ++ m.rest = s ∧ m.groups = [] := by
  simp only [name, mem_ends_alt, mem_ends_word, names, List.mem_cons, List.not_mem_nil, or_false,
    or_and_right]

/-- The letters of names are no separators. -/
theorem isSeparator_of_mem_name {n : Text} (hn : n.map lowercase ∈ names) :
    ∀ u ∈ n, isSeparator u = false := by
  have hletters : ∀ t ∈ names, List.all t (fun u => !isSeparator u) = true :=
    (List.all_iff_forall_prop (p := fun t : Text => t.all (fun u => !isSeparator u) = true)).mp rfl
  intro u hu
  have hlower := List.all_eq_true.mp (hletters _ hn) (lowercase u) (List.mem_map_of_mem hu)
  rw [Bool.not_eq_true', ← Bool.not_eq_true, isSeparator_iff] at hlower
  rw [← Bool.not_eq_true, isSeparator_iff]
  intro hmem
  have hsame := (List.all_iff_forall_prop (p := fun v => lowercase v ∈ ([0x3D, 0x3A] : Text))).mp
    rfl u hmem
  exact hlower hsame

/-- The head of a secret is what `afterSeparator` cuts off. -/
theorem afterSeparator_head {h v : Text} (hh : IsSecretHead h)
    (hv : ∀ u ∈ v.head?, isBlank u = false) : afterSeparator (h ++ v) = v := by
  obtain ⟨n, w, c, w', rfl, hn, hw, hc, hw'⟩ := hh
  have hletters : ∀ u ∈ n ++ w, (!isSeparator u) = true := by
    simp only [List.forall_mem_append, Bool.not_eq_true']
    exact ⟨isSeparator_of_mem_name hn, fun u hu => isSeparator_of_isBlank (hw u hu)⟩
  have hsplit : n ++ (w ++ c :: w') ++ v = (n ++ w) ++ (c :: (w' ++ v)) := by simp
  rw [afterSeparator, hsplit, List.dropWhile_append_of_pos hletters,
    List.dropWhile_cons_of_neg (by simp [hc]), List.drop_one, List.tail_cons,
    List.dropWhile_append_of_pos hw']
  cases v with
  | nil => rfl
  | cons u v => exact List.dropWhile_cons_of_neg (by simpa using hv u rfl)

/-- The word after the head of a secret. -/
theorem word_of_opens {v : Text} (h : Opens isBlank IsSecretHead s v) :
    (afterSeparator s).takeWhile (!isBlank ·) = v := by
  obtain ⟨hd, z, rfl, hhd, hv, hblank, hz⟩ := h
  obtain ⟨u, v, rfl⟩ := List.exists_cons_of_ne_nil hv
  rw [afterSeparator_head hhd (by simpa using (List.forall_mem_cons.mp hblank).1),
    List.takeWhile_append_of_pos (by simpa using hblank)]
  cases z with
  | nil => simp
  | cons c z => simp [hz c rfl]

/-- What `secret` finds. -/
theorem first_secret (h : secret.first prev s = some m) : ∃ n hd v, m.groups = [n] ∧
    n.map lowercase ∈ names ∧ m.body = hd ++ v ∧ IsSecretHead hd ∧ v ≠ [] ∧
    (∀ u ∈ v, isBlank u = false) ∧ ∀ u ∈ m.rest.head?, isBlank u = true := by
  obtain ⟨m₁, h₁, k₁, hk₁, rfl⟩ := exists_of_first_seq h
  obtain ⟨m₂, h₂, k₂, hk₂, rfl⟩ := exists_of_first_seq hk₁
  obtain ⟨m₃, h₃, k₃, hk₃, rfl⟩ := exists_of_first_seq hk₂
  obtain ⟨m₄, h₄, k₄, hk₄, rfl⟩ := exists_of_first_seq hk₃
  rw [first, ends_chain_singleton, ← first] at hk₄
  obtain ⟨m₅, h₅, rfl⟩ := mem_ends_group.mp h₁
  obtain ⟨hn, -, hgroups⟩ := mem_ends_name.mp h₅
  obtain ⟨-, hw, -, -, hgroups₂⟩ := mem_ends_many.mp h₂
  obtain ⟨c, -, hc, hbody, hgroups₃⟩ := mem_ends_one.mp h₃
  obtain ⟨-, hw', -, -, hgroups₄⟩ := mem_ends_many.mp h₄
  obtain ⟨-, hv, hlength, -, hgroups₅⟩ := mem_ends_many.mp (mem_of_first hk₄)
  refine ⟨m₅.body, m₅.body ++ (m₂.body ++ c :: m₄.body), k₄.body, ?_, hn, ?_,
    ⟨_, _, _, _, rfl, hn, hw, hc, hw'⟩, List.ne_nil_of_length_pos hlength, by simpa using hv,
    fun u hu => ?_⟩
  · simp [Match.append, hgroups, hgroups₂, hgroups₃, hgroups₄, hgroups₅]
  · simp [Match.append, hbody]
  · simpa using rest_of_first_many hk₄ u hu

/-- A secret is found where a text opens with one. -/
theorem exists_first_secret {v : Text} (h : Opens isBlank IsSecretHead s v)
    (prev : Option UInt16) : ∃ m, secret.first prev s = some m := by
  obtain ⟨_, z, rfl, ⟨n, w, c, w', rfl, hn, hw, hc, hw'⟩, hv, hblank, -⟩ := h
  have hmem : ∃ m, m ∈ secret.ends prev (n ++ (w ++ ([c] ++ (w' ++ (v ++ z))))) := by
    refine exists_mem_chain_cons ⟨[n], mem_ends_group.mpr ⟨⟨n, [], _⟩, ?_, rfl⟩⟩ ?_
    · exact mem_ends_name.mpr ⟨hn, rfl, rfl⟩
    refine exists_mem_chain_cons ⟨[], mem_ends_many.mpr ⟨rfl, hw, by simp, by simp, rfl⟩⟩ ?_
    refine exists_mem_chain_cons ⟨[], mem_ends_one.mpr ⟨c, rfl, hc, rfl, rfl⟩⟩ ?_
    refine exists_mem_chain_cons ⟨[], mem_ends_many.mpr ⟨rfl, hw', by simp, by simp, rfl⟩⟩ ?_
    exact exists_mem_nonblanks hv hblank _
  obtain ⟨m, hm⟩ := hmem
  obtain ⟨m', hm'⟩ := exists_first hm
  exact ⟨m', by simpa using hm'⟩

end OpenFlux.App.SafeLog
