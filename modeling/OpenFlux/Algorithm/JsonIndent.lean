import Mathlib.Data.Bool.AllAny
import OpenFlux.Algorithm.JsonText

/-!
# White space in JSON texts

`indent` puts the tokens of a text on lines of their own, by their nesting, and `compact` leaves out
all white space between tokens.  Both go through the text character by character and only keep track
of strings, whose characters they leave alone (`Lexing`).

`compact` takes back what `indent` does (`compact_indent`), and a text of the compact writer has
nothing to leave out (`compact_write`).
-/

namespace OpenFlux.JsonText

def isSpace (c : UInt8) : Bool := c = 0x20 || c = 0x09 || c = 0x0A || c = 0x0D

/-- Where a character stands: between the quotation marks of a string, there after a backslash, or
outside. -/
inductive Lexing
  | outside
  | string
  | escaped
  deriving DecidableEq

def Lexing.next : Lexing → UInt8 → Lexing
  | .outside, c => if c = 0x22 then .string else .outside
  | .string, c => if c = 0x22 then .outside else if c = 0x5C then .escaped else .string
  | .escaped, _ => .string

def compactFrom : Lexing → Bytes → Bytes
  | _, [] => []
  | p, c :: s =>
    if p = .outside ∧ isSpace c then compactFrom p s else c :: compactFrom (p.next c) s

/-- The text without white space. -/
def compact (s : Bytes) : Bytes := compactFrom .outside s

def newline (depth : ℕ) : Bytes := 0x0A :: List.replicate (2 * depth) 0x20

/-- `opened` is whether the last token opened an object or an array; if it is closed at once, it
stays on its line. -/
def indentFrom : Lexing → ℕ → Bool → Bytes → Bytes
  | _, _, _, [] => []
  | .outside, depth, opened, c :: s =>
    if isSpace c then indentFrom .outside depth opened s
    else if c = 0x7D ∨ c = 0x5D then
      if opened then c :: indentFrom .outside depth false s
      else newline (depth - 1) ++ c :: indentFrom .outside (depth - 1) false s
    else
      let depth := if opened then depth + 1 else depth
      (if opened then newline depth else []) ++
        if c = 0x7B ∨ c = 0x5B then c :: indentFrom .outside depth true s
        else if c = 0x2C then c :: (newline depth ++ indentFrom .outside depth false s)
        else if c = 0x3A then c :: 0x20 :: indentFrom .outside depth false s
        else c :: indentFrom (Lexing.next .outside c) depth false s
  | p, depth, opened, c :: s => c :: indentFrom (p.next c) depth opened s

/-- The text with two spaces for each level. -/
def indent (s : Bytes) : Bytes := indentFrom .outside 0 false s

/-! ### Leaving white space out -/

theorem compactFrom_cons {p : Lexing} {c : UInt8} (h : p = .outside → isSpace c = false)
    (s : Bytes) : compactFrom p (c :: s) = c :: compactFrom (p.next c) s := by
  refine if_neg ?_
  rintro ⟨hp, hc⟩
  rw [h hp] at hc
  cases hc

theorem compactFrom_inside {p : Lexing} (hp : p ≠ .outside) (c : UInt8) (s : Bytes) :
    compactFrom p (c :: s) = c :: compactFrom (p.next c) s :=
  compactFrom_cons (fun h => absurd h hp) s

theorem compactFrom_spaces {t : Bytes} (h : ∀ c ∈ t, isSpace c = true) (s : Bytes) :
    compactFrom .outside (t ++ s) = compactFrom .outside s := by
  induction t with
  | nil => rfl
  | cons c t ih =>
    obtain ⟨hc, h⟩ := List.forall_mem_cons.mp h
    exact (if_pos ⟨rfl, hc⟩).trans (ih h)

theorem isSpace_of_mem_newline {depth : ℕ} {c : UInt8} (h : c ∈ newline depth) :
    isSpace c = true := by
  rcases List.mem_cons.mp h with rfl | h
  · rfl
  · rw [(List.mem_replicate.mp h).2]
    rfl

theorem compactFrom_newline (depth : ℕ) (s : Bytes) :
    compactFrom .outside (newline depth ++ s) = compactFrom .outside s :=
  compactFrom_spaces (fun _ => isSpace_of_mem_newline) s

theorem compactFrom_indentFrom (p : Lexing) (depth : ℕ) (opened : Bool) (s : Bytes) :
    compactFrom p (indentFrom p depth opened s) = compactFrom p s := by
  induction s generalizing p depth opened with
  | nil => cases p <;> rfl
  | cons c s ih =>
    cases p with
    | outside =>
      by_cases hspace : isSpace c = true
      · rw [indentFrom, if_pos hspace, ih, compactFrom, if_pos ⟨rfl, hspace⟩]
      · have hcons (t : Bytes) : compactFrom .outside (c :: t) =
            c :: compactFrom (Lexing.next .outside c) t :=
          compactFrom_cons (fun _ => Bool.eq_false_iff.mpr hspace) t
        have hopened (n : ℕ) (t : Bytes) :
            compactFrom .outside ((if opened then newline n else []) ++ t) =
              compactFrom .outside t := by
          cases opened with
          | false => rfl
          | true => exact compactFrom_newline n t
        rw [indentFrom, if_neg hspace]
        by_cases hclose : c = 0x7D ∨ c = 0x5D
        · have hnext : Lexing.next .outside c = .outside := by rcases hclose with rfl | rfl <;> rfl
          rw [if_pos hclose, hcons, hnext]
          split
          · rw [hcons, hnext, ih]
          · rw [compactFrom_newline, hcons, hnext, ih]
        · rw [if_neg hclose]
          dsimp only
          rw [hopened, hcons s]
          generalize (if opened = true then depth + 1 else depth) = inner
          split_ifs with hopen hcomma hcolon
          · have hnext : Lexing.next .outside c = .outside := by rcases hopen with rfl | rfl <;> rfl
            rw [hcons, hnext, ih]
          · subst hcomma
            rw [hcons]
            show _ :: compactFrom .outside _ = _
            rw [compactFrom_newline, ih]
            rfl
          · subst hcolon
            rw [hcons]
            show _ :: compactFrom .outside ([0x20] ++ _) = _
            rw [compactFrom_spaces (List.forall_mem_singleton.mpr rfl), ih]
            rfl
          · rw [hcons, ih]
    | string =>
      have hcons := compactFrom_inside (p := .string) nofun c
      rw [indentFrom, hcons, hcons, ih]
      nofun
    | escaped =>
      have hcons := compactFrom_inside (p := .escaped) nofun c
      rw [indentFrom, hcons, hcons, ih]
      nofun

/-- **Leaving white space out takes back what `indent` does.** -/
theorem compact_indent (s : Bytes) : compact (indent s) = compact s :=
  compactFrom_indentFrom .outside 0 false s

/-! ### Written texts -/

/-- Characters that are neither white space nor quotation marks are left alone. -/
theorem compactFrom_append {t : Bytes} (h : ∀ c ∈ t, isSpace c = false ∧ c ≠ 0x22) (s : Bytes) :
    compactFrom .outside (t ++ s) = t ++ compactFrom .outside s := by
  induction t with
  | nil => rfl
  | cons c t ih =>
    obtain ⟨⟨hspace, hquote⟩, h⟩ := List.forall_mem_cons.mp h
    have hnext : Lexing.next .outside c = .outside := if_neg hquote
    rw [List.cons_append, compactFrom_cons (fun _ => hspace), hnext, ih h]
    rfl

/-- The same of characters in a string that are neither quotation marks nor backslashes. -/
theorem compactFrom_string_append {t : Bytes} (h : ∀ c ∈ t, c ≠ 0x22 ∧ c ≠ 0x5C) (s : Bytes) :
    compactFrom .string (t ++ s) = t ++ compactFrom .string s := by
  induction t with
  | nil => rfl
  | cons c t ih =>
    obtain ⟨⟨hquote, hslash⟩, h⟩ := List.forall_mem_cons.mp h
    have hnext : Lexing.next .string c = .string := (if_neg hquote).trans (if_neg hslash)
    rw [List.cons_append, compactFrom_inside (by decide), hnext, ih h]
    rfl

theorem hexDigit_plain : ∀ v < 16, hexDigit v ≠ 0x22 ∧ hexDigit v ≠ 0x5C := by decide

theorem compactFrom_escape (c : UInt8) (s : Bytes) :
    compactFrom .string (escape c ++ s) = escape c ++ compactFrom .string s := by
  unfold escape
  split_ifs with hquote hcontrol
  · show compactFrom .string (0x5C :: c :: s) = 0x5C :: c :: compactFrom .string s
    rw [compactFrom_inside (by decide)]
    show 0x5C :: compactFrom .escaped (c :: s) = _
    rw [compactFrom_inside (by decide)]
    rfl
  · have hlt : c.toNat < 256 := c.toNat_lt
    have hplain : ∀ d ∈ [0x30, 0x30, hexDigit (c.toNat / 16), hexDigit (c.toNat % 16)],
        d ≠ 0x22 ∧ d ≠ 0x5C := by
      simp only [List.forall_mem_cons, List.not_mem_nil, false_imp_iff, implies_true, and_true]
      exact ⟨by decide, by decide, hexDigit_plain _ (by omega), hexDigit_plain _ (by omega)⟩
    exact congrArg (0x5C :: 0x75 :: ·) (compactFrom_string_append hplain s)
  · have hplain : ∀ d ∈ [c], d ≠ 0x22 ∧ d ≠ 0x5C := by
      rw [List.forall_mem_singleton]
      exact not_or.mp hquote
    exact compactFrom_string_append hplain s

/-- A string is read up to its closing quotation mark. -/
theorem compactFrom_writeString (t s : Bytes) :
    compactFrom .string (writeString t ++ s) = writeString t ++ compactFrom .outside s := by
  induction t with
  | nil => rfl
  | cons c t ih =>
    have hcons (rest : Bytes) : writeString (c :: t) ++ rest = escape c ++ (writeString t ++ rest) := by
      simp [writeString]
    rw [hcons, compactFrom_escape, ih, hcons]

theorem mem_writeNat {n : ℕ} {c : UInt8} (h : c ∈ writeNat n) : ∃ d < 10, c = digit d := by
  unfold writeNat at h
  split_ifs at h
  · exact ⟨0, by decide, List.mem_singleton.mp h⟩
  · obtain ⟨d, hd, rfl⟩ := List.mem_map.mp h
    exact ⟨d, Nat.digits_lt_base (by decide) (List.mem_reverse.mp hd), rfl⟩

theorem compactFrom_writeInt (n : ℤ) (s : Bytes) :
    compactFrom .outside (writeInt n ++ s) = writeInt n ++ compactFrom .outside s := by
  have hdigit : ∀ d < 10, isSpace (digit d) = false ∧ digit d ≠ 0x22 := by decide
  have hnat (n : ℕ) : ∀ c ∈ writeNat n, isSpace c = false ∧ c ≠ 0x22 := by
    intro c hc
    obtain ⟨d, hd, rfl⟩ := mem_writeNat hc
    exact hdigit d hd
  cases n with
  | ofNat n => exact compactFrom_append (hnat n) s
  | negSucc n =>
    exact compactFrom_append (List.forall_mem_cons.mpr ⟨by decide, hnat (n + 1)⟩) s

mutual

theorem compactFrom_write : ∀ (v : Json) (s : Bytes),
    compactFrom .outside (write v ++ s) = write v ++ compactFrom .outside s
  | .null, s => compactFrom_append (List.all_iff_forall_prop.mp (by decide)) s
  | .bool true, s => compactFrom_append (List.all_iff_forall_prop.mp (by decide)) s
  | .bool false, s => compactFrom_append (List.all_iff_forall_prop.mp (by decide)) s
  | .num n, s => compactFrom_writeInt n s
  | .str t, s => congrArg (0x22 :: ·) (compactFrom_writeString t s)
  | .arr [], s => rfl
  | .arr (v :: items), s => by
    show 0x5B :: compactFrom .outside (write v ++ writeItems items ++ s) = _
    rw [List.append_assoc, compactFrom_write v, compactFrom_writeItems items, ← List.append_assoc]
    rfl
  | .obj [], s => rfl
  | .obj (m :: members), s => by
    show 0x7B :: compactFrom .outside (writeMember m ++ writeMembers members ++ s) = _
    rw [List.append_assoc, compactFrom_writeMember m, compactFrom_writeMembers members,
      ← List.append_assoc]
    rfl

theorem compactFrom_writeItems : ∀ (items : List Json) (s : Bytes),
    compactFrom .outside (writeItems items ++ s) = writeItems items ++ compactFrom .outside s
  | [], s => rfl
  | v :: items, s => by
    show 0x2C :: compactFrom .outside (write v ++ writeItems items ++ s) = _
    rw [List.append_assoc, compactFrom_write v, compactFrom_writeItems items, ← List.append_assoc]
    rfl

theorem compactFrom_writeMember : ∀ (m : Bytes × Json) (s : Bytes),
    compactFrom .outside (writeMember m ++ s) = writeMember m ++ compactFrom .outside s
  | (name, v), s => by
    show 0x22 :: compactFrom .string (writeString name ++ 0x3A :: write v ++ s) = _
    rw [List.append_assoc, compactFrom_writeString]
    show 0x22 :: (writeString name ++ 0x3A :: compactFrom .outside (write v ++ s)) = _
    rw [compactFrom_write v, writeMember, List.cons_append, List.append_assoc, List.cons_append]

theorem compactFrom_writeMembers : ∀ (members : List (Bytes × Json)) (s : Bytes),
    compactFrom .outside (writeMembers members ++ s) =
      writeMembers members ++ compactFrom .outside s
  | [], s => rfl
  | m :: members, s => by
    show 0x2C :: compactFrom .outside (writeMember m ++ writeMembers members ++ s) = _
    rw [List.append_assoc, compactFrom_writeMember m, compactFrom_writeMembers members,
      ← List.append_assoc]
    rfl

end

/-- **A written text has no white space.** -/
theorem compact_write (v : Json) : compact (write v) = write v := by
  have h := compactFrom_write v []
  rw [List.append_nil] at h
  rw [compact, h]
  exact List.append_nil _

/-- An indented text is read as the text it was made from. -/
theorem read_compact_indent (v : Json) : read (compact (indent (write v))) = some v := by
  rw [compact_indent, compact_write, read_write]

end OpenFlux.JsonText
