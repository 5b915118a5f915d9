import Mathlib.Data.List.TakeWhile
import Mathlib.Data.Nat.Digits.Defs
import OpenFlux.Go.Utf8

/-!
# Compact JSON texts

A writer that puts no space anywhere and escapes what a string must not contain, and a reader for
such texts.  The reader takes one value off the start of a text and is given fuel for the nesting;
the length of the text is always enough.

The three readers are followed together along the fuel (`Reads`): a written value is read off
whatever comes after it, if that does not go on with a digit.  `read_write` is the round trip,
`head_of_read` says how a text that can be read starts, and `valid_write` that the text of a value
with valid strings is valid UTF-8.
-/

namespace OpenFlux.JsonText

/-! ### Writing -/

def digit (d : ℕ) : UInt8 := UInt8.ofNat (0x30 + d)

/-- A natural number in decimal. -/
def writeNat (n : ℕ) : Bytes :=
  if n = 0 then [0x30] else (Nat.digits 10 n).reverse.map digit

def writeInt : ℤ → Bytes
  | .ofNat n => writeNat n
  | .negSucc n => 0x2D :: writeNat (n + 1)

/-- A character of a string. -/
def escape (c : UInt8) : Bytes :=
  if c = 0x22 ∨ c = 0x5C then [0x5C, c]
  else if c < 0x20 then
    [0x5C, 0x75, 0x30, 0x30, hexDigit (c.toNat / 16), hexDigit (c.toNat % 16)]
  else [c]

/-- What comes after the opening quotation mark. -/
def writeString (s : Bytes) : Bytes := s.flatMap escape ++ [0x22]

mutual

def write : Json → Bytes
  | .null => literal "null"
  | .bool true => literal "true"
  | .bool false => literal "false"
  | .num n => writeInt n
  | .str s => 0x22 :: writeString s
  | .arr [] => literal "[]"
  | .arr (v :: items) => 0x5B :: (write v ++ writeItems items)
  | .obj [] => [0x7B, 0x7D]
  | .obj (m :: members) => 0x7B :: (writeMember m ++ writeMembers members)

/-- The items after the first one, and the closing bracket. -/
def writeItems : List Json → Bytes
  | [] => [0x5D]
  | v :: items => 0x2C :: (write v ++ writeItems items)

def writeMember : Bytes × Json → Bytes
  | (name, v) => 0x22 :: (writeString name ++ 0x3A :: write v)

/-- The members after the first one, and the closing brace. -/
def writeMembers : List (Bytes × Json) → Bytes
  | [] => [0x7D]
  | m :: members => 0x2C :: (writeMember m ++ writeMembers members)

end

/-! ### Reading -/

def isDigit (c : UInt8) : Bool := 0x30 ≤ c ∧ c ≤ 0x39

/-- The digits at the start. -/
def readNat (s : Bytes) : Option (ℕ × Bytes) :=
  if s.takeWhile isDigit = [] then none
  else
    some ((s.takeWhile isDigit).foldl (fun n c => 10 * n + (c.toNat - 0x30)) 0, s.dropWhile isDigit)

def readInt : Bytes → Option (ℤ × Bytes)
  | 0x2D :: s => (readNat s).map fun r => (-r.1, r.2)
  | s => (readNat s).map fun r => (r.1, r.2)

def hexValue (c : UInt8) : ℕ := if c ≤ 0x39 then c.toNat - 0x30 else c.toNat - 0x57

/-- The characters up to the closing quotation mark.  Of the escapes, those that the writer uses are
read. -/
def readString : Bytes → Option (Bytes × Bytes)
  | 0x22 :: s => some ([], s)
  | 0x5C :: 0x75 :: 0x30 :: 0x30 :: h :: l :: s =>
    (readString s).map fun r => (UInt8.ofNat (hexValue h * 16 + hexValue l) :: r.1, r.2)
  | 0x5C :: c :: s => (readString s).map fun r => (c :: r.1, r.2)
  | c :: s => (readString s).map fun r => (c :: r.1, r.2)
  | [] => none

mutual

/-- The value at the start. -/
def readValue : ℕ → Bytes → Option (Json × Bytes)
  | 0, _ => none
  | fuel + 1, s =>
    match s with
    | 0x6E :: 0x75 :: 0x6C :: 0x6C :: s => some (.null, s)
    | 0x74 :: 0x72 :: 0x75 :: 0x65 :: s => some (.bool true, s)
    | 0x66 :: 0x61 :: 0x6C :: 0x73 :: 0x65 :: s => some (.bool false, s)
    | 0x22 :: s => (readString s).map fun r => (.str r.1, r.2)
    | 0x5B :: 0x5D :: s => some (.arr [], s)
    | 0x5B :: s => (readItems fuel s).map fun r => (.arr r.1, r.2)
    | 0x7B :: 0x7D :: s => some (.obj [], s)
    | 0x7B :: s => (readMembers fuel s).map fun r => (.obj r.1, r.2)
    | s => (readInt s).map fun r => (.num r.1, r.2)

/-- The items up to the closing bracket. -/
def readItems : ℕ → Bytes → Option (List Json × Bytes)
  | 0, _ => none
  | fuel + 1, s =>
    match readValue fuel s with
    | some (v, 0x2C :: s) => (readItems fuel s).map fun r => (v :: r.1, r.2)
    | some (v, 0x5D :: s) => some ([v], s)
    | _ => none

/-- The members up to the closing brace. -/
def readMembers : ℕ → Bytes → Option (List (Bytes × Json) × Bytes)
  | 0, _ => none
  | fuel + 1, s =>
    match s with
    | 0x22 :: s =>
      match readString s with
      | some (name, 0x3A :: s) =>
        match readValue fuel s with
        | some (v, 0x2C :: s) => (readMembers fuel s).map fun r => ((name, v) :: r.1, r.2)
        | some (v, 0x7D :: s) => some ([(name, v)], s)
        | _ => none
      | _ => none
    | _ => none

end

/-- The value of a whole text. -/
def read (s : Bytes) : Option Json :=
  match readValue s.length s with
  | some (v, []) => some v
  | _ => none

/-! ### Strings -/

theorem hexValue_hexDigit : ∀ v < 16, hexValue (hexDigit v) = v := by decide

theorem readString_escape (c : UInt8) (s : Bytes) :
    readString (escape c ++ s) = (readString s).map fun r => (c :: r.1, r.2) := by
  unfold escape
  split_ifs with hquote hcontrol
  · rcases hquote with rfl | rfl
    · rfl
    · rfl
  · have hlt : c.toNat < 256 := c.toNat_lt
    have hval : UInt8.ofNat (hexValue (hexDigit (c.toNat / 16)) * 16 +
        hexValue (hexDigit (c.toNat % 16))) = c := by
      rw [hexValue_hexDigit _ (by omega), hexValue_hexDigit _ (by omega), Nat.div_add_mod']
      exact UInt8.ofNat_toNat
    simp only [List.cons_append, List.nil_append, readString, hval]
  · obtain ⟨hq, hb⟩ := not_or.mp hquote
    show readString (c :: s) = _
    rw [readString]
    · exact hq
    · rintro h l t rfl -
      exact hb rfl
    · rintro d t rfl -
      exact hb rfl

theorem readString_writeString (s rest : Bytes) :
    readString (writeString s ++ rest) = some (s, rest) := by
  induction s with
  | nil => rfl
  | cons c s ih =>
    have hcons : writeString (c :: s) ++ rest = escape c ++ (writeString s ++ rest) := by
      simp [writeString]
    rw [hcons, readString_escape, ih]
    rfl

/-! ### Numbers -/

theorem isDigit_digit : ∀ d < 10, isDigit (digit d) = true ∧ (digit d).toNat - 0x30 = d := by
  decide

theorem exists_digit {c : UInt8} (h : isDigit c = true) : ∃ d < 10, c = digit d := by
  obtain ⟨hlo, hhi⟩ := of_decide_eq_true h
  rw [UInt8.le_iff_toNat_le] at hlo hhi
  have hlo' : 48 ≤ c.toNat := hlo
  have hhi' : c.toNat ≤ 57 := hhi
  refine ⟨c.toNat - 48, by omega, ?_⟩
  rw [digit, Nat.add_sub_cancel' hlo']
  exact UInt8.ofNat_toNat.symm

/-- The text does not go on with a digit. -/
def Ends (s : Bytes) : Prop := ∀ c ∈ s.head?, isDigit c = false

theorem readNat_digits {ds : List ℕ} (hds : ∀ d ∈ ds, d < 10) (hne : ds ≠ []) {rest : Bytes}
    (hrest : Ends rest) :
    readNat (ds.map digit ++ rest) = some (ds.foldl (fun n d => 10 * n + d) 0, rest) := by
  have hall : ∀ c ∈ ds.map digit, isDigit c = true := by
    intro c hc
    obtain ⟨d, hd, rfl⟩ := List.mem_map.mp hc
    exact (isDigit_digit d (hds d hd)).1
  have hstop : rest.takeWhile isDigit = [] ∧ rest.dropWhile isDigit = rest := by
    rcases rest with _ | ⟨c, rest⟩
    · exact ⟨rfl, rfl⟩
    · have hc : isDigit c = false := hrest c rfl
      exact ⟨List.takeWhile_cons_of_neg (by simp [hc]), List.dropWhile_cons_of_neg (by simp [hc])⟩
  have hvalue : ∀ n, (ds.map digit).foldl (fun n c => 10 * n + (c.toNat - 0x30)) n =
      ds.foldl (fun n d => 10 * n + d) n := by
    clear hne hall
    induction ds with
    | nil => exact fun _ => rfl
    | cons d ds ih =>
      obtain ⟨hd, hds⟩ := List.forall_mem_cons.mp hds
      intro n
      rw [List.map_cons, List.foldl_cons, List.foldl_cons, (isDigit_digit d hd).2, ih hds]
  rw [readNat, List.takeWhile_append_of_pos hall, List.dropWhile_append_of_pos hall, hstop.1,
    hstop.2, List.append_nil, if_neg (by simpa using hne), hvalue]

theorem readNat_writeNat (n : ℕ) {rest : Bytes} (hrest : Ends rest) :
    readNat (writeNat n ++ rest) = some (n, rest) := by
  unfold writeNat
  split_ifs with hzero
  · rw [hzero]
    exact readNat_digits (List.forall_mem_singleton.mpr (by decide : 0 < 10)) nofun hrest
  · have hds : ∀ d ∈ (Nat.digits 10 n).reverse, d < 10 :=
      fun d hd => Nat.digits_lt_base (by decide) (List.mem_reverse.mp hd)
    have hne : (Nat.digits 10 n).reverse ≠ [] := by
      simpa using Nat.digits_ne_nil_iff_ne_zero.mpr hzero
    have hvalue : (Nat.digits 10 n).reverse.foldl (fun n d => 10 * n + d) 0 = n := by
      rw [List.foldl_reverse]
      calc (Nat.digits 10 n).foldr (fun d n => 10 * n + d) 0
          = Nat.ofDigits 10 (Nat.digits 10 n) := by
            rw [Nat.ofDigits_eq_foldr]
            simp only [Nat.cast_id, Nat.add_comm]
        _ = n := Nat.ofDigits_digits 10 n
    rw [readNat_digits hds hne hrest, hvalue]

/-- A written natural number starts with a digit. -/
theorem head_writeNat (n : ℕ) : ∃ d < 10, ∃ s, writeNat n = digit d :: s := by
  unfold writeNat
  split_ifs with hzero
  · exact ⟨0, by decide, [], rfl⟩
  · rcases hrev : (Nat.digits 10 n).reverse with _ | ⟨d, ds⟩
    · exact absurd (List.reverse_eq_nil_iff.mp hrev) (Nat.digits_ne_nil_iff_ne_zero.mpr hzero)
    · have hmem : d ∈ (Nat.digits 10 n).reverse := hrev ▸ List.mem_cons_self
      exact ⟨d, Nat.digits_lt_base (by decide) (List.mem_reverse.mp hmem), _, rfl⟩

theorem utf8EncodeChar_digitChar :
    ∀ d < 10, String.utf8EncodeChar (Nat.digitChar d) = [digit d] := by decide

theorem toDigits_eq (n : ℕ) :
    (Nat.toDigits 10 n).flatMap String.utf8EncodeChar = writeNat n := by
  induction n using Nat.strongRecOn with
  | ind n ih =>
    rw [Nat.toDigits_eq_if (by omega)]
    split
    · next h =>
      rw [List.flatMap_singleton, utf8EncodeChar_digitChar n h, writeNat]
      rcases Nat.eq_zero_or_pos n with rfl | hpos
      · rfl
      · rw [if_neg hpos.ne', Nat.digits_of_lt 10 n hpos.ne' h]
        rfl
    · next h =>
      have hdiv : n / 10 ≠ 0 := by omega
      have hdigits : Nat.digits 10 n = n % 10 :: Nat.digits 10 (n / 10) :=
        Nat.digits_def' (by omega) (by omega)
      rw [List.flatMap_append, ih (n / 10) (by omega), List.flatMap_singleton,
        utf8EncodeChar_digitChar _ (Nat.mod_lt n (by omega)), writeNat, writeNat, if_neg hdiv,
        if_neg (by omega), hdigits, List.reverse_cons, List.map_append]
      rfl

theorem literal_toString (n : ℕ) : literal (toString n) = writeNat n := by
  rw [literal, Nat.toString_eq_ofList_toDigits, String.toList_ofList]
  exact toDigits_eq n

/-- `%d` writes an integer as a JSON text has it. -/
theorem decimal_eq (n : ℤ) : decimal n = writeInt n := by
  cases n with
  | ofNat n => exact literal_toString n
  | negSucc n =>
    show literal ("-" ++ toString (n + 1)) = _
    rw [literal, String.toList_append, List.flatMap_append]
    exact congrArg (0x2D :: ·) (literal_toString (n + 1))

theorem notMem_writeInt {c : UInt8} (hdigit : ∀ d < 10, digit d ≠ c) (hc : c ≠ 0x2D) (n : ℤ) :
    c ∉ writeInt n := by
  have hnat (n : ℕ) : c ∉ writeNat n := by
    unfold writeNat
    split_ifs
    · rw [List.mem_singleton]
      exact (hdigit 0 (by decide)).symm
    · intro hmem
      obtain ⟨d, hd, heq⟩ := List.mem_map.mp hmem
      exact hdigit d (Nat.digits_lt_base (by decide) (List.mem_reverse.mp hd)) heq
  cases n with
  | ofNat n => exact hnat n
  | negSucc n =>
    rw [writeInt, List.mem_cons, not_or]
    exact ⟨hc, hnat (n + 1)⟩

theorem readInt_writeInt (n : ℤ) {rest : Bytes} (hrest : Ends rest) :
    readInt (writeInt n ++ rest) = some (n, rest) := by
  cases n with
  | ofNat n =>
    obtain ⟨d, hd, s, hs⟩ := head_writeNat n
    have hne : ∀ d < 10, digit d ≠ 0x2D := by decide
    have hread := readNat_writeNat n hrest
    rw [writeInt, readInt, hread]
    · rfl
    · intro t ht
      rw [hs] at ht
      exact hne d hd (List.cons.inj ht).1
  | negSucc n =>
    show (readNat (writeNat (n + 1) ++ rest)).map (fun r => (-(r.1 : ℤ), r.2)) = _
    rw [readNat_writeNat (n + 1) hrest]
    rfl

/-! ### The start of a value -/

/-- A value that starts with no other character of the grammar is a number. -/
theorem readValue_number (fuel : ℕ) {c : UInt8} (s : Bytes) (hc : c ∉ literal "ntf\"[\x7b") :
    readValue (fuel + 1) (c :: s) = (readInt (c :: s)).map fun r => (.num r.1, r.2) := by
  rw [readValue]
  all_goals
    intro t ht
    rw [(List.cons.inj ht).1] at hc
    exact hc (by decide)

theorem readValue_writeInt (fuel : ℕ) (n : ℤ) {rest : Bytes} (hrest : Ends rest) :
    readValue (fuel + 1) (writeInt n ++ rest) = some (.num n, rest) := by
  have hstart : ∃ c s, writeInt n = c :: s ∧ c ∉ literal "ntf\"[\x7b" := by
    cases n with
    | ofNat n =>
      obtain ⟨d, hd, s, hs⟩ := head_writeNat n
      exact ⟨_, _, hs, (by decide : ∀ d < 10, digit d ∉ literal "ntf\"[\x7b") d hd⟩
    | negSucc n => exact ⟨_, _, rfl, by decide⟩
  obtain ⟨c, s, hs, hc⟩ := hstart
  have hread := readInt_writeInt n hrest
  rw [hs] at hread ⊢
  rw [List.cons_append, readValue_number fuel _ hc, ← List.cons_append, hread]
  rfl

/-- A written value has a first character, and it is no closing bracket. -/
theorem head_write (v : Json) : ∃ c s, write v = c :: s ∧ c ≠ 0x5D := by
  match v with
  | .null => exact ⟨_, _, rfl, by decide⟩
  | .bool true => exact ⟨_, _, rfl, by decide⟩
  | .bool false => exact ⟨_, _, rfl, by decide⟩
  | .num (.ofNat n) =>
    obtain ⟨d, hd, s, hs⟩ := head_writeNat n
    exact ⟨_, s, hs, (by decide : ∀ d < 10, digit d ≠ 0x5D) d hd⟩
  | .num (.negSucc n) => exact ⟨_, _, rfl, by decide⟩
  | .str s => exact ⟨_, _, rfl, by decide⟩
  | .arr [] => exact ⟨_, _, rfl, by decide⟩
  | .arr (v :: items) => exact ⟨_, _, rfl, by decide⟩
  | .obj [] => exact ⟨_, _, rfl, by decide⟩
  | .obj (m :: members) => exact ⟨_, _, rfl, by decide⟩

theorem length_write_pos (v : Json) : 0 < (write v).length := by
  obtain ⟨c, s, hs, -⟩ := head_write v
  rw [hs]
  exact Nat.succ_pos _

/-! ### Values -/

theorem ends_of_notDigit {c : UInt8} (hc : isDigit c = false) {s : Bytes} : Ends (c :: s) := by
  intro d hd
  rwa [← Option.some.inj hd]

/-- What the three readers do with enough fuel. -/
structure Reads (fuel : ℕ) : Prop where
  value : ∀ (v : Json) (rest : Bytes), (write v).length ≤ fuel → Ends rest →
    readValue fuel (write v ++ rest) = some (v, rest)
  items : ∀ (v : Json) (items : List Json) (rest : Bytes),
    (write v ++ writeItems items).length ≤ fuel →
    readItems fuel (write v ++ writeItems items ++ rest) = some (v :: items, rest)
  members : ∀ (name : Bytes) (v : Json) (members : List (Bytes × Json)) (rest : Bytes),
    (writeMember (name, v) ++ writeMembers members).length ≤ fuel →
    readMembers fuel (writeMember (name, v) ++ writeMembers members ++ rest) =
      some ((name, v) :: members, rest)

theorem Reads.readValue_succ {fuel : ℕ} (h : Reads fuel) (v : Json) {rest : Bytes}
    (hfuel : (write v).length ≤ fuel + 1) (hrest : Ends rest) :
    readValue (fuel + 1) (write v ++ rest) = some (v, rest) := by
  match v with
  | .null => rfl
  | .bool true => rfl
  | .bool false => rfl
  | .num n => exact readValue_writeInt fuel n hrest
  | .str s =>
    show (readString (writeString s ++ rest)).map _ = _
    rw [readString_writeString]
    rfl
  | .arr [] => rfl
  | .arr (v :: items) =>
    rw [write, List.length_cons] at hfuel
    have hitems := h.items v items rest (Nat.le_of_succ_le_succ hfuel)
    obtain ⟨c, s, hs, hc⟩ := head_write v
    rw [write, hs]
    rw [hs] at hitems
    show readValue (fuel + 1) (0x5B :: c :: (s ++ writeItems items ++ rest)) = _
    rw [readValue]
    · show (readItems fuel (c :: s ++ writeItems items ++ rest)).map _ = _
      rw [hitems]
      rfl
    · intro t ht
      exact hc (List.cons.inj ht).1
  | .obj [] => rfl
  | .obj ((name, v) :: members) =>
    rw [write, List.length_cons] at hfuel
    show (readMembers fuel (writeMember (name, v) ++ writeMembers members ++ rest)).map _ = _
    rw [h.members name v members rest (Nat.le_of_succ_le_succ hfuel)]
    rfl

theorem Reads.readItems_succ {fuel : ℕ} (h : Reads fuel) (v : Json) (items : List Json)
    (rest : Bytes) (hfuel : (write v ++ writeItems items).length ≤ fuel + 1) :
    readItems (fuel + 1) (write v ++ writeItems items ++ rest) = some (v :: items, rest) := by
  rw [List.append_assoc, readItems]
  rcases items with _ | ⟨w, items⟩
  · have hlen : (write v).length ≤ fuel := by
      simp only [writeItems, List.length_append, List.length_singleton] at hfuel
      omega
    rw [show writeItems [] ++ rest = 0x5D :: rest from rfl,
      h.value v (0x5D :: rest) hlen (ends_of_notDigit (by decide))]
    rfl
  · have hlen : (write v).length ≤ fuel ∧ (write w ++ writeItems items).length ≤ fuel := by
      simp only [writeItems, List.length_append, List.length_cons] at hfuel ⊢
      omega
    rw [show writeItems (w :: items) ++ rest = 0x2C :: (write w ++ writeItems items ++ rest) from rfl,
      h.value v _ hlen.1 (ends_of_notDigit (by decide))]
    show (readItems fuel (write w ++ writeItems items ++ rest)).map _ = _
    rw [h.items w items rest hlen.2]
    rfl

theorem Reads.readMembers_succ {fuel : ℕ} (h : Reads fuel) (name : Bytes) (v : Json)
    (members : List (Bytes × Json)) (rest : Bytes)
    (hfuel : (writeMember (name, v) ++ writeMembers members).length ≤ fuel + 1) :
    readMembers (fuel + 1) (writeMember (name, v) ++ writeMembers members ++ rest) =
      some ((name, v) :: members, rest) := by
  have hmember : writeMember (name, v) ++ writeMembers members ++ rest =
      0x22 :: (writeString name ++ (0x3A :: (write v ++ (writeMembers members ++ rest)))) := by
    simp [writeMember]
  rw [hmember, readMembers, readString_writeString]
  rcases members with _ | ⟨⟨name', w⟩, members⟩
  · have hlen : (write v).length ≤ fuel := by
      simp only [writeMember, writeMembers, List.length_append, List.length_cons,
        List.length_nil] at hfuel
      omega
    have hread := h.value v (0x7D :: rest) hlen (ends_of_notDigit (by decide))
    simp only [writeMembers, List.cons_append, List.nil_append, hread]
  · have hlen : (write v).length ≤ fuel ∧
        (writeMember (name', w) ++ writeMembers members).length ≤ fuel := by
      simp only [writeMember, writeMembers, List.length_append, List.length_cons] at hfuel ⊢
      omega
    have hread := h.value v (0x2C :: (writeMember (name', w) ++ writeMembers members ++ rest))
      hlen.1 (ends_of_notDigit (by decide))
    have hmembers := h.members name' w members rest hlen.2
    simp only [writeMembers, List.cons_append, hread, hmembers, Option.map_some]

theorem reads (fuel : ℕ) : Reads fuel := by
  induction fuel with
  | zero =>
    refine ⟨fun v _ h => ?_, fun v items _ h => ?_, fun name v members _ h => ?_⟩
    · exact absurd (length_write_pos v) (Nat.not_lt.mpr h)
    · have hpos := length_write_pos v
      rw [List.length_append] at h
      omega
    · simp [writeMember] at h
  | succ fuel ih =>
    exact ⟨fun v _ => ih.readValue_succ v, ih.readItems_succ, ih.readMembers_succ⟩

/-- **Round trip**: what is written is read. -/
theorem read_write (v : Json) : read (write v) = some v := by
  have hread := (reads (write v).length).value v [] le_rfl nofun
  rw [List.append_nil] at hread
  rw [read, hread]

/-- What is read starts like a JSON value. -/
theorem head_of_read {s : Bytes} {v : Json} (h : read s = some v) :
    ∃ c ∈ literal "\x7b[\"-0123456789tfn", s.head? = some c := by
  have hvalue : ∃ fuel rest, readValue (fuel + 1) s = some (v, rest) := by
    unfold read at h
    split at h
    · next hread =>
      rcases hlen : s.length with _ | fuel
      · rw [hlen] at hread
        cases hread
      · rw [hlen] at hread
        exact ⟨fuel, [], Option.some.inj h ▸ hread⟩
    · cases h
  obtain ⟨fuel, rest, hread⟩ := hvalue
  rcases s with _ | ⟨c, s⟩
  · cases hread
  · refine ⟨c, ?_, rfl⟩
    by_contra hc
    have hne : ∀ d ∈ literal "\x7b[\"-0123456789tfn", c ≠ d := fun d hd hcd => hc (hcd ▸ hd)
    have hdigit : isDigit c = false := by
      rw [Bool.eq_false_iff]
      intro hdigit
      obtain ⟨d, hd, rfl⟩ := exists_digit hdigit
      exact hc ((by decide : ∀ d < 10, digit d ∈ literal "\x7b[\"-0123456789tfn") d hd)
    have hnat : readNat (c :: s) = none := by
      rw [readNat, if_pos (List.takeWhile_cons_of_neg (by simp [hdigit]))]
    have hint : readInt (c :: s) = none := by
      rw [readInt, hnat]
      · rfl
      · exact fun t ht => hne _ (by decide) (List.cons.inj ht).1
    have hsub : ∀ d ∈ literal "ntf\"[\x7b", d ∈ literal "\x7b[\"-0123456789tfn" := by
      decide +kernel
    have hnumber : c ∉ literal "ntf\"[\x7b" := fun hmem => hc (hsub c hmem)
    rw [readValue_number fuel s hnumber, hint] at hread
    cases hread

/-! ### Valid texts -/

theorem ascii_writeInt (n : ℤ) : ∀ c ∈ writeInt n, c < 0x80 := by
  intro c hc
  by_contra hlarge
  rw [UInt8.lt_iff_toNat_lt, not_lt] at hlarge
  refine notMem_writeInt (c := c) (fun d hd heq => ?_) (fun heq => ?_) n hc
  · have hdigit : ∀ d < 10, (digit d).toNat < 0x80 := by decide
    have hlt := hdigit d hd
    rw [heq] at hlt
    exact absurd hlt (Nat.not_lt.mpr hlarge)
  · rw [heq] at hlarge
    exact absurd hlarge (by decide)

theorem ascii_escape {c : UInt8} (hc : c < 0x80) : ∀ d ∈ escape c, d < 0x80 := by
  have hhex : ∀ v < 16, hexDigit v < 0x80 := by decide
  unfold escape
  split_ifs with hquoted hcontrol
  · exact List.forall_mem_cons.mpr ⟨by decide, List.forall_mem_singleton.mpr hc⟩
  · rw [UInt8.lt_iff_toNat_lt] at hcontrol
    have hlow : c.toNat < 0x20 := hcontrol
    simp only [List.forall_mem_cons]
    exact ⟨by decide, by decide, by decide, by decide, hhex _ (by omega), hhex _ (by omega), nofun⟩
  · exact List.forall_mem_singleton.mpr hc

theorem escape_of_not_ascii {c : UInt8} (hc : ¬ c < 0x80) : escape c = [c] := by
  have hne : ∀ d : UInt8, d < 0x80 → c ≠ d := fun d hd heq => hc (heq ▸ hd)
  have hcontrol : ¬ c < 0x20 := fun hlt => hc (UInt8.lt_trans hlt (by decide))
  rw [escape, if_neg (not_or.mpr ⟨hne 0x22 (by decide), hne 0x5C (by decide)⟩), if_neg hcontrol]

/-- Only characters in ASCII are escaped, and in ASCII. -/
theorem validFrom_flatMap_escape {ranges : List (UInt8 × UInt8)}
    (hranges : ∀ r ∈ ranges, 0x80 ≤ r.1 ∧ r.2 ≤ 0xBF) {s : Bytes}
    (h : validFrom ranges s = true) : validFrom ranges (s.flatMap escape) = true := by
  induction ranges, s using validFrom.induct with
  | case1 => rfl
  | case2 range ranges => exact absurd h Bool.false_ne_true
  | case3 range ranges c s ih =>
    rw [validFrom, Bool.and_eq_true] at h
    obtain ⟨hbetween, hrest⟩ := h
    have hlow : range.1 ≤ c := of_decide_eq_true (Bool.and_eq_true_iff.mp hbetween).1
    have hc : ¬ c < 0x80 :=
      UInt8.not_lt.mpr (UInt8.le_trans (hranges range List.mem_cons_self).1 hlow)
    rw [List.flatMap_cons, escape_of_not_ascii hc, List.singleton_append, validFrom, hbetween,
      Bool.true_and]
    exact ih (fun r hr => hranges r (List.mem_cons_of_mem _ hr)) hrest
  | case4 c s ranges haccept ih =>
    rw [validFrom, haccept] at h
    have hs := ih (continues_of_acceptRanges haccept) h
    rw [List.flatMap_cons]
    by_cases hc : c < 0x80
    · rw [acceptRanges, if_pos hc] at haccept
      obtain rfl := Option.some.inj haccept
      exact (validUTF8_append (validUTF8_of_ascii (ascii_escape hc)) _).trans hs
    · rw [escape_of_not_ascii hc, List.singleton_append, validFrom, haccept]
      exact hs
  | case5 c s haccept =>
    rw [validFrom, haccept] at h
    exact absurd h Bool.false_ne_true

theorem valid_writeString {s : Bytes} (h : validUTF8 s = true) :
    validUTF8 (writeString s) = true := by
  have hs : validUTF8 (s.flatMap escape) = true :=
    validFrom_flatMap_escape (fun _ hr => absurd hr List.not_mem_nil) h
  rw [writeString, validUTF8_append hs]
  decide

mutual

/-- The text of a value with valid strings is valid. -/
theorem valid_write : ∀ {v : Json}, v.valid = true → validUTF8 (write v) = true
  | .null, _ => by decide
  | .bool true, _ => by decide
  | .bool false, _ => by decide
  | .num n, _ => validUTF8_of_ascii (ascii_writeInt n)
  | .str s, h => by
    rw [write, validUTF8_cons (by decide)]
    exact valid_writeString h
  | .arr [], _ => by decide
  | .arr (v :: items), h => by
    rw [Json.valid, validItems, Bool.and_eq_true] at h
    rw [write, validUTF8_cons (by decide), validUTF8_append (valid_write h.1)]
    exact valid_writeItems h.2
  | .obj [], _ => by decide
  | .obj (m :: members), h => by
    rw [Json.valid, validMembers, Bool.and_eq_true] at h
    rw [write, validUTF8_cons (by decide), validUTF8_append (valid_writeMember h.1)]
    exact valid_writeMembers h.2

theorem valid_writeItems : ∀ {items : List Json}, validItems items = true →
    validUTF8 (writeItems items) = true
  | [], _ => by decide
  | v :: items, h => by
    rw [validItems, Bool.and_eq_true] at h
    rw [writeItems, validUTF8_cons (by decide), validUTF8_append (valid_write h.1)]
    exact valid_writeItems h.2

theorem valid_writeMember : ∀ {m : Bytes × Json}, (validUTF8 m.1 && m.2.valid) = true →
    validUTF8 (writeMember m) = true
  | (name, v), h => by
    rw [Bool.and_eq_true] at h
    rw [writeMember, validUTF8_cons (by decide), validUTF8_append (valid_writeString h.1),
      validUTF8_cons (by decide)]
    exact valid_write h.2

theorem valid_writeMembers : ∀ {members : List (Bytes × Json)}, validMembers members = true →
    validUTF8 (writeMembers members) = true
  | [], _ => by decide
  | m :: members, h => by
    rw [validMembers, Bool.and_eq_true] at h
    rw [writeMembers, validUTF8_cons (by decide), validUTF8_append (valid_writeMember h.1)]
    exact valid_writeMembers h.2

end

end OpenFlux.JsonText
