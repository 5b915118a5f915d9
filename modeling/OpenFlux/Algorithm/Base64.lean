import Mathlib.Data.List.Nodup
import Mathlib.Data.UInt

/-!
# Base64

Three bytes are written as four characters of an alphabet of 64, each for six bits.  One or two
bytes left over take two or three characters, followed by padding up to four where the encoding has
a padding character.

`encode` and `decode` are over an arbitrary `Encoding`.  The decoder drops line breaks wherever they
stand and does not look at the bits that a short last group leaves unused.  `decode_encode` is the
round trip, `mem_encode` says which characters an encoding is made of, `encode_eq_nil_iff` that only
the empty string has an empty one, and `decode_isSome_iff` what is decoded where there is padding.
-/

namespace Base64

/-- An alphabet and a padding character, all different and none of them a line break. -/
structure Encoding where
  alphabet : List UInt8
  padding : Option UInt8
  length_eq : alphabet.length = 64
  nodup : alphabet.Nodup
  padding_notMem : ∀ c ∈ padding, c ∉ alphabet
  noLineBreak : ∀ c, c ∈ alphabet ∨ c ∈ padding → c ≠ 0x0A ∧ c ≠ 0x0D

variable (enc : Encoding)

/-- The character of the lowest six bits. -/
def Encoding.char (v : ℕ) : UInt8 := enc.alphabet.getD (v % 64) 0

/-- The six bits of a character. -/
def Encoding.value (c : UInt8) : Option ℕ :=
  if c ∈ enc.alphabet then some (enc.alphabet.idxOf c) else none

/-- The four characters of 24 bits. -/
def Encoding.chars (val : ℕ) : List UInt8 :=
  [enc.char (val / 262144), enc.char (val / 4096), enc.char (val / 64), enc.char val]

def encode : List UInt8 → List UInt8
  | a :: b :: c :: rest =>
    enc.chars (a.toNat * 65536 + b.toNat * 256 + c.toNat) ++ encode rest
  | [a, b] => (enc.chars (a.toNat * 65536 + b.toNat * 256)).take 3 ++ enc.padding.toList
  | [a] => (enc.chars (a.toNat * 65536)).take 2 ++ enc.padding.toList ++ enc.padding.toList
  | [] => []

/-- The three bytes of 24 bits. -/
def bytes (val : ℕ) : List UInt8 :=
  [UInt8.ofNat (val / 65536), UInt8.ofNat (val / 256), UInt8.ofNat val]

/-- The decoder on a string without line breaks, by groups of four characters. -/
def decodeGroups : List UInt8 → Option (List UInt8)
  | a :: b :: c :: d :: rest =>
    match enc.value a, enc.value b, enc.value c, enc.value d with
    | some a, some b, some c, some d =>
      (decodeGroups rest).map (bytes (a * 262144 + b * 4096 + c * 64 + d) ++ ·)
    | some a, some b, some c, none =>
      if some d = enc.padding ∧ rest = [] then
        some ((bytes (a * 262144 + b * 4096 + c * 64)).take 2)
      else none
    | some a, some b, none, _ =>
      if some c = enc.padding ∧ some d = enc.padding ∧ rest = [] then
        some ((bytes (a * 262144 + b * 4096)).take 1)
      else none
    | _, _, _, _ => none
  | [a, b, c] =>
    match enc.value a, enc.value b, enc.value c with
    | some a, some b, some c =>
      if enc.padding = none then some ((bytes (a * 262144 + b * 4096 + c * 64)).take 2) else none
    | _, _, _ => none
  | [a, b] =>
    match enc.value a, enc.value b with
    | some a, some b =>
      if enc.padding = none then some ((bytes (a * 262144 + b * 4096)).take 1) else none
    | _, _ => none
  | [_] => none
  | [] => some []

def decode (s : List UInt8) : Option (List UInt8) :=
  decodeGroups enc (s.filter fun c => c ≠ 0x0A ∧ c ≠ 0x0D)

/-- What `decodeGroups` has put out when it ends, be it at an error. -/
def writtenGroups : List UInt8 → List UInt8
  | a :: b :: c :: d :: rest =>
    match enc.value a, enc.value b, enc.value c, enc.value d with
    | some a, some b, some c, some d =>
      bytes (a * 262144 + b * 4096 + c * 64 + d) ++ writtenGroups rest
    | some a, some b, some c, none =>
      if some d = enc.padding then (bytes (a * 262144 + b * 4096 + c * 64)).take 2 else []
    | some a, some b, none, _ =>
      if some c = enc.padding ∧ some d = enc.padding then (bytes (a * 262144 + b * 4096)).take 1
      else []
    | _, _, _, _ => []
  | s => (decodeGroups enc s).getD []

/-- What the decoder has put out when it ends, be it at an error. -/
def written (s : List UInt8) : List UInt8 :=
  writtenGroups enc (s.filter fun c => c ≠ 0x0A ∧ c ≠ 0x0D)

variable {enc}

/-! ### Characters -/

theorem char_mem (v : ℕ) : enc.char v ∈ enc.alphabet := by
  have hlt : v % 64 < enc.alphabet.length := by
    rw [enc.length_eq]
    exact Nat.mod_lt _ (by omega)
  rw [Encoding.char, List.getD_eq_getElem?_getD, List.getElem?_eq_getElem hlt, Option.getD_some]
  exact List.getElem_mem hlt

theorem value_char (v : ℕ) : enc.value (enc.char v) = some (v % 64) := by
  have hlt : v % 64 < enc.alphabet.length := by
    rw [enc.length_eq]
    exact Nat.mod_lt _ (by omega)
  rw [Encoding.value, if_pos (char_mem v), Encoding.char, List.getD_eq_getElem?_getD,
    List.getElem?_eq_getElem hlt, Option.getD_some, enc.nodup.idxOf_getElem]

theorem value_padding {c : UInt8} (h : c ∈ enc.padding) : enc.value c = none :=
  if_neg (enc.padding_notMem c h)

theorem mem_chars {val : ℕ} {c : UInt8} (h : c ∈ enc.chars val) : c ∈ enc.alphabet := by
  simp only [Encoding.chars, List.mem_cons, List.not_mem_nil, or_false] at h
  rcases h with rfl | rfl | rfl | rfl <;> exact char_mem _

/-- An encoding is made of the alphabet and the padding. -/
theorem mem_encode {s : List UInt8} {c : UInt8} (h : c ∈ encode enc s) :
    c ∈ enc.alphabet ∨ c ∈ enc.padding := by
  have htake : ∀ {val n}, c ∈ (enc.chars val).take n → c ∈ enc.alphabet :=
    fun h => mem_chars (List.mem_of_mem_take h)
  induction s using encode.induct with
  | case1 a b c' rest ih =>
    rw [encode, List.mem_append] at h
    exact h.elim (fun h => .inl (mem_chars h)) ih
  | case2 a b =>
    rw [encode, List.mem_append, Option.mem_toList] at h
    exact h.imp_left htake
  | case3 a =>
    rw [encode, List.mem_append, List.mem_append, Option.mem_toList] at h
    rcases h with (h | h) | h
    · exact .inl (htake h)
    · exact .inr h
    · exact .inr h
  | case4 => exact absurd h List.not_mem_nil

theorem encode_eq_nil_iff {s : List UInt8} : encode enc s = [] ↔ s = [] := by
  rcases s with _ | ⟨a, _ | ⟨b, _ | ⟨c, rest⟩⟩⟩
  · exact iff_of_true rfl rfl
  · exact iff_of_false nofun nofun
  · exact iff_of_false nofun nofun
  · exact iff_of_false nofun nofun

/-! ### The round trip -/

/-- The six-bit groups of 24 bits put together again. -/
theorem groups_eq (val : ℕ) (h : val < 16777216) :
    val / 262144 % 64 * 262144 + val / 4096 % 64 * 4096 + val / 64 % 64 * 64 + val % 64 = val := by
  omega

theorem ofNat_of_toNat_mod {a : UInt8} {n : ℕ} (h : n % 256 = a.toNat) : UInt8.ofNat n = a := by
  apply UInt8.toNat_inj.mp
  rw [UInt8.toNat_ofNat']
  exact h

theorem bytes_eq (a b c : UInt8) :
    bytes (a.toNat * 65536 + b.toNat * 256 + c.toNat) = [a, b, c] := by
  have ha := a.toNat_lt
  have hb := b.toNat_lt
  have hc := c.toNat_lt
  rw [bytes, ofNat_of_toNat_mod (a := a) (by omega), ofNat_of_toNat_mod (a := b) (by omega),
    ofNat_of_toNat_mod (a := c) (by omega)]

theorem decodeGroups_chars_append (val : ℕ) (h : val < 16777216) (s : List UInt8) :
    decodeGroups enc (enc.chars val ++ s) = (decodeGroups enc s).map (bytes val ++ ·) := by
  show decodeGroups enc (_ :: _ :: _ :: _ :: s) = _
  rw [decodeGroups]
  simp only [value_char, groups_eq val h]

theorem decodeGroups_take_three {val : ℕ} (h : val < 16777216) (hlow : val % 64 = 0) :
    decodeGroups enc ((enc.chars val).take 3 ++ enc.padding.toList) =
      some ((bytes val).take 2) := by
  have hval := groups_eq val h
  rw [hlow, Nat.add_zero] at hval
  rcases hpad : enc.padding with _ | c
  · show decodeGroups enc [_, _, _] = _
    rw [decodeGroups]
    simp only [value_char, hpad, if_true, hval]
  · show decodeGroups enc [_, _, _, c] = _
    rw [decodeGroups]
    simp only [value_char, value_padding hpad, hpad, and_self, if_true, hval]

theorem decodeGroups_take_two {val : ℕ} (h : val < 16777216) (hlow : val % 4096 = 0) :
    decodeGroups enc ((enc.chars val).take 2 ++ enc.padding.toList ++ enc.padding.toList) =
      some ((bytes val).take 1) := by
  have hval := groups_eq val h
  have hmid : val / 64 % 64 = 0 := by omega
  have hlow' : val % 64 = 0 := by omega
  rw [hmid, hlow', Nat.zero_mul, Nat.add_zero] at hval
  rcases hpad : enc.padding with _ | c
  · show decodeGroups enc [_, _] = _
    rw [decodeGroups]
    simp only [value_char, hpad, if_true, hval]
  · show decodeGroups enc [_, _, c, c] = _
    rw [decodeGroups]
    simp only [value_char, value_padding hpad, hpad, and_self, if_true, hval]

theorem decodeGroups_encode (s : List UInt8) : decodeGroups enc (encode enc s) = some s := by
  induction s using encode.induct with
  | case1 a b c rest ih =>
    have ha := a.toNat_lt
    have hb := b.toNat_lt
    have hc := c.toNat_lt
    rw [encode, decodeGroups_chars_append _ (by omega), ih, bytes_eq]
    rfl
  | case2 a b =>
    have ha := a.toNat_lt
    have hb := b.toNat_lt
    have hbytes : bytes (a.toNat * 65536 + b.toNat * 256) = [a, b, 0] := by
      rw [← bytes_eq, UInt8.toNat_zero, Nat.add_zero]
    rw [encode, decodeGroups_take_three (by omega) (by omega), hbytes]
    rfl
  | case3 a =>
    have ha := a.toNat_lt
    have hbytes : bytes (a.toNat * 65536) = [a, 0, 0] := by
      rw [← bytes_eq, UInt8.toNat_zero, Nat.zero_mul, Nat.add_zero]
    rw [encode, decodeGroups_take_two (by omega) (by omega), hbytes]
    rfl
  | case4 => rfl

/-- **Decoding inverts encoding.** -/
theorem decode_encode (s : List UInt8) : decode enc (encode enc s) = some s := by
  have hfilter : (encode enc s).filter (fun c => c ≠ 0x0A ∧ c ≠ 0x0D) = encode enc s :=
    List.filter_eq_self.mpr fun c hc => decide_eq_true (enc.noLineBreak c (mem_encode hc))
  rw [decode, hfilter, decodeGroups_encode]

/-- Where there is no error, what is put out is what is decoded. -/
theorem writtenGroups_of_decodeGroups {s b : List UInt8} (h : decodeGroups enc s = some b) :
    writtenGroups enc s = b := by
  induction s using writtenGroups.induct enc generalizing b with
  | case1 a b' c d rest va vb vc vd hd hc hb ha ih =>
    simp only [decodeGroups, ha, hb, hc, hd, Option.map_eq_some_iff] at h
    obtain ⟨b₀, hb₀, rfl⟩ := h
    simp only [writtenGroups, ha, hb, hc, hd, ih hb₀]
  | case2 a b' c d rest va vb vc hd hc hb ha hpad =>
    simp only [decodeGroups, ha, hb, hc, hd, hpad, true_and] at h
    split_ifs at h
    cases h
    simp only [writtenGroups, ha, hb, hc, hd, if_pos hpad]
  | case3 a b' c d rest va vb vc hd hc hb ha hpad =>
    simp only [decodeGroups, ha, hb, hc, hd, hpad, false_and, if_false] at h
    cases h
  | case4 a b' c d rest va vb hc hb ha hpad =>
    simp only [decodeGroups, ha, hb, hc, hpad.1, hpad.2, true_and] at h
    split_ifs at h
    cases h
    simp only [writtenGroups, ha, hb, hc, if_pos hpad]
  | case5 a b' c d rest va vb hc hb ha hpad =>
    simp only [decodeGroups, ha, hb, hc] at h
    rw [if_neg fun hall => hpad ⟨hall.1, hall.2.1⟩] at h
    cases h
  | case6 a b' c d rest htwo hfour hthree =>
    rw [decodeGroups] at h
    split at h
    · next ha hb hc hd => exact (hfour _ _ _ _ ha hb hc hd).elim
    · next ha hb hc hd => exact (hthree _ _ _ ha hb hc hd).elim
    · next ha hb hc => exact (htwo _ _ ha hb hc).elim
    · cases h
  | case7 s hshort =>
    rw [writtenGroups, h, Option.getD_some]
    exact hshort

theorem written_encode (enc : Encoding) (s : List UInt8) : written enc (encode enc s) = s :=
  writtenGroups_of_decodeGroups (decode_encode s)

/-! ### What is decoded -/

/-- What `decodeGroups` takes with padding: characters of the alphabet and up to two of padding, in
fours. -/
def IsGroups (enc : Encoding) (pad : UInt8) (s : List UInt8) : Prop :=
  ∃ chars k, s = chars ++ List.replicate k pad ∧ (∀ c ∈ chars, c ∈ enc.alphabet) ∧ k ≤ 2 ∧
    4 ∣ chars.length + k

theorem mem_alphabet_of_value {c : UInt8} {v : ℕ} (h : enc.value c = some v) :
    c ∈ enc.alphabet := by
  rw [Encoding.value] at h
  split_ifs at h with hmem
  exact hmem

theorem value_of_mem_alphabet {c : UInt8} (h : c ∈ enc.alphabet) : ∃ v, enc.value c = some v :=
  ⟨_, if_pos h⟩

theorem isGroups_of_decodeGroups {pad : UInt8} (hpad : enc.padding = some pad) :
    ∀ {s b : List UInt8}, decodeGroups enc s = some b → IsGroups enc pad s
  | a :: b' :: c :: d :: rest, b, h => by
    rw [decodeGroups] at h
    split at h
    · next ha hb hc hd =>
      obtain ⟨b₀, hb₀, -⟩ := Option.map_eq_some_iff.mp h
      obtain ⟨chars, k, rfl, hchars, hk, hlen⟩ := isGroups_of_decodeGroups hpad hb₀
      refine ⟨a :: b' :: c :: d :: chars, k, rfl, ?_, hk, ?_⟩
      · simpa [mem_alphabet_of_value ha, mem_alphabet_of_value hb, mem_alphabet_of_value hc,
          mem_alphabet_of_value hd] using hchars
      · simp only [List.length_cons]
        omega
    · next ha hb hc hd =>
      split_ifs at h with hend
      obtain ⟨hd', rfl⟩ := hend
      obtain rfl := Option.some.inj (hd'.trans hpad)
      refine ⟨[a, b', c], 1, rfl, ?_, by omega, by simp⟩
      simp [mem_alphabet_of_value ha, mem_alphabet_of_value hb, mem_alphabet_of_value hc]
    · next ha hb hc =>
      split_ifs at h with hend
      obtain ⟨hc', hd', rfl⟩ := hend
      obtain rfl := Option.some.inj (hc'.trans hpad)
      obtain rfl := Option.some.inj (hd'.trans hpad)
      refine ⟨[a, b'], 2, rfl, ?_, le_rfl, by simp⟩
      simp [mem_alphabet_of_value ha, mem_alphabet_of_value hb]
    · cases h
  | [a, b', c], b, h => by
    rw [decodeGroups, hpad] at h
    split at h <;> simp at h
  | [a, b'], b, h => by
    rw [decodeGroups, hpad] at h
    split at h <;> simp at h
  | [_], b, h => nomatch h
  | [], b, h => ⟨[], 0, rfl, by simp, by omega, by simp⟩

theorem decodeGroups_isSome {pad : UInt8} (hpad : enc.padding = some pad) :
    ∀ (chars : List UInt8) {k : ℕ}, (∀ c ∈ chars, c ∈ enc.alphabet) → k ≤ 2 →
      4 ∣ chars.length + k → (decodeGroups enc (chars ++ List.replicate k pad)).isSome
  | a :: b :: c :: d :: chars, k, hchars, hk, hlen => by
    simp only [List.forall_mem_cons] at hchars
    obtain ⟨ha, hb, hc, hd, hchars⟩ := hchars
    obtain ⟨va, ha⟩ := value_of_mem_alphabet ha
    obtain ⟨vb, hb⟩ := value_of_mem_alphabet hb
    obtain ⟨vc, hc⟩ := value_of_mem_alphabet hc
    obtain ⟨vd, hd⟩ := value_of_mem_alphabet hd
    have hrest := decodeGroups_isSome hpad chars hchars hk
      (by simp only [List.length_cons] at hlen; omega)
    simpa [decodeGroups, ha, hb, hc, hd] using hrest
  | [a, b, c], k, hchars, hk, hlen => by
    simp only [List.forall_mem_cons] at hchars
    obtain ⟨ha, hb, hc, -⟩ := hchars
    obtain ⟨va, ha⟩ := value_of_mem_alphabet ha
    obtain ⟨vb, hb⟩ := value_of_mem_alphabet hb
    obtain ⟨vc, hc⟩ := value_of_mem_alphabet hc
    obtain rfl : k = 1 := by simp only [List.length_cons, List.length_nil] at hlen; omega
    simp [decodeGroups, ha, hb, hc, value_padding hpad, hpad]
  | [a, b], k, hchars, hk, hlen => by
    simp only [List.forall_mem_cons] at hchars
    obtain ⟨ha, hb, -⟩ := hchars
    obtain ⟨va, ha⟩ := value_of_mem_alphabet ha
    obtain ⟨vb, hb⟩ := value_of_mem_alphabet hb
    obtain rfl : k = 2 := by simp only [List.length_cons, List.length_nil] at hlen; omega
    simp [decodeGroups, ha, hb, value_padding hpad, hpad]
  | [a], k, hchars, hk, hlen => by
    simp only [List.length_cons, List.length_nil] at hlen
    omega
  | [], k, hchars, hk, hlen => by
    obtain rfl : k = 0 := by simp only [List.length_nil] at hlen; omega
    rfl

/-- **What an encoding with padding decodes.** -/
theorem decode_isSome_iff {pad : UInt8} (hpad : enc.padding = some pad) (s : List UInt8) :
    (decode enc s).isSome ↔ IsGroups enc pad (s.filter fun c => c ≠ 0x0A ∧ c ≠ 0x0D) := by
  constructor
  · intro h
    obtain ⟨b, hb⟩ := Option.isSome_iff_exists.mp h
    exact isGroups_of_decodeGroups hpad hb
  · rintro ⟨chars, k, heq, hchars, hk, hlen⟩
    rw [decode, heq]
    exact decodeGroups_isSome hpad chars hchars hk hlen

end Base64
