import Mathlib.Data.List.Chain
import OpenFlux.App.Utf16
import OpenFlux.Go.Utf8

/-!
# Texts from bytes (`String` of a byte array, in UTF-8)

Bytes that encode no character become U+FFFD: one for the longest beginning of an encoding that they
are, or for each of them.  `decode_append` says when a text can be decoded in two parts, and
`decode_of_isChain` that bytes of which no two begin an encoding are decoded one by one.
`decode_toByteArray` is the round trip of a string through its bytes.
-/

namespace OpenFlux.Kotlin

/-- The code units of a code point. -/
def codeUnits (code : ℕ) : List UInt16 :=
  if code < 0x10000 then [UInt16.ofNat code]
  else
    [0xD800 + UInt16.ofNat ((code - 0x10000) / 0x400),
      0xDC00 + UInt16.ofNat ((code - 0x10000) % 0x400)]

/-- The code units of a text. -/
def units (s : String) : List UInt16 := s.toList.flatMap fun c => codeUnits c.toNat

namespace Utf8

/-- What is written for bytes that encode no character. -/
def replacement : UInt16 := 0xFFFD

/-- What has been read of a character: its bits, and the ranges of the bytes to come. -/
structure Decoder where
  code : ℕ := 0
  ranges : List (UInt8 × UInt8) := []

/-- The first byte of a character. -/
def first (c : UInt8) : List UInt16 × Decoder :=
  match acceptRanges c with
  | none => ([replacement], {})
  | some [] => ([c.toUInt16], {})
  | some ranges => ([], ⟨c.toNat % 2 ^ (6 - ranges.length), ranges⟩)

/-- A byte. -/
def Decoder.step (d : Decoder) (c : UInt8) : List UInt16 × Decoder :=
  match d.ranges with
  | [] => first c
  | range :: ranges =>
    if range.1 ≤ c ∧ c ≤ range.2 then
      let code := d.code * 0x40 + c.toNat % 0x40
      if ranges = [] then (codeUnits code, {}) else ([], ⟨code, ranges⟩)
    -- the character ends without its last bytes, and the byte is the first of another one
    else (replacement :: (first c).1, (first c).2)

def Decoder.decode : Decoder → Bytes → List UInt16
  | d, [] => if d.ranges = [] then [] else [replacement]
  | d, c :: s => (d.step c).1 ++ (d.step c).2.decode s

/-- `String` of these bytes. -/
def decode (s : Bytes) : List UInt16 := Decoder.decode {} s

/-- What has been read of a character after these bytes. -/
def Decoder.after (d : Decoder) (s : Bytes) : Decoder := s.foldl (fun d c => (d.step c).2) d

/-- The bytes begin an encoding of more than one byte. -/
def continues (c d : UInt8) : Bool :=
  match acceptRanges c with
  | some (range :: _) => range.1 ≤ d && d ≤ range.2
  | _ => false

/-- What a byte is decoded as on its own. -/
def single (c : UInt8) : UInt16 := if c < 0x80 then c.toUInt16 else replacement

theorem single_eq_iff {d : UInt8} (hd : d < 0x80) (c : UInt8) :
    single c = d.toUInt16 ↔ c = d := by
  rw [single]
  split_ifs with hc
  · exact UInt8.toUInt16_inj
  · refine iff_of_false (fun h => ?_) fun h => hc (h ▸ hd)
    have hnat := congrArg UInt16.toNat h
    rw [UInt8.toNat_toUInt16] at hnat
    have hlt := d.toNat_lt
    have hreplacement : replacement.toNat = 65533 := rfl
    omega

/-! ### Parts -/

theorem Decoder.decode_of_ranges {d : Decoder} (h : d.ranges = []) (s : Bytes) :
    d.decode s = Utf8.decode s := by
  cases s with
  | nil => rw [Decoder.decode, if_pos h]; rfl
  | cons c s => simp only [Utf8.decode, Decoder.decode, Decoder.step, h]

theorem Decoder.decode_append {d : Decoder} {s : Bytes} (h : (d.after s).ranges = []) (t : Bytes) :
    d.decode (s ++ t) = d.decode s ++ Utf8.decode t := by
  induction s generalizing d with
  | nil =>
    have hd : d.ranges = [] := h
    rw [List.nil_append, decode_of_ranges hd, Decoder.decode, if_pos hd, List.nil_append]
  | cons c s ih =>
    rw [List.cons_append, Decoder.decode, Decoder.decode, ih h, List.append_assoc]

/-- Bytes that end with a character are decoded on their own. -/
theorem decode_append {s : Bytes} (h : (Decoder.after {} s).ranges = []) (t : Bytes) :
    decode (s ++ t) = decode s ++ decode t :=
  Decoder.decode_append h t

/-! ### Byte by byte -/

theorem acceptRanges_of_lt {c : UInt8} (h : c < 0x80) : acceptRanges c = some [] := by
  rw [acceptRanges, if_pos h]

theorem not_lt_of_acceptRanges {c : UInt8} (h : acceptRanges c ≠ some []) : ¬ c < 0x80 :=
  fun hlt => h (acceptRanges_of_lt hlt)

theorem lt_of_acceptRanges {c : UInt8} (h : acceptRanges c = some []) : c < 0x80 := by
  by_contra hlt
  rw [acceptRanges, if_neg hlt] at h
  split_ifs at h <;> cases h

/-- The first byte of an encoding of more than one byte, and the bytes after it. -/
theorem bounds_of_acceptRanges {c : UInt8} {range : UInt8 × UInt8} {ranges : List (UInt8 × UInt8)}
    (h : acceptRanges c = some (range :: ranges)) :
    0xC2 ≤ c ∧ 0x80 ≤ range.1 ∧ range.2 ≤ 0xBF ∧ (ranges = [] → c ≤ 0xDF) := by
  simp only [acceptRanges, UInt8.lt_iff_toNat_lt, UInt8.le_iff_toNat_le, ← UInt8.toNat_inj,
    UInt8.reduceToNat] at h ⊢
  split_ifs at h <;> cases h <;> simp only [UInt8.reduceToNat, reduceCtorEq, false_imp_iff,
    true_imp_iff, and_true] <;> omega

theorem continues_of_lt {c d : UInt8} (h : d < 0x80) : continues c d = false := by
  rw [continues]
  rcases hranges : acceptRanges c with - | - | ⟨range, ranges⟩
  · rfl
  · rfl
  · have hbound := (bounds_of_acceptRanges hranges).2.1
    have hd : ¬ range.1 ≤ d := UInt8.not_le.mpr (UInt8.lt_of_lt_of_le h hbound)
    simp [hd]

theorem single_of_continues {c d : UInt8} (h : continues c d = true) :
    single c = replacement ∧ single d = replacement := by
  have hc : ¬ c < 0x80 := by
    intro hlt
    rw [continues, acceptRanges_of_lt hlt] at h
    cases h
  have hd : ¬ d < 0x80 := by
    intro hlt
    rw [continues_of_lt hlt] at h
    cases h
  exact ⟨if_neg hc, if_neg hd⟩

/-- Bytes of which no two begin an encoding. -/
theorem decode_of_isChain {s : Bytes} (h : s.IsChain fun c d => continues c d = false) :
    decode s = s.map single := by
  induction s with
  | nil => rfl
  | cons c s ih =>
    have hs := ih h.tail
    change (first c).1 ++ (first c).2.decode s = single c :: s.map single
    rw [← hs]
    rcases hc : acceptRanges c with - | - | ⟨range, ranges⟩
    · have hlt := not_lt_of_acceptRanges (c := c) (by rw [hc]; exact nofun)
      simp only [first, hc]
      rw [single, if_neg hlt]
      rfl
    · simp only [first, hc]
      rw [single, if_pos (lt_of_acceptRanges hc)]
      rfl
    · have hlt := not_lt_of_acceptRanges (c := c) (by rw [hc]; exact nofun)
      simp only [first, hc]
      rw [single, if_neg hlt, List.nil_append]
      cases s with
      | nil => rfl
      | cons d s =>
        have hd : ¬ (range.1 ≤ d ∧ d ≤ range.2) := by
          have hcontinues := (List.isChain_cons_cons.mp h).1
          simpa only [continues, hc, Bool.and_eq_false_iff, decide_eq_false_iff_not,
            not_and_or] using hcontinues
        simp only [Decoder.decode, Decoder.step, if_neg hd]
        rfl

/-- A byte that continues a character is decoded together with it. -/
theorem decode_of_continues {c d : UInt8} (h : continues c d = true) :
    ∃ u, decode [c, d] = [u] ∧ 0x80 ≤ u := by
  rw [continues] at h
  rcases hranges : acceptRanges c with - | - | ⟨range, ranges⟩
  · simp [hranges] at h
  · simp [hranges] at h
  · simp only [hranges, Bool.and_eq_true, decide_eq_true_iff] at h
    simp only [decode, Decoder.decode, Decoder.step, first, hranges, if_pos h]
    by_cases hlast : ranges = []
    · subst hlast
      obtain ⟨hc, hlow, hhigh, hle⟩ := bounds_of_acceptRanges hranges
      have hd := UInt8.le_iff_toNat_le.mp (UInt8.le_trans hlow h.1)
      have hd' := UInt8.le_iff_toNat_le.mp (UInt8.le_trans h.2 hhigh)
      have hc := UInt8.le_iff_toNat_le.mp hc
      have hc' := UInt8.le_iff_toNat_le.mp (hle rfl)
      simp only [UInt8.reduceToNat] at hd hd' hc hc'
      have hcode : c.toNat % 2 ^ (6 - [range].length) * 0x40 + d.toNat % 0x40 =
          (c.toNat - 0xC0) * 0x40 + (d.toNat - 0x80) := by
        simp only [List.length_singleton]
        omega
      have hlt : (c.toNat - 0xC0) * 0x40 + (d.toNat - 0x80) < 0x10000 := by omega
      rw [hcode, codeUnits, if_pos hlt]
      refine ⟨_, rfl, UInt16.le_iff_toNat_le.mpr ?_⟩
      rw [UInt16.toNat_ofNat_of_lt' hlt]
      simp only [UInt16.reduceToNat]
      omega
    · simp only [if_neg hlast]
      exact ⟨replacement, rfl, by decide⟩

/-! ### Round trip -/

theorem toNat_ofNat_of_lt {n : ℕ} (h : n < 256) : (UInt8.ofNat n).toNat = n := by
  rw [UInt8.toNat_ofNat']
  exact Nat.mod_eq_of_lt h

/-- A byte of this value is in the range. -/
theorem ofNat_mem_range {r : UInt8 × UInt8} {n : ℕ} (h : r.1.toNat ≤ n ∧ n ≤ r.2.toNat) :
    r.1 ≤ UInt8.ofNat n ∧ UInt8.ofNat n ≤ r.2 := by
  have hlt := r.2.toNat_lt
  rw [UInt8.le_iff_toNat_le, UInt8.le_iff_toNat_le, toNat_ofNat_of_lt (by omega)]
  exact h

/-- A byte after the first one of a character, if nothing more is asked of it. -/
theorem ofNat_mem_continuation (n : ℕ) :
    (0x80 : UInt8) ≤ UInt8.ofNat (n % 0x40 + 0x80) ∧ UInt8.ofNat (n % 0x40 + 0x80) ≤ 0xBF := by
  apply ofNat_mem_range (r := (0x80, 0xBF))
  show 0x80 ≤ _ ∧ _ ≤ 0xBF
  omega

theorem acceptRanges_ofNat {n : ℕ} (h : n < 256) : acceptRanges (UInt8.ofNat n) =
    if n < 0x80 then some []
    else if 0xC2 ≤ n ∧ n ≤ 0xDF then some [(0x80, 0xBF)]
    else if n = 0xE0 then some [(0xA0, 0xBF), (0x80, 0xBF)]
    else if n = 0xED then some [(0x80, 0x9F), (0x80, 0xBF)]
    else if 0xE1 ≤ n ∧ n ≤ 0xEF then some [(0x80, 0xBF), (0x80, 0xBF)]
    else if n = 0xF0 then some [(0x90, 0xBF), (0x80, 0xBF), (0x80, 0xBF)]
    else if 0xF1 ≤ n ∧ n ≤ 0xF3 then some [(0x80, 0xBF), (0x80, 0xBF), (0x80, 0xBF)]
    else if n = 0xF4 then some [(0x80, 0x8F), (0x80, 0xBF), (0x80, 0xBF)]
    else none := by
  simp only [acceptRanges, UInt8.lt_iff_toNat_lt, UInt8.le_iff_toNat_le, ← UInt8.toNat_inj,
    toNat_ofNat_of_lt h, UInt8.reduceToNat]

/-- The bytes of a character after the first. -/
theorem decode_of_forall₂ {range : UInt8 × UInt8} {ranges : List (UInt8 × UInt8)} {d : UInt8}
    {s : Bytes} (hd : range.1 ≤ d ∧ d ≤ range.2)
    (h : List.Forall₂ (fun (r : UInt8 × UInt8) (d : UInt8) => r.1 ≤ d ∧ d ≤ r.2) ranges s)
    (code : ℕ) (t : Bytes) : Decoder.decode ⟨code, range :: ranges⟩ (d :: s ++ t) =
      codeUnits ((d :: s).foldl (fun n (d : UInt8) => n * 0x40 + d.toNat % 0x40) code) ++
        decode t := by
  induction h generalizing range d code with
  | nil =>
    rw [List.cons_append, Decoder.decode, Decoder.step]
    simp only [hd, and_self, if_true]
    rfl
  | cons hd' _ ih =>
    rw [List.cons_append, Decoder.decode, Decoder.step]
    simp only [hd, and_self, if_true, reduceCtorEq, if_false]
    exact ih hd' _

/-- A character of more than one byte. -/
theorem decode_cons_of_forall₂ {c : UInt8} {range : UInt8 × UInt8} {ranges : List (UInt8 × UInt8)}
    {d : UInt8} {s : Bytes} (hc : acceptRanges c = some (range :: ranges))
    (hd : range.1 ≤ d ∧ d ≤ range.2)
    (h : List.Forall₂ (fun (r : UInt8 × UInt8) (d : UInt8) => r.1 ≤ d ∧ d ≤ r.2) ranges s)
    (t : Bytes) : decode (c :: d :: s ++ t) =
      codeUnits ((d :: s).foldl (fun n (d : UInt8) => n * 0x40 + d.toNat % 0x40)
        (c.toNat % 2 ^ (6 - (range :: ranges).length))) ++ decode t := by
  rw [decode, List.cons_append, List.cons_append, Decoder.decode, Decoder.step]
  simp only [first, hc, List.nil_append]
  exact decode_of_forall₂ hd h _ t

/-- The encoding of a character is decoded to its code units. -/
theorem decode_utf8EncodeChar (c : Char) (t : Bytes) :
    decode (String.utf8EncodeChar c ++ t) = codeUnits c.toNat ++ decode t := by
  have hvalid : c.val.toNat < 0xD800 ∨ 0xDFFF < c.val.toNat ∧ c.val.toNat < 0x110000 := c.valid
  show _ = codeUnits c.val.toNat ++ _
  unfold String.utf8EncodeChar
  generalize c.val.toNat = n at hvalid
  dsimp only
  split_ifs with h1 h2 h3
  · have hlt : UInt8.ofNat n < 0x80 := by
      rw [UInt8.lt_iff_toNat_lt, toNat_ofNat_of_lt (by omega)]
      exact Nat.lt_succ_of_le h1
    rw [List.singleton_append, decode, Decoder.decode, Decoder.step]
    simp only [first, acceptRanges_of_lt hlt]
    rw [codeUnits, if_pos (by omega)]
    refine congrArg (fun u => [u] ++ decode t) ?_
    rw [← UInt16.toNat_inj, UInt8.toNat_toUInt16, toNat_ofNat_of_lt (by omega), UInt16.toNat_ofNat']
    omega
  · have hc : acceptRanges (UInt8.ofNat (n / 64 % 32 + 192)) = some [(0x80, 0xBF)] := by
      rw [acceptRanges_ofNat (by omega), if_neg (by omega), if_pos (by omega)]
    rw [decode_cons_of_forall₂ hc (ofNat_mem_continuation _) .nil]
    refine congrArg (codeUnits · ++ decode _) ?_
    simp only [List.foldl_cons, List.foldl_nil, List.length_cons, List.length_nil]
    rw [toNat_ofNat_of_lt (by omega), toNat_ofNat_of_lt (by omega)]
    omega
  · obtain ⟨r, hc, hr⟩ : ∃ r : UInt8 × UInt8,
        acceptRanges (UInt8.ofNat (n / 4096 % 16 + 224)) = some [r, (0x80, 0xBF)] ∧
        r.1.toNat ≤ n / 64 % 64 + 128 ∧ n / 64 % 64 + 128 ≤ r.2.toNat := by
      rw [acceptRanges_ofNat (by omega), if_neg (by omega), if_neg (by omega)]
      split_ifs with h4 h5 h6
      · exact ⟨(0xA0, 0xBF), rfl, show 0xA0 ≤ _ ∧ _ ≤ 0xBF by omega⟩
      · exact ⟨(0x80, 0x9F), rfl, show 0x80 ≤ _ ∧ _ ≤ 0x9F by omega⟩
      · exact ⟨(0x80, 0xBF), rfl, show 0x80 ≤ _ ∧ _ ≤ 0xBF by omega⟩
      all_goals omega
    rw [decode_cons_of_forall₂ hc (ofNat_mem_range hr) (.cons (ofNat_mem_continuation _) .nil)]
    refine congrArg (codeUnits · ++ decode _) ?_
    simp only [List.foldl_cons, List.foldl_nil, List.length_cons, List.length_nil]
    rw [toNat_ofNat_of_lt (by omega), toNat_ofNat_of_lt (by omega), toNat_ofNat_of_lt (by omega)]
    omega
  · obtain ⟨r, hc, hr⟩ : ∃ r : UInt8 × UInt8,
        acceptRanges (UInt8.ofNat (n / 262144 % 8 + 240)) =
          some [r, (0x80, 0xBF), (0x80, 0xBF)] ∧
        r.1.toNat ≤ n / 4096 % 64 + 128 ∧ n / 4096 % 64 + 128 ≤ r.2.toNat := by
      rw [acceptRanges_ofNat (by omega), if_neg (by omega), if_neg (by omega), if_neg (by omega),
        if_neg (by omega), if_neg (by omega)]
      split_ifs with h4 h5 h6
      · exact ⟨(0x90, 0xBF), rfl, show 0x90 ≤ _ ∧ _ ≤ 0xBF by omega⟩
      · exact ⟨(0x80, 0xBF), rfl, show 0x80 ≤ _ ∧ _ ≤ 0xBF by omega⟩
      · exact ⟨(0x80, 0x8F), rfl, show 0x80 ≤ _ ∧ _ ≤ 0x8F by omega⟩
      · omega
    rw [decode_cons_of_forall₂ hc (ofNat_mem_range hr)
      (.cons (ofNat_mem_continuation _) (.cons (ofNat_mem_continuation _) .nil))]
    refine congrArg (codeUnits · ++ decode _) ?_
    simp only [List.foldl_cons, List.foldl_nil, List.length_cons, List.length_nil]
    rw [toNat_ofNat_of_lt (by omega), toNat_ofNat_of_lt (by omega), toNat_ofNat_of_lt (by omega),
      toNat_ofNat_of_lt (by omega)]
    omega

/-- The text of these characters. -/
theorem decode_utf8 (s : List Char) : decode (utf8 s) = s.flatMap fun c => codeUnits c.toNat := by
  induction s with
  | nil => rfl
  | cons c s ih =>
    rw [utf8, List.flatMap_cons, decode_utf8EncodeChar, List.flatMap_cons]
    exact congrArg (codeUnits c.toNat ++ ·) ih

/-- A string whose surrogates without a partner have become question marks. -/
def replaceUnpaired : List UInt16 → List UInt16
  | [] => []
  | [u] => [if Utf16.isHighSurrogate u || Utf16.isLowSurrogate u then 0x3F else u]
  | u :: v :: s =>
    if Utf16.isHighSurrogate u && Utf16.isLowSurrogate v then u :: v :: replaceUnpaired s
    else (if Utf16.isHighSurrogate u || Utf16.isLowSurrogate u then 0x3F else u) ::
      replaceUnpaired (v :: s)

theorem codeUnits_single (u : UInt16) : codeUnits (Utf16.single u).toNat =
    [if Utf16.isHighSurrogate u || Utf16.isLowSurrogate u then 0x3F else u] := by
  by_cases hsurrogate : (Utf16.isHighSurrogate u || Utf16.isLowSurrogate u) = true
  · rw [Utf16.single, if_pos hsurrogate, if_pos hsurrogate]
    rfl
  · have hneither := Bool.or_eq_false_iff.mp (Bool.eq_false_iff.mpr hsurrogate)
    rw [Utf16.toNat_single hneither.1 hneither.2, if_neg hsurrogate, codeUnits,
      if_pos (by simpa using u.toNat_lt), UInt16.ofNat_toNat]

theorem codeUnits_pair {u v : UInt16} (hhigh : Utf16.isHighSurrogate u = true)
    (hlow : Utf16.isLowSurrogate v = true) : codeUnits (Utf16.pair u v).toNat = [u, v] := by
  have hge := Utf16.toNat_pair hhigh hlow
  simp only [Utf16.isHighSurrogate, Utf16.isLowSurrogate, Bool.and_eq_true, decide_eq_true_iff,
    UInt16.le_iff_toNat_le, UInt16.lt_iff_toNat_lt, UInt16.reduceToNat] at hhigh hlow
  have hvalid : (0x10000 + (u.toNat - 0xD800) * 0x400 + (v.toNat - 0xDC00)).isValidChar := by
    unfold Nat.isValidChar
    omega
  rw [Utf16.pair, Utf16.toNat_ofNat hvalid, codeUnits, if_neg (by omega)]
  generalize hcode : 0x10000 + (u.toNat - 0xD800) * 0x400 + (v.toNat - 0xDC00) - 0x10000 = code
  have hu : 0xD800 + UInt16.ofNat (code / 0x400) = u := by
    simp only [← UInt16.toNat_inj, UInt16.toNat_add, UInt16.toNat_ofNat', UInt16.reduceToNat]
    omega
  have hv : 0xDC00 + UInt16.ofNat (code % 0x400) = v := by
    simp only [← UInt16.toNat_inj, UInt16.toNat_add, UInt16.toNat_ofNat', UInt16.reduceToNat]
    omega
  rw [hu, hv]

/-- What comes back of a string that was written in UTF-8. -/
theorem decode_toByteArray (s : List UInt16) :
    decode (Utf16.toByteArray s) = replaceUnpaired s := by
  rw [Utf16.toByteArray, decode_utf8]
  induction s using Utf16.chars.induct with
  | case1 => rfl
  | case2 u =>
    rw [Utf16.chars, List.flatMap_singleton, codeUnits_single, replaceUnpaired]
  | case3 u v s hpair ih =>
    have hboth := Bool.and_eq_true_iff.mp hpair
    rw [Utf16.chars, if_pos hpair, List.flatMap_cons, codeUnits_pair hboth.1 hboth.2, ih,
      replaceUnpaired, if_pos hpair]
    rfl
  | case4 u v s hpair ih =>
    rw [Utf16.chars, if_neg hpair, List.flatMap_cons, codeUnits_single, ih, replaceUnpaired,
      if_neg hpair]
    rfl

end Utf8

end OpenFlux.Kotlin
