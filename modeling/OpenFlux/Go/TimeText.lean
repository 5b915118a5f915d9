import OpenFlux.Go.Scan
import OpenFlux.Go.Time

/-!
# Times from text (`time`)

The texts of RFC 3339 in UTC, as `MarshalJSON` writes them, are read back (`parseUTC_format`).
-/

namespace OpenFlux

theorem padded_succ (width n : ℕ) :
    padded (width + 1) n = UInt8.ofNat (0x30 + n / 10 ^ width % 10) :: padded width n := by
  rw [padded, List.range_succ, List.reverse_concat]
  rfl

theorem length_padded (width n : ℕ) : (padded width n).length = width := by
  rw [padded, List.length_map, List.length_reverse, List.length_range]

theorem decimalValue_padded (width n : ℕ) : decimalValue (padded width n) = n % 10 ^ width := by
  have hfold : ∀ m : ℕ, (padded width n).foldl (fun n c => n * 10 + (c.toNat - 0x30)) m =
      m * 10 ^ width + n % 10 ^ width := by
    induction width with
    | zero =>
      intro m
      show m = m * 10 ^ 0 + n % 10 ^ 0
      omega
    | succ width ih =>
      intro m
      have hdigit : (UInt8.ofNat (0x30 + n / 10 ^ width % 10)).toNat - 0x30 =
          n / 10 ^ width % 10 := by
        rw [UInt8.toNat_ofNat']
        omega
      rw [padded_succ, List.foldl_cons, ih, hdigit, Nat.add_mul, Nat.mul_assoc, ← pow_succ',
        Nat.mod_pow_succ, Nat.mul_comm (10 ^ width)]
      omega
  rw [decimalValue, hfold, Nat.zero_mul, Nat.zero_add]

namespace Time

/-- The time that a text of the format reads as, whatever else it is. -/
def ofText (s : Bytes) : Time where
  year := Fin.ofNat 10000 (decimalValue (s.take 4))
  month := decimalValue ((s.drop 5).take 2)
  day := decimalValue ((s.drop 8).take 2)
  hour := decimalValue ((s.drop 11).take 2)
  minute := decimalValue ((s.drop 14).take 2)
  second := decimalValue ((s.drop 17).take 2)
  nanosecond := decimalValue (((s.drop 20).dropLast ++ List.replicate 9 0x30).take 9)

/-- `time.Parse` with `time.RFC3339Nano`, for the texts that `format` writes. -/
def parseUTC (s : Bytes) : Option Time :=
  if (ofText s).Valid ∧ (ofText s).format = s then some (ofText s) else none

theorem valid_of_parseUTC {s : Bytes} {t : Time} (h : parseUTC s = some t) : t.Valid := by
  obtain ⟨⟨hvalid, -⟩, ht⟩ := Option.ite_none_right_eq_some.mp h
  exact Option.some.inj ht ▸ hvalid

/-- The digits of a fraction, without the zeros at the end and with them again. -/
theorem take_rdropWhile_append {s : Bytes} {n : ℕ} (h : s.length = n) (c : UInt8) :
    (s.rdropWhile (· == c) ++ List.replicate n c).take n = s := by
  have hall : ∀ d ∈ s.rtakeWhile (· == c), d = c := by
    intro d hd
    have hbeq := List.mem_rtakeWhile_imp hd
    exact eq_of_beq hbeq
  have hzeros := List.eq_replicate_of_mem hall
  have hsplit : s.rdropWhile (· == c) ++ s.rtakeWhile (· == c) = s :=
    List.rdropWhile_append_rtakeWhile ..
  have hlen : (s.rtakeWhile (· == c)).length ≤ n := by
    rw [← h, ← congrArg List.length hsplit, List.length_append]
    omega
  obtain ⟨k, hk⟩ := Nat.exists_eq_add_of_le hlen
  have hreplicate : List.replicate n c = s.rtakeWhile (· == c) ++ List.replicate k c := by
    rw [hzeros, ← List.replicate_add, ← hk]
  rw [hreplicate, ← List.append_assoc, hsplit]
  exact List.take_left' h

/-- What `format` writes for the fraction of a second. -/
def fraction (t : Time) : Bytes :=
  if t.nanosecond = 0 then [] else 0x2E :: (padded 9 t.nanosecond).rdropWhile (· == 0x30)

theorem decimalValue_fraction {t : Time} (h : t.nanosecond < 1000000000) :
    decimalValue ((((fraction t ++ [0x5A]).drop 1).dropLast ++ List.replicate 9 0x30).take 9) =
      t.nanosecond := by
  unfold fraction
  split_ifs with hzero
  · rw [hzero]
    rfl
  · rw [List.cons_append, List.drop_one, List.tail_cons, List.dropLast_concat,
      take_rdropWhile_append (length_padded 9 _), decimalValue_padded]
    exact Nat.mod_eq_of_lt h

theorem ofText_format {t : Time} (h : t.Valid) : ofText t.format = t := by
  obtain ⟨⟨-, hmonth⟩, ⟨-, hday⟩, hhour, hminute, hsecond, hnano⟩ := h
  have hdays : daysIn t.month t.year ≤ 31 := by
    unfold daysIn
    split_ifs <;> omega
  have htwo {n : ℕ} (hn : n < 100) : decimalValue (padded 2 n) = n := by
    rw [decimalValue_padded]
    exact Nat.mod_eq_of_lt hn
  have hyear : Fin.ofNat 10000 (decimalValue (padded 4 t.year)) = t.year := by
    rw [decimalValue_padded]
    apply Fin.ext
    show t.year.val % 10 ^ 4 % 10000 = t.year.val
    omega
  have hlist (n : ℕ) : ∃ a b, padded 2 n = [a, b] := ⟨_, _, rfl⟩
  obtain ⟨y₀, y₁, y₂, y₃, hy⟩ : ∃ a b c d, padded 4 t.year = [a, b, c, d] := ⟨_, _, _, _, rfl⟩
  obtain ⟨o₀, o₁, ho⟩ := hlist t.month
  obtain ⟨d₀, d₁, hd⟩ := hlist t.day
  obtain ⟨h₀, h₁, hh⟩ := hlist t.hour
  obtain ⟨m₀, m₁, hm⟩ := hlist t.minute
  obtain ⟨s₀, s₁, hs⟩ := hlist t.second
  have hformat : t.format = y₀ :: y₁ :: y₂ :: y₃ :: 0x2D :: o₀ :: o₁ :: 0x2D :: d₀ :: d₁ :: 0x54 ::
      h₀ :: h₁ :: 0x3A :: m₀ :: m₁ :: 0x3A :: s₀ :: s₁ :: (fraction t ++ [0x5A]) := by
    rw [format, hy, ho, hd, hh, hm, hs]
    rfl
  calc ofText t.format
      = ⟨Fin.ofNat 10000 (decimalValue [y₀, y₁, y₂, y₃]), decimalValue [o₀, o₁],
          decimalValue [d₀, d₁], decimalValue [h₀, h₁], decimalValue [m₀, m₁],
          decimalValue [s₀, s₁], decimalValue
            ((((fraction t ++ [0x5A]).drop 1).dropLast ++ List.replicate 9 0x30).take 9)⟩ := by
        rw [hformat]
        rfl
    _ = t := by
        rw [← hy, ← ho, ← hd, ← hh, ← hm, ← hs, hyear, htwo (by omega), htwo (by omega),
          htwo (by omega), htwo (by omega), htwo (by omega), decimalValue_fraction hnano]

theorem parseUTC_format {t : Time} (h : t.Valid) : parseUTC t.format = some t := by
  rw [parseUTC, ofText_format h, if_pos ⟨h, rfl⟩]

end Time

end OpenFlux
