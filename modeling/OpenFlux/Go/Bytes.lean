import OpenFlux.Algorithm.LengthPrefixed
import Mathlib.Data.UInt

/-!
# Byte strings

Go's `[]byte` as lists of `UInt8`, and the big-endian words of `encoding/binary`.  Slices that
share memory are not modelled: every function of the model returns the string it would have left
behind.

`uint16Header` packages `PutUint16`/`Uint16` as the two-byte header codec of the length-prefixed
formats.
-/

namespace OpenFlux

/-- Go's `[]byte`. -/
abbrev Bytes := List UInt8

instance : LawfulBEq Bytes := inferInstanceAs (LawfulBEq (List UInt8))

/-- `binary.BigEndian.PutUint16`. -/
def putUint16 (v : UInt16) : Bytes := [(v >>> 8).toUInt8, v.toUInt8]

/-- `binary.BigEndian.PutUint32`. -/
def putUint32 (v : UInt32) : Bytes :=
  [(v >>> 24).toUInt8, (v >>> 16).toUInt8, (v >>> 8).toUInt8, v.toUInt8]

/-- `binary.BigEndian.Uint16` on the two bytes `hi`, `lo`. -/
def beUint16 (hi lo : UInt8) : UInt16 := hi.toUInt16 <<< 8 ||| lo.toUInt16

/-- `binary.BigEndian.Uint32` on four bytes, most significant first. -/
def beUint32 (a b c d : UInt8) : UInt32 :=
  a.toUInt32 <<< 24 ||| b.toUInt32 <<< 16 ||| c.toUInt32 <<< 8 ||| d.toUInt32

theorem toNat_beUint16 (hi lo : UInt8) : (beUint16 hi lo).toNat = hi.toNat * 256 + lo.toNat := by
  have hhi := hi.toNat_lt
  have hlo := lo.toNat_lt
  have hshift : hi.toNat <<< 8 % 2 ^ 16 = hi.toNat <<< 8 := by
    rw [Nat.shiftLeft_eq]; exact Nat.mod_eq_of_lt (by omega)
  simp only [beUint16, UInt16.toNat_or, UInt16.toNat_shiftLeft, UInt8.toNat_toUInt16,
    UInt16.reduceToNat, Nat.reduceMod, hshift]
  rw [← Nat.shiftLeft_add_eq_or_of_lt hlo, Nat.shiftLeft_eq]

theorem toNat_beUint32 (a b c d : UInt8) : (beUint32 a b c d).toNat =
    ((a.toNat * 256 + b.toNat) * 256 + c.toNat) * 256 + d.toNat := by
  have hlt : ∀ x : UInt8, x.toNat < 2 ^ 8 := fun x => x.toNat_lt
  have hshift : ∀ (x : UInt8) (n : ℕ), n ≤ 24 → x.toNat <<< n % 2 ^ 32 = x.toNat <<< n := by
    intro x n hn
    rw [Nat.shiftLeft_eq]
    apply Nat.mod_eq_of_lt
    calc x.toNat * 2 ^ n < 2 ^ 8 * 2 ^ n := Nat.mul_lt_mul_of_pos_right (hlt x) (Nat.two_pow_pos n)
      _ = 2 ^ (8 + n) := (Nat.pow_add ..).symm
      _ ≤ 2 ^ 32 := Nat.pow_le_pow_right (by omega) (by omega)
  -- the bytes are shifted in one after the other
  have hin : ∀ (n : ℕ) (x : UInt8), n <<< 8 ||| x.toNat = n * 256 + x.toNat := by
    intro n x
    rw [← Nat.shiftLeft_add_eq_or_of_lt (hlt x), Nat.shiftLeft_eq]
  have horner : a.toNat <<< 24 ||| b.toNat <<< 16 ||| c.toNat <<< 8 ||| d.toNat =
      ((a.toNat <<< 8 ||| b.toNat) <<< 8 ||| c.toNat) <<< 8 ||| d.toNat := by
    simp only [Nat.shiftLeft_or_distrib, ← Nat.shiftLeft_add]
  simp only [beUint32, UInt32.toNat_or, UInt32.toNat_shiftLeft, UInt8.toNat_toUInt32,
    UInt32.reduceToNat, Nat.reduceMod]
  rw [hshift a 24 (by omega), hshift b 16 (by omega), hshift c 8 (by omega), horner, hin, hin, hin]

theorem putUint16_beUint16 (hi lo : UInt8) : putUint16 (beUint16 hi lo) = [hi, lo] := by
  have hval := toNat_beUint16 hi lo
  have hlo := lo.toNat_lt
  have hhi := hi.toNat_lt
  unfold putUint16
  congr 1
  · apply UInt8.toNat_inj.mp
    simp only [UInt16.toNat_toUInt8, UInt16.toNat_shiftRight, UInt16.reduceToNat, Nat.reduceMod,
      hval, Nat.shiftRight_eq_div_pow]
    omega
  · congr 1
    apply UInt8.toNat_inj.mp
    simp only [UInt16.toNat_toUInt8, hval]
    omega

theorem beUint16_putUint16 (v : UInt16) : beUint16 (v >>> 8).toUInt8 v.toUInt8 = v := by
  apply UInt16.toNat_inj.mp
  have hv := v.toNat_lt
  rw [toNat_beUint16]
  simp only [UInt16.toNat_toUInt8, UInt16.toNat_shiftRight, UInt16.reduceToNat, Nat.reduceMod,
    Nat.shiftRight_eq_div_pow]
  omega

/-- The two-byte big-endian length header shared by the batch formats. -/
def uint16Header : LengthPrefixed.HeaderCodec UInt8 where
  width := 2
  bound := 65536
  encode n := putUint16 (UInt16.ofNat n)
  decode h := (beUint16 (h.getD 0 0) (h.getD 1 0)).toNat
  encode_length _ := rfl
  decode_encode n hn := by
    show (beUint16 (UInt16.ofNat n >>> 8).toUInt8 (UInt16.ofNat n).toUInt8).toNat = n
    rw [beUint16_putUint16, UInt16.toNat_ofNat']
    exact Nat.mod_eq_of_lt hn
  decode_lt _ _ := UInt16.toNat_lt _
  encode_decode h hh := by
    obtain ⟨hi, lo, rfl⟩ := List.length_eq_two.mp hh
    rw [UInt16.ofNat_toNat]
    exact putUint16_beUint16 hi lo

end OpenFlux
