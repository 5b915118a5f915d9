import Mathlib.Data.List.DropRight
import OpenFlux.Go.Bytes

/-!
# Times (`time`)

A `time.Time` in UTC by its calendar fields, and the text that `MarshalJSON` writes for it.  The
clock is read in the years that `MarshalJSON` accepts.
-/

namespace OpenFlux

/-- A decimal with leading zeros, of the last `width` digits. -/
def padded (width n : ℕ) : Bytes :=
  (List.range width).reverse.map fun i => UInt8.ofNat (0x30 + n / 10 ^ i % 10)

/-- A `time.Time` in UTC. -/
structure Time where
  year : Fin 10000
  month : ℕ
  day : ℕ
  hour : ℕ
  minute : ℕ
  second : ℕ
  nanosecond : ℕ
  deriving DecidableEq

/-- Years are written as numerals. -/
instance neZeroYear : NeZero 10000 := ⟨by decide⟩

namespace Time

/-- The days of a month. -/
def daysIn (month year : ℕ) : ℕ :=
  if month = 2 then if year % 4 = 0 ∧ (year % 100 ≠ 0 ∨ year % 400 = 0) then 29 else 28
  else if month = 4 ∨ month = 6 ∨ month = 9 ∨ month = 11 then 30
  else 31

/-- The fields are those of a calendar date and a time of day. -/
def Valid (t : Time) : Prop :=
  (1 ≤ t.month ∧ t.month ≤ 12) ∧ (1 ≤ t.day ∧ t.day ≤ daysIn t.month t.year) ∧ t.hour < 24 ∧
    t.minute < 60 ∧ t.second < 60 ∧ t.nanosecond < 1000000000

instance : DecidablePred Valid := fun _ => inferInstanceAs (Decidable (_ ∧ _))

/-- The zero value, which is the first instant of the year 1. -/
def zero : Time := ⟨1, 1, 1, 0, 0, 0, 0⟩

/-- The format `time.RFC3339Nano`: the fraction of a second has no trailing zeros. -/
def format (t : Time) : Bytes :=
  padded 4 t.year ++ [0x2D] ++ padded 2 t.month ++ [0x2D] ++ padded 2 t.day ++ [0x54] ++
    padded 2 t.hour ++ [0x3A] ++ padded 2 t.minute ++ [0x3A] ++ padded 2 t.second ++
    (if t.nanosecond = 0 then []
     else 0x2E :: (padded 9 t.nanosecond).rdropWhile (· == 0x30)) ++ [0x5A]

theorem valid_zero : zero.Valid := by decide

end Time

end OpenFlux
