import Mathlib.Data.List.ReduceOption
import OpenFlux.Algorithm.RingBuffer
import OpenFlux.App.TailOutputStream
import OpenFlux.Go.Json

/-!
# What the stream has kept

The array is a ring buffer of the last bytes (`Keeps`), whatever the writes.  `text` finds them at
`(start + it) % capacity`, where the sum of two `Int`s below the capacity may be no `Int`:
`result_iff` says when it is.
-/

namespace OpenFlux.App.TailOutputStream

open RingBuffer

variable {s : TailOutputStream} {written : Bytes}

/-- The stream has the last of the bytes written. -/
structure Keeps (s : TailOutputStream) (written : Bytes) : Prop where
  pos : 0 < s.bytes.length
  capacity : s.capacity.toInt = s.bytes.length
  holds : Holds s.bytes written
  next : s.next.toInt = (written.length % s.bytes.length : ℕ)
  size : s.size.toInt = (min written.length s.bytes.length : ℕ)

theorem keeps_ofCapacity {capacity : Int32} (h : 1 ≤ capacity) :
    Keeps (ofCapacity capacity) [] := by
  have hle : (1 : Int32).toInt ≤ capacity.toInt := Int32.le_iff_toInt_le.mp h
  rw [show (1 : Int32).toInt = 1 from rfl] at hle
  have hlength : (ofCapacity capacity).bytes.length = capacity.toInt.toNat :=
    List.length_replicate
  refine ⟨by omega, ?_, holds_nil _, ?_, ?_⟩
  · show capacity.toInt = _
    omega
  · rw [List.length_nil, Nat.zero_mod]
    rfl
  · rw [List.length_nil, Nat.zero_min]
    rfl

theorem length_lt (h : Keeps s written) : s.bytes.length < 2 ^ 31 := by
  have hlt := s.capacity.toInt_lt
  rw [h.capacity] at hlt
  exact_mod_cast hlt

/-! ### Writing -/

theorem toInt_add_ofNat {a : Int32} {m n : ℕ} (ha : a.toInt = m) (h : m + n < 2 ^ 31) :
    (a + Int32.ofNat n).toInt = (m + n : ℕ) := by
  rw [Int32.toInt_add, ha, Int32.toInt_ofNat_of_lt (by omega),
    Int.bmod_eq_of_le (by omega) (by omega), Nat.cast_add]

theorem toInt_mod_natCast {a b : Int32} {m n : ℕ} (ha : a.toInt = m) (hb : b.toInt = n) :
    (a % b).toInt = (m % n : ℕ) := by
  rw [Int32.toInt_mod, ha, hb]
  exact Int.ofNat_tmod m n

theorem arrayGet_eq {array : Bytes} {index : Int32} {n : ℕ} (h : index.toInt = n) :
    arrayGet array index = array[n]? := by
  have hpos : 0 ≤ index := Int32.le_iff_toInt_le.mpr (by rw [h]; exact Int.natCast_nonneg n)
  rw [arrayGet, if_pos hpos, h, Int.toNat_natCast]

theorem arraySet_eq {array : Bytes} {index : Int32} {n : ℕ} (h : index.toInt = n)
    (hn : n < array.length) (value : UInt8) :
    arraySet array index value = some (array.set n value) := by
  have hpos : 0 ≤ index := Int32.le_iff_toInt_le.mpr (by rw [h]; exact Int.natCast_nonneg n)
  rw [arraySet, if_pos ⟨hpos, by omega⟩, h, Int.toNat_natCast]

/-- The bytes that are left after a write of one more. -/
theorem exists_write (h : Keeps s written) (value : Int32) :
    ∃ s', s.write value = some s' ∧ s'.capacity = s.capacity ∧
      Keeps s' (written ++ [value.toInt8.toUInt8]) := by
  have hlt : written.length % s.bytes.length < s.bytes.length := Nat.mod_lt _ h.pos
  have hmax := length_lt h
  refine ⟨{
    s with
    bytes := s.bytes.set (written.length % s.bytes.length) value.toInt8.toUInt8
    next := (s.next + 1) % s.capacity
    size := if s.size < s.capacity then s.size + 1 else s.size }, ?_, rfl, ?_⟩
  · rw [write, arraySet_eq h.next hlt]
    rfl
  have hlength : (s.bytes.set (written.length % s.bytes.length) value.toInt8.toUInt8).length =
      s.bytes.length := List.length_set
  refine ⟨?_, ?_, h.holds.concat _, ?_, ?_⟩
  · rw [hlength]
    exact h.pos
  · rw [hlength]
    exact h.capacity
  · show ((s.next + 1) % s.capacity).toInt = _
    have hadd : (s.next + 1).toInt = _ := toInt_add_ofNat (n := 1) h.next (by omega)
    rw [hlength, toInt_mod_natCast hadd h.capacity, Nat.mod_add_mod, List.length_append,
      List.length_singleton]
  · show (if s.size < s.capacity then s.size + 1 else s.size).toInt = _
    rw [hlength, List.length_append, List.length_singleton]
    have hiff : s.size < s.capacity ↔ written.length < s.bytes.length := by
      rw [Int32.lt_iff_toInt_lt, h.size, h.capacity]
      omega
    by_cases hfull : written.length < s.bytes.length
    · have hadd : (s.size + 1).toInt = _ := toInt_add_ofNat (n := 1) h.size (by omega)
      rw [if_pos (hiff.mpr hfull), hadd]
      omega
    · rw [if_neg (hiff.not.mpr hfull), h.size]
      omega

theorem keeps_writeAll (value : Bytes) (indices : List Int32) (h : Keeps s written) :
    Keeps (writeAll value indices s).1
        (written ++
          ((indices.map (arrayGet value)).takeWhile Option.isSome).reduceOption) ∧
      (writeAll value indices s).1.capacity = s.capacity := by
  induction indices generalizing s written with
  | nil => exact ⟨(List.append_nil written).symm ▸ h, rfl⟩
  | cons index indices ih =>
    rw [writeAll, valueAt, List.map_cons]
    cases hget : arrayGet value index with
    | none => exact ⟨(List.append_nil written).symm ▸ h, rfl⟩
    | some b =>
      obtain ⟨s', hs', hcapacity, h'⟩ := exists_write h b.toInt8.toInt32
      rw [Int8.toInt8_toInt32, UInt8.toUInt8_toInt8] at h'
      obtain ⟨hkeeps, hsame⟩ := ih h'
      rw [Option.map_some, Option.bind_some, hs', List.takeWhile_cons_of_pos rfl,
        List.reduceOption_cons_of_some, List.append_cons]
      exact ⟨hkeeps, hsame.trans hcapacity⟩

theorem keeps_after (h : Keeps s written) (w : Write) :
    Keeps (s.after w) (written ++ w.written) ∧ (s.after w).capacity = s.capacity := by
  cases w with
  | byte value =>
    obtain ⟨s', hs', hcapacity, h'⟩ := exists_write h value
    rw [after, hs']
    exact ⟨h', hcapacity⟩
  | array value offset length => exact keeps_writeAll value _ h

theorem keeps_foldl (h : Keeps s written) (ws : List Write) :
    Keeps (ws.foldl after s) (written ++ ws.flatMap Write.written) ∧
      (ws.foldl after s).capacity = s.capacity := by
  induction ws generalizing s written with
  | nil => exact ⟨(List.append_nil written).symm ▸ h, rfl⟩
  | cons w ws ih =>
    obtain ⟨hafter, hcapacity⟩ := keeps_after h w
    obtain ⟨hkeeps, hsame⟩ := ih hafter
    rw [List.foldl_cons, List.flatMap_cons, ← List.append_assoc]
    exact ⟨hkeeps, hsame.trans hcapacity⟩

/-! ### Reading -/

theorem mapM_range_eq_some_iff {α : Type} {f : ℕ → Option α} {n : ℕ} {as : List α}
    (hn : as.length = n) : (List.range n).mapM f = some as ↔ ∀ i < n, f i = as[i]? := by
  rw [mapM_eq_some_iff, List.ext_getElem?_iff]
  constructor
  · intro h i hi
    have hget := h i
    rw [List.getElem?_map, List.getElem?_map, List.getElem?_range hi,
      List.getElem?_eq_getElem (hn.symm ▸ hi)] at hget
    rw [List.getElem?_eq_getElem (hn.symm ▸ hi)]
    exact Option.some.inj hget
  · intro h i
    rw [List.getElem?_map, List.getElem?_map]
    by_cases hi : i < n
    · rw [List.getElem?_range hi, Option.map_some, h i hi, List.getElem?_eq_getElem (hn.symm ▸ hi),
        Option.map_some]
    · rw [List.getElem?_eq_none (by simpa using hi), List.getElem?_eq_none (by omega)]
      rfl

/-- Where `text` starts. -/
theorem toInt_start (h : Keeps s written) :
    (if s.size = s.capacity then s.next else 0).toInt =
      (if s.bytes.length ≤ written.length then written.length % s.bytes.length else 0 : ℕ) := by
  have hiff : s.size = s.capacity ↔ s.bytes.length ≤ written.length := by
    rw [← Int32.toInt_inj, h.size, h.capacity]
    omega
  by_cases hfull : s.bytes.length ≤ written.length
  · rw [if_pos (hiff.mpr hfull), if_pos hfull, h.next]
  · rw [if_neg (hiff.not.mpr hfull), if_neg hfull]
    rfl

/-- The sum of two indices that is no `Int` gives a negative index. -/
theorem arrayGet_eq_none {array : Bytes} {start capacity : Int32} {m c : ℕ}
    (hstart : start.toInt = m) (hcapacity : capacity.toInt = c) (hm : m < c) (hc : c < 2 ^ 31)
    (hmax : 2 ^ 31 < m + c) :
    arrayGet array ((start + Int32.ofNat (2 ^ 31 - m)) % capacity) = none := by
  have hsum : (start + Int32.ofNat (2 ^ 31 - m)).toInt = -2 ^ 31 := by
    rw [Int32.toInt_add, hstart, Int32.toInt_ofNat_of_lt (by omega)]
    rw [show (m : ℤ) + (2 ^ 31 - m : ℕ) = 2 ^ 31 by omega]
    rfl
  refine if_neg ?_
  rw [Int32.le_iff_toInt_le, Int32.toInt_mod, hsum, hcapacity, Int.neg_tmod]
  have hmod : (2 ^ 31) % c = 2 ^ 31 - c := by
    rw [Nat.mod_eq_sub_mod hc.le, Nat.mod_eq_of_lt (by omega)]
  have htmod : Int.tmod (2 ^ 31 : ℕ) c = (2 ^ 31 - c : ℕ) := by rw [← Int.ofNat_tmod, hmod]
  rw [show (2 : ℤ) ^ 31 = (2 ^ 31 : ℕ) from rfl, htmod]
  show ¬ (0 : ℤ) ≤ _
  omega

theorem result_eq_some_iff (h : Keeps s written) :
    s.result = some (written.rtake s.bytes.length) ↔
      written.length < s.bytes.length ∨ written.length % s.bytes.length + s.bytes.length ≤ 2 ^ 31 := by
  have hmod : written.length % s.bytes.length < s.bytes.length := Nat.mod_lt _ h.pos
  have hmax := length_lt h
  have hstart := toInt_start h
  have hlength : (written.rtake s.bytes.length).length = s.size.toInt.toNat := by
    rw [List.rtake, List.length_drop, h.size]
    omega
  rw [result, mapM_range_eq_some_iff hlength, h.size, Int.toNat_natCast]
  set start := if s.size = s.capacity then s.next else 0
  constructor
  · intro hread
    by_contra! hoverflow
    rw [if_pos hoverflow.1] at hstart
    have hlast := hread (2 ^ 31 - written.length % s.bytes.length) (by omega)
    rw [arrayGet_eq_none hstart h.capacity hmod hmax hoverflow.2] at hlast
    have hnone := List.getElem?_eq_none_iff.mp hlast.symm
    rw [hlength, h.size] at hnone
    omega
  · intro hfits it hit
    have hsum : (start + Int32.ofNat it).toInt = _ := toInt_add_ofNat hstart (by split_ifs <;> omega)
    rw [arrayGet_eq (toInt_mod_natCast hsum h.capacity)]
    refine h.holds.getElem?_rtake ?_ (by omega) (by omega)
    split_ifs with hfull
    · show _ % _ % _ = _
      rw [Nat.mod_mod, Nat.mod_eq_sub_mod hfull]
    · rw [Nat.sub_eq_zero_of_le (by omega)]

/-- **The end of what was written**: `text` decodes the last `capacity` bytes, or all if there are
fewer, exactly when the array is not yet full, or the sum of the start and the last index is an
`Int`. -/
theorem result_iff (capacity : Int32) (h : 1 ≤ capacity) (ws : List Write) :
    (ws.foldl after (ofCapacity capacity)).result =
        some ((ws.flatMap Write.written).rtake capacity.toInt.toNat) ↔
      (ws.flatMap Write.written).length < capacity.toInt.toNat ∨
        (ws.flatMap Write.written).length % capacity.toInt.toNat + capacity.toInt.toNat ≤ 2 ^ 31 := by
  obtain ⟨hkeeps, hcapacity⟩ := keeps_foldl (keeps_ofCapacity h) ws
  rw [List.nil_append] at hkeeps
  have hlength := hkeeps.capacity
  rw [hcapacity] at hlength
  have hnat : capacity.toInt.toNat = (ws.foldl after (ofCapacity capacity)).bytes.length := by
    show (ofCapacity capacity).capacity.toInt.toNat = _
    rw [hlength, Int.toNat_natCast]
  rw [hnat]
  exact result_eq_some_iff hkeeps

/-- The ring of three bytes has wrapped. -/
theorem result_iff_three :
    ([Write.array [1, 2, 3, 4] 0 4, .byte 0x105].foldl after (ofCapacity 3)).result =
        some [3, 4, 5] ↔ 5 < 3 ∨ 5 % 3 + 3 ≤ 2 ^ 31 :=
  result_iff 3 (by decide) [.array [1, 2, 3, 4] 0 4, .byte 0x105]

/-- A gigabyte and a byte, and a byte less than as much again, cannot be read back. -/
theorem not_result_large : ¬ ∀ capacity : Int32, 1 ≤ capacity → ∀ ws : List Write,
    (ws.foldl after (ofCapacity capacity)).result =
      some ((ws.flatMap Write.written).rtake capacity.toInt.toNat) := by
  intro h
  have hcapacity : Int32.toInt 1073741825 = 1073741825 := by decide
  have hfits (n : ℕ) : n < 1073741825 ∨ n % 1073741825 + 1073741825 ≤ 2 ^ 31 := by
    have hresult := h 1073741825 (by decide) (List.replicate n (.byte 0))
    have hlength : ((List.replicate n (Write.byte 0)).flatMap Write.written).length = n := by
      simp [Write.written]
    rw [result_iff 1073741825 (by decide), hlength, hcapacity] at hresult
    exact hresult
  exact absurd (hfits 2147483649) (by decide)

end OpenFlux.App.TailOutputStream
