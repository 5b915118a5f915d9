import OpenFlux.Algorithm.Overwrite
import OpenFlux.Go.Bytes

/-!
# Checked accesses to byte slices

Go's index and slice expressions on a `[]byte`, `none` for a panic.  A slice expression is taken to
panic above the length already, where Go lets it go up to the capacity.
-/

namespace OpenFlux.Slice

open Overwrite

/-- `b[i]`. -/
def index (b : Bytes) (i : ℕ) : Option UInt8 := b[i]?

/-- `b[i:j]`. -/
def slice (b : Bytes) (i j : ℕ) : Option Bytes :=
  if i ≤ j ∧ j ≤ b.length then some ((b.take j).drop i) else none

/-- `b[i] = v`. -/
def store (b : Bytes) (i : ℕ) (v : UInt8) : Option Bytes :=
  if i < b.length then some (b.set i v) else none

/-- `copy(b[i:j], bs)`. -/
def copyTo (b : Bytes) (i j : ℕ) (bs : Bytes) : Option Bytes :=
  if i ≤ j ∧ j ≤ b.length then some (overwrite b i (bs.take (j - i))) else none

theorem index_eq {b : Bytes} {i : ℕ} (h : i < b.length) : index b i = some (b.getD i 0) := by
  rw [index, List.getD_eq_getElem?_getD, List.getElem?_eq_getElem h, Option.getD_some]

theorem slice_eq {b : Bytes} {i j : ℕ} (hij : i ≤ j) (hj : j ≤ b.length) :
    slice b i j = some ((b.take j).drop i) := if_pos ⟨hij, hj⟩

theorem copyTo_eq {b bs : Bytes} {i j : ℕ} (hij : i ≤ j) (hj : j ≤ b.length) :
    copyTo b i j bs = some (overwrite b i (bs.take (j - i))) := if_pos ⟨hij, hj⟩

/-- Two bytes stored one after the other. -/
theorem store_store {b : Bytes} {i : ℕ} (h : i + 2 ≤ b.length) (v w : UInt8) :
    ((store b i v).bind fun b => store b (i + 1) w) = some (overwrite b i [v, w]) := by
  obtain ⟨x, y, rest, hdrop⟩ : ∃ x y rest, b.drop i = x :: y :: rest := by
    have hlen : (b.drop i).length = b.length - i := List.length_drop
    match hdrop : b.drop i with
    | x :: y :: rest => exact ⟨x, y, rest, rfl⟩
    | [x] => rw [hdrop, List.length_singleton] at hlen; omega
    | [] => rw [hdrop, List.length_nil] at hlen; omega
  have htake : (b.take i).length = i := length_take_of_fits h
  have hb : b = b.take i ++ x :: y :: rest := by rw [← hdrop, List.take_append_drop]
  generalize b.take i = front at htake hb
  subst hb htake
  simp [store, overwrite]

theorem store_store_bind {β : Type*} {b : Bytes} {i j : ℕ} (hj : j = i + 1) (h : i + 2 ≤ b.length)
    (v w : UInt8) (k : Bytes → Option β) :
    ((store b i v).bind fun b => (store b j w).bind k) = k (overwrite b i [v, w]) := by
  rw [hj, ← Option.bind_assoc, store_store h, Option.bind_some]

end OpenFlux.Slice
