import Mathlib.Data.List.DropRight
import Mathlib.Data.Nat.ModEq

/-!
# Ring buffers

Elements written into cells one after the other, from the first cell on and from the first again
after the last.  `Holds` says that the cells have the last elements that were written; writing one
more keeps it, and reading as many cells as there are gives them back in order.
-/

namespace RingBuffer

variable {α : Type*} {cells written : List α}

/-- Each of the last elements is in the cell whose number is its own, modulo the number of cells. -/
def Holds (cells written : List α) : Prop :=
  ∀ i < written.length, written.length ≤ i + cells.length → cells[i % cells.length]? = written[i]?

theorem holds_nil (cells : List α) : Holds cells [] := nofun

/-- Two of the last elements are in different cells. -/
theorem mod_ne {c i n : ℕ} (hi : i < n) (hle : n < i + c) : i % c ≠ n % c := by
  intro h
  have hdvd : c ∣ n - i := (Nat.modEq_iff_dvd' hi.le).mp h
  exact absurd (Nat.le_of_dvd (Nat.sub_pos_of_lt hi) hdvd) (by omega)

theorem Holds.concat (h : Holds cells written) (a : α) :
    Holds (cells.set (written.length % cells.length) a) (written ++ [a]) := by
  intro i hi hle
  rw [List.length_append, List.length_singleton] at hi hle
  rw [List.length_set] at hle ⊢
  rcases Nat.lt_succ_iff_lt_or_eq.mp hi with hlt | rfl
  · rw [List.getElem?_set_ne (mod_ne hlt (by omega)).symm, List.getElem?_append_left hlt]
    exact h i hlt (by omega)
  · rw [List.getElem?_set_self (Nat.mod_lt _ (by omega)), List.getElem?_concat_length]

/-- The cells in order, from that of the first of the last elements on. -/
theorem Holds.getElem?_rtake (h : Holds cells written) {start i : ℕ}
    (hstart : start ≡ written.length - cells.length [MOD cells.length])
    (hi : i < written.length) (hi' : i < cells.length) :
    cells[(start + i) % cells.length]? = (written.rtake cells.length)[i]? := by
  rw [hstart.add_right i, h _ (by omega) (by omega), List.rtake, List.getElem?_drop]

end RingBuffer
