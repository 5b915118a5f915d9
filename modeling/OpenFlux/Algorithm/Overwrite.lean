import Mathlib.Order.Interval.Set.Defs
import Mathlib.Order.Nat
import Mathlib.Tactic.Common

/-!
# Writing into a list in place

`overwrite l i bs` is the list left behind by storing `bs` in `l` from position `i` on, for `bs`
that fit.  `Frame S l l'` says that `l'` differs from `l` at most at the positions in `S`; frames
compose (`Frame.trans`), so what a sequence of stores leaves alone is read off from the stores.
-/

namespace Overwrite

variable {α : Type*}

/-- `l` with `bs` stored from position `i` on. -/
def overwrite (l : List α) (i : ℕ) (bs : List α) : List α :=
  l.take i ++ bs ++ l.drop (i + bs.length)

/-- `l'` is `l` but for the positions in `S`. -/
structure Frame (S : Set ℕ) (l l' : List α) : Prop where
  length_eq : l'.length = l.length
  getElem?_eq : ∀ j ∉ S, l'[j]? = l[j]?

/-! ### Frames -/

theorem Frame.refl (S : Set ℕ) (l : List α) : Frame S l l := ⟨rfl, fun _ _ => rfl⟩

theorem Frame.trans {S T : Set ℕ} {l l' l'' : List α} (h : Frame S l l') (h' : Frame T l' l'') :
    Frame (S ∪ T) l l'' where
  length_eq := h'.length_eq.trans h.length_eq
  getElem?_eq j hj :=
    (h'.getElem?_eq j fun hT => hj (.inr hT)).trans (h.getElem?_eq j fun hS => hj (.inl hS))

theorem Frame.symm {S : Set ℕ} {l l' : List α} (h : Frame S l l') : Frame S l' l :=
  ⟨h.length_eq.symm, fun j hj => (h.getElem?_eq j hj).symm⟩

theorem Frame.getD_eq {S : Set ℕ} {l l' : List α} (h : Frame S l l') {j : ℕ} (hj : j ∉ S) (a : α) :
    l'.getD j a = l.getD j a := by
  rw [List.getD_eq_getElem?_getD, List.getD_eq_getElem?_getD, h.getElem?_eq j hj]

/-- A part the frame does not touch is the same. -/
theorem Frame.take_drop_eq {S : Set ℕ} {l l' : List α} (h : Frame S l l') {i n : ℕ}
    (hdisj : ∀ j, i ≤ j → j < i + n → j ∉ S) : (l'.drop i).take n = (l.drop i).take n := by
  apply List.ext_getElem?
  intro j
  by_cases hj : j < n
  · rw [List.getElem?_take_of_lt hj, List.getElem?_take_of_lt hj, List.getElem?_drop,
      List.getElem?_drop, h.getElem?_eq _ (hdisj _ (by omega) (by omega))]
  · rw [List.getElem?_take_eq_none (by omega), List.getElem?_take_eq_none (by omega)]

/-! ### Stores -/

theorem length_overwrite {l : List α} {i : ℕ} {bs : List α} (h : i + bs.length ≤ l.length) :
    (overwrite l i bs).length = l.length := by
  rw [overwrite, List.length_append, List.length_append, List.length_take, List.length_drop]
  omega

theorem length_take_of_fits {l : List α} {i n : ℕ} (h : i + n ≤ l.length) :
    (l.take i).length = i := by
  rw [List.length_take]
  omega

/-- What is stored. -/
theorem getElem?_overwrite {l : List α} {i : ℕ} {bs : List α} (h : i + bs.length ≤ l.length)
    {j : ℕ} (hj : j < bs.length) : (overwrite l i bs)[i + j]? = bs[j]? := by
  have hlen := length_take_of_fits h
  have hlt : i + j < (l.take i ++ bs).length := by
    rw [List.length_append, hlen]
    omega
  rw [overwrite, List.getElem?_append_left hlt, List.getElem?_append_right (by omega), hlen,
    Nat.add_sub_cancel_left]

/-- Everything else is unchanged. -/
theorem frame_overwrite {l : List α} {i : ℕ} {bs : List α} (h : i + bs.length ≤ l.length) :
    Frame (Set.Ico i (i + bs.length)) l (overwrite l i bs) where
  length_eq := length_overwrite h
  getElem?_eq j hj := by
    have hlen := length_take_of_fits h
    by_cases hlt : j < i
    · have hin : j < (l.take i ++ bs).length := by
        rw [List.length_append, hlen]
        omega
      rw [overwrite, List.getElem?_append_left hin, List.getElem?_append_left (by omega),
        List.getElem?_take_of_lt hlt]
    · have hge : i + bs.length ≤ j := by
        by_contra hnot
        exact hj ⟨by omega, by omega⟩
      have hout : (l.take i ++ bs).length ≤ j := by
        rw [List.length_append, hlen]
        exact hge
      rw [overwrite, List.getElem?_append_right hout, List.getElem?_drop, List.length_append, hlen]
      congr 1
      omega

/-- Storing what is there changes nothing. -/
theorem overwrite_eq_self {l : List α} {i : ℕ} {bs : List α} (h : i + bs.length ≤ l.length)
    (hbs : ∀ j < bs.length, bs[j]? = l[i + j]?) : overwrite l i bs = l := by
  apply List.ext_getElem?
  intro j
  by_cases hj : j ∈ Set.Ico i (i + bs.length)
  · obtain ⟨k, rfl⟩ := Nat.exists_eq_add_of_le hj.1
    have hk : k < bs.length := by
      have := hj.2
      omega
    rw [getElem?_overwrite h hk, hbs k hk]
  · exact (frame_overwrite h).getElem?_eq j hj

/-- A store after the first `n` positions is a store in what follows them. -/
theorem drop_overwrite {l : List α} {n i : ℕ} (hn : n ≤ i) {bs : List α}
    (h : i + bs.length ≤ l.length) :
    (overwrite l i bs).drop n = overwrite (l.drop n) (i - n) bs := by
  have hlen := length_take_of_fits h
  rw [overwrite, overwrite, List.append_assoc, List.drop_append_of_le_length (by omega),
    List.drop_take, List.drop_drop, List.append_assoc]
  congr 3
  omega

/-- A store within the first `n` positions is a store in them. -/
theorem take_overwrite {l : List α} {n i : ℕ} {bs : List α} (hn : i + bs.length ≤ n)
    (h : i + bs.length ≤ l.length) :
    (overwrite l i bs).take n = overwrite (l.take n) i bs := by
  have hlen := length_take_of_fits h
  have hlen' : (l.take i ++ bs).length = i + bs.length := by rw [List.length_append, hlen]
  rw [overwrite, overwrite, List.take_append, hlen', List.take_of_length_le (by omega),
    List.take_take, Nat.min_eq_left (by omega), List.drop_take]

/-- A second store in the same place replaces the first. -/
theorem overwrite_overwrite {l : List α} {i : ℕ} {as bs : List α} (hlen : as.length = bs.length)
    (h : i + as.length ≤ l.length) :
    overwrite (overwrite l i as) i bs = overwrite l i bs := by
  have htake := length_take_of_fits h
  have hfirst : (overwrite l i as).take i = l.take i := by
    rw [overwrite, List.append_assoc, List.take_append_of_le_length (by omega),
      List.take_of_length_le (by omega)]
  have hrest : (overwrite l i as).drop (i + bs.length) = l.drop (i + bs.length) := by
    have happend : (l.take i ++ as).length = i + bs.length := by
      rw [List.length_append, htake, hlen]
    rw [overwrite, ← happend, List.drop_left, hlen, happend]
  rw [overwrite, hfirst, hrest, overwrite]

end Overwrite
