import OpenFlux.Go.Time
import OpenFlux.Go.Utf8

/-!
# Reading structs from JSON (`encoding/json`)

What `json.Unmarshal` fills fields of further types with.  A value of another type is an error, and
so is a number out of range; `null` leaves a field as it is.
-/

namespace OpenFlux

namespace Json

/-- An `int64` field filled with these values. -/
def int64Field (values : List Json) : Option Int64 :=
  values.foldlM (fun field value =>
    match value with
    | .num n => if -2 ^ 63 ≤ n ∧ n < 2 ^ 63 then some (Int64.ofInt n) else none
    | .null => some field
    | _ => none) 0

/-- A `time.Time` field filled with these values, given what `Time.UnmarshalJSON` makes of a
string. -/
def timeField (parseTime : Bytes → Option Time) (values : List Json) : Option Time :=
  values.foldlM (fun field value =>
    match value with
    | .str s => parseTime s
    | .null => some field
    | _ => none) .zero

theorem int64Field_toInt (n : Int64) : int64Field [.num n.toInt] = some n := by
  show (if -2 ^ 63 ≤ n.toInt ∧ n.toInt < 2 ^ 63 then some (Int64.ofInt n.toInt) else none).bind
    some = some n
  rw [if_pos ⟨n.le_toInt, n.toInt_lt⟩, Int64.ofInt_toInt]
  rfl

theorem timeField_str {parseTime : Bytes → Option Time} {s : Bytes} {t : Time}
    (h : parseTime s = some t) : timeField parseTime [.str s] = some t := by
  show (parseTime s).bind some = some t
  rw [h]
  rfl

/-- Where the names differ up to case, a field takes the member with its own. -/
theorem fields_of_nodup (members : List (Bytes × Json))
    (hnodup : (members.map fun m => foldName m.1).Nodup) {name : Bytes} {v : Json}
    (hmem : (name, v) ∈ members) : fields name members = [v] := by
  induction members with
  | nil => cases hmem
  | cons m members ih =>
    obtain ⟨hne, hnodup⟩ := List.nodup_cons.mp hnodup
    rw [fields]
    rcases List.mem_cons.mp hmem with rfl | hmem
    · have hrest : (members.filter fun m => foldName m.1 = foldName name) = [] := by
        rw [List.filter_eq_nil_iff]
        intro m hm heq
        exact hne (List.mem_map.mpr ⟨m, hm, of_decide_eq_true heq⟩)
      rw [List.filter_cons_of_pos (by simp), hrest]
      rfl
    · have hhead : foldName m.1 ≠ foldName name := fun heq =>
        hne (List.mem_map.mpr ⟨(name, v), hmem, heq.symm⟩)
      rw [List.filter_cons_of_neg (by simpa using hhead)]
      exact ih hnodup hmem

/-! ### Valid strings -/

/-- A `string` field is valid if its values are. -/
theorem valid_of_stringField {values : List Json} (h : ∀ v ∈ values, v.valid = true) {s : Bytes}
    (hs : stringField values = some s) : validUTF8 s = true := by
  refine foldlM_invariant (P := fun s => validUTF8 s = true) ?_ rfl hs
  intro s₀ v hv s₁ hs₀ hs₁
  cases v with
  | str t =>
    cases hs₁
    exact h _ hv
  | null =>
    cases hs₁
    exact hs₀
  | bool b => cases hs₁
  | num n => cases hs₁
  | arr items => cases hs₁
  | obj members => cases hs₁

/-- A `time.Time` field is valid if the times that strings stand for are. -/
theorem valid_of_timeField {parseTime : Bytes → Option Time}
    (h : ∀ {s t}, parseTime s = some t → t.Valid) {values : List Json} {t : Time}
    (ht : timeField parseTime values = some t) : t.Valid := by
  refine foldlM_invariant (P := Time.Valid) ?_ Time.valid_zero ht
  intro t₀ v _ t₁ ht₀ ht₁
  cases v with
  | str s => exact h ht₁
  | null =>
    cases ht₁
    exact ht₀
  | bool b => cases ht₁
  | num n => cases ht₁
  | arr items => cases ht₁
  | obj members => cases ht₁

theorem valid_of_mem_fields {name : Bytes} {members : List (Bytes × Json)}
    (h : validMembers members = true) {v : Json} (hv : v ∈ fields name members) :
    v.valid = true := by
  obtain ⟨m, hm, rfl⟩ := List.mem_map.mp hv
  exact (validMembers_iff.mp h m (List.mem_of_mem_filter hm)).2

end Json

end OpenFlux
