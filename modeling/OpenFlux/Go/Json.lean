import OpenFlux.Go.Strings

/-!
# JSON values (`encoding/json`)

The value that a JSON text stands for, with the members of an object in the order of the text: a
name may occur more than once.  Writing a Go value and reading it back is the identity on these
values; what is modelled is how `json.Unmarshal` fills Go values from them.

A struct takes the members whose names match its fields up to case, one after the other
(`fields`).  A `map[string]interface{}` keeps the last member of each name (`get`).
-/

namespace OpenFlux

/-- A JSON value.  The numbers of the code are integers. -/
inductive Json
  | null
  | bool (b : Bool)
  | num (n : ℤ)
  | str (s : Bytes)
  | arr (items : List Json)
  | obj (members : List (Bytes × Json))

namespace Json

/-- `foldName` on what can fold to ASCII: lower-case letters, the long s and the Kelvin sign. -/
def foldName : Bytes → Bytes
  | 0xC5 :: 0xBF :: s => 0x53 :: foldName s
  | 0xE2 :: 0x84 :: 0xAA :: s => 0x4B :: foldName s
  | c :: s => (if 0x61 ≤ c ∧ c ≤ 0x7A then c - 0x20 else c) :: foldName s
  | [] => []

/-- The values that a struct field of this name is filled with, in order. -/
def fields (name : Bytes) (members : List (Bytes × Json)) : List Json :=
  (members.filter fun m => foldName m.1 = foldName name).map Prod.snd

/-- A `string` field filled with these values, or `none` where one is of another type. -/
def stringField (values : List Json) : Option Bytes :=
  values.foldlM (fun field value =>
    match value with
    | .str s => some s
    | .null => some field
    | _ => none) []

/-- A `[]json.RawMessage` field filled with these values. -/
def rawArrayField (values : List Json) : Option (List Json) :=
  values.foldlM (fun _ value =>
    match value with
    | .arr items => some items
    | .null => some []
    | _ => none) []

/-- The value of a name in a `map[string]interface{}`; there is none where the value is no such
map. -/
def get (j : Json) (name : Bytes) : Option Json :=
  match j with
  | .obj members => (members.reverse.find? fun m => m.1 = name).map Prod.snd
  | _ => none

/-- A type assertion to `string`. -/
def asString : Json → Option Bytes
  | .str s => some s
  | _ => none

/-- A type assertion to `[]interface{}`. -/
def asArray : Json → Option (List Json)
  | .arr items => some items
  | _ => none

/-- A type assertion to `map[string]interface{}`. -/
def asMap : Json → Option Json
  | .obj members => some (.obj members)
  | _ => none

end Json

/-! ### Loops that may fail -/

/-- What each step of a loop keeps holds after it. -/
theorem foldlM_invariant {α β : Type} {f : β → α → Option β} {P : β → Prop} {as : List α}
    (hstep : ∀ b, ∀ a ∈ as, ∀ b', P b → f b a = some b' → P b') {b b' : β} (hb : P b)
    (h : as.foldlM f b = some b') : P b' := by
  induction as generalizing b with
  | nil =>
    cases h
    exact hb
  | cons a as ih =>
    obtain ⟨b₁, hb₁, h⟩ := Option.bind_eq_some_iff.mp (List.foldlM_cons.symm.trans h)
    exact ih (fun b a ha => hstep b a (List.mem_cons_of_mem _ ha))
      (hstep b a List.mem_cons_self b₁ hb hb₁) h

theorem mapM_eq_some_iff {α β : Type} {f : α → Option β} {as : List α} {bs : List β} :
    as.mapM f = some bs ↔ as.map f = bs.map some := by
  induction as generalizing bs with
  | nil => cases bs <;> simp [List.mapM_nil]
  | cons a as ih =>
    rw [List.mapM_cons]
    cases bs with
    | nil => simp [Option.bind_eq_some_iff]
    | cons b bs => simp [Option.bind_eq_some_iff, ← ih]

theorem exists_of_mem_mapM {α β : Type} {f : α → Option β} {as : List α} {bs : List β}
    (h : as.mapM f = some bs) {b : β} (hb : b ∈ bs) : ∃ a ∈ as, f a = some b := by
  induction as generalizing bs with
  | nil =>
    cases h
    cases hb
  | cons a as ih =>
    rw [List.mapM_cons] at h
    obtain ⟨b₁, hb₁, h⟩ := Option.bind_eq_some_iff.mp h
    obtain ⟨bs₁, hbs₁, h⟩ := Option.bind_eq_some_iff.mp h
    cases h
    rcases List.mem_cons.mp hb with rfl | hb
    · exact ⟨a, List.mem_cons_self, hb₁⟩
    · obtain ⟨a', ha', hb'⟩ := ih hbs₁ hb
      exact ⟨a', List.mem_cons_of_mem _ ha', hb'⟩

/-- `%d`. -/
def decimal (n : ℤ) : Bytes := literal (toString n)

end OpenFlux
