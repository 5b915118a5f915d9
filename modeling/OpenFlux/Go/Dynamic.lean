import Mathlib.Tactic.Common
import OpenFlux.Go.Strings

/-!
# Values of type `interface{}` (`encoding/json`)

A JSON value as it is left in an `interface{}`, with the type of the numbers as a parameter:
`float64`, or `json.Number` after `UseNumber`.  A `map[string]interface{}` is the list of the
assignments that have filled it, of which the last one counts; a nil map is read like an empty one.

A type assertion gives an `Option`.  In its form with two results the code goes on with a `none`; in
the form with one result `none` is a panic.  `Checked` is the type of what a function returns that
may panic.

`json.Unmarshal` turns the numbers of a text into `float64`s and reports the first that is out of
range (`convert`).  A value is looked up before or after that alike (`lookup_convert`).
-/

namespace OpenFlux

/-- A value, an error with its text, or (`none`) a panic. -/
abbrev Checked := ExceptT Bytes Option

/-- A value of type `interface{}`. -/
inductive Dynamic (N : Type)
  | nil
  | bool (b : Bool)
  | num (x : N)
  | str (s : Bytes)
  | slice (items : List (Dynamic N))
  | map (members : List (Bytes × Dynamic N))

/-- A `map[string]interface{}`. -/
abbrev GoMap (N : Type) := List (Bytes × Dynamic N)

/-- A `json.Number`, the text of a number. -/
structure JsonNumber where
  text : Bytes
  ne_nil : text ≠ []

namespace Dynamic

variable {N M : Type}

/-! ### Type assertions -/

/-- `v.(string)`. -/
def asString : Dynamic N → Option Bytes
  | str s => some s
  | _ => none

/-- `v.(float64)`. -/
def asNumber : Dynamic N → Option N
  | num x => some x
  | _ => none

/-- `v.([]interface{})`. -/
def asSlice : Dynamic N → Option (List (Dynamic N))
  | slice items => some items
  | _ => none

/-- `v.(map[string]interface{})`. -/
def asMap : Dynamic N → Option (GoMap N)
  | map members => some members
  | _ => none

/-- A string that is not empty, by `s, ok := v.(string)` and `ok && s != ""`. -/
def asText (v : Dynamic N) : Option Bytes := v.asString.filter (· ≠ [])

@[simp] theorem asString_eq_some {v : Dynamic N} {s : Bytes} :
    v.asString = some s ↔ v = .str s := by
  cases v <;> simp [asString]

@[simp] theorem asNumber_eq_some {v : Dynamic N} {x : N} : v.asNumber = some x ↔ v = .num x := by
  cases v <;> simp [asNumber]

@[simp] theorem asSlice_eq_some {v : Dynamic N} {items : List (Dynamic N)} :
    v.asSlice = some items ↔ v = .slice items := by
  cases v <;> simp [asSlice]

@[simp] theorem asMap_eq_some {v : Dynamic N} {members : GoMap N} :
    v.asMap = some members ↔ v = .map members := by
  cases v <;> simp [asMap]

theorem asMap_eq_none {v : Dynamic N} : v.asMap = none ↔ ∀ members, v ≠ .map members := by
  cases v <;> simp [asMap]

/-- What holds of the items, if the value is a slice. -/
theorem forall_slice_iff {v : Dynamic N} {P : Dynamic N → Prop} :
    (∀ items, v = .slice items → ∀ w ∈ items, P w) ↔ ∀ w ∈ v.asSlice.getD [], P w := by
  cases v <;> simp [asSlice]

theorem mapM_asString_eq_some {vs : List (Dynamic N)} {ss : List Bytes} :
    vs.mapM asString = some ss ↔ vs = ss.map .str := by
  induction vs generalizing ss with
  | nil =>
    rw [List.mapM_nil, Option.pure_def, Option.some.injEq, eq_comm (a := []), eq_comm (a := []),
      List.map_eq_nil_iff]
  | cons v vs ih =>
    simp only [List.mapM_cons, Option.bind_eq_bind, Option.bind_eq_some_iff, Option.pure_def,
      Option.some.injEq, asString_eq_some, ih]
    constructor
    · rintro ⟨s, rfl, ss, rfl, rfl⟩
      rfl
    · intro h
      obtain ⟨s, ss, rfl, rfl, rfl⟩ := List.map_eq_cons_iff.mp h.symm
      exact ⟨s, rfl, ss, rfl, rfl⟩

end Dynamic

/-- A loop whose steps fail or not whatever came before them. -/
theorem foldlM_isSome_iff {α β : Type} {f : β → α → Option β} {P : α → Prop}
    (hf : ∀ b a, (f b a).isSome ↔ P a) (as : List α) (b : β) :
    (as.foldlM f b).isSome ↔ ∀ a ∈ as, P a := by
  induction as generalizing b with
  | nil => simp
  | cons a as ih =>
    rw [List.foldlM_cons, List.forall_mem_cons, ← hf b a]
    cases hstep : f b a with
    | none => simp
    | some b' => simpa using ih b'

/-- `m[name]`. -/
def GoMap.lookup {N : Type} (m : GoMap N) (name : Bytes) : Dynamic N :=
  m.foldl (fun v entry => if entry.1 = name then entry.2 else v) .nil

/-- The keys of a map, in no particular order, as `%v` shows them. -/
def GoMap.showKeys {N : Type} (m : GoMap N) : Bytes :=
  literal "[" ++ (literal " ").intercalate (m.map Prod.fst).dedup ++ literal "]"

/-- The error for a value that does not fit into a `map[string]interface{}`. -/
def notIntoMap (kind : String) : Bytes :=
  literal ("json: cannot unmarshal " ++ kind ++
    " into Go value of type map[string]interface \x7b\x7d")

/-- What is decoded into a `map[string]interface{}`. -/
def Dynamic.intoMap {N : Type} : Dynamic N → Except Bytes (GoMap N)
  | .map members => .ok members
  | .nil => .ok []
  | .bool _ => .error (notIntoMap "bool")
  | .num _ => .error (notIntoMap "number")
  | .str _ => .error (notIntoMap "string")
  | .slice _ => .error (notIntoMap "array")

/-! ### Numbers -/

section Convert

variable {N M : Type}

mutual

/-- The value with its numbers turned into others, or the error of the first that cannot be. -/
def Dynamic.convert (f : N → Except Bytes M) : Dynamic N → Except Bytes (Dynamic M)
  | .nil => .ok .nil
  | .bool b => .ok (.bool b)
  | .num x => (f x).map .num
  | .str s => .ok (.str s)
  | .slice items => (convertItems f items).map .slice
  | .map members => (convertMembers f members).map .map

def convertItems (f : N → Except Bytes M) : List (Dynamic N) → Except Bytes (List (Dynamic M))
  | [] => .ok []
  | v :: items => do return (← v.convert f) :: (← convertItems f items)

def convertMembers (f : N → Except Bytes M) :
    List (Bytes × Dynamic N) → Except Bytes (List (Bytes × Dynamic M))
  | [] => .ok []
  | (name, v) :: members => do return (name, ← v.convert f) :: (← convertMembers f members)

end

/-- `json.Unmarshal` into a `map[string]interface{}`. -/
def unmarshalMap (f : N → Except Bytes M) (v : Dynamic N) : Except Bytes (GoMap M) := do
  convertMembers f (← v.intoMap)

variable {f : N → Except Bytes M}

theorem map_eq_ok {α β : Type} {g : α → β} {x : Except Bytes α} {b : β} :
    x.map g = .ok b ↔ ∃ a, x = .ok a ∧ g a = b := by
  cases x with
  | error err => exact ⟨nofun, nofun⟩
  | ok a => simp [Except.map]

/-- A conversion keeps the kind of a value, and strings as they are. -/
theorem asString_convert {v : Dynamic N} {w : Dynamic M} (h : v.convert f = .ok w) :
    w.asString = v.asString := by
  cases v with
  | num x =>
    obtain ⟨y, -, rfl⟩ := map_eq_ok.mp h
    rfl
  | slice items =>
    obtain ⟨items', -, rfl⟩ := map_eq_ok.mp h
    rfl
  | map members =>
    obtain ⟨members', -, rfl⟩ := map_eq_ok.mp h
    rfl
  | nil | bool | str =>
    cases h
    rfl

theorem asMap_convert {v : Dynamic N} {w : Dynamic M} (h : v.convert f = .ok w) :
    (v.asMap = none ∧ w.asMap = none) ∨
      ∃ m m', v.asMap = some m ∧ w.asMap = some m' ∧ convertMembers f m = .ok m' := by
  cases v with
  | num x =>
    obtain ⟨y, -, rfl⟩ := map_eq_ok.mp h
    exact .inl ⟨rfl, rfl⟩
  | slice items =>
    obtain ⟨items', -, rfl⟩ := map_eq_ok.mp h
    exact .inl ⟨rfl, rfl⟩
  | map members =>
    obtain ⟨members', hmembers, rfl⟩ := map_eq_ok.mp h
    exact .inr ⟨members, members', rfl, rfl, hmembers⟩
  | nil | bool | str =>
    cases h
    exact .inl ⟨rfl, rfl⟩

theorem convertMembers_cons {name : Bytes} {v : Dynamic N} {m : GoMap N} {m' : GoMap M}
    (h : convertMembers f ((name, v) :: m) = .ok m') :
    ∃ w rest, v.convert f = .ok w ∧ convertMembers f m = .ok rest ∧ m' = (name, w) :: rest := by
  rw [convertMembers] at h
  cases hv : v.convert f with
  | error err =>
    rw [hv] at h
    cases h
  | ok w =>
    cases hm : convertMembers f m with
    | error err =>
      rw [hv, hm] at h
      cases h
    | ok rest =>
      rw [hv, hm] at h
      cases h
      exact ⟨w, rest, rfl, rfl, rfl⟩

/-- A value is converted where it is looked up. -/
theorem lookup_convert {m : GoMap N} {m' : GoMap M} (h : convertMembers f m = .ok m')
    (name : Bytes) : (m.lookup name).convert f = .ok (m'.lookup name) := by
  have hfold : ∀ (m : GoMap N) (m' : GoMap M) (v : Dynamic N) (w : Dynamic M),
      convertMembers f m = .ok m' → v.convert f = .ok w →
        (m.foldl (fun v entry => if entry.1 = name then entry.2 else v) v).convert f =
          .ok (m'.foldl (fun v entry => if entry.1 = name then entry.2 else v) w) := by
    intro m
    induction m with
    | nil =>
      intro m' v w hm hv
      cases hm
      exact hv
    | cons entry m ih =>
      intro m' v w hm hv
      obtain ⟨w', rest, hentry, hrest, rfl⟩ := convertMembers_cons hm
      apply ih _ _ _ hrest
      dsimp only
      by_cases hname : entry.1 = name
      · rw [if_pos hname, if_pos hname]
        exact hentry
      · rw [if_neg hname, if_neg hname]
        exact hv
  exact hfold m m' .nil .nil h rfl

end Convert

end OpenFlux
