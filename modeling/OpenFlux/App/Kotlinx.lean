import OpenFlux.Go.Utf8

/-!
# Reading and writing classes as JSON (`kotlinx.serialization`)

What the generated code of a `@Serializable` class does with a JSON value.  A member fills the
property of exactly its name and unknown ones are ignored (`ignoreUnknownKeys`); a property without
a member keeps its default, or is missing.  A property is written if it has no default or differs
from it (`encodeDefaults` is off).  Numbers and Booleans may be in quotes, and no other value stands
for one of another type.  An exception is `none`.  Strings are byte strings in UTF-8, as everywhere.
-/

namespace OpenFlux.App

/-- The members of an object. -/
abbrev Members := List (Bytes × Json)

/-! ### Reading -/

/-- The values of the members of a name. -/
def values (name : String) (members : Members) : List Json :=
  (members.filter fun m => m.1 = literal name).map Prod.snd

/-- A property with a default. -/
def defaulted {α : Type} (name : String) (decode : Json → Option α) (default : α)
    (members : Members) : Option α :=
  (values name members).foldlM (fun _ value => decode value) default

/-- A property without a default. -/
def required {α : Type} (name : String) (decode : Json → Option α) (members : Members) : Option α :=
  (defaulted name (fun value => (decode value).map some) none members).join

/-- A class. -/
def asObject {α : Type} (decode : Members → Option α) : Json → Option α
  | .obj members => decode members
  | _ => none

/-- A number in quotes. -/
def quotedInt (s : Bytes) : Option ℤ :=
  let digits := if s.head? = some 0x2D then s.drop 1 else s
  if digits ≠ [] && digits.all fun c => 0x30 ≤ c && c ≤ 0x39 then
    let n := digits.foldl (fun (n : ℤ) c => 10 * n + (c.toNat - 0x30)) 0
    some (if s.head? = some 0x2D then -n else n)
  else none

/-- The number that is read of a value. -/
def numericLiteral : Json → Option ℤ
  | .num n => some n
  | .str s => quotedInt s
  | _ => none

/-- `Long`. -/
def asLong (j : Json) : Option Int64 :=
  (numericLiteral j).bind fun n =>
    if -2 ^ 63 ≤ n ∧ n < 2 ^ 63 then some (Int64.ofInt n) else none

/-- `Int`. -/
def asInt (j : Json) : Option Int32 :=
  (numericLiteral j).bind fun n =>
    if -2 ^ 31 ≤ n ∧ n < 2 ^ 31 then some (Int32.ofInt n) else none

/-- `Boolean`, in quotes in any case. -/
def asBoolean : Json → Option Bool
  | .bool b => some b
  | .str s =>
    let lower := s.map (· ||| 0x20)
    if lower = literal "true" then some true
    else if lower = literal "false" then some false
    else none
  | _ => none

/-- `List`. -/
def asList {α : Type} (decode : Json → Option α) : Json → Option (List α)
  | .arr items => items.mapM decode
  | _ => none

/-- A nullable type. -/
def nullable {α : Type} (decode : Json → Option α) : Json → Option (Option α)
  | .null => some none
  | j => (decode j).map some

/-! ### Writing -/

/-- A property without a default. -/
def property (name : String) (value : Json) : Members := [(literal name, value)]

/-- A property that has this default. -/
def propertyUnless {α : Type} [DecidableEq α] (default : α) (name : String) (encode : α → Json)
    (value : α) : Members :=
  if value = default then [] else [(literal name, encode value)]

/-- A nullable value. -/
def orNull {α : Type} (encode : α → Json) : Option α → Json
  | some value => encode value
  | none => .null

/-! ### Reading what was written -/

@[simp] theorem asLong_toInt (n : Int64) : asLong (.num n.toInt) = some n := by
  rw [asLong, numericLiteral, Option.bind_some, if_pos ⟨n.le_toInt, n.toInt_lt⟩,
    Int64.ofInt_toInt]

@[simp] theorem asInt_toInt (n : Int32) : asInt (.num n.toInt) = some n := by
  rw [asInt, numericLiteral, Option.bind_some, if_pos ⟨n.le_toInt, n.toInt_lt⟩,
    Int32.ofInt_toInt]

theorem asList_map {α β : Type} {decode : Json → Option β} {encode : α → Json} {f : α → β}
    (h : ∀ a, decode (encode a) = some (f a)) (items : List α) :
    asList decode (.arr (items.map encode)) = some (items.map f) := by
  rw [asList]
  induction items with
  | nil => rfl
  | cons a items ih =>
    rw [List.map_cons, List.mapM_cons, h, ih]
    rfl

theorem values_append (name : String) (m n : Members) :
    values name (m ++ n) = values name m ++ values name n := by
  rw [values, List.filter_append, List.map_append]
  rfl

@[simp] theorem values_property (name : String) (value : Json) :
    values name (property name value) = [value] := by
  simp [values, property]

theorem values_property_of_ne {name name' : String} (h : literal name' ≠ literal name)
    (value : Json) : values name (property name' value) = [] := by
  simp [values, property, h]

theorem values_propertyUnless_of_ne {α : Type} [DecidableEq α] {name name' : String}
    (h : literal name' ≠ literal name) (default : α) (encode : α → Json) (value : α) :
    values name (propertyUnless default name' encode value) = [] := by
  unfold propertyUnless
  split_ifs
  · rfl
  · simp [values, h]

/-- A property with a default is read as it was written. -/
theorem foldlM_propertyUnless {α : Type} [DecidableEq α] {decode : Json → Option α}
    {encode : α → Json} {value : α} (h : decode (encode value) = some value) (default : α)
    (name : String) :
    (values name (propertyUnless default name encode value)).foldlM (fun _ v => decode v) default =
      some value := by
  unfold propertyUnless
  split_ifs with hdefault
  · rw [hdefault]
    rfl
  · simp [values, h]

theorem nullable_orNull {α : Type} {decode : Json → Option α} {encode : α → Json}
    (h : ∀ a, decode (encode a) = some a) (hnull : decode .null = none) (value : Option α) :
    nullable decode (orNull encode value) = some value := by
  rcases value with _ | a
  · rfl
  · have hdecode := h a
    show nullable decode (encode a) = some (some a)
    unfold nullable
    split
    · next hj =>
      rw [hj, hnull] at hdecode
      cases hdecode
    · rw [hdecode]
      rfl

/-! ### Valid strings -/

theorem validMembers_property (name : String) (value : Json) :
    validMembers (property name value) = (validUTF8 (literal name) && value.valid) :=
  Bool.and_true _

theorem validMembers_propertyUnless {α : Type} [DecidableEq α] {name : String}
    (hname : validUTF8 (literal name) = true) {encode : α → Json} {value : α}
    (h : (encode value).valid = true) (default : α) :
    validMembers (propertyUnless default name encode value) = true := by
  unfold propertyUnless
  split_ifs
  · rfl
  · rw [validMembers, hname, h]
    rfl

theorem valid_orNull {value : Option Bytes} (h : ∀ s ∈ value, validUTF8 s = true) :
    (orNull .str value).valid = true := by
  rcases value with _ | s
  · rfl
  · exact h s rfl

end OpenFlux.App
