import OpenFlux.Go.Json

/-!
# Writing structs as JSON (`encoding/json`)

A struct is written as the members for its fields in order.  A field tagged `omitempty` is left out
where its value is empty, which a struct never is.
-/

namespace OpenFlux

/-- The value of a struct's field, by its kind.  Strings are valid UTF-8. -/
inductive GoValue
  | bool (b : Bool)
  | int (n : ℤ)
  | string (s : Bytes)
  -- `none` is nil
  | slice (items : Option (List Json))
  -- a struct, with what it is written as
  | struct (j : Json)

namespace GoValue

/-- `isEmptyValue`. -/
def isEmptyValue : GoValue → Bool
  | .bool b => !b
  | .int n => n = 0
  | .string s => s.isEmpty
  | .slice items => (items.getD []).isEmpty
  | .struct _ => false

/-- What the value is written as. -/
def json : GoValue → Json
  | .bool b => .bool b
  | .int n => .num n
  | .string s => .str s
  | .slice (some items) => .arr items
  | .slice none => .null
  | .struct j => j

end GoValue

/-- A field with its tag. -/
structure GoField where
  name : String
  value : GoValue
  omitempty : Bool := false

/-- The JSON of a struct with these fields. -/
def structJson (fields : List GoField) : Json :=
  .obj ((fields.filter fun f => !(f.omitempty && f.value.isEmptyValue)).map fun f =>
    (literal f.name, f.value.json))

end OpenFlux
