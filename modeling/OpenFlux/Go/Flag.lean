import Mathlib.Logic.Function.Basic
import OpenFlux.Go.Strconv

/-!
# Command lines (`flag`)

A `FlagSet` with `ExitOnError`: flags of the three kinds the program defines, one or two dashes, a
value after `=` or as the next argument, later occurrences winning, and parsing that stops at the
first argument that is no flag.  A failed parse is the exit code of the process: 0 after a request
for help, else 2.

What a parse does to a flag depends on the values of the other flags only through their kinds: two
sets that differ in flags which the arguments do not name go through the same parse (`parse_congr`).
-/

namespace OpenFlux.Flag

/-- A flag's value, by its kind. -/
inductive Value
  | bool (v : Bool)
  | int (v : ℤ)
  | string (v : Bytes)
  deriving DecidableEq

/-- `Set`. -/
def Value.set : Value → Bytes → Option Value
  | .bool _, s => (parseBool s).map .bool
  | .int _, s => (parseInt s 0).map .int
  | .string _, s => some (.string s)

/-- `IsBoolFlag`. -/
def Value.isBoolFlag : Value → Bool
  | .bool _ => true
  | .int _ | .string _ => false

/-- The flags that are defined, with their values, and the names of those that have been set. -/
structure FlagSet where
  formal : Bytes → Option Value
  actual : List Bytes

namespace FlagSet

/-- `NewFlagSet` with the flags defined on it. -/
def define (definitions : List (Bytes × Value)) : FlagSet where
  formal name := definitions.lookup name
  actual := []

/-- The value of a string flag. -/
def string (f : FlagSet) (name : Bytes) : Bytes :=
  match f.formal name with
  | some (.string v) => v
  | _ => []

/-- The value of an integer flag. -/
def int (f : FlagSet) (name : Bytes) : ℤ :=
  match f.formal name with
  | some (.int v) => v
  | _ => 0

/-- The value of a boolean flag. -/
def bool (f : FlagSet) (name : Bytes) : Bool :=
  match f.formal name with
  | some (.bool v) => v
  | _ => false

/-- The flag `name` of the value `v` is set to what the text means. -/
def assign (f : FlagSet) (name : Bytes) (v : Value) (text : Bytes) : Option FlagSet :=
  (v.set text).map fun v =>
    { formal := Function.update f.formal name (some v), actual := f.actual ++ [name] }

end FlagSet

/-- What `parseOne` takes an argument for. -/
inductive Arg
  -- not a flag
  | other
  -- `--`
  | terminator
  | badSyntax
  | flag (name : Bytes) (value : Option Bytes)
  deriving DecidableEq

/-- An argument less its dashes. -/
def splitFlag : Bytes → Arg
  | [] => .badSyntax
  | c :: rest =>
    if c = 0x2D ∨ c = 0x3D then .badSyntax
    else if 0x3D ∈ rest then
      .flag (c :: rest.takeWhile (· != 0x3D)) (some ((rest.dropWhile (· != 0x3D)).drop 1))
    else .flag (c :: rest) none

/-- The argument as `parseOne` reads it. -/
def classify : Bytes → Arg
  | [0x2D, 0x2D] => .terminator
  | 0x2D :: 0x2D :: name => splitFlag name
  | 0x2D :: c :: name => splitFlag (c :: name)
  | _ => .other

/-- `Parse`: the set after it, or the code the process exits with. -/
def parse : FlagSet → List Bytes → Except ℕ FlagSet
  | f, [] => .ok f
  | f, s :: args =>
    match classify s with
    | .other | .terminator => .ok f
    | .badSyntax => .error 2
    | .flag name value =>
      match f.formal name with
      | none => .error (if name = literal "help" ∨ name = literal "h" then 0 else 2)
      | some v =>
        match (if v.isBoolFlag then some (value.getD (literal "true")) else value), args with
        | some text, args =>
          match f.assign name v text with
          | some f => parse f args
          | none => .error 2
        | none, text :: args =>
          match f.assign name v text with
          | some f => parse f args
          | none => .error 2
        | none, [] => .error 2

/-- A string flag is set. -/
def FlagSet.setString (f : FlagSet) (name text : Bytes) : FlagSet where
  formal := Function.update f.formal name (some (.string text))
  actual := f.actual ++ [name]

/-- A string flag takes the next argument, whatever it looks like. -/
theorem parse_string {f : FlagSet} {s name v : Bytes} (hs : classify s = .flag name none)
    (hf : f.formal name = some (.string v)) (text : Bytes) (args : List Bytes) :
    parse f (s :: text :: args) = parse (f.setString name text) args := by
  rw [parse, hs]
  dsimp only
  rw [hf]
  rfl

/-- A boolean flag is set. -/
def FlagSet.setBool (f : FlagSet) (name : Bytes) (v : Bool) : FlagSet where
  formal := Function.update f.formal name (some (.bool v))
  actual := f.actual ++ [name]

/-- A boolean flag that stands by itself is set to true. -/
theorem parse_bool {f : FlagSet} {s name : Bytes} {v : Bool} (hs : classify s = .flag name none)
    (hf : f.formal name = some (.bool v)) (args : List Bytes) :
    parse f (s :: args) = parse (f.setBool name true) args := by
  have htrue : (Value.bool v).set (literal "true") = some (.bool true) := by
    show (parseBool (literal "true")).map Value.bool = _
    rw [show parseBool (literal "true") = some true by decide]
    rfl
  rw [parse, hs]
  dsimp only
  rw [hf]
  simp only [Value.isBoolFlag, if_true, Option.getD_none, FlagSet.assign, htrue, Option.map_some]
  rfl

namespace FlagSet

variable (f : FlagSet)

theorem formal_setString_self (name text : Bytes) :
    (f.setString name text).formal name = some (.string text) := Function.update_self ..

theorem formal_setString_of_ne {name other : Bytes} (h : other ≠ name) (text : Bytes) :
    (f.setString name text).formal other = f.formal other := Function.update_of_ne h ..

theorem formal_setBool_self (name : Bytes) (v : Bool) :
    (f.setBool name v).formal name = some (.bool v) := Function.update_self ..

theorem formal_setBool_of_ne {name other : Bytes} (h : other ≠ name) (v : Bool) :
    (f.setBool name v).formal other = f.formal other := Function.update_of_ne h ..

end FlagSet

/-! ### What the arguments leave alone -/

/-- The arguments name no flag in `N`. -/
def Avoid (N : Set Bytes) (args : List Bytes) : Prop :=
  ∀ a ∈ args, ∀ name value, classify a = .flag name value → name ∉ N

/-- Two sets whose flags outside `N` are the same. -/
def Agree (N : Set Bytes) (f g : FlagSet) : Prop := ∀ name, name ∉ N → f.formal name = g.formal name

/-- The flags in `N` are left alone, and none is forgotten of those that have been set. -/
structure Extends (N : Set Bytes) (f f' : FlagSet) : Prop where
  formal : ∀ name ∈ N, f'.formal name = f.formal name
  actual : f.actual ⊆ f'.actual

theorem Extends.refl (N : Set Bytes) (f : FlagSet) : Extends N f f :=
  ⟨fun _ _ => rfl, List.Subset.refl _⟩

theorem Extends.trans {N : Set Bytes} {f g h : FlagSet} (hfg : Extends N f g)
    (hgh : Extends N g h) : Extends N f h :=
  ⟨fun name hname => (hgh.formal name hname).trans (hfg.formal name hname),
    List.Subset.trans hfg.actual hgh.actual⟩

theorem assign_congr {N : Set Bytes} {f g : FlagSet} (h : Agree N f g) {name : Bytes}
    (hname : name ∉ N) (v : Value) (text : Bytes) :
    (f.assign name v text = none ∧ g.assign name v text = none) ∨
      ∃ f' g', f.assign name v text = some f' ∧ g.assign name v text = some g' ∧ Agree N f' g' ∧
        Extends N f f' ∧ Extends N g g' := by
  unfold FlagSet.assign
  cases v.set text with
  | none => exact .inl ⟨rfl, rfl⟩
  | some v' =>
    have hextends : ∀ f : FlagSet, Extends N f
        { formal := Function.update f.formal name (some v'), actual := f.actual ++ [name] } := by
      intro f
      refine ⟨fun other hother => ?_, List.subset_append_left _ _⟩
      apply Function.update_of_ne
      rintro rfl
      exact hname hother
    refine .inr ⟨_, _, rfl, rfl, fun other hother => ?_, hextends f, hextends g⟩
    show Function.update f.formal name (some v') other =
      Function.update g.formal name (some v') other
    rw [Function.update_apply, Function.update_apply, h other hother]

/-- Two parses, of `f` and of `g`, fail alike or end in sets that agree, and leave `N` alone. -/
def Alike (N : Set Bytes) (f g : FlagSet) (x y : Except ℕ FlagSet) : Prop :=
  (∃ code, x = .error code ∧ y = .error code) ∨
    ∃ f' g', x = .ok f' ∧ y = .ok g' ∧ Agree N f' g' ∧ Extends N f f' ∧ Extends N g g'

theorem Alike.stop {N : Set Bytes} {f g : FlagSet} (h : Agree N f g) :
    Alike N f g (.ok f) (.ok g) :=
  .inr ⟨f, g, rfl, rfl, h, .refl N f, .refl N g⟩

theorem Alike.error {N : Set Bytes} {f g : FlagSet} (code : ℕ) :
    Alike N f g (.error code) (.error code) :=
  .inl ⟨code, rfl, rfl⟩

/-- A flag is set, and then the rest is parsed. -/
theorem Alike.assign {N : Set Bytes} {f g : FlagSet} {rest : List Bytes} (hagree : Agree N f g)
    (hrest : ∀ {f' g' : FlagSet}, Agree N f' g' → Alike N f' g' (parse f' rest) (parse g' rest))
    {name : Bytes} (hname : name ∉ N) (v : Value) (text : Bytes) :
    Alike N f g
      (match f.assign name v text with
        | some f => parse f rest
        | none => .error 2)
      (match g.assign name v text with
        | some g => parse g rest
        | none => .error 2) := by
  rcases assign_congr hagree hname v text with ⟨hf, hg⟩ | ⟨f₁, g₁, hf, hg, hagree₁, hf₁, hg₁⟩
  · rw [hf, hg]
    exact .error 2
  · rw [hf, hg]
    rcases hrest hagree₁ with herror | ⟨f', g', hf', hg', h, hff, hgg⟩
    · exact .inl herror
    · exact .inr ⟨f', g', hf', hg', h, hf₁.trans hff, hg₁.trans hgg⟩

/-- **Flags that are not named**: two sets that agree on the others go through the same parse, which
leaves both as they are on these. -/
theorem parse_congr {N : Set Bytes} {args : List Bytes} {f g : FlagSet} (hagree : Agree N f g)
    (havoid : Avoid N args) : Alike N f g (parse f args) (parse g args) := by
  obtain ⟨n, hn⟩ : ∃ n, args.length = n := ⟨_, rfl⟩
  -- a flag may take the next argument too
  induction n using Nat.strong_induction_on generalizing args f g with
  | _ n ih =>
  cases args with
  | nil => exact .stop hagree
  | cons s args =>
    rw [List.length_cons] at hn
    have hargs : Avoid N args := fun a ha => havoid a (List.mem_cons_of_mem s ha)
    rw [parse, parse]
    cases hs : classify s with
    | other => exact .stop hagree
    | terminator => exact .stop hagree
    | badSyntax => exact .error 2
    | flag name value =>
      have hname := havoid s (List.mem_cons_self ..) name value hs
      dsimp only
      rw [← hagree name hname]
      cases f.formal name with
      | none => exact .error _
      | some v =>
        dsimp only
        cases (if v.isBoolFlag then some (value.getD (literal "true")) else value) with
        | some text =>
          refine .assign hagree (fun h => ?_) hname v text
          exact ih args.length (by omega) h hargs rfl
        | none =>
          cases args with
          | nil => exact .error 2
          | cons text args =>
            rw [List.length_cons] at hn
            refine .assign hagree (fun h => ?_) hname v text
            exact ih args.length (by omega) h (fun a ha => hargs a (List.mem_cons_of_mem _ ha)) rfl

end OpenFlux.Flag
