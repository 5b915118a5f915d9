import OpenFlux.App.Equiv.NativeArgs

/-!
# What the log shows of the token

`SameButToken` goes through two command lines as the client's parser does, and lets them differ in
nothing but what the parser takes for the value of `--maxToken`: the client reads them alike
(`readAlike_of_sameButToken`), and the log shows them alike (`redactFrom_of_sameButToken`).
-/

namespace OpenFlux.App.NativeArgs

open OpenFlux.Flag Main

/-- `--maxToken`, with one dash or two. -/
def IsTokenFlag (flag : Bytes) : Prop :=
  flag = 0x2D :: literal "maxToken" ∨ flag = 0x2D :: 0x2D :: literal "maxToken"

/-- The flag takes the next argument as its value. -/
def takesNext (name : Bytes) (value : Option Bytes) : Bool :=
  value.isNone && (commandLine.formal name).any fun v => !v.isBoolFlag

/-- Two command lines that differ only in what the client takes for the token. -/
inductive SameButToken : List Bytes → List Bytes → Prop
  | nil : SameButToken [] []
  | last (a : Bytes) : SameButToken [a] [a]
  -- the client reads no further
  | stop {a : Bytes} (ha : ∀ name value, classify (expandShortFlag a) ≠ .flag name value)
      (args : List Bytes) : SameButToken (a :: args) (a :: args)
  | single {a name : Bytes} {value : Option Bytes} {args args' : List Bytes}
      (ha : classify (expandShortFlag a) = .flag name value) (hnext : takesNext name value = false)
      (h : SameButToken args args') : SameButToken (a :: args) (a :: args')
  | pair {a name : Bytes} {args args' : List Bytes}
      (ha : classify (expandShortFlag a) = .flag name none) (hnext : takesNext name none = true)
      (v : Bytes) (h : SameButToken args args') : SameButToken (a :: v :: args) (a :: v :: args')
  | attached {flag : Bytes} {args args' : List Bytes} (hflag : IsTokenFlag flag) (t t' : Bytes)
      (h : SameButToken args args') :
      SameButToken ((flag ++ 0x3D :: t) :: args) ((flag ++ 0x3D :: t') :: args')
  | separate {flag t t' : Bytes} {args args' : List Bytes} (hflag : IsTokenFlag flag)
      (ht : named t secretValues = false) (ht' : named t' secretValues = false)
      (h : SameButToken args args') : SameButToken (flag :: t :: args) (flag :: t' :: args')

/-! ### The flag -/

theorem spelled_token {rest : Bytes} (h : rest = [] ∨ ∃ value, rest = 0x3D :: value) :
    Spelled (literal "maxToken") rest :=
  ⟨⟨0x6D, (literal "maxToken").drop 1, by decide, by decide⟩, by decide, h⟩

theorem named_of_tokenFlag {flag rest : Bytes} (hflag : IsTokenFlag flag)
    (h : rest = [] ∨ ∃ value, rest = 0x3D :: value) : named (flag ++ rest) secretValues = true := by
  have hname : flagName (flag ++ rest) = some (literal "maxToken") := by
    obtain ⟨hone, htwo⟩ := flagName_spelled (spelled_token h)
    rcases hflag with rfl | rfl
    · exact hone
    · exact htwo
  rw [named, hname]
  decide

theorem notMem_tokenFlag {flag : Bytes} (hflag : IsTokenFlag flag) : (0x3D : UInt8) ∉ flag := by
  rcases hflag with rfl | rfl <;> decide

theorem substringBefore_tokenFlag {flag : Bytes} (hflag : IsTokenFlag flag) (t : Bytes) :
    Kotlin.substringBefore (flag ++ 0x3D :: t) 0x3D = flag := by
  have hall : ∀ c ∈ flag, (c != 0x3D) = true := by
    intro c hc
    rw [bne_iff_ne]
    rintro rfl
    exact notMem_tokenFlag hflag hc
  rw [Kotlin.substringBefore, List.takeWhile_append_of_pos hall,
    List.takeWhile_cons_of_neg (by simp), List.append_nil]

/-- An alias has one letter. -/
theorem expandShortFlag_of_third {a b c : UInt8} (hc : c ≠ 0x3D) (rest : Bytes) :
    expandShortFlag (a :: b :: c :: rest) = a :: b :: c :: rest := by
  have hlength : ∀ entry ∈ aliases, entry.1.length = 2 := by decide +kernel
  have hfind : aliases.find? (fun entry => usesAlias (a :: b :: c :: rest) entry.1) = none := by
    rw [List.find?_eq_none]
    intro entry hentry huses
    obtain ⟨x, y, hxy⟩ := List.length_eq_two.mp (hlength entry hentry)
    simp only [usesAlias, hxy, Bool.or_eq_true, beq_iff_eq, List.isPrefixOf_iff_prefix,
      List.cons_append, List.nil_append, List.cons_prefix_cons] at huses
    rcases huses with h | ⟨-, -, h, -⟩
    · simp at h
    · exact hc h.symm
  rw [expandShortFlag, hfind]

/-- What the client reads of the flag, with the value after `=` or without. -/
theorem classify_tokenFlag {flag : Bytes} (hflag : IsTokenFlag flag) :
    classify (expandShortFlag flag) = .flag (literal "maxToken") none ∧
      ∀ t, classify (expandShortFlag (flag ++ 0x3D :: t)) =
        .flag (literal "maxToken") (some t) := by
  have hname : literal "maxToken" = [0x6D, 0x61, 0x78, 0x54, 0x6F, 0x6B, 0x65, 0x6E] := by decide
  rcases hflag with rfl | rfl
  · rw [hname]
    refine ⟨by decide +kernel, fun t => ?_⟩
    simp only [List.cons_append, List.nil_append]
    rw [expandShortFlag_of_third (by decide)]
    rfl
  · rw [hname]
    refine ⟨by decide +kernel, fun t => ?_⟩
    simp only [List.cons_append, List.nil_append]
    rw [expandShortFlag_of_third (by decide)]
    rfl

/-! ### The log -/

/-- Of the argument before, only that it names the token counts. -/
theorem redactFrom_congr {p p' : Option Bytes}
    (hp : p.any (named · secretValues) = p'.any (named · secretValues)) (args : List Bytes) :
    redactFrom p args = redactFrom p' args := by
  cases args with
  | nil => rfl
  | cons a args => rw [redactFrom, redactFrom, hp]

theorem redactFrom_of_sameButToken {args args' : List Bytes} (h : SameButToken args args') :
    ∀ {p p' : Option Bytes}, p.any (named · secretValues) = p'.any (named · secretValues) →
      redactFrom p args = redactFrom p' args' := by
  induction h with
  | nil => exact fun _ => rfl
  | last a => exact fun hp => redactFrom_congr hp _
  | stop ha args => exact fun hp => redactFrom_congr hp _
  | single ha hnext h ih =>
    intro p p' hp
    rw [redactFrom, redactFrom, hp, ih rfl]
  | pair ha hnext v h ih =>
    intro p p' hp
    rw [redactFrom, redactFrom, redactFrom, redactFrom, hp, ih rfl]
  | @attached flag args args' hflag t t' h ih =>
    intro p p' hp
    have hnamed := named_of_tokenFlag hflag (.inr ⟨t, rfl⟩)
    have hnamed' := named_of_tokenFlag hflag (.inr ⟨t', rfl⟩)
    have hmem : ∀ t : Bytes, 0x3D ∈ flag ++ 0x3D :: t := fun t =>
      List.mem_append_right _ (List.mem_cons_self ..)
    rw [redactFrom, redactFrom, if_pos ⟨hnamed, hmem t⟩, if_pos ⟨hnamed', hmem t'⟩,
      substringBefore_tokenFlag hflag, substringBefore_tokenFlag hflag]
    exact congrArg _ (ih (hnamed.trans hnamed'.symm))
  | @separate flag t t' args args' hflag ht ht' h ih =>
    intro p p' hp
    have hnamed : named flag secretValues = true := by
      have h := named_of_tokenFlag hflag (.inl rfl)
      rwa [List.append_nil] at h
    have hshown : ∀ t : Bytes, named t secretValues = false → ∀ args,
        redactFrom (some flag) (t :: args) = literal "***" :: redactFrom (some t) args := by
      intro t ht args
      have hprev : (some flag).any (named · secretValues) = true := hnamed
      rw [redactFrom, ht, if_neg fun h => Bool.false_ne_true h.1, if_pos hprev]
    have hrest : redactFrom (some t) args = redactFrom (some t') args' := by
      apply ih
      show named t secretValues = named t' secretValues
      rw [ht, ht']
    rw [redactFrom, hp, hshown t ht, hrest]
    conv_rhs => rw [redactFrom, hshown t' ht']

/-! ### The client -/

/-- Both parses exit with one code, or end in flags that agree but for the token. -/
def ReadAlike (x y : Except ℕ FlagSet) : Prop :=
  (∃ code, x = .error code ∧ y = .error code) ∨
    ∃ f g, x = .ok f ∧ y = .ok g ∧ Agree {literal "maxToken"} f g

/-- Two sets of flags between the same arguments of both command lines. -/
structure Reading (f g : FlagSet) : Prop where
  kinds : ∀ name, (f.formal name).map Value.isBoolFlag =
    (commandLine.formal name).map Value.isBoolFlag
  agree : Agree {literal "maxToken"} f g
  token : ∃ t, f.formal (literal "maxToken") = some (.string t)
  token' : ∃ t, g.formal (literal "maxToken") = some (.string t)

theorem reading_commandLine : Reading commandLine commandLine :=
  ⟨fun _ => rfl, fun _ _ => rfl, ⟨_, rfl⟩, ⟨_, rfl⟩⟩

/-- The flags are defined alike, and take the same texts for the same values. -/
theorem Reading.formal {f g : FlagSet} (h : Reading f g) (name : Bytes) :
    (f.formal name = none ∧ g.formal name = none) ∨
      ∃ v v', f.formal name = some v ∧ g.formal name = some v' ∧ v.set = v'.set ∧
        v.isBoolFlag = v'.isBoolFlag := by
  by_cases hname : name = literal "maxToken"
  · subst hname
    obtain ⟨t, ht⟩ := h.token
    obtain ⟨t', ht'⟩ := h.token'
    exact .inr ⟨_, _, ht, ht', rfl, rfl⟩
  · rw [← h.agree name hname]
    cases f.formal name with
    | none => exact .inl ⟨rfl, rfl⟩
    | some v => exact .inr ⟨v, v, rfl, rfl, rfl, rfl⟩

theorem isBoolFlag_of_set {v w : Value} {text : Bytes} (h : v.set text = some w) :
    w.isBoolFlag = v.isBoolFlag ∧ ((∃ t, v = .string t) → ∃ t, w = .string t) := by
  cases v with
  | bool b =>
    obtain ⟨b', -, rfl⟩ := Option.map_eq_some_iff.mp h
    exact ⟨rfl, nofun⟩
  | int i =>
    obtain ⟨i', -, rfl⟩ := Option.map_eq_some_iff.mp h
    exact ⟨rfl, nofun⟩
  | string t =>
    obtain rfl := Option.some.inj h
    exact ⟨rfl, fun _ => ⟨_, rfl⟩⟩

/-- A flag is set to one value on both sides, the token perhaps to two. -/
theorem Reading.update {f g : FlagSet} (h : Reading f g) {name : Bytes} {v w w' : Value}
    (hv : f.formal name = some v) (hbool : w.isBoolFlag = v.isBoolFlag)
    (hsame : name ≠ literal "maxToken" → w = w')
    (htoken : name = literal "maxToken" → (∃ t, w = .string t) ∧ ∃ t, w' = .string t)
    (actual actual' : List Bytes) :
    Reading ⟨Function.update f.formal name (some w), actual⟩
      ⟨Function.update g.formal name (some w'), actual'⟩ := by
  refine ⟨fun other => ?_, fun other hother => ?_, ?_, ?_⟩
  · show (Function.update f.formal name (some w) other).map _ = _
    by_cases heq : other = name
    · subst heq
      rw [Function.update_self, ← h.kinds, hv]
      exact congrArg some hbool
    · rw [Function.update_of_ne heq]
      exact h.kinds other
  · show Function.update f.formal name (some w) other =
      Function.update g.formal name (some w') other
    by_cases heq : other = name
    · subst heq
      rw [Function.update_self, Function.update_self, hsame hother]
    · rw [Function.update_of_ne heq, Function.update_of_ne heq]
      exact h.agree other hother
  · show ∃ t, Function.update f.formal name (some w) (literal "maxToken") = _
    by_cases heq : literal "maxToken" = name
    · obtain ⟨⟨t, ht⟩, -⟩ := htoken heq.symm
      exact ⟨t, by rw [← heq, Function.update_self, ht]⟩
    · rw [Function.update_of_ne heq]
      exact h.token
  · show ∃ t, Function.update g.formal name (some w') (literal "maxToken") = _
    by_cases heq : literal "maxToken" = name
    · obtain ⟨-, t, ht⟩ := htoken heq.symm
      exact ⟨t, by rw [← heq, Function.update_self, ht]⟩
    · rw [Function.update_of_ne heq]
      exact h.token'

/-- A flag takes its text on both sides, and then the rest is read. -/
theorem ReadAlike.assign {f g : FlagSet} (h : Reading f g) {name : Bytes} {v v' : Value}
    (hv : f.formal name = some v) (hset : v.set = v'.set) (text : Bytes) {rest rest' : List Bytes}
    (hrest : ∀ {f g : FlagSet}, Reading f g → ReadAlike (parse f rest) (parse g rest')) :
    ReadAlike
      (match f.assign name v text with
        | some f => parse f rest
        | none => .error 2)
      (match g.assign name v' text with
        | some g => parse g rest'
        | none => .error 2) := by
  unfold FlagSet.assign
  rw [← hset]
  cases hw : v.set text with
  | none => exact .inl ⟨2, rfl, rfl⟩
  | some w =>
    obtain ⟨hbool, hstring⟩ := isBoolFlag_of_set hw
    refine hrest (h.update hv hbool (fun _ => rfl) (fun heq => ?_) _ _)
    obtain ⟨t, ht⟩ := h.token
    rw [← heq, hv, Option.some.injEq] at ht
    exact ⟨hstring ⟨t, ht⟩, hstring ⟨t, ht⟩⟩

theorem Reading.setToken {f g : FlagSet} (h : Reading f g) (t t' : Bytes) :
    Reading (f.setString (literal "maxToken") t) (g.setString (literal "maxToken") t') := by
  obtain ⟨s, hs⟩ := h.token
  have hstring : ∀ t, ∃ s, Value.string t = .string s := fun t => ⟨t, rfl⟩
  have hbool : (Value.string t).isBoolFlag = (Value.string s).isBoolFlag := rfl
  exact h.update hs hbool (fun hne => absurd rfl hne) (fun _ => ⟨hstring t, hstring t'⟩) _ _

/-- The token after `=` is taken too. -/
theorem parse_attached {f : FlagSet} {s name v text : Bytes}
    (hs : classify s = .flag name (some text)) (hf : f.formal name = some (.string v))
    (args : List Bytes) : parse f (s :: args) = parse (f.setString name text) args := by
  rw [parse, hs]
  dsimp only
  rw [hf]
  rfl

theorem readAlike_of_sameButToken {args args' : List Bytes} (h : SameButToken args args') :
    ∀ {f g : FlagSet}, Reading f g →
      ReadAlike (parse f (expandShortFlags args)) (parse g (expandShortFlags args')) := by
  have hdone : ∀ {f g : FlagSet}, Reading f g → ReadAlike (.ok f) (.ok g) :=
    fun h => .inr ⟨_, _, rfl, rfl, h.agree⟩
  induction h with
  | nil => exact fun hread => hdone hread
  | last a =>
    intro f g hread
    show ReadAlike (parse f [expandShortFlag a]) (parse g [expandShortFlag a])
    rw [parse, parse]
    cases classify (expandShortFlag a) with
    | other => exact hdone hread
    | terminator => exact hdone hread
    | badSyntax => exact .inl ⟨2, rfl, rfl⟩
    | flag name value =>
      dsimp only
      rcases hread.formal name with ⟨hf, hg⟩ | ⟨v, v', hf, hg, hset, hbool⟩
      · rw [hf, hg]
        exact .inl ⟨_, rfl, rfl⟩
      · rw [hf, hg]
        dsimp only
        rw [← hbool]
        cases (if v.isBoolFlag then some (value.getD (literal "true")) else value) with
        | none => exact .inl ⟨2, rfl, rfl⟩
        | some text => exact .assign hread hf hset text hdone
  | @stop a ha args =>
    intro f g hread
    show ReadAlike (parse f (expandShortFlag a :: expandShortFlags args))
      (parse g (expandShortFlag a :: expandShortFlags args))
    rw [parse, parse]
    cases hs : classify (expandShortFlag a) with
    | other => exact hdone hread
    | terminator => exact hdone hread
    | badSyntax => exact .inl ⟨2, rfl, rfl⟩
    | flag name value => exact absurd hs (ha name value)
  | @single a name value args args' ha hnext h ih =>
    intro f g hread
    show ReadAlike (parse f (expandShortFlag a :: expandShortFlags args))
      (parse g (expandShortFlag a :: expandShortFlags args'))
    rw [parse, parse, ha]
    dsimp only
    rcases hread.formal name with ⟨hf, hg⟩ | ⟨v, v', hf, hg, hset, hbool⟩
    · rw [hf, hg]
      exact .inl ⟨_, rfl, rfl⟩
    · rw [hf, hg]
      dsimp only
      rw [← hbool]
      have hkind := hread.kinds name
      rw [hf] at hkind
      obtain ⟨d, hd, hdbool⟩ := Option.map_eq_some_iff.mp hkind.symm
      -- the text does not come from the next argument
      obtain ⟨text, htext⟩ : ∃ text,
          (if v.isBoolFlag then some (value.getD (literal "true")) else value) = some text := by
        cases hb : v.isBoolFlag with
        | true => exact ⟨_, rfl⟩
        | false =>
          cases value with
          | some text => exact ⟨text, rfl⟩
          | none =>
            rw [takesNext, hd, Option.any_some, hdbool, hb] at hnext
            cases hnext
      rw [htext]
      exact .assign hread hf hset text ih
  | @pair a name args args' ha hnext w h ih =>
    intro f g hread
    show ReadAlike (parse f (expandShortFlag a :: expandShortFlag w :: expandShortFlags args))
      (parse g (expandShortFlag a :: expandShortFlag w :: expandShortFlags args'))
    rw [parse, parse, ha]
    dsimp only
    rcases hread.formal name with ⟨hf, hg⟩ | ⟨v, v', hf, hg, hset, hbool⟩
    · rw [hf, hg]
      exact .inl ⟨_, rfl, rfl⟩
    · rw [hf, hg]
      dsimp only
      have hkind := hread.kinds name
      rw [hf] at hkind
      obtain ⟨d, hd, hdbool⟩ := Option.map_eq_some_iff.mp hkind.symm
      have hb : v.isBoolFlag = false := by
        rw [takesNext, hd, Option.any_some, hdbool] at hnext
        simpa using hnext
      rw [← hbool, hb]
      exact .assign hread hf hset (expandShortFlag w) ih
  | @attached flag args args' hflag t t' h ih =>
    intro f g hread
    obtain ⟨s, hs⟩ := hread.token
    obtain ⟨s', hs'⟩ := hread.token'
    have hclassify := (classify_tokenFlag hflag).2
    show ReadAlike (parse f (expandShortFlag (flag ++ 0x3D :: t) :: expandShortFlags args))
      (parse g (expandShortFlag (flag ++ 0x3D :: t') :: expandShortFlags args'))
    rw [parse_attached (hclassify t) hs, parse_attached (hclassify t') hs']
    exact ih (hread.setToken t t')
  | @separate flag t t' args args' hflag ht ht' h ih =>
    intro f g hread
    obtain ⟨s, hs⟩ := hread.token
    obtain ⟨s', hs'⟩ := hread.token'
    have hclassify := (classify_tokenFlag hflag).1
    show ReadAlike
      (parse f (expandShortFlag flag :: expandShortFlag t :: expandShortFlags args))
      (parse g (expandShortFlag flag :: expandShortFlag t' :: expandShortFlags args'))
    rw [parse_string hclassify hs, parse_string hclassify hs']
    exact ih (hread.setToken _ _)

/-- **The log does not show the token**: it shows the same of two command lines that differ only in
what the client takes for it, however the flag is spelled and wherever it stands.  That the client
reads them alike says that `SameButToken` is about what the client takes for the token. -/
theorem redact_of_sameButToken {args args' : List Bytes} (h : SameButToken args args') :
    redact args = redact args' ∧
      ReadAlike (parse commandLine (expandShortFlags args))
        (parse commandLine (expandShortFlags args')) :=
  ⟨redactFrom_of_sameButToken h rfl, readAlike_of_sameButToken h reading_commandLine⟩

theorem redact_sample :
    redact [literal "--role", literal "client", literal "--maxToken", literal "secret",
        literal "-maxToken=hidden", literal "--debug"] =
      redact [literal "--role", literal "client", literal "--maxToken", literal "another",
        literal "-maxToken=", literal "--debug"] := by
  have hrole : classify (expandShortFlag (literal "--role")) = .flag (literal "role") none := by
    decide +kernel
  exact (redact_of_sameButToken
    (.pair hrole (by decide +kernel) _
      (.separate (.inr rfl) (by decide +kernel) (by decide +kernel)
        (.attached (.inl rfl) (literal "hidden") [] (.last _))))).1

end OpenFlux.App.NativeArgs
