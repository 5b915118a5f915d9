import OpenFlux.Go.Strings

/-!
# Numbers from text (`strconv`)

`ParseInt` for a 64-bit result, in a given base or in the base that the text's own beginning
says (base 0, where underscores may separate the digits), `Atoi` and `ParseBool`.  An error is
`none`: no caller of the program tells a range error from a syntax error.
-/

namespace OpenFlux

/-- `lower`. -/
def lowerByte (c : UInt8) : UInt8 := c ||| 0x20

/-- The value of a digit; the letters count on from ten. -/
def digitValue (c : UInt8) : Option ℕ :=
  if 0x30 ≤ c ∧ c ≤ 0x39 then some (c.toNat - 0x30)
  else if 0x61 ≤ lowerByte c ∧ lowerByte c ≤ 0x7A then some ((lowerByte c).toNat - 0x61 + 10)
  else none

/-- The digit loop of `ParseUint`; `base0` lets underscores pass. -/
def parseDigits (base : ℕ) (base0 : Bool) : Bytes → ℕ → Option ℕ
  | [], n => some n
  | c :: s, n =>
    if base0 && c == 0x5F then parseDigits base base0 s n
    else
      match digitValue c with
      | some d => if d < base then parseDigits base base0 s (n * base + d) else none
      | none => none

/-- The base that the text's beginning says, and the text after it. -/
def detectBase : Bytes → ℕ × Bytes
  | 0x30 :: c :: d :: s =>
    if lowerByte c = 0x62 then (2, d :: s)
    else if lowerByte c = 0x6F then (8, d :: s)
    else if lowerByte c = 0x78 then (16, d :: s)
    else (8, c :: d :: s)
  | 0x30 :: s => (8, s)
  | s => (10, s)

/-- The loop of `underscoreOK`: `saw` is the class of the last character. -/
def underscoreLoop (hex : Bool) : UInt8 → Bytes → Bool
  | saw, [] => saw != 0x5F
  | saw, c :: s =>
    if (0x30 ≤ c && c ≤ 0x39) || (hex && 0x61 ≤ lowerByte c && lowerByte c ≤ 0x66) then
      underscoreLoop hex 0x30 s
    else if c == 0x5F then saw == 0x30 && underscoreLoop hex 0x5F s
    else saw != 0x5F && underscoreLoop hex 0x21 s

/-- `underscoreOK` on a text without a sign. -/
def underscoreOK : Bytes → Bool
  | 0x30 :: c :: s =>
    if lowerByte c = 0x62 ∨ lowerByte c = 0x6F ∨ lowerByte c = 0x78 then
      underscoreLoop (lowerByte c == 0x78) 0x30 s
    else underscoreLoop false 0x5E (0x30 :: c :: s)
  | s => underscoreLoop false 0x5E s

/-- The magnitude: `ParseUint`, its range left to the caller. -/
def parseMagnitude (s : Bytes) (base : ℕ) : Option ℕ :=
  if s.isEmpty then none
  else
    let (radix, digits) := if base = 0 then detectBase s else (base, s)
    match parseDigits radix (base == 0) digits 0 with
    | some n => if base == 0 && digits.contains 0x5F && !underscoreOK s then none else some n
    | none => none

/-- `strconv.ParseInt` with `bitSize` 64. -/
def parseInt (s : Bytes) (base : ℕ) : Option ℤ :=
  match s with
  | 0x2D :: s => (parseMagnitude s base).bind fun n => if n ≤ 2 ^ 63 then some (-n) else none
  | 0x2B :: s => (parseMagnitude s base).bind fun n => if n < 2 ^ 63 then some n else none
  | s => (parseMagnitude s base).bind fun n => if n < 2 ^ 63 then some n else none

/-- `strconv.Atoi`. -/
def atoi (s : Bytes) : Option ℤ := parseInt s 10

/-- `strconv.ParseBool`. -/
def parseBool (s : Bytes) : Option Bool :=
  if s ∈ [literal "1", literal "t", literal "T", literal "true", literal "TRUE", literal "True"]
  then some true
  else if s ∈ [literal "0", literal "f", literal "F", literal "false", literal "FALSE",
    literal "False"] then some false
  else none

example : parseInt (literal "-0x_7f") 0 = some (-127) ∧ parseInt (literal "1_0") 10 = none ∧
    atoi (literal "+0127") = some 127 := by
  decide +kernel

end OpenFlux
