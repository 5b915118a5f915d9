import OpenFlux.Go.Scan
import OpenFlux.Go.Strings

/-!
# Addresses (`net.ParseIP`)

Which texts are IP addresses: four decimal fields, or eight hexadecimal ones, of which a run can be
left out and the last two can be written as the four decimal ones.
-/

namespace OpenFlux

/-- A number below 256 without leading zeros. -/
def isOctet (field : Bytes) : Bool :=
  field ≠ [] && field.all isDecimal && (field.length = 1 || field.head? ≠ some 0x30) &&
    decimalValue field < 256

def isIPv4 (s : Bytes) : Bool :=
  (s.splitOn 0x2E).length = 4 && (s.splitOn 0x2E).all isOctet

/-- One to four hexadecimal digits. -/
def isHextet (field : Bytes) : Bool :=
  field ≠ [] && field.length ≤ 4 && field.all fun c => (digitValue c).any (· < 16)

/-- How many 16-bit groups the fields stand for; the last may be an IPv4 address. -/
def countGroups (last4 : Bool) : List Bytes → Option ℕ
  | [] => some 0
  | [field] =>
    if isHextet field then some 1 else if last4 && isIPv4 field then some 2 else none
  | field :: fields =>
    if isHextet field then (countGroups last4 fields).map (· + 1) else none

/-- The groups of a part of an address; the part may be empty beside an ellipsis. -/
def groupsOf (last4 : Bool) (s : Bytes) : Option ℕ :=
  if s = [] then some 0 else countGroups last4 (s.splitOn 0x3A)

def isIPv6 (s : Bytes) : Bool :=
  match index s (literal "::") with
  | none => s ≠ [] && groupsOf true s = some 8
  | some i =>
    match groupsOf false (s.take i), groupsOf true (s.drop (i + 2)) with
    | some m, some n => m + n < 8
    | _, _ => false

/-- `net.ParseIP` does not return nil. -/
def isIP (s : Bytes) : Bool := isIPv4 s || isIPv6 s

example : isIP (literal "192.168.1.1") ∧ isIP (literal "fe80::1") ∧
    isIP (literal "::ffff:10.0.0.1") ∧ isIP (literal "link#14") = false := by decide

end OpenFlux
