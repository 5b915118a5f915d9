import OpenFlux.Algorithm.LineReader
import OpenFlux.App.Utf8

/-!
# The output of the installer (`runInstaller` in `ServerInstallFragment.kt`)

The loop that reads the output of the installation, from the chunks it gets to what it knows in the
end.  The time it takes and what comes before and after the loop are left out.
-/

namespace OpenFlux.App.Installer

open Kotlin

abbrev Text := List UInt16

/-- `trimEnd('\r')`. -/
def trimEnd (line : Text) : Text := line.rdropWhile (· == 0x0D)

def isDigit (u : UInt16) : Bool := 0x30 ≤ u && u ≤ 0x39

/-- What `.` does not match. -/
def isLineTerminator (u : UInt16) : Bool := u ∈ [0x0A, 0x0D, 0x85, 0x2028, 0x2029]

/-- `$` matches before this text. -/
def isLineEnd : Text → Bool
  | [] => true
  | [u] => isLineTerminator u
  | [u, v] => u = 0x0D && v = 0x0A
  | _ => false

/-- `Regex("^PROGRESS=(\\d{1,3})\\|(.+)$")`, with its groups. -/
def matchProgress (line : Text) : Option (Text × Text) := do
  let rest ← line.dropPrefix? (units "PROGRESS=")
  let digits := rest.takeWhile isDigit
  guard (1 ≤ digits.length ∧ digits.length ≤ 3)
  let rest ← (rest.dropWhile isDigit).dropPrefix? (units "|")
  let message := rest.takeWhile fun u => !isLineTerminator u
  guard (message ≠ [] ∧ isLineEnd (rest.dropWhile fun u => !isLineTerminator u))
  return (digits, message)

/-- `toInt`. -/
def toInt (digits : Text) : ℕ := digits.foldl (fun n u => 10 * n + (u.toNat - 0x30)) 0

/-- What the loop has found, and what it has reported. -/
structure Output where
  lines : List Text := []
  sawOk : Bool := false
  sawControlReady : Bool := false
  transportLine : Option Text := none
  hysteriaLine : Option Text := none
  progress : List (ℕ × Text) := []
  deriving DecidableEq

namespace Output

/-- What is done with every line. -/
def addLine (o : Output) (line : Text) : Output :=
  { o with
    lines := (if o.lines.length = 400 then o.lines.drop 1 else o.lines) ++ [line]
    sawOk := o.sawOk || line = units "OK"
    sawControlReady := o.sawControlReady || line = units "CONTROL_API=ready"
    transportLine := if (units "TRANSPORT=").isPrefixOf line then some line else o.transportLine
    hysteriaLine := if (units "HY2_URI=").isPrefixOf line then some line else o.hysteriaLine }

/-- A line that has ended. -/
def endLine (o : Output) (line : Text) : Output :=
  let o := o.addLine (trimEnd line)
  match matchProgress (trimEnd line) with
  | none => o
  | some (percent, message) =>
    { o with progress := o.progress ++ [(min 100 (toInt percent), message)] }

/-- The loop over the lines in `pending`, and what is left of it. -/
def takeLines (o : Output) (pending : Text) : Output × Text :=
  if 0x0A ∈ pending then
    takeLines (o.endLine (pending.takeWhile (· != 0x0A))) ((pending.dropWhile (· != 0x0A)).drop 1)
  else (o, pending)
termination_by pending.length
decreasing_by
  have hmem : 0x0A ∈ pending := by assumption
  have hle := (List.dropWhile_sublist (fun u => u != 0x0A) (l := pending)).length_le
  have hpos := List.length_pos_of_mem hmem
  simp only [List.length_drop]
  omega

/-- A chunk. -/
def readChunk : Output × Text → Bytes → Output × Text
  | (o, pending), bytes =>
    let (o, pending) := o.takeLines (pending ++ Utf8.decode bytes)
    (o, if 32768 < pending.length then pending.drop (pending.length - 32768) else pending)

end Output

/-- What is found in these chunks. -/
def runInstaller (chunks : List Bytes) : Output :=
  let (o, pending) := chunks.foldl Output.readChunk ({}, [])
  if pending ≠ [] then o.addLine pending else o

/-- A way in which the loop may read these bytes. -/
def Divides (chunks : List Bytes) (b : Bytes) : Prop :=
  chunks.flatten = b ∧ ∀ chunk ∈ chunks, chunk ≠ [] ∧ chunk.length ≤ 8192

end OpenFlux.App.Installer
