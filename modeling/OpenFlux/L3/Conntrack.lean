import Mathlib.Logic.Function.Basic
import OpenFlux.L3.Flow

/-!
# The connection table of the L3 exit (`tunnel/l3/conntrack.go`)

`Conntrack` is the map `entries`.  Times are nanoseconds of a clock passed in as `now`; the
operations run under the table's lock and are atomic.
-/

namespace OpenFlux.L3

/-- `ctEntry`. -/
structure CtEntry where
  lastSeen : ℕ
  dying : Bool
  deriving DecidableEq

/-- The map `entries` of `conntrack`. -/
abbrev Conntrack := FlowKey → Option CtEntry

/-- `ctTimeoutEstablished`. -/
def ctTimeoutEstablished : ℕ := 5 * 60 * 10 ^ 9

/-- `ctTimeoutClosing`. -/
def ctTimeoutClosing : ℕ := 15 * 10 ^ 9

/-- The timeout that `sweep` gives an entry. -/
def CtEntry.timeout (e : CtEntry) : ℕ := if e.dying then ctTimeoutClosing else ctTimeoutEstablished

/-- `now.Sub(e.lastSeen) > timeout`. -/
def CtEntry.idle (e : CtEntry) (now : ℕ) : Prop := e.timeout < now - e.lastSeen

instance (e : CtEntry) (now : ℕ) : Decidable (e.idle now) := inferInstanceAs (Decidable (_ < _))

namespace Conntrack

/-- The table of `newConntrack`. -/
def empty : Conntrack := fun _ => none

/-- `Insert`: an entry that is there only has its time renewed. -/
def insert (c : Conntrack) (k : FlowKey) (now : ℕ) : Conntrack :=
  match c k with
  | some e => Function.update c k (some { e with lastSeen := now })
  | none => Function.update c k (some { lastSeen := now, dying := false })

/-- `Touch`. -/
def touch (c : Conntrack) (k : FlowKey) (dying : Bool) (now : ℕ) : Conntrack :=
  match c k with
  | some e => Function.update c k (some { lastSeen := now, dying := e.dying || dying })
  | none => c

/-- `Exists`. -/
def existsEntry (c : Conntrack) (k : FlowKey) : Bool := (c k).isSome

/-- `sweep`. -/
def sweep (c : Conntrack) (now : ℕ) : Conntrack := fun k =>
  (c k).filter fun e => ¬ e.idle now

end Conntrack

end OpenFlux.L3
