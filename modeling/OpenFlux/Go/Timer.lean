import Mathlib.Tactic.Common

/-!
# Timers (`time.Timer`)

A timer and its channel, which holds at most one tick.  Until Go 1.23 a tick that waits in the
channel survives `Stop` and `Reset`; since then both drop it, and `Stop` counts it as stopped.  The
operations take which of the two holds, `drops`.
-/

namespace OpenFlux

/-- The timer is running, and a tick waits in its channel. -/
structure Timer where
  armed : Bool := false
  tick : Bool := false
  deriving DecidableEq

namespace Timer

variable (drops : Bool)

/-- `time.NewTimer`. -/
def new : Timer where
  armed := true

/-- `t.Reset(d)`. -/
def reset (t : Timer) : Timer where
  armed := true
  tick := t.tick && !drops

/-- `t.Stop()`: the timer after it and its result. -/
def stop (t : Timer) : Timer × Bool :=
  ({ tick := t.tick && !drops }, t.armed || (t.tick && drops))

/-- The time is over: the tick goes into the channel, or is lost if the channel is full. -/
def fire (t : Timer) : Option Timer := if t.armed then some { tick := true } else none

/-- `<-t.C`. -/
def receive (t : Timer) : Option Timer := if t.tick then some { t with tick := false } else none

/-- `if !t.Stop() { <-t.C }`. -/
def stopReceive (t : Timer) : Option Timer :=
  let r := t.stop drops
  if r.2 then some r.1 else r.1.receive

/-- `if !t.Stop() { select { case <-t.C: default: } }`. -/
def stopDrain (t : Timer) : Timer :=
  let r := t.stop drops
  if r.2 then r.1 else { r.1 with tick := false }

/-- A new timer is at rest after `if !t.Stop() { <-t.C }`, whether or not it has fired already. -/
theorem stopReceive_new {t : Timer} (h : t = new ∨ new.fire = some t) :
    t.stopReceive drops = some {} := by
  rcases h with rfl | h
  · rfl
  · obtain rfl : { tick := true } = t := Option.some.inj h
    cases drops <;> rfl

theorem fire_eq_some {t t' : Timer} :
    t.fire = some t' ↔ t.armed = true ∧ t' = { tick := true } := by
  rw [fire]
  split_ifs with h
  · simp only [h, Option.some.injEq, true_and, eq_comm]
  · simp only [h, reduceCtorEq, false_and]

theorem receive_eq_some {t t' : Timer} :
    t.receive = some t' ↔ t.tick = true ∧ t' = { t with tick := false } := by
  rw [receive]
  split_ifs with h
  · simp only [h, Option.some.injEq, true_and, eq_comm]
  · simp only [h, reduceCtorEq, false_and]

end Timer

end OpenFlux
