import Mathlib.Tactic.Common

/-!
# Closing channels

A channel as the flag that it is closed; `none` is a panic.  A call that closes channels can be made
again and again, with the effect of the first (`Repeatable`), exactly when it succeeds twice and the
second call changes nothing (`repeatable_iff`).
-/

namespace OpenFlux.Chan

/-- `close(ch)`. -/
def close (closed : Bool) : Option Bool := if closed then none else some true

/-- `select { case <-ch: default: close(ch) }` on a channel that nothing is sent on. -/
def closeOnce (closed : Bool) : Option Bool := if closed then some closed else close closed

@[simp] theorem closeOnce_eq (closed : Bool) : closeOnce closed = some true := by
  cases closed <;> rfl

theorem close_eq_some {closed closed' : Bool} :
    close closed = some closed' ↔ closed = false ∧ closed' = true := by
  cases closed <;> simp [close, eq_comm]

section Calls

variable {σ : Type*}

/-- The same call `n` times, `none` when one of them panics. -/
def calls (f : σ → Option σ) : ℕ → σ → Option σ
  | 0, s => some s
  | n + 1, s => (f s).bind (calls f n)

/-- One call or more all return, and leave the state that the first leaves. -/
def Repeatable (f : σ → Option σ) (s : σ) : Prop := ∃ s', ∀ n, calls f (n + 1) s = some s'

theorem calls_one (f : σ → Option σ) (s : σ) : calls f 1 s = f s := Option.bind_fun_some (f s)

theorem repeatable_iff {f : σ → Option σ} {s : σ} :
    Repeatable f s ↔ ∃ s', f s = some s' ∧ f s' = some s' := by
  constructor
  · rintro ⟨s', h⟩
    have hone : f s = some s' := (calls_one f s).symm.trans (h 0)
    have htwo := h 1
    rw [calls, hone, Option.bind_some, calls_one] at htwo
    exact ⟨s', hone, htwo⟩
  · rintro ⟨s', hone, htwo⟩
    refine ⟨s', fun n => ?_⟩
    rw [calls, hone, Option.bind_some]
    induction n with
    | zero => rfl
    | succ n ih => rw [calls, htwo, Option.bind_some, ih]

/-- A call that cannot be made in the state it leaves. -/
theorem not_repeatable_of_closes {f : σ → Option σ} {s : σ}
    (h : ∀ s', f s = some s' → f s' = none) : ¬ Repeatable f s := by
  rw [repeatable_iff]
  rintro ⟨s', hone, htwo⟩
  rw [h s' hone] at htwo
  cases htwo

end Calls

end OpenFlux.Chan
