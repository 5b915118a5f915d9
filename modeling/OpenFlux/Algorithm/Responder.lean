import Mathlib.Logic.Basic

/-!
# Components that answer

A component in a state takes a command to the next state and to its answer.  One that goes step by
step with another one, up to a relation between their states, gives the same answers
(`run_simulates`): what is behind the states cannot be told from outside.
-/

namespace OpenFlux.Responder

variable {σ τ κ ω : Type*}

/-- The state after these commands and what was answered to them. -/
def run (step : σ → κ → σ × ω) (s : σ) : List κ → σ × List ω
  | [] => (s, [])
  | k :: ks =>
    let r := run step (step s k).1 ks
    (r.1, (step s k).2 :: r.2)

@[simp] theorem run_nil (step : σ → κ → σ × ω) (s : σ) : run step s [] = (s, []) := rfl

@[simp] theorem run_cons (step : σ → κ → σ × ω) (s : σ) (k : κ) (ks : List κ) :
    run step s (k :: ks) =
      ((run step (step s k).1 ks).1, (step s k).2 :: (run step (step s k).1 ks).2) := rfl

/-- Components that take each command in the same way answer alike. -/
theorem run_simulates {f : σ → κ → σ × ω} {g : τ → κ → τ × ω} {R : σ → τ → Prop} {ks : List κ}
    (hstep : ∀ s t, ∀ k ∈ ks, R s t → R (f s k).1 (g t k).1 ∧ (f s k).2 = (g t k).2) {s : σ} {t : τ}
    (h : R s t) : R (run f s ks).1 (run g t ks).1 ∧ (run f s ks).2 = (run g t ks).2 := by
  induction ks generalizing s t with
  | nil => exact ⟨h, rfl⟩
  | cons k ks ih =>
    obtain ⟨hnext, hanswer⟩ := hstep s t k List.mem_cons_self h
    obtain ⟨hlast, hanswers⟩ :=
      ih (fun s t k' hk' => hstep s t k' (List.mem_cons_of_mem k hk')) hnext
    refine ⟨hlast, ?_⟩
    rw [run_cons, run_cons, hanswer, hanswers]

end OpenFlux.Responder
