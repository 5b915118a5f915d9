import Mathlib.Data.List.Induction
import Mathlib.Tactic.Common

/-!
# Event systems

A system whose steps are functions: all nondeterminism (the scheduler, the timer, the network, a
random choice) is carried by the event, and `step s e = none` says that `e` cannot happen in `s`.
A run is a list of events.

`Reachable.invariant` is the induction behind every safety result: what holds initially and is
kept by each step holds of every reachable state.  `Along P` states a condition on every step of
one run, on the state before it and the event taken, and `run_invariant` is the induction over
such a run; `invariant_iff_along` is the case of a predicate that only such steps keep.
`along_congr` replaces one condition by an equivalent one and `along_mono` by one that follows from
it and an invariant.  `Reachable.map` moves reachability along a simulation.

`record` carries a history beside the state: the runs are the same (`exists_run_record`).

`Since cause hold` looks back: some event of the run met `cause` and all after it met `hold`.
`since_of_run` finds it for a predicate that only such events make and keep true, and
`holds_of_since` is the way back.
-/

/-- States, an initial state and a partial step function. -/
structure EventSystem (σ ε : Type*) where
  init : σ
  step : σ → ε → Option σ

namespace EventSystem

variable {σ ε : Type*} (S : EventSystem σ ε)

/-- The state after the events, if each can happen in turn. -/
def run : σ → List ε → Option σ
  | s, [] => some s
  | s, e :: es => (S.step s e).bind fun s' => run s' es

/-- `P` holds of every state and event along the run. -/
def Along (P : σ → ε → Prop) : σ → List ε → Prop
  | _, [] => True
  | s, e :: es => P s e ∧ ∀ s', S.step s e = some s' → Along P s' es

/-- Some event of the run from the initial state meets `cause`, and every later one `hold`. -/
def Since (cause hold : σ → ε → Prop) (es : List ε) : Prop :=
  ∃ past e rest s s', es = past ++ e :: rest ∧ S.run S.init past = some s ∧ cause s e ∧
    S.step s e = some s' ∧ S.Along hold s' rest

/-- Some list of events leads from the initial state to `s`. -/
def Reachable (s : σ) : Prop := ∃ es, S.run S.init es = some s

variable {S}

@[simp] theorem run_nil (s : σ) : S.run s [] = some s := rfl

theorem run_cons_eq_some {s t : σ} {e : ε} {es : List ε} :
    S.run s (e :: es) = some t ↔ ∃ s', S.step s e = some s' ∧ S.run s' es = some t := by
  rw [run, Option.bind_eq_some_iff]

theorem run_append_eq_some {s t : σ} {es fs : List ε} :
    S.run s (es ++ fs) = some t ↔ ∃ s', S.run s es = some s' ∧ S.run s' fs = some t := by
  induction es generalizing s with
  | nil => simp
  | cons e es ih =>
    simp only [List.cons_append, run_cons_eq_some, ih]
    constructor
    · rintro ⟨u, hu, s', hs', ht⟩
      exact ⟨s', ⟨u, hu, hs'⟩, ht⟩
    · rintro ⟨s', ⟨u, hu, hs'⟩, ht⟩
      exact ⟨u, hu, s', hs', ht⟩

/-- Where every event can happen, every list of events is a run. -/
theorem exists_run (htotal : ∀ s e, ∃ s', S.step s e = some s') (s : σ) (es : List ε) :
    ∃ t, S.run s es = some t := by
  induction es generalizing s with
  | nil => exact ⟨s, rfl⟩
  | cons e es ih =>
    obtain ⟨s', hs'⟩ := htotal s e
    obtain ⟨t, ht⟩ := ih s'
    exact ⟨t, run_cons_eq_some.mpr ⟨s', hs', ht⟩⟩

/-- **Invariants along one run**: a predicate kept by every step that meets `P` holds at the end
of a run whose steps all meet `P`. -/
theorem run_invariant {P : σ → ε → Prop} {I : σ → Prop}
    (hstep : ∀ s e s', I s → P s e → S.step s e = some s' → I s') :
    ∀ {es : List ε} {s t : σ}, I s → S.Along P s es → S.run s es = some t → I t := by
  intro es
  induction es with
  | nil =>
    intro s t hs _ ht
    rw [run_nil, Option.some.injEq] at ht
    exact ht ▸ hs
  | cons e es ih =>
    intro s t hs hP ht
    obtain ⟨s', hs', ht⟩ := run_cons_eq_some.mp ht
    exact ih (hstep s e s' hs hP.1 hs') (hP.2 s' hs') ht

theorem along_of_forall {P : σ → ε → Prop} {es : List ε} (h : ∀ s, ∀ e ∈ es, P s e) (s : σ) :
    S.Along P s es := by
  induction es generalizing s with
  | nil => trivial
  | cons e es ih =>
    obtain ⟨hhead, hrest⟩ := forall_and.mp fun s => List.forall_mem_cons.mp (h s)
    exact ⟨hhead s, fun s' _ => ih hrest s'⟩

/-- A decidable condition can be evaluated along a run. -/
instance decidableAlong (P : σ → ε → Prop) [∀ s e, Decidable (P s e)] :
    ∀ (es : List ε) (s : σ), Decidable (S.Along P s es)
  | [], _ => .isTrue trivial
  | e :: es, s =>
    match hs : S.step s e with
    | none => decidable_of_iff (P s e) (by simp [Along, hs])
    | some s' =>
      haveI := decidableAlong P es s'
      decidable_of_iff (P s e ∧ S.Along P s' es) (by simp [Along, hs])

theorem along_true (s : σ) (es : List ε) : S.Along (fun _ _ => True) s es :=
  along_of_forall (fun _ _ _ => trivial) s

theorem along_and {P Q : σ → ε → Prop} {s : σ} {es : List ε} :
    S.Along (fun s e => P s e ∧ Q s e) s es ↔ S.Along P s es ∧ S.Along Q s es := by
  induction es generalizing s with
  | nil => simp [Along]
  | cons e es ih =>
    simp only [Along, ih]
    constructor
    · rintro ⟨⟨hP, hQ⟩, hrest⟩
      exact ⟨⟨hP, fun s' hs' => (hrest s' hs').1⟩, hQ, fun s' hs' => (hrest s' hs').2⟩
    · rintro ⟨⟨hP, hPrest⟩, hQ, hQrest⟩
      exact ⟨⟨hP, hQ⟩, fun s' hs' => ⟨hPrest s' hs', hQrest s' hs'⟩⟩

theorem along_append {P : σ → ε → Prop} {s : σ} {es fs : List ε} :
    S.Along P s (es ++ fs) ↔ S.Along P s es ∧ ∀ t, S.run s es = some t → S.Along P t fs := by
  induction es generalizing s with
  | nil => simp [Along]
  | cons e es ih =>
    simp only [List.cons_append, Along, ih, run_cons_eq_some]
    constructor
    · rintro ⟨hP, hrest⟩
      refine ⟨⟨hP, fun s' hs' => (hrest s' hs').1⟩, ?_⟩
      rintro t ⟨s', hs', ht⟩
      exact (hrest s' hs').2 t ht
    · rintro ⟨⟨hP, hes⟩, hfs⟩
      exact ⟨hP, fun s' hs' => ⟨hes s' hs', fun t ht => hfs t ⟨s', hs', ht⟩⟩⟩

/-- Invariants that speak of the events so far. -/
theorem invariant_of_run {I : List ε → σ → Prop} (h0 : I [] S.init)
    (hstep : ∀ es s e s', S.run S.init es = some s → I es s → S.step s e = some s' →
      I (es ++ [e]) s') :
    ∀ {es : List ε} {s : σ}, S.run S.init es = some s → I es s := by
  intro es
  induction es using List.reverseRecOn with
  | nil =>
    intro s hs
    rw [run_nil, Option.some.injEq] at hs
    exact hs ▸ h0
  | append_singleton es e ih =>
    intro s' hs'
    obtain ⟨s, hes, hlast⟩ := run_append_eq_some.mp hs'
    obtain ⟨t, he, ht⟩ := run_cons_eq_some.mp hlast
    rw [run_nil, Option.some.injEq] at ht
    exact ht ▸ hstep es s e t hes (ih hes) he

theorem since_concat_of_cause {cause hold : σ → ε → Prop} {es : List ε} {s s' : σ} {e : ε}
    (hes : S.run S.init es = some s) (he : S.step s e = some s') (hcause : cause s e) :
    S.Since cause hold (es ++ [e]) :=
  ⟨es, e, [], s, s', rfl, hes, hcause, he, trivial⟩

theorem Since.concat {cause hold : σ → ε → Prop} {es : List ε} {s : σ} {e : ε}
    (h : S.Since cause hold es) (hes : S.run S.init es = some s) (hhold : hold s e) :
    S.Since cause hold (es ++ [e]) := by
  obtain ⟨past, e₀, rest, u, u', rfl, hpast, hcause, hu', hrest⟩ := h
  refine ⟨past, e₀, rest ++ [e], u, u', by simp, hpast, hcause, hu', ?_⟩
  rw [along_append]
  refine ⟨hrest, fun t ht => ?_⟩
  have hts : S.run S.init (past ++ e₀ :: rest) = some t :=
    run_append_eq_some.mpr ⟨u, hpast, run_cons_eq_some.mpr ⟨u', hu', ht⟩⟩
  rw [hes, Option.some.injEq] at hts
  subst hts
  exact ⟨hhold, fun _ _ => trivial⟩

/-- **Provenance**: a predicate that holds after a step only if the step causes it, or it held
before and the step meets `hold`, has had its cause and has been held since. -/
theorem since_of_run {cause hold : σ → ε → Prop} {φ : σ → Prop} (h0 : ¬ φ S.init)
    (hstep : ∀ s e s', S.step s e = some s' → φ s' → cause s e ∨ φ s ∧ hold s e) :
    ∀ {es : List ε} {s : σ}, S.run S.init es = some s → φ s → S.Since cause hold es := by
  intro es
  induction es using List.reverseRecOn with
  | nil =>
    intro s hs hφ
    rw [run_nil, Option.some.injEq] at hs
    exact absurd (hs ▸ hφ) h0
  | append_singleton es e ih =>
    intro s' hs' hφ
    obtain ⟨s, hes, hlast⟩ := run_append_eq_some.mp hs'
    obtain ⟨t, he, ht⟩ := run_cons_eq_some.mp hlast
    rw [run_nil, Option.some.injEq] at ht
    subst ht
    rcases hstep s e t he hφ with hcause | ⟨hbefore, hhold⟩
    · exact since_concat_of_cause hes he hcause
    · exact (ih hes hbefore).concat hes hhold

/-- And back: a predicate that the cause makes true and `hold` keeps true holds since then. -/
theorem holds_of_since {cause hold : σ → ε → Prop} {φ : σ → Prop}
    (hcause : ∀ s e s', S.step s e = some s' → cause s e → φ s')
    (hhold : ∀ s e s', S.step s e = some s' → φ s → hold s e → φ s') {es : List ε} {s : σ}
    (hs : S.run S.init es = some s) (h : S.Since cause hold es) : φ s := by
  obtain ⟨past, e, rest, u, u', rfl, hpast, hcaused, hu', hrest⟩ := h
  obtain ⟨t, ht, hlast⟩ := run_append_eq_some.mp hs
  obtain ⟨t', ht', hlast⟩ := run_cons_eq_some.mp hlast
  obtain rfl := Option.some.inj (hpast.symm.trans ht)
  obtain rfl := Option.some.inj (hu'.symm.trans ht')
  exact run_invariant (I := φ) (fun s e s' hφ hkeeps hstep => hhold s e s' hstep hφ hkeeps)
    (hcause u e u' hu' hcaused) hrest hlast

/-- A predicate that holds after a step exactly when it held before and the step meets `P` holds at
the end of a run exactly when it held at the start and every step met `P`. -/
theorem invariant_iff_along {P : σ → ε → Prop} {I : σ → Prop}
    (hstep : ∀ s e s', S.step s e = some s' → (I s' ↔ I s ∧ P s e)) :
    ∀ {es : List ε} {s t : σ}, S.run s es = some t → (I t ↔ I s ∧ S.Along P s es) := by
  intro es
  induction es with
  | nil =>
    intro s t ht
    rw [run_nil, Option.some.injEq] at ht
    rw [ht]
    exact (and_iff_left trivial).symm
  | cons e es ih =>
    intro s t ht
    obtain ⟨s', hs', ht⟩ := run_cons_eq_some.mp ht
    rw [ih ht, hstep s e s' hs', and_assoc, Along]
    refine and_congr_right' (and_congr_right' ⟨fun hrest u hu => ?_, fun hrest => hrest s' hs'⟩)
    rwa [← Option.some.inj (hs'.symm.trans hu)]

/-- Conditions that agree in every state with the invariant agree along a run, if what meets the
second keeps the invariant. -/
theorem along_congr {P Q R : σ → ε → Prop} {I : σ → Prop}
    (hstep : ∀ s e s', I s → Q s e → S.step s e = some s' → I s')
    (hPQ : ∀ s e, I s → R s e → (P s e ↔ Q s e)) :
    ∀ {es : List ε} {s : σ}, I s → S.Along R s es → (S.Along P s es ↔ S.Along Q s es) := by
  intro es
  induction es with
  | nil => intro s _ _; exact Iff.rfl
  | cons e es ih =>
    intro s hs hR
    have hhead := hPQ s e hs hR.1
    constructor
    · rintro ⟨hP, hrest⟩
      refine ⟨hhead.mp hP, fun s' hs' => ?_⟩
      exact (ih (hstep s e s' hs (hhead.mp hP) hs') (hR.2 s' hs')).mp (hrest s' hs')
    · rintro ⟨hQ, hrest⟩
      refine ⟨hhead.mpr hQ, fun s' hs' => ?_⟩
      exact (ih (hstep s e s' hs hQ hs') (hR.2 s' hs')).mpr (hrest s' hs')

/-- What a condition and the invariant it keeps imply holds along the run. -/
theorem along_mono {P Q : σ → ε → Prop} {I : σ → Prop}
    (hstep : ∀ s e s', I s → P s e → S.step s e = some s' → I s')
    (hPQ : ∀ s e, I s → P s e → Q s e) :
    ∀ {es : List ε} {s : σ}, I s → S.Along P s es → S.Along Q s es := by
  intro es
  induction es with
  | nil => intro s _ _; trivial
  | cons e es ih =>
    intro s hs hP
    refine ⟨hPQ s e hs hP.1, fun s' hs' => ?_⟩
    exact ih (hstep s e s' hs hP.1 hs') (hP.2 s' hs')

/-! ### Histories -/

/-- The system with a history beside its state, which every event extends. -/
def record {η : Type*} (S : EventSystem σ ε) (h₀ : η) (note : σ → ε → η → η) :
    EventSystem (σ × η) ε where
  init := (S.init, h₀)
  step s e := (S.step s.1 e).map fun s' => (s', note s.1 e s.2)

section Record

variable {η : Type*} {h₀ : η} {note : σ → ε → η → η}

theorem step_record_eq_some {s s' : σ × η} {e : ε} :
    (S.record h₀ note).step s e = some s' ↔
      S.step s.1 e = some s'.1 ∧ s'.2 = note s.1 e s.2 := by
  show (S.step s.1 e).map _ = some s' ↔ _
  rw [Option.map_eq_some_iff]
  constructor
  · rintro ⟨t, ht, rfl⟩
    exact ⟨ht, rfl⟩
  · rintro ⟨ht, hnote⟩
    exact ⟨s'.1, ht, Prod.ext rfl hnote.symm⟩

/-- Every run is the run of the system with its history. -/
theorem exists_run_record {s t : σ} {es : List ε} (h : S.run s es = some t) (η₀ : η) :
    ∃ η₁, (S.record h₀ note).run (s, η₀) es = some (t, η₁) := by
  induction es generalizing s η₀ with
  | nil =>
    rw [run_nil, Option.some.injEq] at h
    exact ⟨η₀, by rw [h, run_nil]⟩
  | cons e es ih =>
    obtain ⟨s', hs', ht⟩ := run_cons_eq_some.mp h
    obtain ⟨η₁, hη₁⟩ := ih ht (note s e η₀)
    exact ⟨η₁, run_cons_eq_some.mpr ⟨(s', note s e η₀), step_record_eq_some.mpr ⟨hs', rfl⟩, hη₁⟩⟩

end Record

namespace Reachable

theorem init : S.Reachable S.init := ⟨[], rfl⟩

theorem step {s s' : σ} {e : ε} (h : S.Reachable s) (hs : S.step s e = some s') :
    S.Reachable s' := by
  obtain ⟨es, hes⟩ := h
  exact ⟨es ++ [e], run_append_eq_some.mpr ⟨s, hes, run_cons_eq_some.mpr ⟨s', hs, rfl⟩⟩⟩

theorem run {s t : σ} {es : List ε} (h : S.Reachable s) (ht : S.run s es = some t) :
    S.Reachable t := by
  obtain ⟨fs, hfs⟩ := h
  exact ⟨fs ++ es, run_append_eq_some.mpr ⟨s, hfs, ht⟩⟩

/-- **Inductive invariants** hold of every reachable state. -/
theorem invariant {I : σ → Prop} (h0 : I S.init)
    (hstep : ∀ s e s', I s → S.step s e = some s' → I s') {s : σ} (h : S.Reachable s) : I s := by
  obtain ⟨es, hes⟩ := h
  exact run_invariant (P := fun _ _ => True) (fun s e s' hs _ => hstep s e s' hs) h0
    (along_true _ es) hes

/-- What holds in every reachable state holds along every run. -/
theorem along {P : σ → ε → Prop} (hP : ∀ s e, S.Reachable s → P s e) (es : List ε) :
    S.Along P S.init es :=
  along_mono (P := fun _ _ => True) (I := S.Reachable) (fun _ _ _ hs _ hs' => hs.step hs')
    (fun s e hs _ => hP s e hs) init (along_true S.init es)

/-- A map that sends steps to runs sends reachable states to reachable states. -/
theorem map {τ δ : Type*} {T : EventSystem τ δ} (f : σ → τ) (h0 : T.Reachable (f S.init))
    (hstep : ∀ s e s', S.step s e = some s' → ∃ es, T.run (f s) es = some (f s'))
    {s : σ} (h : S.Reachable s) : T.Reachable (f s) := by
  refine invariant (I := fun s => T.Reachable (f s)) h0 ?_ h
  intro s e s' hs hstep'
  obtain ⟨es, hes⟩ := hstep s e s' hstep'
  exact hs.run hes

end Reachable

end EventSystem
