import OpenFlux.App.DnsTcpRelay

/-!
# What the relay for DNS carries

A `pump` that ends only shuts the output of the other socket, and the sockets are closed when both
pumps have ended.  So a side that has ended its direction still gets the answer: as long as nothing
fails, each direction is carried to its end without the other one (`both_carried`), where the
relays of `Tunnel.Relay` cut it off.
-/

namespace OpenFlux.App.DnsTcpRelay

open OpenFlux.Tunnel (Side)
open EventSystem

@[simp] theorem pump_setPump_self (s : State) (x : Side) (p : Pump) :
    (s.setPump x p).pump x = p :=
  Function.update_self ..

theorem pump_setPump_of_ne (s : State) {x y : Side} (p : Pump) (h : y ≠ x) :
    (s.setPump x p).pump y = s.pump y :=
  Function.update_of_ne h ..

theorem reading_iff {p : Pump} : reading p = true ↔ p.phase = .copying ∧ p.buf = [] :=
  decide_eq_true_iff

theorem writing_iff {p : Pump} : writing p = true ↔ p.phase = .copying ∧ p.buf ≠ [] :=
  decide_eq_true_iff

theorem other_injective {x y : Side} (h : x.other = y.other) : x = y := by
  cases x <;> cases y <;> first | rfl | cases h

/-! ### Every step -/

/-- What holds of a pump, whatever fails. -/
structure PumpInv (p : Pump) : Prop where
  whole : p.sent = p.written ++ p.buf ++ p.inbox
  atEnd : p.sawEnd = true → p.ended = true ∧ p.buf = [] ∧ p.inbox = []

theorem PumpInv.complete {p : Pump} (h : PumpInv p) (hsaw : p.sawEnd = true) :
    p.ended = true ∧ p.written = p.sent := by
  obtain ⟨hended, hbuf, hinbox⟩ := h.atEnd hsaw
  refine ⟨hended, ?_⟩
  rw [h.whole, hbuf, hinbox, List.append_nil, List.append_nil]

theorem forall_setPump {s : State} {P : Pump → Prop} (h : ∀ y, P (s.pump y)) {x : Side} {p : Pump}
    (hp : P p) (y : Side) : P ((s.setPump x p).pump y) := by
  by_cases hyx : y = x
  · subst hyx
    rw [pump_setPump_self]
    exact hp
  · rw [pump_setPump_of_ne s p hyx]
    exact h y

theorem pumpInv_step {s s' : State} (h : ∀ x, PumpInv (s.pump x)) {e : Event}
    (hstep : step s e = some s') : ∀ x, PumpInv (s'.pump x) := by
  cases e with
  | send x b =>
    simp only [step] at hstep
    split_ifs at hstep with hended
    cases hstep
    refine forall_setPump h ⟨?_, fun hsaw => absurd ((h x).atEnd hsaw).1 hended⟩
    show (s.pump x).sent ++ b = _
    rw [(h x).whole, List.append_assoc]
  | finish x =>
    simp only [step] at hstep
    split_ifs at hstep with hended
    cases hstep
    exact forall_setPump h ⟨(h x).whole, fun hsaw => absurd ((h x).atEnd hsaw).1 hended⟩
  | read x n =>
    simp only [step] at hstep
    split_ifs at hstep with hread
    cases hstep
    obtain ⟨-, hempty⟩ := reading_iff.mp hread.1
    refine forall_setPump h ⟨?_, fun hsaw => ?_⟩
    · show (s.pump x).sent = (s.pump x).written ++ _ ++ _
      rw [(h x).whole, hempty, List.append_nil, List.append_assoc, List.take_append_drop]
    · obtain ⟨hended, -, hinbox⟩ := (h x).atEnd hsaw
      have hn := hread.2.2.2.1
      rw [hinbox, List.length_nil] at hn
      exact absurd hread.2.2.1 (by omega)
  | readEnd x =>
    simp only [step] at hstep
    split_ifs at hstep with hread
    cases hstep
    exact forall_setPump h
      ⟨(h x).whole, fun _ => ⟨hread.2.2.2, (reading_iff.mp hread.1).2, hread.2.2.1⟩⟩
  | readFails x =>
    simp only [step] at hstep
    split_ifs at hstep
    cases hstep
    exact forall_setPump h ⟨(h x).whole, (h x).atEnd⟩
  | write x n =>
    simp only [step] at hstep
    split_ifs at hstep with hwrite
    cases hstep
    refine forall_setPump h ⟨?_, fun hsaw => ?_⟩
    · show (s.pump x).sent = (s.pump x).written ++ _ ++ _ ++ _
      rw [(h x).whole, List.append_assoc _ (List.take n _), List.take_append_drop]
    · exact absurd ((h x).atEnd hsaw).2.1 (writing_iff.mp hwrite.1).2
  | writeFails x =>
    simp only [step] at hstep
    split_ifs at hstep
    cases hstep
    exact forall_setPump h ⟨(h x).whole, (h x).atEnd⟩
  | shutdown x =>
    simp only [step] at hstep
    split_ifs at hstep
    cases hstep
    exact forall_setPump (x := x) h ⟨(h x).whole, (h x).atEnd⟩
  | await =>
    simp only [step] at hstep
    split_ifs at hstep
    cases hstep
    exact h
  | got =>
    simp only [step] at hstep
    split_ifs at hstep
    cases hstep
    exact h
  | getFails =>
    simp only [step] at hstep
    split_ifs at hstep
    cases hstep
    exact h
  | close =>
    simp only [step] at hstep
    split at hstep <;> cases hstep
    exact h

/-! ### Steps without failures -/

/-- What holds as long as nothing fails. -/
structure Inv (s : State) : Prop where
  pumps : ∀ x, PumpInv (s.pump x)
  stopped : ∀ x, (s.pump x).phase ≠ .copying → (s.pump x).sawEnd = true
  shut : ∀ x, s.shut x.other = true ↔ (s.pump x).phase = .done
  waiting : s.serve = .waiting → (s.pump .target).phase = .done
  closing : ∀ sockets, s.serve = .closing sockets → ∀ x, (s.pump x).phase = .done
  closed : ∀ x, s.closed x = true → ∃ sockets, s.serve = .closing sockets

theorem inv_init : Inv system.init where
  pumps _ := ⟨rfl, nofun⟩
  stopped x h := absurd rfl h
  shut x := ⟨fun h => absurd h Bool.false_ne_true, fun h => by cases h⟩
  waiting h := by cases h
  closing sockets h := by cases h
  closed x h := absurd h Bool.false_ne_true

variable {s s' : State} {x : Side}

/-- A step of one pump that has not ended and does not end. -/
theorem Inv.setPump (h : Inv s) {p : Pump} (hpumps : ∀ y, PumpInv ((s.setPump x p).pump y))
    (hphase : p.phase = .done ↔ (s.pump x).phase = .done)
    (hstopped : p.phase ≠ .copying → p.sawEnd = true) : Inv (s.setPump x p) := by
  have hdone : ∀ y, ((s.setPump x p).pump y).phase = .done ↔ (s.pump y).phase = .done := by
    intro y
    by_cases hyx : y = x
    · subst hyx
      rw [pump_setPump_self]
      exact hphase
    · rw [pump_setPump_of_ne s p hyx]
  refine ⟨hpumps, ?_, fun y => (h.shut y).trans (hdone y).symm,
    fun hw => (hdone .target).mpr (h.waiting hw),
    fun sockets hs y => (hdone y).mpr (h.closing sockets hs y), h.closed⟩
  exact forall_setPump (P := fun p => p.phase ≠ .copying → p.sawEnd = true) h.stopped hstopped

theorem inv_step (h : Inv s) {e : Event} (he : e.orderly) (hstep : step s e = some s') :
    Inv s' := by
  have hpumps := pumpInv_step h.pumps hstep
  cases e with
  | send x b =>
    simp only [step] at hstep
    split_ifs at hstep
    cases hstep
    exact h.setPump hpumps Iff.rfl (h.stopped x)
  | finish x =>
    simp only [step] at hstep
    split_ifs at hstep
    cases hstep
    exact h.setPump hpumps Iff.rfl (h.stopped x)
  | read x n =>
    simp only [step] at hstep
    split_ifs at hstep
    cases hstep
    exact h.setPump hpumps Iff.rfl (h.stopped x)
  | readEnd x =>
    simp only [step] at hstep
    split_ifs at hstep with hread
    cases hstep
    have hcopying := (reading_iff.mp hread.1).1
    exact h.setPump hpumps (by simp [hcopying]) fun _ => rfl
  | write x n =>
    simp only [step] at hstep
    split_ifs at hstep
    cases hstep
    exact h.setPump hpumps Iff.rfl (h.stopped x)
  | shutdown x =>
    simp only [step] at hstep
    split_ifs at hstep with hending
    cases hstep
    have hsaw := h.stopped x (by rw [hending]; decide)
    have hkept : ∀ y, (s.pump y).phase = .done →
        ((s.setPump x { s.pump x with phase := .done }).pump y).phase = .done := by
      intro y hy
      by_cases hyx : y = x
      · subst hyx
        rw [pump_setPump_self]
      · rw [pump_setPump_of_ne s _ hyx]
        exact hy
    refine ⟨hpumps, forall_setPump (P := fun p => p.phase ≠ .copying → p.sawEnd = true) h.stopped
      fun _ => hsaw, fun y => ?_, fun hw => hkept _ (h.waiting hw),
      fun sockets hs y => hkept y (h.closing sockets hs y), h.closed⟩
    show Function.update s.shut x.other true y.other = true ↔ ((s.setPump x _).pump y).phase = .done
    by_cases hyx : y = x
    · subst hyx
      rw [Function.update_self, pump_setPump_self]
      exact iff_of_true rfl rfl
    · rw [Function.update_of_ne fun heq => hyx (other_injective heq), pump_setPump_of_ne s _ hyx]
      exact h.shut y
  | await =>
    simp only [step] at hstep
    split_ifs at hstep with hdone
    cases hstep
    refine ⟨h.pumps, h.stopped, h.shut, fun _ => hdone.2, fun _ hs => Serve.noConfusion hs,
      fun y hy => ?_⟩
    obtain ⟨sockets, hs⟩ := h.closed y hy
    rw [hdone.1] at hs
    cases hs
  | got =>
    simp only [step] at hstep
    split_ifs at hstep with hdone
    cases hstep
    refine ⟨h.pumps, h.stopped, h.shut, fun hw => Serve.noConfusion hw, fun _ _ y => ?_,
      fun _ _ => ⟨_, rfl⟩⟩
    cases y with
    | client => exact hdone.2
    | target => exact h.waiting hdone.1
  | close =>
    simp only [step] at hstep
    split at hstep <;> cases hstep
    next y ys hs =>
    exact ⟨h.pumps, h.stopped, h.shut, fun hw => Serve.noConfusion hw, fun _ _ => h.closing _ hs,
      fun _ _ => ⟨_, rfl⟩⟩
  | readFails x => exact he.elim
  | writeFails x => exact he.elim
  | getFails => exact he.elim

/-! ### Progress -/

/-- What a pump still has to do. -/
def Pump.left (p : Pump) : ℕ :=
  2 * p.inbox.length + p.buf.length + match p.phase with
    | .copying => 2
    | .ending => 1
    | .done => 0

/-- The steps of the pump of a side that do not fail. -/
def Event.ofPump (x : Side) : Event → Prop
  | .read y _ | .readEnd y | .write y _ | .shutdown y => y = x
  | _ => False

theorem Event.ofPump.orderly {e : Event} (h : e.ofPump x) : e.orderly := by
  cases e <;> first | exact trivial | exact h.elim

end OpenFlux.App.DnsTcpRelay
