import OpenFlux.Transport.Equiv.Batched
import OpenFlux.Transport.Lifecycle

/-!
# Stops and restarts of the batching layer

A loop that sleeps at `first` does not see `running` change: a packet sent to a stopped layer wakes
it and is handed to the inner transport, and after a restart it goes on beside the new loop.
`Orderly` excludes just this: the loop is not asleep on packets when `Stop` returns or while a
stopped layer is sent one, and every earlier loop has returned when a `Start` takes effect.  Then at
most one loop is live and no message is late (`orderly_run`).

The invariant `Inv` says that all loops but the last have returned (`Olds`), so the packets are
still in one line: emitted, held by the last loop, queued.
-/

namespace OpenFlux.Transport.Batched.Layer

open EventSystem

variable {z : Zstd} {cfg : Config} {s s' : Layer}

/-! ### What is to be shown -/

/-- The loop has not returned. -/
def Live (pc : FlushPc) : Prop := pc ≠ .done

/-- Nothing is handed over late, at most one loop is live, and what has been handed over is the
beginning of what was accepted, in order. -/
structure Kept (s : Layer) : Prop where
  late : s.late = []
  live : ∀ (i j : ℕ) (pc pc' : FlushPc), s.loops[i]? = some pc → s.loops[j]? = some pc' →
    Live pc → Live pc' → i = j
  order : s.emitted.flatten <+: s.accepted

/-- The loop holds no packet and takes none before it reads the flag, unless one is sent. -/
def Resting (queue : List Bytes) : FlushPc → Prop
  | .top | .inSend | .done => True
  | .first => queue = []
  | .drain _ _ | .linger _ _ | .emit _ => False

instance (queue : List Bytes) : DecidablePred (Resting queue)
  | .top | .inSend | .done => .isTrue trivial
  | .first => inferInstanceAs (Decidable (queue = []))
  | .drain _ _ | .linger _ _ | .emit _ => .isFalse id

/-- What the callers have to see to: calls of `Start` and `Stop` do not overlap; when a `Start`
takes effect every earlier loop has returned; when a `Stop` returns every loop rests; and nothing is
sent to a stopped layer whose loop is asleep. -/
def Orderly (s : Layer) : Event → Prop
  | .start | .stop => s.calls = []
  | .advance i _ =>
    (s.calls[i]? = some .startFlag → ∀ pc ∈ s.loops, pc = .done) ∧
      (s.calls[i]? = some .stopInner → ∀ pc ∈ s.loops, Resting s.queue pc)
  | .send _ => s.stopped = true → .first ∉ s.loops
  | .flush _ _ => True

instance (s : Layer) : DecidablePred (Orderly s)
  | .start | .stop => inferInstanceAs (Decidable (s.calls = []))
  | .advance i _ => inferInstanceAs (Decidable
    ((s.calls[i]? = some .startFlag → ∀ pc ∈ s.loops, pc = .done) ∧
      (s.calls[i]? = some .stopInner → ∀ pc ∈ s.loops, Resting s.queue pc)))
  | .send _ => inferInstanceAs (Decidable (s.stopped = true → .first ∉ s.loops))
  | .flush _ _ => .isTrue trivial

/-! ### The loops -/

/-- All loops but the last have returned. -/
def Olds (loops : List FlushPc) : Prop := ∀ pc ∈ loops.dropLast, pc = .done

/-- The packets the loops hold. -/
def held (loops : List FlushPc) : List Bytes := loops.flatMap FlushPc.batch

theorem held_eq_nil_of_done {loops : List FlushPc} (h : ∀ pc ∈ loops, pc = .done) :
    held loops = [] := by
  rw [held, List.flatMap_eq_nil_iff]
  intro pc hpc
  rw [h pc hpc]
  rfl

/-- A live loop is the last one. -/
theorem Olds.eq_append {loops : List FlushPc} (h : Olds loops) {i : ℕ} {pc : FlushPc}
    (hi : loops[i]? = some pc) (hpc : Live pc) :
    loops = loops.dropLast ++ [pc] ∧ i = loops.dropLast.length := by
  have hlt : i < loops.length := (List.getElem?_eq_some_iff.mp hi).1
  have hlast : i = loops.length - 1 := by
    by_contra hne
    have hmem : loops.dropLast[i]? = some pc := by
      rw [List.getElem?_dropLast, if_pos (by omega), hi]
    exact hpc (h pc (List.mem_of_getElem? hmem))
  have hne : loops ≠ [] := List.ne_nil_of_length_pos (by omega)
  have hget : loops.getLast hne = pc := by
    rw [List.getLast_eq_getElem]
    subst hlast
    exact (List.getElem?_eq_some_iff.mp hi).2
  exact ⟨by rw [← hget, List.dropLast_append_getLast], by rw [List.length_dropLast, hlast]⟩

theorem Olds.append {olds : List FlushPc} (h : ∀ pc ∈ olds, pc = .done) (pc : FlushPc) :
    Olds (olds ++ [pc]) := by
  rw [Olds, List.dropLast_concat]
  exact h

/-- What the step of a live loop changes: the last program counter only. -/
theorem Olds.set {loops : List FlushPc} (h : Olds loops) {i : ℕ} {pc : FlushPc}
    (hi : loops[i]? = some pc) (hpc : Live pc) (pc' : FlushPc) :
    Olds (loops.set i pc') ∧ held loops = pc.batch ∧ held (loops.set i pc') = pc'.batch ∧
      ∀ p ∈ loops.set i pc', p = .done ∨ p = pc' := by
  obtain ⟨hloops, hi'⟩ := h.eq_append hi hpc
  have hset : loops.set i pc' = loops.dropLast ++ [pc'] := by
    conv_lhs => rw [hloops, hi']
    simp
  have hheld : ∀ p, held (loops.dropLast ++ [p]) = p.batch := by
    intro p
    show (loops.dropLast ++ [p]).flatMap FlushPc.batch = _
    rw [List.flatMap_append, List.flatMap_singleton]
    exact congrArg (· ++ p.batch) (held_eq_nil_of_done h)
  refine ⟨hset ▸ .append h pc', ?_, by rw [hset, hheld], ?_⟩
  · rw [hloops, hheld]
  · intro p hp
    rw [hset, List.mem_append, List.mem_singleton] at hp
    exact hp.imp (h p) id

/-! ### The invariant -/

/-- What holds while a call is at a given point. -/
def CallInv (s : Layer) : Call → Prop
  | .startLoop => s.stopped = false ∧ ∀ pc ∈ s.loops, pc = .done
  | .stopInner => s.running = false
  | .startInner | .startFlag | .stopFlag => True

/-- The invariant of an orderly run. -/
structure Inv (cfg : Config) (s : Layer) : Prop where
  pcs : ∀ pc ∈ s.loops, PcInv cfg pc
  olds : Olds s.loops
  line : s.accepted = s.emitted.flatten ++ held s.loops ++ s.queue
  late : s.late = []
  stopped : s.stopped = true → s.running = false ∧ ∀ pc ∈ s.loops, Resting s.queue pc
  calls : s.calls = [] ∨ ∃ c, s.calls = [c] ∧ CallInv s c

theorem inv_init : Inv cfg (lifecycle z cfg).init where
  pcs _ h := nomatch h
  olds _ h := nomatch h
  line := rfl
  late := rfl
  stopped h := nomatch h
  calls := .inl rfl

/-- A resting loop of a stopped layer goes on resting and hands nothing over. -/
theorem flushStep_resting {timer : Bool} {queue queue' : List Bytes} {pc pc' : FlushPc}
    {msg : Option Bytes} (hrest : Resting queue pc)
    (h : flushStep z cfg false timer queue pc = some (pc', queue', msg)) :
    msg = none ∧ queue' = queue ∧ Resting queue pc' := by
  cases pc with
  | top => cases h; exact ⟨rfl, rfl, trivial⟩
  | inSend => cases h; exact ⟨rfl, rfl, trivial⟩
  | first =>
    subst hrest
    cases h
  | done => cases h
  | drain batch size => exact hrest.elim
  | linger batch size => exact hrest.elim
  | emit batch => exact hrest.elim

/-- What a step of a flush loop does to the layer. -/
theorem flush_spec {i : ℕ} {timer : Bool} (h : s.flush z cfg i timer = some s') :
    ∃ pc pc' queue msg, s.loops[i]? = some pc ∧ Live pc ∧
      flushStep z cfg s.running timer s.queue pc = some (pc', queue, msg) ∧
      ((msg = none ∧ s' = { s with queue, loops := s.loops.set i pc' }) ∨
        ((∃ m, msg = some m) ∧ s' = { s with
          queue
          loops := s.loops.set i pc'
          emitted := s.emitted ++ [pc.batch]
          late := if s.stopped then s.late ++ [pc.batch] else s.late })) := by
  unfold Layer.flush at h
  cases hpc : s.loops[i]? with
  | none => simp only [hpc, reduceCtorEq] at h
  | some pc =>
    cases hstep : flushStep z cfg s.running timer s.queue pc with
    | none => simp only [hpc, hstep, reduceCtorEq] at h
    | some r =>
      obtain ⟨pc', queue, msg⟩ := r
      have hlive : Live pc := by
        rintro rfl
        cases hstep
      refine ⟨pc, pc', queue, msg, rfl, hlive, hstep, ?_⟩
      cases msg with
      | none =>
        simp only [hpc, hstep, Option.some.injEq] at h
        exact .inl ⟨rfl, h.symm⟩
      | some m =>
        simp only [hpc, hstep, Option.some.injEq] at h
        exact .inr ⟨⟨m, rfl⟩, h.symm⟩

theorem inv_flush {i : ℕ} {timer : Bool} (hs : Inv cfg s) (h : s.flush z cfg i timer = some s') :
    Inv cfg s' := by
  obtain ⟨pc, pc', queue, msg, hi, hlive, hstep, hcase⟩ := flush_spec h
  obtain ⟨holds, hheld, hheld', hmem⟩ := hs.olds.set hi hlive pc'
  have hpcmem : pc ∈ s.loops := List.mem_of_getElem? hi
  obtain ⟨hpc', -, hmove⟩ := flushStep_spec (hs.pcs pc hpcmem) hstep
  have hpcs : ∀ p ∈ s.loops.set i pc', PcInv cfg p := by
    intro p hp
    rcases hmem p hp with rfl | rfl
    · trivial
    · exact hpc'
  -- a stopped layer hands nothing over, and its loops rest
  have hstopped : s.stopped = true → msg = none ∧ s.running = false ∧
      ∀ p ∈ s.loops.set i pc', Resting queue p := by
    intro hstop
    obtain ⟨hrun, hrest⟩ := hs.stopped hstop
    rw [hrun] at hstep
    obtain ⟨hmsg, rfl, hpcrest⟩ := flushStep_resting (hrest pc hpcmem) hstep
    refine ⟨hmsg, hrun, fun p hp => ?_⟩
    rcases hmem p hp with rfl | rfl
    · trivial
    · exact hpcrest
  have hcalls : s.calls = [] ∨ ∃ c, s.calls = [c] ∧
      CallInv { s with loops := s.loops.set i pc' } c := by
    rcases hs.calls with hnone | ⟨c, hc, hcall⟩
    · exact .inl hnone
    · refine .inr ⟨c, hc, ?_⟩
      cases c with
      | startLoop => exact absurd (hcall.2 pc hpcmem) hlive
      | stopInner => exact hcall
      | startInner => trivial
      | startFlag => trivial
      | stopFlag => trivial
  rcases hcase with ⟨rfl, rfl⟩ | ⟨⟨m, rfl⟩, rfl⟩
  · obtain ⟨-, hpackets⟩ := hmove.resolve_right (by simp)
    refine ⟨hpcs, holds, ?_, hs.late, fun hstop => (hstopped hstop).2, hcalls⟩
    show s.accepted = s.emitted.flatten ++ held (s.loops.set i pc') ++ queue
    rw [hs.line, hheld, hheld', List.append_assoc, List.append_assoc, hpackets]
  · obtain ⟨-, -, rfl, rfl⟩ := hmove.resolve_left (by simp)
    have hgoing : s.stopped = false := by
      by_contra hstop
      have := (hstopped (by simpa using hstop)).1
      cases this
    refine ⟨hpcs, holds, ?_, ?_, fun hstop => (hstopped hstop).2, hcalls⟩
    · show s.accepted = (s.emitted ++ [pc.batch]).flatten ++ held (s.loops.set i .inSend) ++ s.queue
      rw [hs.line, hheld, hheld', List.flatten_append, List.flatten_singleton]
      simp [FlushPc.batch]
    · show (if s.stopped then _ else s.late) = []
      rw [hgoing]
      exact hs.late

theorem inv_send {data : Bytes} (hs : Inv cfg s) (hord : Orderly s (.send data)) :
    Inv cfg (s.send data) := by
  unfold Layer.send Batched.send
  split_ifs
  · refine ⟨hs.pcs, hs.olds, ?_, hs.late, ?_, hs.calls⟩
    · show s.accepted ++ [data] = s.emitted.flatten ++ held s.loops ++ (s.queue ++ [data])
      rw [hs.line, List.append_assoc]
    · intro hstop
      obtain ⟨hrun, hrest⟩ := hs.stopped hstop
      refine ⟨hrun, fun pc hpc => ?_⟩
      have hpcrest := hrest pc hpc
      cases pc with
      | first => exact absurd hpc (hord hstop)
      | top => trivial
      | inSend => trivial
      | done => trivial
      | drain batch size => exact hpcrest
      | linger batch size => exact hpcrest
      | emit batch => exact hpcrest
  · exact hs

/-- A call that begins is the only one. -/
theorem inv_begin {c : Call} (hs : Inv cfg s) (hord : s.calls = []) (hc : CallInv s c) :
    Inv cfg { s with calls := s.calls ++ [c] } :=
  ⟨hs.pcs, hs.olds, hs.line, hs.late, hs.stopped, .inr ⟨c, by rw [hord]; rfl, hc⟩⟩

theorem inv_advance {i : ℕ} {ok : Bool} (hs : Inv cfg s) (hord : Orderly s (.advance i ok))
    (h : (lifecycle z cfg).step s (.advance i ok) = some s') : Inv cfg s' := by
  obtain ⟨hflag, hinner⟩ := hord
  rcases hs.calls with hnone | ⟨c, hcalls, hc⟩
  · simp [lifecycle, hnone] at h
  · cases i with
    | succ i => simp [lifecycle, hcalls] at h
    | zero =>
      have hi : s.calls[0]? = some c := by rw [hcalls]; rfl
      simp only [lifecycle, hi, Option.some.injEq] at h
      rw [hcalls] at h hflag hinner
      subst h
      cases c with
      | startInner =>
        cases ok
        · exact ⟨hs.pcs, hs.olds, hs.line, hs.late, hs.stopped, .inl rfl⟩
        · exact ⟨hs.pcs, hs.olds, hs.line, hs.late, hs.stopped, .inr ⟨_, rfl, trivial⟩⟩
      | startFlag =>
        exact ⟨hs.pcs, hs.olds, hs.line, hs.late, fun hstop => (nomatch hstop),
          .inr ⟨_, rfl, rfl, hflag rfl⟩⟩
      | startLoop =>
        obtain ⟨hgoing, hdone⟩ := hc
        refine ⟨?_, .append hdone .top, ?_, hs.late, fun hstop => ?_, .inl rfl⟩
        · intro pc hpc
          rcases List.mem_append.mp hpc with hold | hnew
          · exact hs.pcs pc hold
          · rw [List.mem_singleton.mp hnew]
            trivial
        · show s.accepted = s.emitted.flatten ++ held (s.loops ++ [.top]) ++ s.queue
          rw [hs.line, held, held, List.flatMap_append]
          simp [FlushPc.batch]
        · exact absurd (hgoing.symm.trans hstop) (by decide)
      | stopFlag =>
        exact ⟨hs.pcs, hs.olds, hs.line, hs.late, fun hstop => ⟨rfl, (hs.stopped hstop).2⟩,
          .inr ⟨_, rfl, rfl⟩⟩
      | stopInner =>
        exact ⟨hs.pcs, hs.olds, hs.line, hs.late, fun _ => ⟨hc, hinner rfl⟩, .inl rfl⟩

theorem inv_step {e : Event} (hs : Inv cfg s) (hord : Orderly s e)
    (h : (lifecycle z cfg).step s e = some s') : Inv cfg s' := by
  cases e with
  | start =>
    cases h
    exact inv_begin hs hord trivial
  | stop =>
    cases h
    exact inv_begin hs hord trivial
  | advance i ok => exact inv_advance hs hord h
  | send data =>
    cases h
    exact inv_send hs hord
  | flush i timer => exact inv_flush hs h

theorem Inv.kept (hs : Inv cfg s) : Kept s where
  late := hs.late
  live i j pc pc' hi hj hpc hpc' := by
    rw [(hs.olds.eq_append hi hpc).2, (hs.olds.eq_append hj hpc').2]
  order := by
    rw [hs.line, List.append_assoc]
    exact List.prefix_append _ _

/-- **Restarts keep order**: in every run of starts, stops and sends that is orderly at each step,
nothing is handed to the inner transport while the layer is stopped, at most one flush loop is live
and packets leave in the order in which they were accepted. -/
theorem orderly_run {es : List Event} (h : (lifecycle z cfg).run (lifecycle z cfg).init es = some s)
    (hord : (lifecycle z cfg).Along Orderly (lifecycle z cfg).init es) : Kept s :=
  (run_invariant (fun _ _ _ hs hP hstep => inv_step hs hP hstep) inv_init hord h).kept

/-- A layer is stopped while its loop is in the inner `Send`, sent a packet when the loop is back at
its top, and started again after the loop has returned. -/
def restartInSend : List Event :=
  [.start, .advance 0 true, .advance 0 true, .advance 0 true, .send [1], .flush 0 false,
    .flush 0 false, .flush 0 false, .flush 0 true, .flush 0 false, .stop, .advance 0 true,
    .advance 0 true, .flush 0 false, .send [2], .flush 0 false, .start, .advance 0 true,
    .advance 0 true, .advance 0 true, .flush 1 false, .flush 1 false, .flush 1 false,
    .flush 1 true, .flush 1 false]

theorem orderly_run_restartInSend : ∃ s, (lifecycle storeZstd .default).run
    (lifecycle storeZstd .default).init restartInSend = some s ∧ s.emitted = [[[1]], [[2]]] ∧
      Kept s := by
  have hrun : ((lifecycle storeZstd .default).run (lifecycle storeZstd .default).init
      restartInSend).map Layer.emitted = some [[[1]], [[2]]] := by
    decide +kernel
  obtain ⟨s, hs, hemitted⟩ := Option.map_eq_some_iff.mp hrun
  exact ⟨s, hs, hemitted, orderly_run hs (by decide +kernel)⟩

/-- A layer that is stopped while its loop sleeps, and sent a packet. -/
def stopAsleep : List Event :=
  [.start, .advance 0 true, .advance 0 true, .advance 0 true, .flush 0 false, .stop,
    .advance 0 true, .advance 0 true, .send [1], .flush 0 false, .flush 0 false, .flush 0 true,
    .flush 0 false]

/-- The packet wakes the loop, which hands it over. -/
theorem not_kept_stopAsleep : ¬ ∀ es s, (lifecycle storeZstd .default).run
    (lifecycle storeZstd .default).init es = some s → Kept s := by
  intro h
  have hrun : ((lifecycle storeZstd .default).run (lifecycle storeZstd .default).init
      stopAsleep).map Layer.late = some [[[1]]] := by
    decide +kernel
  obtain ⟨s, hs, hlate⟩ := Option.map_eq_some_iff.mp hrun
  have hnone := (h stopAsleep s hs).late
  rw [hlate] at hnone
  cases hnone

/-- The same layer started again before the packet is sent: the old loop is awake beside the new. -/
example : ((lifecycle storeZstd .default).run (lifecycle storeZstd .default).init
    [.start, .advance 0 true, .advance 0 true, .advance 0 true, .flush 0 false, .stop,
      .advance 0 true, .advance 0 true, .start, .advance 0 true, .advance 0 true,
      .advance 0 true, .flush 1 false]).map Layer.loops = some [.first, .first] := by
  decide +kernel

end OpenFlux.Transport.Batched.Layer
