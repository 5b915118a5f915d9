import OpenFlux.Transport.Equiv.Framing
import OpenFlux.Transport.Equiv.Volga.Relay
import OpenFlux.Transport.Volga.Stop

/-!
# Sends on a closed queue

`Stop` closes `batchQueue` while three kinds of senders may still be about to send: the flush loop
of the layer, which reads `running` only between batches; `keepAliveLoop`, whose flag is cleared
last; and direct callers.  `Quiet` says that each of them is past its last send when the queue is
closed and stays so; then no send panics (`quiet_run`).  Nothing in the code sees to it
(`crashed_stopAsleep`).
-/

namespace OpenFlux.Transport.Volga.Stack

open Batched EventSystem

variable {z : Zstd} {bcfg : Batched.Config} {cfg : Config} {s s' : Stack cfg}

/-- The loop holds no packet. -/
def Idle : FlushPc → Prop
  | .top | .first | .inSend | .done => True
  | .drain _ _ | .linger _ _ | .emit _ => False

instance : DecidablePred Idle
  | .top | .first | .inSend | .done => .isTrue trivial
  | .drain _ _ | .linger _ _ | .emit _ => .isFalse id

/-- What is asked of the senders: when `batchQueue` is closed, the flush loop holds no packet and
`keepAliveLoop` is not past its check of the flag; and after that the loop finds no packet to take,
`keepAliveLoop` finds the flag cleared, and nobody sends on the transport what would be queued. -/
def Quiet (s : Stack cfg) : Event cfg → Prop
  | .stop => s.shutdown = .relay → s.relay.stop = .closeBatchQueue →
    Idle s.loop ∧ s.keepAlive ≠ .send
  | .flush _ => s.relay.closed = true → s.loop = .first → s.queue = []
  | .keepAlive _ => s.relay.closed = true → s.keepAlive = .ticked → s.isRunning = false
  | .send data => s.relay.closed = true → data = [] ∨ cfg.maxPayloadBytes < data.length
  | .enqueue _ | .work _ _ | .callStop _ => True

instance (s : Stack cfg) : DecidablePred (Quiet s)
  | .stop => inferInstanceAs (Decidable (s.shutdown = .relay → s.relay.stop = .closeBatchQueue →
    Idle s.loop ∧ s.keepAlive ≠ .send))
  | .flush _ => inferInstanceAs (Decidable (s.relay.closed = true → s.loop = .first → s.queue = []))
  | .keepAlive _ => inferInstanceAs
    (Decidable (s.relay.closed = true → s.keepAlive = .ticked → s.isRunning = false))
  | .send data => inferInstanceAs
    (Decidable (s.relay.closed = true → data = [] ∨ cfg.maxPayloadBytes < data.length))
  | .enqueue _ | .work _ _ | .callStop _ => .isTrue trivial

/-- Nothing has panicked, and with the queue closed no sender is about to send. -/
structure Inv (s : Stack cfg) : Prop where
  crashed : s.relay.crashed = false
  closed : s.relay.closed = true → Idle s.loop ∧ s.keepAlive ≠ .send

/-! ### The relay -/

/-- `Send` panics only on the closed queue, with a packet that would be queued. -/
theorem crashed_send {r : Relay cfg} (data : Bytes) (h : r.crashed = false)
    (hsend : r.closed = true → data = [] ∨ cfg.maxPayloadBytes < data.length) :
    (r.send data).1.crashed = false ∧ (r.send data).1.closed = r.closed := by
  unfold Relay.send
  split_ifs with hempty hlarge hclosed hroom
  · exact ⟨h, rfl⟩
  · exact ⟨h, rfl⟩
  · rcases hsend hclosed with rfl | hbig
    · exact absurd rfl hempty
    · exact absurd hbig hlarge
  · exact ⟨h, rfl⟩
  · exact ⟨h, rfl⟩

theorem crashed_stop {r r' : Relay cfg} (h : r.crashed = false) (hstep : r.stopStep = some r') :
    r'.crashed = false ∧ (r'.closed = true → r.closed = true ∨ r.stop = .closeBatchQueue) := by
  unfold Relay.stopStep at hstep
  cases hstop : r.stop with
  | returned => simp [hstop] at hstep
  | wait =>
    simp only [hstop, Option.ite_none_right_eq_some, Option.some.injEq] at hstep
    obtain ⟨-, rfl⟩ := hstep
    exact ⟨h, .inl⟩
  | closeBatchQueue =>
    simp only [hstop, Option.some.injEq] at hstep
    subst hstep
    exact ⟨h, fun _ => .inr rfl⟩
  | notCalled =>
    simp only [hstop, Option.some.injEq] at hstep
    subst hstep
    exact ⟨h, .inl⟩
  | cancel =>
    simp only [hstop, Option.some.injEq] at hstep
    subst hstep
    exact ⟨h, .inl⟩
  | closeQueue =>
    simp only [hstop, Option.some.injEq] at hstep
    subst hstep
    exact ⟨h, .inl⟩

/-! ### The invariant along a run -/

theorem inv_init : Inv (stack z bcfg cfg).init where
  crashed := rfl
  closed h := nomatch h

/-- With the queue closed an idle loop that finds no packet goes on being idle and sends nothing. -/
theorem flushStep_idle {running timer : Bool} {queue queue' : List Bytes} {pc pc' : FlushPc}
    {msg : Option Bytes} (hidle : Idle pc) (hempty : pc = .first → queue = [])
    (h : flushStep z bcfg running timer queue pc = some (pc', queue', msg)) :
    msg = none ∧ Idle pc' := by
  cases pc with
  | top =>
    cases h
    cases running <;> exact ⟨rfl, trivial⟩
  | first =>
    rw [hempty rfl] at h
    cases h
  | inSend =>
    cases h
    exact ⟨rfl, trivial⟩
  | done => cases h
  | drain batch size => exact hidle.elim
  | linger batch size => exact hidle.elim
  | emit batch => exact hidle.elim

theorem inv_flush {timer : Bool} (hs : Inv s) (hquiet : Quiet s (.flush timer))
    (h : s.flush z bcfg timer = some s') : Inv s' := by
  unfold Stack.flush at h
  cases hstep : flushStep z bcfg s.running timer s.queue s.loop with
  | none => simp [hstep] at h
  | some next =>
    obtain ⟨loop, queue, msg⟩ := next
    have hidle : s.relay.closed = true → msg = none ∧ Idle loop := fun hclosed =>
      flushStep_idle (hs.closed hclosed).1 (hquiet hclosed) hstep
    cases msg with
    | none =>
      simp only [hstep, Option.some.injEq] at h
      subst h
      exact ⟨hs.crashed, fun hclosed => ⟨(hidle hclosed).2, (hs.closed hclosed).2⟩⟩
    | some m =>
      simp only [hstep, Option.some.injEq] at h
      subst h
      have hopen : s.relay.closed = true → False := fun hclosed => nomatch (hidle hclosed).1
      obtain ⟨hcrashed, hclosed⟩ := crashed_send m hs.crashed fun h => (hopen h).elim
      exact ⟨hcrashed, fun h => (hopen (hclosed ▸ h)).elim⟩

theorem inv_keepAlive {tick : Bool} (hs : Inv s) (hquiet : Quiet s (.keepAlive tick))
    (h : s.keepAliveStep tick = some s') : Inv s' := by
  unfold Stack.keepAliveStep at h
  cases hpc : s.keepAlive with
  | done => simp [hpc] at h
  | select =>
    simp only [hpc] at h
    split_ifs at h <;> cases h <;>
      exact ⟨hs.crashed, fun hclosed => ⟨(hs.closed hclosed).1, by simp⟩⟩
  | ticked =>
    simp only [hpc, Option.some.injEq] at h
    subst h
    refine ⟨hs.crashed, fun hclosed => ⟨(hs.closed hclosed).1, ?_⟩⟩
    show (if s.isRunning then KeepAlive.send else .done) ≠ .send
    rw [hquiet hclosed hpc]
    simp
  | send =>
    simp only [hpc, Option.some.injEq] at h
    subst h
    have hopen : s.relay.closed = true → False := fun hclosed => (hs.closed hclosed).2 hpc
    obtain ⟨hcrashed, hclosed⟩ := crashed_send [0x00] hs.crashed fun h => (hopen h).elim
    exact ⟨hcrashed, fun h => (hopen (hclosed ▸ h)).elim⟩

theorem inv_stop (hs : Inv s) (hquiet : Quiet s (.stop : Event cfg))
    (h : s.stopStep = some s') : Inv s' := by
  unfold Stack.stopStep at h
  cases hpc : s.shutdown with
  | notCalled => simp [hpc] at h
  | returned => simp [hpc] at h
  | layer =>
    simp only [hpc, Option.some.injEq] at h
    subst h
    exact ⟨hs.crashed, hs.closed⟩
  | keepAliveStop =>
    simp only [hpc, Option.some.injEq] at h
    subst h
    exact ⟨hs.crashed, hs.closed⟩
  | base =>
    simp only [hpc, Option.some.injEq] at h
    subst h
    exact ⟨hs.crashed, hs.closed⟩
  | relay =>
    simp only [hpc] at h
    split_ifs at h with hreturned
    · cases h
      exact ⟨hs.crashed, hs.closed⟩
    · obtain ⟨relay, hrelay, rfl⟩ := Option.map_eq_some_iff.mp h
      obtain ⟨hcrashed, hclosed⟩ := crashed_stop hs.crashed hrelay
      refine ⟨hcrashed, fun hnow => ?_⟩
      rcases hclosed hnow with hbefore | hclosing
      · exact hs.closed hbefore
      · exact hquiet hpc hclosing

theorem inv_step {e : Event cfg} (hs : Inv s) (hquiet : Quiet s e)
    (h : (stack z bcfg cfg).step s e = some s') : Inv s' := by
  simp only [stack, hs.crashed, Bool.false_eq_true, if_false] at h
  cases e with
  | enqueue data =>
    cases h
    exact ⟨hs.crashed, hs.closed⟩
  | send data =>
    cases h
    obtain ⟨hcrashed, hclosed⟩ := crashed_send data hs.crashed hquiet
    exact ⟨hcrashed, fun h => hs.closed (hclosed ▸ h)⟩
  | flush timer => exact inv_flush hs hquiet h
  | keepAlive tick => exact inv_keepAlive hs hquiet h
  | work w c =>
    obtain ⟨relay, hwork, rfl⟩ := Option.map_eq_some_iff.mp h
    obtain ⟨hworks, -⟩ := Relay.works_of_work hwork
    exact ⟨hworks.crashed.trans hs.crashed, fun h => hs.closed (hworks.closed ▸ h)⟩
  | callStop onLayer =>
    simp only [Option.ite_none_right_eq_some] at h
    obtain ⟨-, h⟩ := h
    cases h
    exact ⟨hs.crashed, hs.closed⟩
  | stop => exact inv_stop hs hquiet h

/-- **No send panics** in a run of the stack whose senders are quiet when the queue is closed and
after that: every call of `Send` of the relay returns. -/
theorem quiet_run {es : List (Event cfg)}
    (h : (stack z bcfg cfg).run (stack z bcfg cfg).init es = some s)
    (hquiet : (stack z bcfg cfg).Along Quiet (stack z bcfg cfg).init es) :
    s.relay.crashed = false :=
  (run_invariant (fun _ _ _ hs hP hstep => inv_step hs hP hstep) inv_init hquiet h).crashed

/-- The layer is stopped while its loop is in the inner `Send`. -/
def stopInSend : List (Event .default) :=
  [.enqueue [1], .flush false, .flush false, .flush false, .flush true, .flush false, .callStop true,
    .stop, .stop, .stop, .stop, .stop, .stop, .flush false, .flush false]

theorem quiet_run_stopInSend : ∃ s, (stack storeZstd .default .default).run
    (stack storeZstd .default .default).init stopInSend = some s ∧ s.relay.closed = true ∧
      s.relay.crashed = false := by
  have hrun : ((stack storeZstd .default .default).run (stack storeZstd .default .default).init
      stopInSend).map (fun s => s.relay.closed) = some true := by
    decide +kernel
  obtain ⟨s, hs, hclosed⟩ := Option.map_eq_some_iff.mp hrun
  exact ⟨s, hs, hclosed, quiet_run hs (by decide +kernel)⟩

/-- The layer is stopped while its loop waits for a packet, and then one is sent. -/
def stopAsleep : List (Event .default) :=
  [.flush false, .callStop true, .stop, .stop, .stop, .stop, .stop, .stop, .enqueue [1], .flush false,
    .flush false, .flush true, .flush false]

/-- The loop wakes up and sends on the closed queue. -/
theorem crashed_stopAsleep : ¬ ∀ es s, (stack storeZstd .default .default).run
    (stack storeZstd .default .default).init es = some s → s.relay.crashed = false := by
  intro h
  have hrun : ((stack storeZstd .default .default).run (stack storeZstd .default .default).init
      stopAsleep).map (fun s => s.relay.crashed) = some true := by
    decide +kernel
  obtain ⟨s, hs, hcrashed⟩ := Option.map_eq_some_iff.mp hrun
  exact absurd ((h stopAsleep s hs).symm.trans hcrashed) (by decide)

end OpenFlux.Transport.Volga.Stack
