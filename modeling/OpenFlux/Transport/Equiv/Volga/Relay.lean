import Mathlib.Algebra.BigOperators.Fin
import Mathlib.Algebra.Order.Group.Multiset
import OpenFlux.Transport.Volga.Relay

/-!
# What a stop leaves behind

A packet that `Send` took is at every moment in one place: in the queue, in the batch of one worker,
or in one batch that was passed to `sendBatch` (`Inv.line`).  When `Stop` has returned no worker
holds anything, so each packet was posted once or is still queued (`posted_once`).  A worker that
finds the queue closed finds it empty, so nothing is left behind once one has (`Inv.drained`); but
every worker may see the cancelled context first, and then what was queued stays there
(`exists_leaving`).
-/

namespace OpenFlux.Transport.Volga

open EventSystem

namespace Relay

variable {cfg : Config} {r r' : Relay cfg}

/-! ### Where the packets are -/

/-- The packets a worker holds. -/
def held : Worker → Multiset Packet
  | .select batch _ => batch
  | .inSend _ _ | .done => 0

/-- The packets all workers hold. -/
def heldAll (workers : Fin cfg.workerCount → Worker) : Multiset Packet := ∑ w, held (workers w)

theorem heldAll_update (workers : Fin cfg.workerCount → Worker) (w : Fin cfg.workerCount)
    (x : Worker) :
    heldAll (Function.update workers w x) + held (workers w) = heldAll workers + held x := by
  have hrest : ∑ v ∈ Finset.univ.erase w, held (Function.update workers w x v) =
      ∑ v ∈ Finset.univ.erase w, held (workers v) := by
    apply Finset.sum_congr rfl
    intro v hv
    rw [Function.update_of_ne (Finset.ne_of_mem_erase hv)]
  have hsplit : ∀ g : Fin cfg.workerCount → Worker,
      heldAll g = held (g w) + ∑ v ∈ Finset.univ.erase w, held (g v) :=
    fun g => (Finset.add_sum_erase _ (fun v => held (g v)) (Finset.mem_univ w)).symm
  rw [hsplit (Function.update workers w x), hsplit workers, Function.update_self, hrest]
  ac_rfl

/-- The packets that were queued. -/
def queued (r : Relay cfg) : List Packet := r.accepted.filter fun p => p.data ≠ []

/-- The invariant of the relay. -/
structure Inv (r : Relay cfg) : Prop where
  tickets : r.accepted.map Packet.ticket = List.range r.accepted.length
  line : (r.queued : Multiset Packet) =
    r.batches.flatten + heldAll r.workers + r.batchQueue
  before : r.before ⊆ r.accepted
  drained : r.drained = true → r.closed = true ∧ r.batchQueue = []
  returned : r.stop = .returned → ∀ w, r.workers w = .done

theorem inv_init : Inv (relay cfg).init where
  tickets := rfl
  line := by
    show (0 : Multiset Packet) = 0 + heldAll (fun _ => .select [] false) + 0
    simp [heldAll, held]
  before := List.Subset.refl _
  drained h := nomatch h
  returned h := nomatch h

/-! ### The steps of a worker -/

/-- The packets that have been queued, by where they are now. -/
def packets (r : Relay cfg) : Multiset Packet :=
  r.batches.flatten + heldAll r.workers + r.batchQueue

/-- What a step of a worker changes: packets move on, and nothing is added to the queue. -/
structure Works (r r' : Relay cfg) : Prop where
  accepted : r'.accepted = r.accepted
  before : r'.before = r.before
  stop : r'.stop = r.stop
  closed : r'.closed = r.closed
  crashed : r'.crashed = r.crashed
  packets : r'.packets = r.packets
  queue : r.batchQueue = [] → r'.batchQueue = []
  drained : r'.drained = true → r.drained = true ∨ r.closed = true ∧ r.batchQueue = []

/-- Packets move from the queue to a worker, and from it to batches that are posted. -/
theorem works_move {w : Fin cfg.workerCount} (x : Worker) (taken : List Packet)
    (posted : List (List Packet)) {queue : List Packet} {drained : Bool}
    (hqueue : r.batchQueue = taken ++ queue)
    (hpackets : held (r.workers w) + taken = posted.flatten + held x)
    (hdrained : drained = true → r.drained = true ∨ r.closed = true ∧ r.batchQueue = []) :
    Works r { r with
      batchQueue := queue
      workers := Function.update r.workers w x
      batches := r.batches ++ posted
      drained } where
  accepted := rfl
  before := rfl
  stop := rfl
  closed := rfl
  crashed := rfl
  packets := by
    have hupdate := heldAll_update r.workers w x
    unfold Relay.packets
    rw [hqueue]
    apply add_right_cancel (b := held (r.workers w))
    calc ((r.batches ++ posted).flatten : Multiset Packet) +
            heldAll (Function.update r.workers w x) + queue + held (r.workers w)
        = r.batches.flatten + posted.flatten + queue +
            (heldAll (Function.update r.workers w x) + held (r.workers w)) := by
          rw [List.flatten_append, ← Multiset.coe_add]
          ac_rfl
      _ = r.batches.flatten + heldAll r.workers + queue + (posted.flatten + held x) := by
          rw [hupdate]
          ac_rfl
      _ = r.batches.flatten + heldAll r.workers + (taken ++ queue : List Packet) +
            held (r.workers w) := by
          rw [← hpackets, ← Multiset.coe_add]
          ac_rfl
  queue hnil := by
    rw [hnil] at hqueue
    exact (List.append_eq_nil_iff.mp hqueue.symm).2
  drained := hdrained

/-- What `flush` does: the batch, if there is one, is posted and the worker holds nothing. -/
theorem flush_spec (r : Relay cfg) (w : Fin cfg.workerCount) (batch : List Packet)
    (armed leaving : Bool) : ∃ x posted, held x = 0 ∧ posted.flatten = batch ∧
      r.flush w batch armed leaving = { r with
        workers := Function.update r.workers w x
        batches := r.batches ++ posted } := by
  unfold Relay.flush
  by_cases hbatch : batch = []
  · refine ⟨if leaving then .done else .select [] armed, [], ?_, hbatch.symm, ?_⟩
    · cases leaving <;> rfl
    · rw [if_pos hbatch, List.append_nil]
  · refine ⟨.inSend armed leaving, [batch], rfl, by simp, ?_⟩
    rw [if_neg hbatch]

/-- What a step of a worker does. -/
theorem works_of_work {w : Fin cfg.workerCount} {c : WorkerCase} (h : r.work w c = some r') :
    Works r r' ∧ r.workers w ≠ .done := by
  unfold Relay.work at h
  cases hw : r.workers w with
  | done => simp [hw] at h
  | inSend armed leaving =>
    refine ⟨?_, by simp⟩
    cases c with
    | sendReturns =>
      simp only [hw, Option.some.injEq] at h
      have hidle : held (if leaving then .done else .select [] armed) = 0 := by
        cases leaving <;> rfl
      have hmove := works_move (r := r) (w := w) (if leaving then .done else .select [] armed) [] []
        rfl (by rw [hw, hidle]; rfl) .inl
      rw [List.append_nil] at hmove
      exact h ▸ hmove
    | ctxDone => simp [hw] at h
    | batchQueue => simp [hw] at h
    | timer => simp [hw] at h
  | select batch armed =>
    refine ⟨?_, by simp⟩
    have hheld : held (r.workers w) = batch := by rw [hw]; rfl
    cases c with
    | sendReturns => simp [hw] at h
    | ctxDone =>
      simp only [hw, Option.ite_none_right_eq_some, Option.some.injEq] at h
      obtain ⟨x, posted, hx, hposted, heq⟩ := flush_spec r w batch armed true
      rw [← h.2, heq]
      exact works_move x [] posted rfl (by rw [hheld, hposted, hx]; rfl) .inl
    | timer =>
      simp only [hw, Option.ite_none_right_eq_some, Option.some.injEq] at h
      obtain ⟨x, posted, hx, hposted, heq⟩ := flush_spec r w batch false false
      rw [← h.2, heq]
      exact works_move x [] posted rfl (by rw [hheld, hposted, hx]; rfl) .inl
    | batchQueue =>
      cases hqueue : r.batchQueue with
      | nil =>
        simp only [hw, hqueue, Option.ite_none_right_eq_some, Option.some.injEq] at h
        obtain ⟨x, posted, hx, hposted, heq⟩ :=
          flush_spec { r with batchQueue := [], drained := true } w batch armed true
        rw [← h.2, heq]
        exact works_move x [] posted hqueue (by rw [hheld, hposted, hx]; rfl)
          fun _ => .inr ⟨h.1, hqueue⟩
      | cons p queue =>
        simp only [hw, hqueue] at h
        have htake : held (r.workers w) + ([p] : List Packet) = (batch ++ [p] : List Packet) := by
          rw [hheld, Multiset.coe_add]
        split_ifs at h
        · obtain ⟨x, posted, hx, hposted, heq⟩ :=
            flush_spec { r with batchQueue := queue } w (batch ++ [p]) armed false
          rw [← Option.some.inj h, heq]
          exact works_move x [p] posted hqueue (by rw [htake, hposted, hx, add_zero]) .inl
        · have hmove := works_move (r := r) (w := w)
            (.select (batch ++ [p]) (armed || (batch ++ [p]).length == 1)) [p] [] hqueue
            (by rw [htake]; exact (zero_add _).symm) .inl
          rw [List.append_nil] at hmove
          rw [← Option.some.inj h]
          exact hmove

/-! ### The invariant along a run -/

/-- On an open queue `Send` is the `send` of the transport. -/
theorem send_eq (r : Relay cfg) (data : Bytes) (hopen : r.closed = false) :
    (r.send data).2 = some (Volga.send cfg (r.batchQueue.map Packet.data) data).2 ∧
      (r.send data).1.batchQueue.map Packet.data =
        (Volga.send cfg (r.batchQueue.map Packet.data) data).1 := by
  unfold Relay.send Volga.send
  simp only [hopen, List.length_map]
  split_ifs <;> simp_all [Relay.accept]

/-- What `Send` does: it changes no packet and no place, or the packet is accepted, and queued if it
is not empty. -/
theorem send_cases (r : Relay cfg) (data : Bytes) :
    (∃ crashed, (r.send data).1 = { r with crashed }) ∨
      (data = [] ∧ (r.send data).1 = r.accept ⟨r.accepted.length, data⟩) ∨
      (data ≠ [] ∧ r.closed = false ∧ (r.send data).1 =
        { r.accept ⟨r.accepted.length, data⟩ with
          batchQueue := r.batchQueue ++ [⟨r.accepted.length, data⟩] }) := by
  unfold Relay.send
  split_ifs with hempty hlarge hclosed hroom
  · exact .inr (.inl ⟨List.eq_nil_of_length_eq_zero hempty, rfl⟩)
  · exact .inl ⟨r.crashed, rfl⟩
  · exact .inl ⟨true, rfl⟩
  · refine .inr (.inr ⟨fun hnil => hempty (by rw [hnil]; rfl), by simpa using hclosed, rfl⟩)
  · exact .inl ⟨r.crashed, rfl⟩

theorem tickets_accept (hs : Inv r) (data : Bytes) :
    (r.accepted ++ [(⟨r.accepted.length, data⟩ : Packet)]).map Packet.ticket =
      List.range (r.accepted ++ [(⟨r.accepted.length, data⟩ : Packet)]).length := by
  rw [List.map_append, hs.tickets, List.length_append, List.length_singleton, List.range_succ]
  rfl

theorem before_accept (hs : Inv r) (p : Packet) :
    (r.accept p).before ⊆ r.accepted ++ [p] := by
  intro q hq
  unfold Relay.accept at hq
  dsimp only at hq
  split_ifs at hq
  · rcases List.mem_append.mp hq with hold | hnew
    · exact List.mem_append_left _ (hs.before hold)
    · exact List.mem_append_right _ hnew
  · exact List.mem_append_left _ (hs.before hq)

theorem inv_send (hs : Inv r) (data : Bytes) : Inv (r.send data).1 := by
  rcases send_cases r data with ⟨crashed, heq⟩ | ⟨rfl, heq⟩ | ⟨hdata, hopen, heq⟩
  · rw [heq]
    exact ⟨hs.tickets, hs.line, hs.before, hs.drained, hs.returned⟩
  · rw [heq]
    refine ⟨tickets_accept hs [], ?_, before_accept hs _, hs.drained, hs.returned⟩
    show ((r.accepted ++ [_]).filter _ : Multiset Packet) = _
    rw [List.filter_append, List.filter_singleton]
    exact (congrArg _ (List.append_nil _)).trans hs.line
  · rw [heq]
    refine ⟨tickets_accept hs data, ?_, before_accept hs _, ?_, hs.returned⟩
    · show ((r.accepted ++ [_]).filter _ : Multiset Packet) =
        _ + _ + (r.batchQueue ++ [_] : List Packet)
      rw [List.filter_append, ← Multiset.coe_add, ← Multiset.coe_add, ← add_assoc]
      congr 1
      · exact hs.line
      · simp [hdata]
    · intro hdrained
      have hclosed := (hs.drained hdrained).1
      exact absurd (hopen.symm.trans hclosed) (by decide)

theorem Works.inv (h : Works r r') (hs : Inv r)
    (hreturned : r.stop = .returned → ∀ w, r'.workers w = .done) : Inv r' where
  tickets := h.accepted ▸ hs.tickets
  line := by
    have hline : (r'.queued : Multiset Packet) = r.packets := by
      rw [queued, h.accepted]
      exact hs.line
    rw [hline, ← h.packets]
    rfl
  before := by
    rw [h.before, h.accepted]
    exact hs.before
  drained hdrained := by
    rw [h.closed]
    rcases h.drained hdrained with hold | ⟨hclosed, hempty⟩
    · exact ⟨(hs.drained hold).1, h.queue (hs.drained hold).2⟩
    · exact ⟨hclosed, h.queue hempty⟩
  returned hstop := hreturned (h.stop ▸ hstop)

theorem inv_stop (hs : Inv r) (h : r.stopStep = some r') : Inv r' := by
  unfold Relay.stopStep at h
  cases hstop : r.stop with
  | returned => simp [hstop] at h
  | wait =>
    simp only [hstop, Option.ite_none_right_eq_some, Option.some.injEq] at h
    obtain ⟨hdone, rfl⟩ := h
    exact ⟨hs.tickets, hs.line, hs.before, hs.drained, fun _ => hdone⟩
  | closeBatchQueue =>
    simp only [hstop, Option.some.injEq] at h
    subst h
    exact ⟨hs.tickets, hs.line, hs.before, fun hd => ⟨rfl, (hs.drained hd).2⟩, fun h => nomatch h⟩
  | notCalled =>
    simp only [hstop, Option.some.injEq] at h
    subst h
    exact ⟨hs.tickets, hs.line, hs.before, hs.drained, fun h => nomatch h⟩
  | cancel =>
    simp only [hstop, Option.some.injEq] at h
    subst h
    exact ⟨hs.tickets, hs.line, hs.before, hs.drained, fun h => nomatch h⟩
  | closeQueue =>
    simp only [hstop, Option.some.injEq] at h
    subst h
    exact ⟨hs.tickets, hs.line, hs.before, hs.drained, fun h => nomatch h⟩

theorem inv_step {e : Event cfg} (hs : Inv r) (h : (relay cfg).step r e = some r') : Inv r' := by
  simp only [relay, Option.ite_none_left_eq_some] at h
  obtain ⟨-, h⟩ := h
  cases e with
  | send data =>
    cases h
    exact inv_send hs data
  | work w c =>
    obtain ⟨hworks, hlive⟩ := works_of_work h
    exact hworks.inv hs fun hstop => absurd (hs.returned hstop w) hlive
  | stop => exact inv_stop hs h

theorem inv_reachable (h : (relay cfg).Reachable r) : Inv r :=
  h.invariant inv_init fun _ _ _ hs hstep => inv_step hs hstep

/-! ### Posted once -/

/-- The packets that were queued are different. -/
theorem Inv.nodup_packets (hs : Inv r) : r.packets.Nodup := by
  have haccepted : r.accepted.Nodup := by
    apply List.Nodup.of_map Packet.ticket
    rw [hs.tickets]
    exact List.nodup_range
  show (r.batches.flatten + heldAll r.workers + r.batchQueue : Multiset Packet).Nodup
  rw [← hs.line, Multiset.coe_nodup]
  exact haccepted.filter _

/-- When no worker holds a packet, each one queued has been posted or is in the queue. -/
theorem Inv.count_add_count (hs : Inv r) (hdone : ∀ w, r.workers w = .done) {p : Packet}
    (hp : p ∈ r.accepted) (hdata : p.data ≠ []) :
    r.batches.flatten.count p + r.batchQueue.count p = 1 := by
  have hheld : heldAll r.workers = 0 := Finset.sum_eq_zero fun w _ => by rw [hdone w]; rfl
  have hline := hs.line
  rw [hheld, add_zero] at hline
  have hmem : p ∈ r.packets := by
    show p ∈ (r.batches.flatten + heldAll r.workers + r.batchQueue : Multiset Packet)
    rw [hheld, add_zero, ← hline, Multiset.mem_coe]
    exact List.mem_filter.mpr ⟨hp, by simpa using hdata⟩
  have hone := Multiset.count_eq_one_of_mem hs.nodup_packets hmem
  rw [packets, hheld, add_zero, Multiset.count_add, Multiset.coe_count, Multiset.coe_count] at hone
  exact hone

/-- **What a stop leaves behind**: at no time is a packet in two batches passed to `sendBatch`.
When `Stop` has returned, every non-empty packet whose `Send` returned nil before `Stop` was called
has been passed to `sendBatch` exactly once, or never and is still in the queue; and if some worker
left because it found the queue closed, it has been passed exactly once. -/
theorem posted_once (h : (relay cfg).Reachable r) :
    (∀ p, r.batches.flatten.count p ≤ 1) ∧
      (r.stop = .returned → ∀ p ∈ r.before, p.data ≠ [] →
        (r.batches.flatten.count p = 1 ∧ p ∉ r.batchQueue ∨
            r.batches.flatten.count p = 0 ∧ p ∈ r.batchQueue) ∧
          (r.drained = true → r.batches.flatten.count p = 1)) := by
  have hs := inv_reachable h
  constructor
  · intro p
    have hle := Multiset.nodup_iff_count_le_one.mp hs.nodup_packets p
    rw [packets, Multiset.count_add, Multiset.count_add, Multiset.coe_count] at hle
    omega
  · intro hstop p hp hdata
    have hone := hs.count_add_count (hs.returned hstop) (hs.before hp) hdata
    refine ⟨?_, fun hdrained => ?_⟩
    · rw [← List.count_eq_zero, ← List.count_pos_iff]
      omega
    · rw [(hs.drained hdrained).2, List.count_nil] at hone
      exact hone

/-- One worker that takes a packet and finds the queue closed. -/
def sampleConfig : Config := { Config.default with workerCount := 1, queueSize := 4 }

theorem posted_once_sample : ∃ r, (relay sampleConfig).Reachable r ∧ r.stop = .returned ∧
    r.before = [⟨0, [7]⟩] ∧ r.batches.flatten.count ⟨0, [7]⟩ = 1 := by
  let w : Fin sampleConfig.workerCount := ⟨0, by decide⟩
  have hrun : ((relay sampleConfig).run (relay sampleConfig).init [.send [7], .stop, .stop, .stop,
      .stop, .work w .batchQueue, .work w .batchQueue, .work w .sendReturns, .stop]).map
        (fun r => (r.stop, r.before, r.drained)) = some (.returned, [⟨0, [7]⟩], true) := by
    decide +kernel
  obtain ⟨r, hr, hdata⟩ := Option.map_eq_some_iff.mp hrun
  simp only [Prod.mk.injEq] at hdata
  obtain ⟨hstop, hbefore, hdrained⟩ := hdata
  have honce := (posted_once ⟨_, hr⟩).2 hstop ⟨0, [7]⟩ (by simp [hbefore]) (by simp)
  exact ⟨r, ⟨_, hr⟩, hstop, hbefore, honce.2 hdrained⟩

/-! ### Left behind -/

/-- Every worker below `k` is in `sendBatch`, the others wait, and nothing is queued. -/
structure Busy (k : ℕ) (r : Relay cfg) : Prop where
  queue : r.batchQueue = []
  running : r.closed = false ∧ r.crashed = false ∧ r.stop = .notCalled
  workers : ∀ w, r.workers w = if w.val < k then .inSend false false else .select [] false

/-- `Stop` waits for the workers from `k` on, which are in `sendBatch`; the packet `p` is queued. -/
structure Leaving (p : Packet) (k : ℕ) (r : Relay cfg) : Prop where
  queue : r.batchQueue = [p]
  mem : p ∈ r.before
  stopping : r.cancelled = true ∧ r.crashed = false ∧ r.stop = .wait
  workers : ∀ w, r.workers w = if w.val < k then .done else .inSend false false

/-- The workers of the default configuration get a packet each, and their timers fire. -/
theorem exists_busy (k : ℕ) (hk : k ≤ Config.default.workerCount) :
    ∃ r, (relay Config.default).Reachable r ∧ Busy k r := by
  induction k with
  | zero => exact ⟨_, .init, rfl, ⟨rfl, rfl, rfl⟩, fun _ => rfl⟩
  | succ k ih =>
    obtain ⟨r, hr, hbusy⟩ := ih (by omega)
    obtain ⟨hclosed, hcrashed, hstop⟩ := hbusy.running
    let w : Fin Config.default.workerCount := ⟨k, hk⟩
    have hw : r.workers w = .select [] false := by
      rw [hbusy.workers w, if_neg (Nat.lt_irrefl k)]
    let p : Packet := ⟨r.accepted.length, [1]⟩
    have hsend : (relay Config.default).step r (.send [1]) =
        some { r.accept p with batchQueue := [p] } := by
      simp [relay, Relay.send, hclosed, hcrashed, hbusy.queue, Config.default, p]
    have htake : (relay Config.default).step { r.accept p with batchQueue := [p] }
        (.work w .batchQueue) = some { r.accept p with
          batchQueue := []
          workers := Function.update r.workers w (.select [p] true) } := by
      simp [relay, Relay.work, Relay.accept, hcrashed, hw, Config.default, totalBytes, p]
    have hpost : (relay Config.default).step { r.accept p with
          batchQueue := []
          workers := Function.update r.workers w (.select [p] true) } (.work w .timer) =
        some { r.accept p with
          batchQueue := []
          workers := Function.update r.workers w (.inSend false false)
          batches := r.batches ++ [[p]] } := by
      simp [relay, Relay.work, Relay.accept, Relay.flush, hcrashed]
    refine ⟨_, ((hr.step hsend).step htake).step hpost, rfl, ⟨hclosed, hcrashed, hstop⟩, ?_⟩
    intro v
    show Function.update r.workers w _ v = _
    rw [Function.update_apply, hbusy.workers v]
    by_cases hv : v = w
    · subst hv
      simp [w]
    · have hne : v.val ≠ k := fun h => hv (Fin.ext h)
      rw [if_neg hv]
      grind

/-- A packet is sent to the busy relay, and `Stop` gets as far as waiting for the workers. -/
theorem exists_leaving (k : ℕ) (hk : k ≤ Config.default.workerCount) :
    ∃ p r, p.data ≠ [] ∧ (relay Config.default).Reachable r ∧ Leaving p k r := by
  induction k with
  | zero =>
    obtain ⟨r, hr, hbusy⟩ := exists_busy Config.default.workerCount le_rfl
    obtain ⟨hclosed, hcrashed, hstop⟩ := hbusy.running
    let p : Packet := ⟨r.accepted.length, [2]⟩
    have hsend : (relay Config.default).step r (.send [2]) =
        some { r.accept p with batchQueue := [p] } := by
      simp [relay, Relay.send, hclosed, hcrashed, hbusy.queue, Config.default, p]
    have hstops : (relay Config.default).run { r.accept p with batchQueue := [p] }
        [.stop, .stop, .stop, .stop] = some { r.accept p with
          batchQueue := [p]
          cancelled := true
          closed := true
          stop := .wait } := by
      simp [relay, EventSystem.run, Relay.stopStep, Relay.accept, hcrashed, hstop]
    refine ⟨p, _, by simp [p], (hr.step hsend).run hstops, rfl, ?_, ⟨rfl, hcrashed, rfl⟩, ?_⟩
    · simp [Relay.accept, hstop]
    · intro w
      show r.workers w = _
      rw [hbusy.workers w, if_pos w.isLt, if_neg (Nat.not_lt_zero _)]
  | succ k ih =>
    obtain ⟨p, r, hp, hr, hleaving⟩ := ih (by omega)
    obtain ⟨hcancelled, hcrashed, hstop⟩ := hleaving.stopping
    let w : Fin Config.default.workerCount := ⟨k, hk⟩
    have hw : r.workers w = .inSend false false := by
      rw [hleaving.workers w, if_neg (Nat.lt_irrefl k)]
    have hreturn : (relay Config.default).step r (.work w .sendReturns) =
        some { r with workers := Function.update r.workers w (.select [] false) } := by
      simp [relay, Relay.work, hcrashed, hw]
    have hleave : (relay Config.default).step
        { r with workers := Function.update r.workers w (.select [] false) } (.work w .ctxDone) =
        some { r with workers := Function.update r.workers w .done } := by
      simp [relay, Relay.work, Relay.flush, hcrashed, hcancelled]
    refine ⟨p, _, hp, (hr.step hreturn).step hleave, hleaving.queue, hleaving.mem,
      ⟨hcancelled, hcrashed, hstop⟩, ?_⟩
    intro v
    show Function.update r.workers w _ v = _
    rw [Function.update_apply, hleaving.workers v]
    by_cases hv : v = w
    · subst hv
      simp [w]
    · have hne : v.val ≠ k := fun h => hv (Fin.ext h)
      rw [if_neg hv]
      grind

/-- With the default configuration `Stop` can return with a packet still queued, which was accepted
before the call and is never posted. -/
theorem not_posted_default : ¬ ∀ r, (relay Config.default).Reachable r → r.stop = .returned →
    ∀ p ∈ r.before, r.batches.flatten.count p = 1 := by
  intro h
  obtain ⟨p, r, hp, hr, hleaving⟩ := exists_leaving Config.default.workerCount le_rfl
  obtain ⟨-, hcrashed, hstop⟩ := hleaving.stopping
  have hdone : ∀ w, r.workers w = .done := by
    intro w
    rw [hleaving.workers w, if_pos w.isLt]
  have hreturn : (relay Config.default).step r .stop = some { r with stop := .returned } := by
    simp [relay, Relay.stopStep, hcrashed, hstop, hdone]
  have hposted : r.batches.flatten.count p = 1 := h _ (hr.step hreturn) rfl p hleaving.mem
  have hone := (inv_reachable hr).count_add_count hdone ((inv_reachable hr).before hleaving.mem) hp
  rw [hleaving.queue, List.count_singleton_self] at hone
  omega

end Relay

end OpenFlux.Transport.Volga
