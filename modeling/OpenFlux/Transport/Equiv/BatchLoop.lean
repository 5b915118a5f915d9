import OpenFlux.Transport.BatchLoop

/-!
# No packet is left in a batch that nothing will flush

Whenever a loop is at its `select` (`sendLoop` until its context is closed) it is `Settled`: the
byte count is right, both limits are ahead, and a batch that is not empty has a timer that is
running or has a tick waiting.  The timer need not be stopped after a flush for size: a stale tick
only flushes the next batch early, and the first packet of a batch resets the timer whatever its
state.

With limits of at least 1 an empty batch is settled (`Settled.of_nil`), and so is what a flush
leaves; `Settled.take` is the step that receives a packet.
-/

namespace OpenFlux.Transport.BatchLoop

open EventSystem

variable {l : BatchLoop} {drops : Bool} {s s' : State}

/-! ### What is to be shown -/

/-- The batch is counted and below its limits, and will be flushed. -/
structure Settled (l : BatchLoop) (s : State) : Prop where
  totalBytes_eq : s.totalBytes = totalBytes s.batch
  length_lt : s.batch.length < l.maxPackets
  totalBytes_lt : s.totalBytes < l.maxBytes
  timer : s.batch ≠ [] → s.timer.armed = true ∨ s.timer.tick = true

/-- The loop is in a flush of the batch `b`. -/
def Flushing (s : State) (b : List Bytes) : Prop :=
  s.batch = b ∧ (s.pc = .load false ∨ s.pc = .sending false)

/-- Nothing but the timer, at most once, is needed for a flush of the batch. -/
def Flushes (l : BatchLoop) (drops : Bool) (s : State) : Prop :=
  ∃ es t, (es = [.tick] ∨ es = [.fires, .tick]) ∧ (l.system drops).run s es = some t ∧
    Flushing t s.batch

/-- The packets that have not been passed to `sendBatch` yet. -/
def State.held (s : State) : List Bytes :=
  match s.pc with
  | .sending _ => []
  | _ => s.batch

/-- Every packet received has been passed to `sendBatch`, once and in order, or is held. -/
def Conserved (s : State) : Prop := s.taken = s.sent.flatten ++ s.held

/-! ### The operations -/

theorem totalBytes_append_singleton (batch : List Bytes) (pkt : Bytes) :
    totalBytes (batch ++ [pkt]) = totalBytes batch + pkt.length := by
  simp [totalBytes]

theorem Settled.of_nil (hpackets : 1 ≤ l.maxPackets) (hbytes : 1 ≤ l.maxBytes)
    (hbatch : s.batch = []) (htotal : s.totalBytes = 0) : l.Settled s where
  totalBytes_eq := by rw [htotal, hbatch]; rfl
  length_lt := by rw [hbatch]; exact hpackets
  totalBytes_lt := by rw [htotal]; exact hbytes
  timer h := absurd hbatch h

/-- The parts of the state that being settled is about. -/
theorem Settled.congr (h : l.Settled s) (hbatch : s'.batch = s.batch)
    (htotal : s'.totalBytes = s.totalBytes)
    (htimer : s.timer.armed = true ∨ s.timer.tick = true →
      s'.timer.armed = true ∨ s'.timer.tick = true) : l.Settled s' where
  totalBytes_eq := by rw [htotal, hbatch, h.totalBytes_eq]
  length_lt := by rw [hbatch]; exact h.length_lt
  totalBytes_lt := by rw [htotal]; exact h.totalBytes_lt
  timer hne := htimer (h.timer (hbatch ▸ hne))

@[simp] theorem closed_flush (leaving : Bool) : (s.flush l drops leaving).closed = s.closed := by
  cases leaving <;> simp only [State.flush, State.leave, State.send] <;> split_ifs <;> rfl

@[simp] theorem closed_take (pkt : Bytes) : (s.take l drops pkt).closed = s.closed := by
  simp only [State.take]
  split_ifs
  · rw [closed_flush]
  · rw [closed_flush]
  · rfl
  · rfl

/-- A flush comes back to the `select` at once only for an empty batch. -/
theorem flush_pc {leaving : Bool} (h : (s.flush l drops leaving).pc = .select) :
    s.batch = [] ∧ s.flush l drops leaving = { s with pc := .select } := by
  unfold State.flush at h ⊢
  split_ifs at h ⊢ with hbatch hwaits
  · refine ⟨hbatch, ?_⟩
    cases leaving with
    | true => exact nomatch h
    | false => rfl
  · exact nomatch h

/-- Only a loop that waits for the connection comes to `load` or `asleep`. -/
theorem waits_of_flush {leaving leaving' : Bool}
    (h : (s.flush l drops leaving).pc = .load leaving' ∨
      (s.flush l drops leaving).pc = .asleep leaving') : l.waits = true := by
  unfold State.flush at h
  split_ifs at h with hbatch hwaits
  · cases leaving <;> rcases h with h | h <;> exact nomatch h
  · exact hwaits
  · rcases h with h | h <;> exact nomatch h

theorem flush_flushing (h : s.batch ≠ []) : Flushing (s.flush l drops false) s.batch := by
  unfold State.flush
  rw [if_neg h]
  split_ifs with hwaits
  · exact ⟨rfl, .inl rfl⟩
  · exact ⟨rfl, .inr rfl⟩

/-- A packet that stays in the batch: the batch and its count grow by it, below both limits, and the
timer is reset if it is the first. -/
theorem take_of_select {pkt : Bytes} (h : (s.take l drops pkt).pc = .select) :
    (s.take l drops pkt).batch = s.batch ++ [pkt] ∧
      (s.take l drops pkt).totalBytes = s.totalBytes + pkt.length ∧
      (s.batch ++ [pkt]).length < l.maxPackets ∧ s.totalBytes + pkt.length < l.maxBytes ∧
      (s.take l drops pkt).timer = if s.batch = [] then s.timer.reset drops else s.timer := by
  unfold State.take at h ⊢
  dsimp only at h ⊢
  by_cases hfull : l.maxPackets ≤ (s.batch ++ [pkt]).length ∨
      l.maxBytes ≤ s.totalBytes + pkt.length
  · rw [if_pos hfull] at h
    exact absurd (flush_pc h).1 (by simp)
  · have hlimits := not_or.mp hfull
    rw [if_neg hfull]
    refine ⟨?_, ?_, Nat.lt_of_not_le hlimits.1, Nat.lt_of_not_le hlimits.2, ?_⟩
    · split_ifs <;> rfl
    · split_ifs <;> rfl
    · have hfirst : (s.batch ++ [pkt]).length = 1 ↔ s.batch = [] := by simp
      simp only [hfirst]
      split_ifs <;> rfl

theorem Settled.take {pkt : Bytes} (h : l.Settled s)
    (hpc : (s.take l drops pkt).pc = .select) : l.Settled (s.take l drops pkt) := by
  obtain ⟨hbatch, htotal, hlength, hbytes, htimer⟩ := take_of_select hpc
  refine ⟨?_, hbatch ▸ hlength, htotal ▸ hbytes, fun _ => ?_⟩
  · rw [hbatch, htotal, totalBytes_append_singleton, h.totalBytes_eq]
  · rw [htimer]
    split_ifs with hnil
    · exact .inl rfl
    · exact h.timer hnil

/-! ### The invariant -/

/-- At the `select` the loop is settled, unless it waits for the connection in its flushes and the
context is closed. -/
structure Inv (l : BatchLoop) (s : State) : Prop where
  settled : s.pc = .select → (l.waits = true → s.closed = false) → l.Settled s
  waits : ∀ leaving, s.pc = .load leaving ∨ s.pc = .asleep leaving → l.waits = true

theorem inv_init (hpackets : 1 ≤ l.maxPackets) (hbytes : 1 ≤ l.maxBytes) : l.Inv {} where
  settled _ _ := .of_nil hpackets hbytes rfl rfl
  waits leaving h := by rcases h with h | h <;> exact nomatch h

/-- A flush keeps the invariant: it comes back to the `select` only with nothing in the batch. -/
theorem inv_flush {leaving : Bool} (hpackets : 1 ≤ l.maxPackets) (hbytes : 1 ≤ l.maxBytes)
    (hzero : s.batch = [] → (l.waits = true → s.closed = false) → s.totalBytes = 0) :
    l.Inv (s.flush l drops leaving) where
  settled hpc hclosed := by
    obtain ⟨hbatch, heq⟩ := flush_pc hpc
    rw [closed_flush] at hclosed
    rw [heq]
    exact .of_nil hpackets hbytes hbatch (hzero hbatch hclosed)
  waits _ := waits_of_flush

theorem Inv.take {pkt : Bytes} (h : l.Inv s) (hpc : s.pc = .select) :
    l.Inv (s.take l drops pkt) where
  settled hpc' hclosed := by
    rw [closed_take] at hclosed
    exact (h.settled hpc hclosed).take hpc'
  waits leaving hw := by
    unfold State.take at hw
    dsimp only at hw
    split_ifs at hw
    · exact waits_of_flush hw
    · exact waits_of_flush hw
    · rw [hpc] at hw
      rcases hw with hw | hw <;> exact nomatch hw
    · rw [hpc] at hw
      rcases hw with hw | hw <;> exact nomatch hw

/-- A loop that returns from a flush is settled if its batch is empty or it has given up. -/
theorem inv_leave {leaving : Bool} (hpackets : 1 ≤ l.maxPackets) (hbytes : 1 ≤ l.maxBytes)
    (hleft : s.batch = [] ∧ s.totalBytes = 0 ∨ l.waits = true ∧ s.closed = true) :
    l.Inv (s.leave drops leaving) := by
  cases leaving with
  | true =>
    refine ⟨(nomatch ·), fun _ h => ?_⟩
    rcases h with h | h <;> exact nomatch h
  | false =>
    refine ⟨fun _ hclosed => ?_, fun _ h => by rcases h with h | h <;> exact nomatch h⟩
    change l.waits = true → s.closed = false at hclosed
    rcases hleft with ⟨hbatch, htotal⟩ | ⟨hwaits, hclosed'⟩
    · exact .of_nil hpackets hbytes hbatch htotal
    · exact absurd hclosed' (by rw [hclosed hwaits]; exact Bool.false_ne_true)

theorem Inv.step {e : Event} (hpackets : 1 ≤ l.maxPackets) (hbytes : 1 ≤ l.maxBytes)
    (h : l.Inv s) (hstep : step l drops s e = some s') : l.Inv s' := by
  -- an empty batch at the `select` is counted as such
  have hzero (hpc : s.pc = .select) (hnil : s.batch = []) (hc : l.waits = true → s.closed = false) :
      s.totalBytes = 0 := by rw [(h.settled hpc hc).totalBytes_eq, hnil]; rfl
  cases e with
  | ctxDone =>
    obtain ⟨⟨hpc, -⟩, ⟨⟩⟩ := Option.ite_none_right_eq_some.mp hstep
    exact inv_flush hpackets hbytes (hzero hpc)
  | packet pkt =>
    obtain ⟨hpc, ⟨⟩⟩ := Option.ite_none_right_eq_some.mp hstep
    exact h.take hpc
  | queueClosed =>
    obtain ⟨hpc, ⟨⟩⟩ := Option.ite_none_right_eq_some.mp hstep
    exact inv_flush hpackets hbytes (hzero hpc)
  | tick =>
    simp only [BatchLoop.step] at hstep
    split_ifs at hstep with hpc
    obtain ⟨timer, -, rfl⟩ := Option.map_eq_some_iff.mp hstep
    exact inv_flush hpackets hbytes (hzero hpc)
  | loads =>
    simp only [BatchLoop.step] at hstep
    split at hstep
    · next leaving hpc =>
      have hwaits := h.waits leaving (.inl hpc)
      obtain rfl := Option.some.inj hstep
      split_ifs
      · exact ⟨(nomatch ·), fun _ _ => hwaits⟩
      · exact ⟨(nomatch ·), fun _ _ => hwaits⟩
    · exact nomatch hstep
  | wakes =>
    simp only [BatchLoop.step] at hstep
    split at hstep
    · next leaving hpc =>
      have hwaits := h.waits leaving (.inr hpc)
      obtain rfl := Option.some.inj hstep
      exact ⟨(nomatch ·), fun _ _ => hwaits⟩
    · exact nomatch hstep
  | givesUp =>
    simp only [BatchLoop.step] at hstep
    split at hstep
    · next leaving hpc =>
      obtain ⟨hclosed, ⟨⟩⟩ := Option.ite_none_right_eq_some.mp hstep
      exact inv_leave hpackets hbytes (.inr ⟨h.waits leaving (.inr hpc), hclosed⟩)
    · exact nomatch hstep
  | sendReturns =>
    simp only [BatchLoop.step] at hstep
    split at hstep
    · obtain rfl := Option.some.inj hstep
      exact inv_leave hpackets hbytes (.inl ⟨rfl, rfl⟩)
    · exact nomatch hstep
  | fires =>
    obtain ⟨timer, htimer, rfl⟩ := Option.map_eq_some_iff.mp hstep
    obtain ⟨-, rfl⟩ := Timer.fire_eq_some.mp htimer
    exact ⟨fun hpc hc => (h.settled hpc hc).congr rfl rfl fun _ => .inr rfl, h.waits⟩
  | connects connected =>
    obtain rfl := Option.some.inj hstep
    exact ⟨fun hpc hc => (h.settled hpc hc).congr rfl rfl id, h.waits⟩
  | closes =>
    obtain rfl := Option.some.inj hstep
    refine ⟨fun hpc hc => ?_, h.waits⟩
    exact (h.settled hpc fun hwaits => nomatch hc hwaits).congr rfl rfl id

theorem inv_of_reachable (hpackets : 1 ≤ l.maxPackets) (hbytes : 1 ≤ l.maxBytes)
    (h : (l.system drops).Reachable s) : l.Inv s :=
  h.invariant (inv_init hpackets hbytes) fun _ _ _ hs hstep => hs.step hpackets hbytes hstep

/-! ### No packet is lost or sent twice -/

theorem conserved_leave {leaving : Bool} (h : s.taken = s.sent.flatten ++ s.batch) :
    Conserved (s.leave drops leaving) := by
  cases leaving <;> exact h

theorem conserved_send {leaving : Bool} (h : s.taken = s.sent.flatten ++ s.batch) :
    Conserved (s.send leaving) := by
  show s.taken = (s.sent ++ [s.batch]).flatten ++ []
  rw [h, List.flatten_concat, List.append_nil]

theorem conserved_flush {leaving : Bool} (h : s.taken = s.sent.flatten ++ s.batch) :
    Conserved (s.flush l drops leaving) := by
  unfold State.flush
  split_ifs
  · exact conserved_leave h
  · exact h
  · exact conserved_send h

theorem conserved_take {pkt : Bytes} (hpc : s.pc = .select)
    (h : s.taken = s.sent.flatten ++ s.batch) : Conserved (s.take l drops pkt) := by
  have htaken : s.taken ++ [pkt] = s.sent.flatten ++ (s.batch ++ [pkt]) := by
    rw [h, List.append_assoc]
  unfold State.take
  dsimp only
  split_ifs
  · exact conserved_flush htaken
  · exact conserved_flush htaken
  · simpa only [Conserved, State.held, hpc] using htaken
  · simpa only [Conserved, State.held, hpc] using htaken

theorem Conserved.step {e : Event} (h : Conserved s) (hstep : step l drops s e = some s') :
    Conserved s' := by
  have hselect (hpc : s.pc = .select) : s.taken = s.sent.flatten ++ s.batch := by
    simpa only [Conserved, State.held, hpc] using h
  cases e with
  | ctxDone =>
    obtain ⟨⟨hpc, -⟩, ⟨⟩⟩ := Option.ite_none_right_eq_some.mp hstep
    exact conserved_flush (hselect hpc)
  | packet pkt =>
    obtain ⟨hpc, ⟨⟩⟩ := Option.ite_none_right_eq_some.mp hstep
    exact conserved_take hpc (hselect hpc)
  | queueClosed =>
    obtain ⟨hpc, ⟨⟩⟩ := Option.ite_none_right_eq_some.mp hstep
    exact conserved_flush (hselect hpc)
  | tick =>
    simp only [BatchLoop.step] at hstep
    split_ifs at hstep with hpc
    obtain ⟨timer, -, rfl⟩ := Option.map_eq_some_iff.mp hstep
    exact conserved_flush (hselect hpc)
  | loads =>
    simp only [BatchLoop.step] at hstep
    split at hstep
    · next leaving hpc =>
      have hload : s.taken = s.sent.flatten ++ s.batch := by
        simpa only [Conserved, State.held, hpc] using h
      obtain rfl := Option.some.inj hstep
      split_ifs
      · exact conserved_send hload
      · exact hload
    · exact nomatch hstep
  | wakes =>
    simp only [BatchLoop.step] at hstep
    split at hstep
    · next leaving hpc =>
      obtain rfl := Option.some.inj hstep
      simpa only [Conserved, State.held, hpc] using h
    · exact nomatch hstep
  | givesUp =>
    simp only [BatchLoop.step] at hstep
    split at hstep
    · next leaving hpc =>
      obtain ⟨-, ⟨⟩⟩ := Option.ite_none_right_eq_some.mp hstep
      exact conserved_leave (by simpa only [Conserved, State.held, hpc] using h)
    · exact nomatch hstep
  | sendReturns =>
    simp only [BatchLoop.step] at hstep
    split at hstep
    · next leaving hpc =>
      obtain rfl := Option.some.inj hstep
      exact conserved_leave (by simpa only [Conserved, State.held, hpc] using h)
    · exact nomatch hstep
  | fires =>
    obtain ⟨timer, -, rfl⟩ := Option.map_eq_some_iff.mp hstep
    exact h
  | connects connected =>
    obtain rfl := Option.some.inj hstep
    exact h
  | closes =>
    obtain rfl := Option.some.inj hstep
    exact h

theorem conserved_of_reachable (h : (l.system drops).Reachable s) : Conserved s := by
  have hinit : Conserved (l.system drops).init := rfl
  exact h.invariant hinit fun _ _ _ hs hstep => Conserved.step hs hstep

/-! ### The loops -/

/-- A settled loop is flushed by its timer. -/
theorem Settled.flushes (h : l.Settled s) (hpc : s.pc = .select) (hne : s.batch ≠ []) :
    l.Flushes drops s := by
  -- the tick is received, in the state in which it waits
  have htick (t : State) (hpc : t.pc = .select) (hne : t.batch ≠ []) (ht : t.timer.tick = true) :
      ∃ u, step l drops t .tick = some u ∧ Flushing u t.batch := by
    refine ⟨State.flush l drops { t with timer := { t.timer with tick := false } } false, ?_,
      flush_flushing (s := { t with timer := { t.timer with tick := false } }) hne⟩
    show (if t.pc = .select then t.timer.receive.map _ else none) = _
    rw [if_pos hpc, Timer.receive_eq_some.mpr ⟨ht, rfl⟩]
    rfl
  rcases h.timer hne with harmed | hwaiting
  · obtain ⟨u, hu, hflushing⟩ := htick { s with timer := { tick := true } } hpc hne rfl
    refine ⟨[.fires, .tick], u, .inr rfl, ?_, hflushing⟩
    refine run_cons_eq_some.mpr ⟨_, ?_, run_cons_eq_some.mpr ⟨u, hu, rfl⟩⟩
    show s.timer.fire.map _ = _
    rw [Timer.fire_eq_some.mpr ⟨harmed, rfl⟩]
    rfl
  · obtain ⟨u, hu, hflushing⟩ := htick s hpc hne hwaiting
    exact ⟨[.tick], u, .inl rfl, run_cons_eq_some.mpr ⟨u, hu, rfl⟩, hflushing⟩

/-- **Every packet in a batch will be flushed**: whenever a relay worker is at its `select`, and
whenever a `sendLoop` is at it and its context is not closed, its byte count is the sum of the
lengths in its batch, its batch is below both limits, and the timer of a batch that is not empty is
running or has a tick waiting, so that the timer alone leads to the flush of the whole batch. -/
theorem settled_of_select (drops : Bool) :
    (∀ cfg : Volga.Config, 1 ≤ cfg.batchSize → 1 ≤ cfg.batchMaxBytes →
      ∀ s, ((Volga.worker cfg).system drops).Reachable s → s.pc = .select →
        (Volga.worker cfg).Settled s ∧ (s.batch ≠ [] → (Volga.worker cfg).Flushes drops s)) ∧
    (∀ cfg : Cupsonline.Config, 1 ≤ cfg.batchMaxPackets → 1 ≤ cfg.batchMaxBytes →
      ∀ s, ((Cupsonline.sendLoop cfg).system drops).Reachable s → s.pc = .select →
        s.closed = false →
        (Cupsonline.sendLoop cfg).Settled s ∧
          (s.batch ≠ [] → (Cupsonline.sendLoop cfg).Flushes drops s)) := by
  constructor
  · intro cfg hpackets hbytes s hs hpc
    have hsettled := (inv_of_reachable hpackets hbytes hs).settled hpc fun h => nomatch h
    exact ⟨hsettled, hsettled.flushes hpc⟩
  · intro cfg hpackets hbytes s hs hpc hclosed
    have hsettled := (inv_of_reachable hpackets hbytes hs).settled hpc fun _ => hclosed
    exact ⟨hsettled, hsettled.flushes hpc⟩

/-- A packet of two bytes waits for its timer in a worker, and has seen it fire in a room. -/
theorem settled_of_select_default :
    (Volga.worker .default).Flushes false
        { batch := [[1, 2]], totalBytes := 2, timer := { armed := true }, taken := [[1, 2]] } ∧
      (Cupsonline.sendLoop .default).Settled
        { batch := [[1, 2]], totalBytes := 2, timer := { tick := true }, taken := [[1, 2]] } := by
  have hworker := (settled_of_select false).1 .default (by decide) (by decide) _
    ⟨[.packet [1, 2]], rfl⟩ rfl
  have hloop := (settled_of_select true).2 .default (by decide) (by decide) _
    ⟨[.packet [1, 2], .fires], rfl⟩ rfl rfl
  exact ⟨hworker.2 (List.cons_ne_nil _ _), hloop.1⟩

end OpenFlux.Transport.BatchLoop
