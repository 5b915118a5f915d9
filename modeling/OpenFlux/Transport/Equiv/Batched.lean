import Mathlib.Logic.Relation
import OpenFlux.Transport.Batched
import OpenFlux.Transport.Equiv.Framing

/-!
# Correctness of the batching layer

The packets of a run are always in one line: what the peer's user callback has been handed, what
its callback loop still holds, what is in the messages on the wire, what the flush loop holds and
what is queued, in this order, are the accepted packets.  Each step moves packets along this line
and nothing else (`flushStep_spec` for the loop).  The sender's half holds with no condition
(`Inv.line`); the peer's half needs the batches to decode to themselves, which they do as long as
every packet fits a 16-bit length and every batch the decoder (`Bounded`, `Inv.stream`).

`Inv` also says what every emitted batch looks like (`WellBatched`), and what holds with no
condition on the packets at all: whatever the peer hands over has at most 65535 bytes.

`exists_quiescent` is the progress half: from every reachable state, without further `Send`s, the
layer runs to a state in which nothing is queued, held or in flight.
-/

namespace OpenFlux.Transport.Batched

/-! ### The history of `Send` -/

@[simp] theorem accepted_append (cs ds : List (Bytes × Except String Unit)) :
    accepted (cs ++ ds) = accepted cs ++ accepted ds := by
  simp [accepted]

@[simp] theorem accepted_ok (p : Bytes) : accepted [(p, .ok ())] = [p] := rfl

@[simp] theorem accepted_error (p : Bytes) (e : String) : accepted [(p, .error e)] = [] := rfl

/-- The accepted packets, with the result of their call, are a sublist of the history. -/
theorem accepted_map_sublist (cs : List (Bytes × Except String Unit)) :
    ((accepted cs).map fun p => (p, .ok ())).Sublist cs := by
  induction cs with
  | nil => exact .slnil
  | cons c cs ih =>
    obtain ⟨p, r⟩ := c
    match r with
    | .ok () => exact ih.cons_cons _
    | .error e => exact ih.cons _

/-! ### The batches -/

/-- What the loop's conditions guarantee of a batch: it is not empty, holds at most
`maxBatchCount` packets and was below `maxBatchBytes` before its last packet. -/
structure WellBatched (cfg : Config) (batch : List Bytes) : Prop where
  ne_nil : batch ≠ []
  length_le : batch.length ≤ cfg.maxBatchCount
  dropLast_lt : framedSize batch.dropLast < cfg.maxBatchBytes

theorem WellBatched.singleton (cfg : Config) (p : Bytes) : WellBatched cfg [p] where
  ne_nil := by simp
  length_le := cfg.maxBatchCount_pos
  dropLast_lt := cfg.maxBatchBytes_pos

theorem WellBatched.append {cfg : Config} {batch : List Bytes}
    (hroom : cfg.room batch (framedSize batch) = true) (p : Bytes) :
    WellBatched cfg (batch ++ [p]) := by
  simp only [Config.room, Bool.and_eq_true, decide_eq_true_eq] at hroom
  refine ⟨by simp, ?_, ?_⟩
  · rw [List.length_append, List.length_singleton]; omega
  · rw [List.dropLast_concat]; exact hroom.1

/-- The framed size of a batch exceeds `maxBatchBytes` by less than one record. -/
theorem WellBatched.framedSize_lt {cfg : Config} {batch : List Bytes} (h : WellBatched cfg batch)
    {n : ℕ} (hn : ∀ p ∈ batch, p.length ≤ n) : framedSize batch < cfg.maxBatchBytes + (2 + n) := by
  have hlast := hn _ (List.getLast_mem h.ne_nil)
  have hlt := h.dropLast_lt
  rw [← List.dropLast_append_getLast h.ne_nil, framedSize_append_singleton]
  omega

/-- The loop's local variables agree with each other at every program counter. -/
def PcInv (cfg : Config) : FlushPc → Prop
  | .drain batch size | .linger batch size => WellBatched cfg batch ∧ size = framedSize batch
  | .emit batch => WellBatched cfg batch
  | .top | .first | .inSend | .done => True

theorem pcInv_afterDrain {cfg : Config} {batch : List Bytes} (h : WellBatched cfg batch) :
    PcInv cfg (afterDrain cfg batch (framedSize batch)) := by
  unfold afterDrain
  split_ifs
  · exact ⟨h, rfl⟩
  · exact h

theorem batch_afterDrain (cfg : Config) (batch : List Bytes) (size : ℕ) :
    (afterDrain cfg batch size).batch = batch := by
  unfold afterDrain
  split_ifs <;> rfl

theorem afterDrain_ne_done (cfg : Config) (batch : List Bytes) (size : ℕ) :
    afterDrain cfg batch size ≠ .done := by
  unfold afterDrain
  split_ifs <;> simp

/-- **What a step of the flush loop does**: it moves packets from the queue to the batch, or
passes the batch on; it does not return while the layer is running. -/
theorem flushStep_spec {z : Zstd} {cfg : Config} {running timer : Bool} {queue queue' : List Bytes}
    {pc pc' : FlushPc} {msg : Option Bytes} (hpc : PcInv cfg pc)
    (h : flushStep z cfg running timer queue pc = some (pc', queue', msg)) :
    PcInv cfg pc' ∧ (running = true → pc' ≠ .done) ∧
      ((msg = none ∧ pc'.batch ++ queue' = pc.batch ++ queue) ∨
        (msg = some (encodeBatch z pc.batch) ∧ WellBatched cfg pc.batch ∧ pc' = .inSend ∧
          queue' = queue)) := by
  cases pc with
  | top =>
    cases h
    cases running <;> exact ⟨trivial, by simp, .inl ⟨rfl, rfl⟩⟩
  | first =>
    cases queue with
    | nil => cases h
    | cons p queue =>
      cases h
      exact ⟨⟨.singleton cfg p, by simp [framedSize]⟩, by simp, .inl ⟨rfl, rfl⟩⟩
  | drain batch size =>
    obtain ⟨hb, rfl⟩ := hpc
    have hdrained : PcInv cfg (afterDrain cfg batch (framedSize batch)) ∧
        (running = true → afterDrain cfg batch (framedSize batch) ≠ .done) :=
      ⟨pcInv_afterDrain hb, fun _ => afterDrain_ne_done cfg batch _⟩
    by_cases hroom : cfg.room batch (framedSize batch) = true
    · simp only [flushStep, if_pos hroom] at h
      cases queue with
      | nil =>
        cases h
        exact ⟨hdrained.1, hdrained.2, .inl ⟨rfl, by rw [batch_afterDrain]; rfl⟩⟩
      | cons p queue =>
        cases h
        refine ⟨⟨.append hroom p, by simp⟩, by simp, .inl ⟨rfl, ?_⟩⟩
        simp [FlushPc.batch]
    · simp only [flushStep, if_neg hroom] at h
      cases h
      exact ⟨hdrained.1, hdrained.2, .inl ⟨rfl, by rw [batch_afterDrain]; rfl⟩⟩
  | linger batch size =>
    obtain ⟨hb, rfl⟩ := hpc
    by_cases hroom : cfg.room batch (framedSize batch) = true
    · simp only [flushStep, if_pos hroom] at h
      cases timer with
      | true =>
        cases h
        exact ⟨hb, by simp, .inl ⟨rfl, rfl⟩⟩
      | false =>
        cases queue with
        | nil => cases h
        | cons p queue =>
          cases h
          refine ⟨⟨.append hroom p, by simp⟩, by simp, .inl ⟨rfl, ?_⟩⟩
          simp [FlushPc.batch]
    · simp only [flushStep, if_neg hroom] at h
      cases h
      exact ⟨hb, by simp, .inl ⟨rfl, rfl⟩⟩
  | emit batch =>
    cases h
    exact ⟨trivial, by simp, .inr ⟨rfl, hpc, rfl, rfl⟩⟩
  | inSend =>
    cases h
    exact ⟨trivial, by simp, .inl ⟨rfl, rfl⟩⟩
  | done => cases h

/-! ### Steps of the system -/

/-- What a step of the flush loop does to the state: packets move from the queue to the batch,
or the batch moves to the wire. -/
theorem State.flush_spec {z : Zstd} {cfg : Config} {inner : InnerSend} {timer : Bool}
    {s s' : State} (hpc : PcInv cfg s.pc) (h : s.flush z cfg inner timer = some s') :
    PcInv cfg s'.pc ∧ s'.pc ≠ .done ∧ (s.pc = .inSend → s.sendReturns inner = true) ∧
      ((∃ pc queue, s' = { s with pc, queue } ∧ pc.batch ++ queue = s.pc.batch ++ s.queue) ∨
        (WellBatched cfg s.pc.batch ∧
          s' = { s with
            pc := .inSend
            wire := s.wire ++ [encodeBatch z s.pc.batch]
            emitted := s.emitted ++ [s.pc.batch] })) := by
  unfold State.flush at h
  split_ifs at h with hret
  have hreturns : s.pc = .inSend → s.sendReturns inner = true := by
    intro hin
    by_contra hno
    exact hret ⟨hin, by simpa using hno⟩
  cases hstep : flushStep z cfg true timer s.queue s.pc with
  | none => simp [hstep] at h
  | some r =>
    obtain ⟨pc, queue, msg⟩ := r
    obtain ⟨hpc', hrun, ⟨rfl, hmove⟩ | ⟨rfl, hb, rfl, rfl⟩⟩ := flushStep_spec hpc hstep
    · simp only [hstep, Option.some.injEq] at h
      subst h
      exact ⟨hpc', hrun rfl, hreturns, .inl ⟨pc, queue, rfl, hmove⟩⟩
    · simp only [hstep, Option.some.injEq] at h
      subst h
      exact ⟨hpc', hrun rfl, hreturns, .inr ⟨hb, rfl⟩⟩

/-- What a delivery does to the state: the oldest message is decoded, or dropped. -/
theorem State.receive_spec {z : Zstd} {s s' : State} (h : s.receive z = some s') :
    s.handing = [] ∧ ∃ m wire, s.wire = m :: wire ∧
      ((∃ pkts, decodeBatch z m = .ok pkts ∧ s' = { s with wire, handing := pkts }) ∨
        ((∃ err, decodeBatch z m = .error err) ∧ s' = { s with wire })) := by
  obtain ⟨queue, pc, wire, handing, delivered, calls, emitted⟩ := s
  cases handing with
  | cons p ps => simp [State.receive] at h
  | nil =>
    cases wire with
    | nil => simp [State.receive] at h
    | cons m wire =>
      refine ⟨rfl, m, wire, rfl, ?_⟩
      cases hdec : decodeBatch z m with
      | ok pkts =>
        simp only [State.receive, hdec, Option.some.injEq] at h
        exact .inl ⟨pkts, rfl, h.symm⟩
      | error err =>
        simp only [State.receive, hdec, Option.some.injEq] at h
        exact .inr ⟨⟨err, rfl⟩, h.symm⟩

/-- What a call of the user callback does to the state. -/
theorem State.hand_spec {s s' : State} (h : s.hand = some s') :
    ∃ p handing, s.handing = p :: handing ∧
      s' = { s with handing, delivered := s.delivered ++ [p] } := by
  obtain ⟨queue, pc, wire, handing, delivered, calls, emitted⟩ := s
  cases handing with
  | nil => simp [State.hand] at h
  | cons p ps =>
    simp only [State.hand, Option.some.injEq] at h
    exact ⟨p, ps, rfl, h.symm⟩

/-- `Send` adds to the queue what it adds to the accepted packets. -/
theorem State.send_spec (s : State) (data : Bytes) :
    (∃ r, (s.send data).calls = s.calls ++ [(data, r)]) ∧
      ∃ new, (s.send data).queue = s.queue ++ new ∧
        accepted (s.send data).calls = accepted s.calls ++ new := by
  unfold State.send Batched.send
  split_ifs
  · exact ⟨⟨_, rfl⟩, [data], rfl, by simp⟩
  · exact ⟨⟨_, rfl⟩, [], by simp, by simp⟩

/-! ### The invariant -/

/-- The batches emitted so far fit the format and the decoder. -/
def Bounded (limit : ℕ) (s : State) : Prop :=
  ∀ b ∈ s.emitted, (∀ p ∈ b, p.length ≤ 65535) ∧ framedSize b ≤ limit

/-- The invariant of the system. -/
structure Inv (z : Zstd) (cfg : Config) (inner : InnerSend) (limit : ℕ) (s : State) : Prop where
  pc : PcInv cfg s.pc
  running : s.pc ≠ .done
  emitted : ∀ b ∈ s.emitted, WellBatched cfg b
  /-- With a synchronous inner transport nothing is in flight outside its `Send`. -/
  sync : inner = .onSend → s.pc ≠ .inSend → s.wire = [] ∧ s.handing = []
  /-- What is handed over has come out of `decodeBatch`. -/
  short : ∀ p ∈ s.delivered ++ s.handing, p.length ≤ 65535
  /-- The sender's half of the line. -/
  line : accepted s.calls = s.emitted.flatten ++ s.pc.batch ++ s.queue
  /-- The peer's half: the last batches emitted are on the wire, the others handed over. -/
  stream : Bounded limit s → ∃ past bs : List (List Bytes), s.emitted = past ++ bs ∧
    past.flatten = s.delivered ++ s.handing ∧ s.wire = bs.map (encodeBatch z)

variable {z : Zstd} {cfg : Config} {inner : InnerSend} {limit : ℕ}

theorem inv_init : Inv z cfg inner limit (system z cfg inner).init where
  pc := trivial
  running := by simp [system]
  emitted _ hb := by cases hb
  sync _ _ := ⟨rfl, rfl⟩
  short _ hp := by cases hp
  line := rfl
  stream _ := ⟨[], [], rfl, rfl, rfl⟩

theorem inv_send {s : State} (hs : Inv z cfg inner limit s) (data : Bytes) :
    Inv z cfg inner limit (s.send data) where
  pc := hs.pc
  running := hs.running
  emitted := hs.emitted
  sync := hs.sync
  short := hs.short
  line := by
    obtain ⟨-, new, hqueue, haccepted⟩ := s.send_spec data
    rw [haccepted, hs.line, hqueue, List.append_assoc]
    rfl
  stream := hs.stream

theorem inv_flush {s s' : State} {timer : Bool} (hs : Inv z cfg inner limit s)
    (h : s.flush z cfg inner timer = some s') : Inv z cfg inner limit s' := by
  obtain ⟨hpc', hrun, hreturns, ⟨pc, queue, rfl, hmove⟩ | ⟨hb, rfl⟩⟩ := State.flush_spec hs.pc h
  · refine ⟨hpc', hrun, hs.emitted, ?_, hs.short, ?_, hs.stream⟩
    · intro hinner _
      by_cases hin : s.pc = .inSend
      · have hret := hreturns hin
        simpa [State.sendReturns, hinner] using hret
      · exact hs.sync hinner hin
    · show accepted s.calls = _
      rw [hs.line, List.append_assoc, ← hmove, ← List.append_assoc]
  · refine ⟨hpc', hrun, ?_, fun _ hin => absurd rfl hin, hs.short, ?_, ?_⟩
    · intro b hbmem
      rcases List.mem_append.mp hbmem with hold | hnew
      · exact hs.emitted b hold
      · exact List.mem_singleton.mp hnew ▸ hb
    · show accepted s.calls = _
      rw [hs.line]
      simp [FlushPc.batch]
    · intro hbound
      obtain ⟨past, bs, hemitted, hpast, hwire⟩ :=
        hs.stream fun b hb => hbound b (List.mem_append_left _ hb)
      exact ⟨past, bs ++ [s.pc.batch], by simp [hemitted], hpast, by simp [hwire]⟩

theorem inv_receive (hz : z.Inverts limit) {s s' : State} (hs : Inv z cfg inner limit s)
    (h : s.receive z = some s') : Inv z cfg inner limit s' := by
  obtain ⟨hhanding, m, wire, hwire, hcase⟩ := State.receive_spec h
  have hsync : inner = .onSend → s.pc ≠ .inSend → False := by
    intro hinner hin
    have := (hs.sync hinner hin).1
    rw [hwire] at this
    cases this
  -- a bounded run decodes the message to the batch it was encoded from
  have hdecode : Bounded limit s → ∃ (past bs : List (List Bytes)) (b : List Bytes),
      decodeBatch z m = .ok b ∧ s.emitted = (past ++ [b]) ++ bs ∧
        (past ++ [b]).flatten = s.delivered ++ b ∧ wire = bs.map (encodeBatch z) := by
    intro hbound
    obtain ⟨past, bs, hemitted, hpast, hbs⟩ := hs.stream hbound
    rw [hwire] at hbs
    obtain ⟨b, bs, rfl, rfl, rfl⟩ := List.map_eq_cons_iff.mp hbs.symm
    have hfits := hbound b (by rw [hemitted]; simp)
    rw [hhanding, List.append_nil] at hpast
    exact ⟨past, bs, b, decodeBatch_encodeBatch hz hfits.1 hfits.2, by simp [hemitted],
      by simp [hpast], rfl⟩
  rcases hcase with ⟨pkts, hok, rfl⟩ | ⟨⟨err, herr⟩, rfl⟩
  · refine ⟨hs.pc, hs.running, hs.emitted, fun hinner hin => (hsync hinner hin).elim, ?_, hs.line,
      ?_⟩
    · intro p hp
      rcases List.mem_append.mp hp with hold | hnew
      · exact hs.short p (List.mem_append_left _ hold)
      · exact ((decodeBatch_eq_ok_iff z m pkts).mp hok).2.2 p hnew
    · intro hbound
      obtain ⟨past, bs, b, hb, hemitted, hpast, hrest⟩ := hdecode hbound
      rw [hok] at hb
      cases hb
      exact ⟨past ++ [pkts], bs, hemitted, hpast, hrest⟩
  · refine ⟨hs.pc, hs.running, hs.emitted, fun hinner hin => (hsync hinner hin).elim, hs.short,
      hs.line, ?_⟩
    intro hbound
    obtain ⟨past, bs, b, hb, -⟩ := hdecode hbound
    rw [herr] at hb
    cases hb

theorem inv_hand {s s' : State} (hs : Inv z cfg inner limit s) (h : s.hand = some s') :
    Inv z cfg inner limit s' := by
  obtain ⟨p, handing, hhanding, rfl⟩ := State.hand_spec h
  have hmove : s.delivered ++ [p] ++ handing = s.delivered ++ s.handing := by
    rw [hhanding, List.append_assoc]
    rfl
  refine ⟨hs.pc, hs.running, hs.emitted, ?_, ?_, hs.line, ?_⟩
  · intro hinner hin
    have := (hs.sync hinner hin).2
    rw [hhanding] at this
    cases this
  · intro q hq
    rw [hmove] at hq
    exact hs.short q hq
  · intro hbound
    obtain ⟨past, bs, hemitted, hpast, hwire⟩ := hs.stream hbound
    exact ⟨past, bs, hemitted, hpast.trans hmove.symm, hwire⟩

/-- **The invariant holds in every reachable state.** -/
theorem inv_reachable (hz : z.Inverts limit) {s : State} (h : (system z cfg inner).Reachable s) :
    Inv z cfg inner limit s := by
  refine EventSystem.Reachable.invariant inv_init ?_ h
  intro s e s' hs hstep
  cases e with
  | send data => exact Option.some.inj hstep ▸ inv_send hs data
  | flush timer => exact inv_flush hs hstep
  | receive => exact inv_receive hz hs hstep
  | hand => exact inv_hand hs hstep

/-! ### Progress -/

/-- Nothing is queued, held by a loop or in flight, and the flush loop waits for a packet. -/
def Quiescent (s : State) : Prop :=
  s.queue = [] ∧ s.pc = .first ∧ s.wire = [] ∧ s.handing = []

variable (z cfg inner) in
/-- A step other than a `Send`. -/
def Internal (s s' : State) : Prop :=
  (∃ timer, s.flush z cfg inner timer = some s') ∨ s.receive z = some s' ∨ s.hand = some s'

variable (z cfg inner) in
/-- `s'` is reached from `s` without further `Send`s. -/
abbrev Drains : State → State → Prop := Relation.ReflTransGen (Internal z cfg inner)

theorem reachable_of_drains {s s' : State} (h : (system z cfg inner).Reachable s)
    (hd : Drains z cfg inner s s') : (system z cfg inner).Reachable s' := by
  induction hd with
  | refl => exact h
  | tail _ hstep ih =>
    rcases hstep with ⟨timer, hflush⟩ | hreceive | hhand
    · exact EventSystem.Reachable.step (e := .flush timer) ih hflush
    · exact EventSystem.Reachable.step (e := .receive) ih hreceive
    · exact EventSystem.Reachable.step (e := .hand) ih hhand

variable (z cfg inner) in
/-- The peer's callback loop can finish. -/
theorem exists_drains_hand (s : State) : ∃ s', Drains z cfg inner s s' ∧
    s'.handing = [] ∧ s'.wire = s.wire ∧ s'.queue = s.queue ∧ s'.pc = s.pc ∧
      s'.calls = s.calls := by
  obtain ⟨n, hn⟩ : ∃ n, s.handing.length = n := ⟨_, rfl⟩
  induction n generalizing s with
  | zero => exact ⟨s, .refl, List.length_eq_zero_iff.mp hn, rfl, rfl, rfl, rfl⟩
  | succ n ih =>
    obtain ⟨p, handing, hhanding⟩ := List.exists_cons_of_length_eq_add_one hn
    have hstep : s.hand = some { s with handing, delivered := s.delivered ++ [p] } := by
      simp only [State.hand, hhanding]
    obtain ⟨s', hs', hrest⟩ := ih { s with handing, delivered := s.delivered ++ [p] }
      (by rw [hhanding] at hn; exact Nat.succ.inj hn)
    exact ⟨s', .head (.inr (.inr hstep)) hs', hrest⟩

/-- The peer's callback, when it is idle, takes the oldest message. -/
theorem exists_receive {s : State} {m : Bytes} {wire : List Bytes} (hhanding : s.handing = [])
    (hwire : s.wire = m :: wire) : ∃ u, s.receive z = some u ∧ u.wire = wire ∧
      u.queue = s.queue ∧ u.pc = s.pc ∧ u.calls = s.calls := by
  obtain ⟨queue, pc, _, _, delivered, calls, emitted⟩ := s
  cases hhanding
  cases hwire
  cases hdec : decodeBatch z m with
  | ok pkts =>
    exact ⟨{ queue, pc, wire, handing := pkts, delivered, calls, emitted },
      by simp only [State.receive, hdec], rfl, rfl, rfl, rfl⟩
  | error err =>
    exact ⟨{ queue, pc, wire, handing := [], delivered, calls, emitted },
      by simp only [State.receive, hdec], rfl, rfl, rfl, rfl⟩

/-- Everything in flight can be delivered and handed over. -/
theorem exists_drains_deliver (s : State) : ∃ s', Drains z cfg inner s s' ∧
    s'.handing = [] ∧ s'.wire = [] ∧ s'.queue = s.queue ∧ s'.pc = s.pc ∧ s'.calls = s.calls := by
  obtain ⟨n, hn⟩ : ∃ n, s.wire.length = n := ⟨_, rfl⟩
  induction n generalizing s with
  | zero =>
    obtain ⟨s', hs', h1, h2, h3⟩ := exists_drains_hand z cfg inner s
    exact ⟨s', hs', h1, h2.trans (List.length_eq_zero_iff.mp hn), h3⟩
  | succ n ih =>
    obtain ⟨t, ht, h1, h2, h3, h4, h5⟩ := exists_drains_hand z cfg inner s
    obtain ⟨m, wire, hwire⟩ := List.exists_cons_of_length_eq_add_one (h2 ▸ hn)
    have hlen : wire.length = n := by
      have := congrArg List.length (h2.symm.trans hwire)
      rw [hn, List.length_cons] at this
      omega
    obtain ⟨u, hu, hu1, hu2, hu3, hu4⟩ := exists_receive (z := z) h1 hwire
    obtain ⟨s', hs', h1', h2', h3', h4', h5'⟩ := ih u (by rw [hu1, hlen])
    exact ⟨s', ht.trans (.head (.inr (.inl hu)) hs'), h1', h2', h3'.trans (hu2.trans h3),
      h4'.trans (hu3.trans h4), h5'.trans (hu4.trans h5)⟩

/-- How far the flush loop is from waiting for a packet again, for one packet. -/
def FlushPc.rank : FlushPc → ℕ
  | .first => 0
  | .top => 1
  | .inSend => 2
  | .emit _ => 3
  | .linger _ _ => 4
  | .drain _ _ => 5
  | .done => 6

theorem rank_afterDrain_lt (cfg : Config) (batch : List Bytes) (size : ℕ) :
    (afterDrain cfg batch size).rank < 5 := by
  unfold afterDrain
  split_ifs <;> simp [FlushPc.rank]

/-- Unless it waits for a packet, the flush loop of a running layer has a step towards doing so:
each step takes a packet from the queue or lowers the rank. -/
theorem flushStep_progress (z : Zstd) (cfg : Config) {queue : List Bytes} {pc : FlushPc}
    (hdone : pc ≠ .done) (hwait : ¬ (queue = [] ∧ pc = .first)) : ∃ pc' queue' msg,
      flushStep z cfg true true queue pc = some (pc', queue', msg) ∧ pc' ≠ .done ∧
        8 * queue'.length + pc'.rank < 8 * queue.length + pc.rank := by
  cases pc with
  | top => exact ⟨_, _, _, rfl, by simp, by simp [FlushPc.rank]⟩
  | first =>
    cases queue with
    | nil => exact absurd ⟨rfl, rfl⟩ hwait
    | cons p queue =>
      refine ⟨_, _, _, rfl, by simp, ?_⟩
      simp only [FlushPc.rank, List.length_cons]
      omega
  | drain batch size =>
    have hrank := rank_afterDrain_lt cfg batch size
    have hne := afterDrain_ne_done cfg batch size
    by_cases hroom : cfg.room batch size = true
    · simp only [flushStep, if_pos hroom]
      cases queue with
      | nil => exact ⟨_, _, _, rfl, hne, Nat.add_lt_add_left hrank _⟩
      | cons p queue =>
        refine ⟨_, _, _, rfl, by simp, ?_⟩
        simp only [FlushPc.rank, List.length_cons]
        omega
    · simp only [flushStep, if_neg hroom]
      exact ⟨_, _, _, rfl, hne, Nat.add_lt_add_left hrank _⟩
  | linger batch size =>
    refine ⟨.emit batch, queue, none, ?_, by simp, by simp [FlushPc.rank]⟩
    simp [flushStep]
  | emit batch => exact ⟨_, _, _, rfl, by simp, by simp [FlushPc.rank]⟩
  | inSend => exact ⟨_, _, _, rfl, by simp, by simp [FlushPc.rank]⟩
  | done => exact absurd rfl hdone

/-- **Progress**: without further `Send`s, the layer can run to a state in which nothing is
queued, held or in flight. -/
theorem exists_quiescent (hz : z.Inverts limit) {s : State}
    (h : (system z cfg inner).Reachable s) :
    ∃ s', Drains z cfg inner s s' ∧ Quiescent s' ∧ s'.calls = s.calls := by
  obtain ⟨n, hn⟩ : ∃ n, 8 * s.queue.length + s.pc.rank = n := ⟨_, rfl⟩
  induction n using Nat.strong_induction_on generalizing s with
  | _ n ih =>
  obtain ⟨t, hdrains, hhanding, hwire, hqueue, hpc, hcalls⟩ := exists_drains_deliver s
  have ht := reachable_of_drains h hdrains
  by_cases hwait : t.queue = [] ∧ t.pc = .first
  · exact ⟨t, hdrains, ⟨hwait.1, hwait.2, hwire, hhanding⟩, hcalls⟩
  · obtain ⟨pc, queue, msg, hstep, -, hlt⟩ :=
      flushStep_progress z cfg (inv_reachable hz ht).running hwait
    have hreturns : t.sendReturns inner = true := by
      cases inner <;> simp [State.sendReturns, hwire, hhanding]
    obtain ⟨u, hu, huq, hup, huc⟩ : ∃ u, t.flush z cfg inner true = some u ∧ u.queue = queue ∧
        u.pc = pc ∧ u.calls = t.calls := by
      unfold State.flush
      rw [if_neg (by simp [hreturns]), hstep]
      cases msg with
      | none => exact ⟨_, rfl, rfl, rfl, rfl⟩
      | some m => exact ⟨_, rfl, rfl, rfl, rfl⟩
    rw [hqueue, hpc, hn, ← huq, ← hup] at hlt
    obtain ⟨s', hs', hquiet, hc⟩ := ih _ hlt (ht.step (e := .flush true) hu) rfl
    exact ⟨s', hdrains.trans (.head (.inl ⟨true, hu⟩) hs'), hquiet, hc.trans (huc.trans hcalls)⟩

/-! ### The stream -/

/-- The batches emitted are made of accepted packets. -/
theorem Inv.mem_accepted {s : State} (hs : Inv z cfg inner limit s) {b : List Bytes}
    (hb : b ∈ s.emitted) {p : Bytes} (hp : p ∈ b) : p ∈ accepted s.calls := by
  rw [hs.line, List.append_assoc]
  exact List.mem_append_left _ (List.mem_flatten.mpr ⟨b, hb, hp⟩)

/-- In a bounded run the line from the peer's callback to the queue is the accepted packets. -/
theorem Inv.exists_line {s : State} (hs : Inv z cfg inner limit s) (hbound : Bounded limit s) :
    ∃ bs : List (List Bytes), s.wire = bs.map (encodeBatch z) ∧
      accepted s.calls = s.delivered ++ (s.handing ++ bs.flatten ++ s.pc.batch ++ s.queue) := by
  obtain ⟨past, bs, hemitted, hpast, hwire⟩ := hs.stream hbound
  refine ⟨bs, hwire, ?_⟩
  rw [hs.line, hemitted, List.flatten_append, hpast]
  simp only [List.append_assoc]

/-- Once nothing is queued, held or in flight, everything accepted has been handed over. -/
theorem Inv.delivered_eq {s : State} (hs : Inv z cfg inner limit s) (hbound : Bounded limit s)
    (hquiet : Quiescent s) : s.delivered = accepted s.calls := by
  obtain ⟨hqueue, hpc, hwire0, hhanding⟩ := hquiet
  obtain ⟨bs, hwire, hline⟩ := hs.exists_line hbound
  rw [hwire0] at hwire
  rw [List.map_eq_nil_iff.mp hwire.symm, hhanding, hpc, hqueue] at hline
  simpa [FlushPc.batch] using hline.symm

/-- **One lossless ordered stream.**  At every moment of every run the packets handed to the
peer's callback are a prefix of the accepted packets.  They are all of them when the queue is
empty and the flush loop is back waiting for a first packet, as soon as the inner transport has
delivered what it was given, which a synchronous one has done by then.  Every packet handed over
belongs to a `Send` of its own that returned nil, in the order of the calls: a refused packet is
never delivered. -/
theorem delivered_prefix_accepted (hz : z.Inverts decoderMaxMemory) {s : State}
    (h : (system z cfg inner).Reachable s)
    (hlen : ∀ p ∈ accepted s.calls, p.length ≤ 65535)
    (hsize : ∀ b ∈ s.emitted, framedSize b ≤ decoderMaxMemory) :
    s.delivered <+: accepted s.calls ∧
      (s.queue = [] → s.pc = .first → (inner = .onSend ∨ (s.wire = [] ∧ s.handing = [])) →
        s.delivered = accepted s.calls) ∧
      (s.delivered.map fun p => (p, .ok ())).Sublist s.calls := by
  have hinv := inv_reachable hz h
  have hbound : Bounded decoderMaxMemory s :=
    fun b hb => ⟨fun p hp => hlen p (hinv.mem_accepted hb hp), hsize b hb⟩
  obtain ⟨bs, -, hline⟩ := hinv.exists_line hbound
  have hpre : s.delivered <+: accepted s.calls := hline ▸ List.prefix_append _ _
  refine ⟨hpre, ?_, ?_⟩
  · intro hqueue hpc hflight
    refine hinv.delivered_eq hbound ⟨hqueue, hpc, ?_⟩
    rcases hflight with hinner | hboth
    · exact hinv.sync hinner (by rw [hpc]; simp)
    · exact hboth
  · exact ((hpre.map _).sublist).trans (accepted_map_sublist s.calls)

/-- Two packets sent in one batch over a synchronous transport, after the delivery. -/
def sampleState : State where
  pc := .first
  delivered := [[1, 2, 3], []]
  calls := [([1, 2, 3], .ok ()), ([], .ok ())]
  emitted := [[[1, 2, 3], []]]

theorem reachable_sampleState : (system storeZstd .default .onSend).Reachable sampleState := by
  -- the state in which the message is about to be delivered
  let sent : State := { sampleState with
    pc := .inSend
    wire := [encodeBatch storeZstd [[1, 2, 3], []]]
    delivered := [] }
  have hsend : (system storeZstd .default .onSend).run {} [.send [1, 2, 3], .flush false,
      .flush false, .send [], .flush false, .flush false, .flush true, .flush false] = some sent :=
    rfl
  have hreceive : (system storeZstd .default .onSend).step sent .receive =
      some { sent with wire := [], handing := [[1, 2, 3], []] } := by
    have hdecode : decodeBatch storeZstd (encodeBatch storeZstd [[1, 2, 3], []]) =
        .ok [[1, 2, 3], []] :=
      decodeBatch_encodeBatch (storeZstd_inverts 10) (by decide) (by decide)
    show sent.receive storeZstd = _
    simp only [State.receive, sent, sampleState, hdecode]
  have hhand : (system storeZstd .default .onSend).run
      { sent with wire := [], handing := [[1, 2, 3], []] }
      [.hand, .hand, .flush false, .flush false] = some sampleState := rfl
  exact ((EventSystem.Reachable.init.run hsend).step hreceive).run hhand

theorem delivered_prefix_accepted_sample :
    sampleState.delivered <+: accepted sampleState.calls ∧
      sampleState.delivered = accepted sampleState.calls := by
  have h := delivered_prefix_accepted (storeZstd_inverts _) reachable_sampleState (by decide)
    (by decide)
  exact ⟨h.1, h.2.1 rfl rfl (.inl rfl)⟩

end OpenFlux.Transport.Batched
