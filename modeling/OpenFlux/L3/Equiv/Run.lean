import OpenFlux.L3.Equiv.Exit
import OpenFlux.L3.Run

/-!
# No unsolicited packet reaches the client

Only a packet of the transport puts a flow into the connection table, and only a sweep that finds it
idle takes it out (`step_existsEntry`).  So a flow that is in the table was opened by a packet of
the transport earlier in the run, and every sweep since then found it and left it (`since_opened`):
its source is the egress address, and a packet of the network is handed to the client only if it
answers such a flow (`solicited`).
-/

namespace OpenFlux.L3

open EventSystem

/-! ### The handlers in two steps -/

/-- `handleFromTransport` is its entry with the `Touch` right after it. -/
theorem handleFromTransport_eq_enter (egress : Addr) (now : ℕ) (ct : Conntrack) (pkt : Bytes) :
    handleFromTransport egress now ct pkt =
      ((enterFromTransport egress now ct pkt).1.touchAll
        (enterFromTransport egress now ct pkt).2.1 now,
      (enterFromTransport egress now ct pkt).2.2) := by
  unfold handleFromTransport enterFromTransport
  rcases sliceIPv4 pkt with _ | pkt
  · rfl
  · by_cases hrst : isTCPRST pkt = true
    · simp only [hrst, if_true]
      rfl
    · simp only [hrst]
      rcases extractFlowKey (fixChecksums (rewriteSNAT pkt egress)) with _ | k
      · rfl
      · by_cases hclosing : isTCPClosing (fixChecksums (rewriteSNAT pkt egress)) = true
        · simp only [hclosing, if_true]
          rfl
        · simp only [hclosing]
          rfl

/-- `handleFromInternet` is its entry with the `Touch` right after it. -/
theorem handleFromInternet_eq_enter (egress : Addr) (now : ℕ) (ct : Conntrack) (pkt : Bytes) :
    handleFromInternet egress now ct pkt =
      (ct.touchAll (enterFromInternet egress ct pkt).1 now,
      (enterFromInternet egress ct pkt).2) := by
  unfold handleFromInternet enterFromInternet
  rcases sliceIPv4 pkt with _ | pkt
  · rfl
  · dsimp only
    split_ifs
    · rfl
    · rcases extractFlowKey pkt with _ | k
      · rfl
      · dsimp only
        split_ifs <;> rfl

/-! ### The table, entry by entry -/

/-- `Insert` renews the entry and keeps its mark. -/
theorem insert_apply (ct : Conntrack) (k k' : FlowKey) (now : ℕ) :
    (ct.insert k' now) k =
      if k = k' then some ⟨now, ((ct k').map CtEntry.dying).getD false⟩ else ct k := by
  unfold Conntrack.insert
  cases ct k' <;> simp [Function.update_apply]

/-- `Touch` renews the entry, if there is one, and may mark it. -/
theorem touch_apply (ct : Conntrack) (k k' : FlowKey) (dying : Bool) (now : ℕ) :
    (ct.touch k' dying now) k =
      if k = k' then (ct k').map fun e => ⟨now, e.dying || dying⟩ else ct k := by
  unfold Conntrack.touch
  cases h : ct k' with
  | none =>
    by_cases hk : k = k'
    · simp [hk, h]
    · simp [hk]
  | some e => simp [Function.update_apply]

theorem sweep_eq_some {ct : Conntrack} {k : FlowKey} {now : ℕ} {entry : CtEntry} :
    (ct.sweep now) k = some entry ↔ ct k = some entry ∧ ¬ entry.idle now := by
  rw [Conntrack.sweep, Option.filter_eq_some_iff, decide_eq_true_eq]

/-! ### What keeps an entry -/

theorem existsEntry_insert_iff {ct : Conntrack} {k k' : FlowKey} {now : ℕ} :
    (ct.insert k' now).existsEntry k = true ↔ k = k' ∨ ct.existsEntry k = true := by
  rw [Conntrack.existsEntry, insert_apply]
  split_ifs with hk
  · simp [hk]
  · simp [hk, Conntrack.existsEntry]

theorem existsEntry_touch_iff {ct : Conntrack} {k k' : FlowKey} {dying : Bool} {now : ℕ} :
    (ct.touch k' dying now).existsEntry k = true ↔ ct.existsEntry k = true := by
  rw [Conntrack.existsEntry, touch_apply]
  split_ifs with hk
  · rw [hk, Option.isSome_map, Conntrack.existsEntry]
  · rfl

theorem existsEntry_sweep_iff {ct : Conntrack} {k : FlowKey} {now : ℕ} :
    (ct.sweep now).existsEntry k = true ↔ ∃ e, ct k = some e ∧ ¬ e.idle now := by
  simp only [Conntrack.existsEntry, Option.isSome_iff_exists, sweep_eq_some]

/-- What a packet of the transport does: it is dropped, or it is passed on, its flow renewed and a
`Touch` left to be made if it is a closing one. -/
theorem enterFromTransport_spec (egress : Addr) (now : ℕ) (ct : Conntrack) (pkt : Bytes) :
    (∃ v, enterFromTransport egress now ct pkt = (ct, none, v) ∧ ∀ q, v ≠ .send q) ∨
      ∃ k q, extractFlowKey q = some k ∧ enterFromTransport egress now ct pkt =
        (ct.insert k now, if isTCPClosing q then some ⟨k, true⟩ else none, .send q) := by
  unfold enterFromTransport
  split
  · exact .inl ⟨_, rfl, by simp⟩
  · split
    · exact .inl ⟨_, rfl, by simp⟩
    · dsimp only
      split
      · exact .inl ⟨_, rfl, by simp⟩
      · next k hk => exact .inr ⟨k, _, hk, rfl⟩

/-! ### Flows over a run -/

/-- The event is a packet of the transport that passes the exit on the translated flow `k`. -/
def Opens (egress : Addr) (k : FlowKey) (s : Exit) (e : Exit.Event) : Prop :=
  ∃ pkt now q, e = .fromTransport pkt now ∧ (handleFromTransport egress now s.ct pkt).2 = .send q ∧
    extractFlowKey q = some k

/-- If the event is a sweep, it finds the entry of `k` idle for no longer than its timeout. -/
def Keeps (k : FlowKey) (s : Exit) (e : Exit.Event) : Prop :=
  ∀ now, e = .sweep now → ∃ entry, s.ct k = some entry ∧ ¬ entry.idle now

/-- A step is an action with the clock moved. -/
theorem step_eq_some_iff {egress : Addr} {s s' : Exit} {e : Exit.Event} :
    (exit egress).step s e = some s' ↔
      s.clock ≤ e.time ∧ ∃ t, s.act egress e = some t ∧ s' = { t with clock := e.time } := by
  show (if e.time < s.clock then none else _) = some s' ↔ _
  split_ifs with hclock
  · simp [hclock]
  · rw [Option.map_eq_some_iff]
    constructor
    · rintro ⟨t, ht, rfl⟩
      exact ⟨Nat.le_of_not_lt hclock, t, ht, rfl⟩
    · rintro ⟨-, t, ht, rfl⟩
      exact ⟨t, ht, rfl⟩

/-- **One step**: a flow is in the table after it only if the step opened it, or it was there and
the step kept it. -/
theorem step_existsEntry {egress : Addr} {k : FlowKey} {s s' : Exit} {e : Exit.Event}
    (hstep : (exit egress).step s e = some s') (h : s'.ct.existsEntry k = true) :
    Opens egress k s e ∨ s.ct.existsEntry k = true ∧ Keeps k s e := by
  obtain ⟨-, t, hact, rfl⟩ := step_eq_some_iff.mp hstep
  cases e with
  | fromTransport pkt now =>
    have ht : (enterFromTransport egress now s.ct pkt).1.existsEntry k = true := by
      rw [← Option.some.inj hact] at h
      exact h
    have hkeeps : Keeps k s (.fromTransport pkt now) := fun _ hsweep => nomatch hsweep
    rcases enterFromTransport_spec egress now s.ct pkt with ⟨v, hdrop, -⟩ | ⟨k', q, hkey, hpass⟩
    · rw [hdrop] at ht
      exact .inr ⟨ht, hkeeps⟩
    · rw [hpass, existsEntry_insert_iff] at ht
      rcases ht with rfl | hbefore
      · refine .inl ⟨pkt, now, q, rfl, ?_, hkey⟩
        rw [handleFromTransport_eq_enter, hpass]
      · exact .inr ⟨hbefore, hkeeps⟩
  | fromInternet pkt now =>
    rw [← Option.some.inj hact] at h
    exact .inr ⟨h, fun _ hsweep => nomatch hsweep⟩
  | touch i now =>
    rcases htouch : s.touches[i]? with _ | touch
    · simp only [Exit.act, htouch, reduceCtorEq] at hact
    · simp only [Exit.act, htouch, Option.some.injEq] at hact
      rw [← hact] at h
      exact .inr ⟨existsEntry_touch_iff.mp h, fun _ hsweep => nomatch hsweep⟩
  | sweep now =>
    rw [← Option.some.inj hact] at h
    obtain ⟨entry, hentry, hidle⟩ := existsEntry_sweep_iff.mp h
    refine .inr ⟨by rw [Conntrack.existsEntry, hentry, Option.isSome_some], ?_⟩
    rintro now' hsweep
    cases hsweep
    exact ⟨entry, hentry, hidle⟩

/-- A flow in the table was opened, and every sweep since then has kept it. -/
theorem since_opened {egress : Addr} {es : List Exit.Event} {s : Exit} {k : FlowKey}
    (h : (exit egress).run (exit egress).init es = some s) (hk : s.ct.existsEntry k = true) :
    (exit egress).Since (Opens egress k) (Keeps k) es :=
  since_of_run (φ := fun s => s.ct.existsEntry k = true) (fun h0 => Bool.false_ne_true h0)
    (fun _ _ _ hstep h' => step_existsEntry hstep h') h hk

/-- A packet that opens a flow gives it the egress address. -/
theorem Opens.key {egress : Addr} {k : FlowKey} {s : Exit} {e : Exit.Event}
    (h : Opens egress k s e) : k.srcIP = ipU32 egress ∧ k.proto = 6 := by
  obtain ⟨pkt, now, q, -, hsend, hkey⟩ := h
  obtain ⟨sliced, -, -, htcp, rfl⟩ := handleFromTransport_eq_send_iff.mp hsend
  obtain ⟨-, rfl⟩ := extractFlowKey_eq_some_iff.mp hkey
  rw [keyAt_translate_outbound htcp]
  exact ⟨rfl, rfl⟩

/-- **Only answers come back**: in every run of the exit each flow in the table is a TCP flow from
the egress address, and a packet of the network is passed to the client only if it is addressed to
the egress address and a packet of the transport opened the reverse of its flow, with no sweep since
that found that flow idle for too long. -/
theorem solicited {egress : Addr} {es : List Exit.Event} {s : Exit}
    (h : (exit egress).run (exit egress).init es = some s) :
    (∀ k, s.ct.existsEntry k = true → k.srcIP = ipU32 egress ∧ k.proto = 6) ∧
      ∀ now p q, (handleFromInternet egress now s.ct p).2 = .send q →
        ∃ pkt k, sliceIPv4 p = some pkt ∧ addrAt pkt 16 = egress ∧ extractFlowKey pkt = some k ∧
          (exit egress).Since (Opens egress (reverseKey k)) (Keeps (reverseKey k)) es := by
  constructor
  · intro k hk
    obtain ⟨_, _, _, _, _, -, -, hopens, -⟩ := since_opened h hk
    exact hopens.key
  · intro now p q hsend
    obtain ⟨pkt, hslice, haddr, htcp, hlive, -⟩ := handleFromInternet_eq_send_iff.mp hsend
    exact ⟨pkt, keyAt pkt, hslice, haddr, extractFlowKey_eq_some_iff.mpr ⟨htcp, rfl⟩,
      since_opened h hlive⟩

/-- The run in which `syn` leaves the exit and a sweep follows a minute later. -/
def sampleRun : List Exit.Event := [.fromTransport syn 0, .sweep (60 * 10 ^ 9)]

theorem solicited_synAck :
    ∃ pkt k, sliceIPv4 synAck = some pkt ∧ addrAt pkt 16 = sampleEgress ∧
      extractFlowKey pkt = some k ∧
      (exit sampleEgress).Since (Opens sampleEgress (reverseKey k)) (Keeps (reverseKey k))
        sampleRun := by
  have hstep1 : (exit sampleEgress).step (exit sampleEgress).init (.fromTransport syn 0) =
      some ⟨sampleTable, [], 0⟩ := by
    have htouch : (enterFromTransport sampleEgress 0 .empty syn).2.1 = none := by decide
    have htable : sampleTable = (enterFromTransport sampleEgress 0 .empty syn).1 := by
      rw [sampleTable, handleFromTransport_eq_enter, htouch]
      rfl
    rw [htable, ← Option.toList_none, ← htouch]
    rfl
  have hrun : (exit sampleEgress).run (exit sampleEgress).init sampleRun =
      some ⟨sampleTable.sweep (60 * 10 ^ 9), [], 60 * 10 ^ 9⟩ :=
    run_cons_eq_some.mpr ⟨_, hstep1, rfl⟩
  have hsend : (handleFromInternet sampleEgress 1 (sampleTable.sweep (60 * 10 ^ 9)) synAck).2 =
      .send (translate .inbound sampleEgress synAck) :=
    handleFromInternet_eq_send_iff.mpr
      ⟨synAck, by decide, by decide, ⟨by decide, by decide, by decide, by decide⟩, by decide, rfl⟩
  exact (solicited hrun).2 1 synAck _ hsend

end OpenFlux.L3
