import OpenFlux.L3.Equiv.Run

/-!
# Port reuse

A later connection on the same ports finds the entry of the earlier one, and `Insert` renews its
time but not its closing mark: nothing ever clears `dying` of an entry that stays in the table.
`Seen` is what an observer of the packets knows about each flow, its last control packet and the
time of its last packet.  As long as every SYN finds its flow unmarked (`Fresh`), a flow whose last
control packet is a SYN is kept for five minutes after its last packet (`along_survives`); after a
SYN on a flow that is closing, the mark of the old connection takes the new one with it
(`not_along_survives_reuse`).

A handler that has found its entry has still to call `Touch`, and a sweep can take the entry out in
between: `Fresh` also excludes this.
-/

namespace OpenFlux.L3

open EventSystem

/-! ### What is seen of a flow -/

/-- A packet that begins or ends a connection. -/
inductive Control
  -- a SYN of the client, without FIN or RST
  | syn
  -- a FIN or RST of either side
  | closing
  deriving DecidableEq

/-- The SYN flag. -/
def isTCPSYN (pkt : Bytes) : Bool :=
  if pkt.length < ihl pkt + 14 then false else byteAt pkt (ihl pkt + 13) &&& 0x02 ≠ 0

/-- The flow of a packet that a handler passes on, and what the packet does to the connection. -/
def sighting (egress : Addr) (ct : Conntrack) : Exit.Event → Option (FlowKey × Option Control)
  | .fromTransport pkt now =>
    match (enterFromTransport egress now ct pkt).2.2 with
    | .send q => (extractFlowKey q).map fun k =>
      (k, if isTCPClosing q then some .closing else if isTCPSYN q then some .syn else none)
    | _ => none
  | .fromInternet pkt _ => (enterFromInternet egress ct pkt).1.map fun t =>
    (t.key, if t.dying then some .closing else none)
  | .touch _ _ | .sweep _ => none

/-- The last control packet and the time of the last packet of each flow. -/
structure Seen where
  control : FlowKey → Option Control
  last : FlowKey → ℕ

def Seen.none : Seen where
  control _ := .none
  last _ := 0

/-- A packet of the flow is seen. -/
def Seen.note (h : Seen) (now : ℕ) : Option (FlowKey × Option Control) → Seen
  | some (k, c) => {
      control := Function.update h.control k (c.or (h.control k))
      last := Function.update h.last k now }
  | .none => h

/-- The exit with what has been seen. -/
def seenExit (egress : Addr) : EventSystem (Exit × Seen) Exit.Event :=
  (exit egress).record .none fun s e h => h.note e.time (sighting egress s.ct e)

/-- A sweep that removes the entry of a connection that began and has not ended comes at least
five minutes after its last packet. -/
def Survives (s : Exit × Seen) (e : Exit.Event) : Prop :=
  ∀ now k, e = .sweep now → s.2.control k = some .syn → (s.1.ct k).isSome = true →
    (s.1.ct.sweep now) k = none → ctTimeoutEstablished ≤ now - s.2.last k

/-- Neither the entry of the flow nor a `Touch` under way marks it as closing. -/
def Unmarked (s : Exit) (k : FlowKey) : Prop :=
  (∀ entry, s.ct k = some entry → entry.dying = false) ∧
    ∀ t ∈ s.touches, t.key = k → t.dying = false

/-- A SYN finds its flow unmarked, and a sweep finds no entry idle that is about to be touched. -/
def Fresh (egress : Addr) (s : Exit × Seen) (e : Exit.Event) : Prop :=
  (∀ k, sighting egress s.1.ct e = some (k, some .syn) → Unmarked s.1 k) ∧
    ∀ now, e = .sweep now → ∀ t ∈ s.1.touches, ∀ entry, s.1.ct t.key = some entry →
      ¬ entry.idle now

/-! ### The invariant -/

/-- A live flow is unmarked, and an entry has been renewed since the last packet of its flow unless
that is about to happen. -/
structure SeenInv (s : Exit × Seen) : Prop where
  clock : ∀ k, s.2.last k ≤ s.1.clock
  renewed : ∀ k entry, s.1.ct k = some entry →
    s.2.last k ≤ entry.lastSeen ∨ ∃ t ∈ s.1.touches, t.key = k
  live : ∀ k, s.2.control k = some .syn → Unmarked s.1 k

/-! ### The invariant along a run -/

variable {egress : Addr} {s s' : Exit × Seen}

theorem seenInv_init : SeenInv (seenExit egress).init where
  clock _ := Nat.le_refl _
  renewed _ _ h := nomatch h
  live _ h := nomatch h

/-- What is seen of a packet keeps the times within the clock. -/
theorem note_last_le {h : Seen} {c : ℕ} (hlast : ∀ k, h.last k ≤ c) {now : ℕ} (hnow : c ≤ now)
    (seen : Option (FlowKey × Option Control)) (k : FlowKey) : (h.note now seen).last k ≤ now := by
  match seen with
  | none => exact (hlast k).trans hnow
  | some (k', _) =>
    show Function.update h.last k' now k ≤ now
    rw [Function.update_apply]
    split_ifs
    · exact Nat.le_refl _
    · exact (hlast k).trans hnow

/-- A flow that is live after a packet was live before it, or the packet was its SYN. -/
theorem note_control_eq_syn {h : Seen} {now : ℕ} {k k' : FlowKey} {c : Option Control}
    (hsyn : (h.note now (some (k', c))).control k = some .syn) :
    (k = k' ∧ c = some .syn) ∨ (h.control k = some .syn ∧ (k = k' → c = none)) := by
  change Function.update h.control k' (c.or (h.control k')) k = some .syn at hsyn
  rw [Function.update_apply] at hsyn
  split_ifs at hsyn with hk
  · subst hk
    cases c with
    | none => exact .inr ⟨hsyn, fun _ => rfl⟩
    | some c => exact .inl ⟨rfl, hsyn⟩
  · exact .inr ⟨hsyn, fun h => absurd h hk⟩

theorem seenInv_fromTransport {pkt : Bytes} {now : ℕ} (hs : SeenInv s)
    (hfresh : Fresh egress s (.fromTransport pkt now)) (hnow : s.1.clock ≤ now) :
    SeenInv ({ s.1 with
        ct := (enterFromTransport egress now s.1.ct pkt).1
        touches := s.1.touches ++ (enterFromTransport egress now s.1.ct pkt).2.1.toList
        clock := now },
      s.2.note now (sighting egress s.1.ct (.fromTransport pkt now))) := by
  have hclock := note_last_le hs.clock hnow (sighting egress s.1.ct (.fromTransport pkt now))
  rcases enterFromTransport_spec egress now s.1.ct pkt with ⟨v, hdrop, hv⟩ | ⟨k, q, hkey, hpass⟩
  · have hseen : sighting egress s.1.ct (.fromTransport pkt now) = none := by
      simp only [sighting, hdrop]
    rw [hseen] at hclock ⊢
    rw [hdrop, Option.toList_none, List.append_nil]
    exact ⟨hclock, hs.renewed, hs.live⟩
  · have hseen : sighting egress s.1.ct (.fromTransport pkt now) = some (k,
        if isTCPClosing q then some .closing else if isTCPSYN q then some .syn else none) := by
      simp only [sighting, hpass, hkey, Option.map_some]
    rw [hseen] at hclock ⊢
    rw [hpass]
    refine ⟨hclock, ?_, ?_⟩
    · intro k' entry hentry
      change (s.1.ct.insert k now) k' = some entry at hentry
      rw [insert_apply] at hentry
      split_ifs at hentry with hk
      · cases hentry
        exact .inl (hclock k')
      · rcases hs.renewed k' entry hentry with hle | ⟨t, ht, htk⟩
        · left
          show Function.update s.2.last k now k' ≤ entry.lastSeen
          rwa [Function.update_of_ne hk]
        · exact .inr ⟨t, List.mem_append_left _ ht, htk⟩
    · intro k' hsyn
      -- the flow was unmarked before the packet, which is not a closing one of the same flow
      have hbefore : Unmarked s.1 k' ∧ (k' = k → isTCPClosing q = false) := by
        rcases note_control_eq_syn hsyn with ⟨rfl, hc⟩ | ⟨hlive, hc⟩
        · refine ⟨hfresh.1 k' (hseen.trans (by rw [hc])), fun _ => ?_⟩
          by_contra hclosing
          rw [if_pos (by simpa using hclosing)] at hc
          cases hc
        · refine ⟨hs.live k' hlive, fun hk => ?_⟩
          have := hc hk
          by_contra hclosing
          rw [if_pos (by simpa using hclosing)] at this
          cases this
      obtain ⟨⟨hentries, htouches⟩, hopen⟩ := hbefore
      refine ⟨?_, ?_⟩
      · intro entry hentry
        change (s.1.ct.insert k now) k' = some entry at hentry
        rw [insert_apply] at hentry
        split_ifs at hentry with hk
        · subst hk
          cases hentry
          cases hold : s.1.ct k' with
          | none => rfl
          | some old => exact hentries old hold
        · exact hentries entry hentry
      · intro t ht htk
        rcases List.mem_append.mp ht with hold | hnew
        · exact htouches t hold htk
        · by_cases hclosing : isTCPClosing q = true
          · rw [if_pos hclosing, Option.toList_some, List.mem_singleton] at hnew
            subst hnew
            rw [hopen htk.symm] at hclosing
            cases hclosing
          · rw [if_neg hclosing] at hnew
            cases hnew

theorem seenInv_fromInternet {pkt : Bytes} {now : ℕ} (hs : SeenInv s) (hnow : s.1.clock ≤ now) :
    SeenInv ({ s.1 with
        touches := s.1.touches ++ (enterFromInternet egress s.1.ct pkt).1.toList
        clock := now },
      s.2.note now (sighting egress s.1.ct (.fromInternet pkt now))) := by
  have hclock := note_last_le hs.clock hnow (sighting egress s.1.ct (.fromInternet pkt now))
  cases htouch : (enterFromInternet egress s.1.ct pkt).1 with
  | none =>
    have hseen : sighting egress s.1.ct (.fromInternet pkt now) = none := by
      rw [sighting, htouch, Option.map_none]
    rw [hseen] at hclock ⊢
    rw [Option.toList_none, List.append_nil]
    exact ⟨hclock, hs.renewed, hs.live⟩
  | some t =>
    have hseen : sighting egress s.1.ct (.fromInternet pkt now) =
        some (t.key, if t.dying then some .closing else none) := by
      rw [sighting, htouch, Option.map_some]
    rw [hseen] at hclock ⊢
    refine ⟨hclock, ?_, ?_⟩
    · intro k entry hentry
      by_cases hk : k = t.key
      · exact .inr ⟨t, by simp, hk.symm⟩
      · rcases hs.renewed k entry hentry with hle | ⟨t', ht', htk⟩
        · left
          show Function.update s.2.last t.key now k ≤ entry.lastSeen
          rwa [Function.update_of_ne hk]
        · exact .inr ⟨t', List.mem_append_left _ ht', htk⟩
    · intro k hsyn
      rcases note_control_eq_syn hsyn with ⟨-, hc⟩ | ⟨hlive, hc⟩
      · split_ifs at hc
        cases hc
      · obtain ⟨hentries, htouches⟩ := hs.live k hlive
        refine ⟨hentries, fun t' ht' htk => ?_⟩
        rcases List.mem_append.mp ht' with hold | hnew
        · exact htouches t' hold htk
        · rw [Option.toList_some, List.mem_singleton] at hnew
          subst hnew
          have hnone := hc htk.symm
          by_contra hdying
          rw [if_pos (by simpa using hdying)] at hnone
          cases hnone

theorem seenInv_touch {i now : ℕ} {t : Touch} (hs : SeenInv s) (hnow : s.1.clock ≤ now)
    (ht : s.1.touches[i]? = some t) :
    SeenInv ({ s.1 with
        ct := s.1.ct.touch t.key t.dying now
        touches := s.1.touches.eraseIdx i
        clock := now }, s.2) := by
  refine ⟨fun k => (hs.clock k).trans hnow, ?_, ?_⟩
  · intro k entry hentry
    change (s.1.ct.touch t.key t.dying now) k = some entry at hentry
    rw [touch_apply] at hentry
    split_ifs at hentry with hk
    · obtain ⟨old, -, rfl⟩ := Option.map_eq_some_iff.mp hentry
      exact .inl ((hs.clock k).trans hnow)
    · rcases hs.renewed k entry hentry with hle | ⟨t', ht', htk⟩
      · exact .inl hle
      · refine .inr ⟨t', ?_, htk⟩
        obtain ⟨j, hj⟩ := List.mem_iff_getElem?.mp ht'
        refine List.mem_eraseIdx_iff_getElem?.mpr ⟨j, fun hji => ?_, hj⟩
        rw [hji, ht, Option.some.injEq] at hj
        exact hk (by rw [hj, htk])
  · intro k hsyn
    obtain ⟨hentries, htouches⟩ := hs.live k hsyn
    refine ⟨?_, fun t' ht' htk => htouches t' (List.mem_of_mem_eraseIdx ht') htk⟩
    intro entry hentry
    change (s.1.ct.touch t.key t.dying now) k = some entry at hentry
    rw [touch_apply] at hentry
    split_ifs at hentry with hk
    · obtain ⟨old, hold, rfl⟩ := Option.map_eq_some_iff.mp hentry
      rw [← hk] at hold
      show (old.dying || t.dying) = false
      rw [hentries old hold, htouches t (List.mem_of_getElem? ht) hk.symm]
      rfl
    · exact hentries entry hentry

theorem seenInv_sweep {now : ℕ} (hs : SeenInv s) (hnow : s.1.clock ≤ now) :
    SeenInv ({ s.1 with ct := s.1.ct.sweep now, clock := now }, s.2) := by
  refine ⟨fun k => (hs.clock k).trans hnow, ?_, ?_⟩
  · intro k entry hentry
    exact hs.renewed k entry (sweep_eq_some.mp hentry).1
  · intro k hsyn
    obtain ⟨hentries, htouches⟩ := hs.live k hsyn
    exact ⟨fun entry hentry => hentries entry (sweep_eq_some.mp hentry).1, htouches⟩

theorem seenInv_step {e : Exit.Event} (hs : SeenInv s) (hfresh : Fresh egress s e)
    (hstep : (seenExit egress).step s e = some s') : SeenInv s' := by
  obtain ⟨hexit, hnote⟩ := step_record_eq_some.mp hstep
  obtain ⟨hnow, t, hact, ht⟩ := step_eq_some_iff.mp hexit
  obtain ⟨s₁, h₁⟩ := s'
  dsimp only at hnote ht
  subst hnote ht
  cases e with
  | fromTransport pkt now =>
    cases hact
    exact seenInv_fromTransport hs hfresh hnow
  | fromInternet pkt now =>
    cases hact
    exact seenInv_fromInternet hs hnow
  | touch i now =>
    cases htouch : s.1.touches[i]? with
    | none => simp only [Exit.act, htouch, reduceCtorEq] at hact
    | some touch =>
      simp only [Exit.act, htouch, Option.some.injEq] at hact
      subst hact
      exact seenInv_touch hs hnow htouch
  | sweep now =>
    cases hact
    exact seenInv_sweep hs hnow

/-- A live flow is unmarked and renewed, so its timeout counts from its last packet. -/
theorem SeenInv.survives {e : Exit.Event} (hs : SeenInv s) (hfresh : Fresh egress s e) :
    Survives s e := by
  rintro now k rfl hsyn hthere hswept
  obtain ⟨entry, hentry⟩ := Option.isSome_iff_exists.mp hthere
  have hidle : entry.idle now := by
    by_contra hkept
    rw [sweep_eq_some.mpr ⟨hentry, hkept⟩] at hswept
    cases hswept
  have hrenewed : s.2.last k ≤ entry.lastSeen := by
    rcases hs.renewed k entry hentry with hle | ⟨t, ht, rfl⟩
    · exact hle
    · exact absurd hidle (hfresh.2 now rfl t ht entry hentry)
  have hopen := (hs.live k hsyn).1 entry hentry
  unfold CtEntry.idle CtEntry.timeout at hidle
  rw [if_neg (by simp [hopen])] at hidle
  omega

/-- **A live flow is kept for five minutes**: in every run of the exit in which each SYN finds its
flow unmarked and no sweep finds an entry idle that is about to be touched, a sweep removes the
entry of a flow whose last control packet is a SYN no sooner than five minutes after its last
packet. -/
theorem along_survives (egress : Addr) (es : List Exit.Event)
    (hfresh : (seenExit egress).Along (Fresh egress) (seenExit egress).init es) :
    (seenExit egress).Along Survives (seenExit egress).init es :=
  along_mono (I := SeenInv) (fun _ _ _ hs hP hstep => seenInv_step hs hP hstep)
    (fun _ _ hs hP => hs.survives hP) seenInv_init hfresh

theorem along_survives_syn :
    (seenExit sampleEgress).Along Survives (seenExit sampleEgress).init sampleRun := by
  apply along_survives
  have hstart : Fresh sampleEgress (seenExit sampleEgress).init (.fromTransport syn 0) :=
    ⟨fun _ _ => ⟨fun _ h => (nomatch h), fun _ h => (nomatch h)⟩, fun _ h => (nomatch h)⟩
  refine ⟨hstart, fun s hstep => ?_⟩
  obtain ⟨-, t, hact, ht⟩ := step_eq_some_iff.mp (step_record_eq_some.mp hstep).1
  have htouches : s.1.touches = [] := by
    have hnone : (enterFromTransport sampleEgress 0 .empty syn).2.1 = none := by decide
    rw [ht, ← Option.some.inj hact]
    show [] ++ (enterFromTransport sampleEgress 0 .empty syn).2.1.toList = []
    rw [hnone]
    rfl
  refine ⟨⟨fun _ h => (nomatch h), fun _ _ t' ht' => ?_⟩, fun _ _ => trivial⟩
  rw [htouches] at ht'
  cases ht'

/-- The FIN of the client that ends the connection of `syn`. -/
def fin : Bytes :=
  [0x45, 0, 0, 40, 0, 0, 0x40, 0, 64, 6, 0, 0, 10, 10, 10, 2, 93, 184, 216, 34,
    0xC0, 0, 0x01, 0xBB, 0, 0, 0, 9, 0, 0, 0, 9, 0x50, 0x11, 0xFF, 0xFF, 0, 0, 0, 0]

/-- A connection that ends after a second, and a second later a new one on the same ports. -/
def reuseRun : List Exit.Event :=
  [.fromTransport syn 0, .fromTransport fin (10 ^ 9), .touch 0 (10 ^ 9),
    .fromTransport syn (2 * 10 ^ 9)]

/-- The sweep half a minute after the start removes the new connection, idle for 28 seconds. -/
theorem not_along_survives_reuse :
    ¬ (seenExit sampleEgress).Along Survives (seenExit sampleEgress).init
      (reuseRun ++ [.sweep (30 * 10 ^ 9)]) := by
  intro h
  -- the flow of both connections
  let k : FlowKey := ⟨0xCB007107, 0x5DB8D822, 0xC000, 0x01BB, 6⟩
  have hrun : ((seenExit sampleEgress).run (seenExit sampleEgress).init reuseRun).map
      (fun t => (t.1.ct k, t.2.control k, t.2.last k)) =
      some (some ⟨2 * 10 ^ 9, true⟩, some .syn, 2 * 10 ^ 9) := by
    decide +kernel
  obtain ⟨t, ht, hdata⟩ := Option.map_eq_some_iff.mp hrun
  obtain ⟨hentry, hcontrol, hlast⟩ : t.1.ct k = some ⟨2 * 10 ^ 9, true⟩ ∧
      t.2.control k = some .syn ∧ t.2.last k = 2 * 10 ^ 9 := by
    simpa using hdata
  have hswept : (t.1.ct.sweep (30 * 10 ^ 9)) k = none := by
    rw [Conntrack.sweep, hentry]
    decide
  have hlate := ((along_append.mp h).2 t ht).1 (30 * 10 ^ 9) k rfl hcontrol
    (by rw [hentry]; rfl) hswept
  rw [hlast] at hlate
  exact absurd hlate (by decide)

end OpenFlux.L3
