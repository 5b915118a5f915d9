import OpenFlux.Tunnel.Relay

/-!
# What the stream relays carry

A loop that reads the end of its stream has written all of it.  It then closes connections that the
other loop still uses (`closed_of_done`), of which nothing is read or written any more
(`frozen_run`).  So only the direction that ends first is carried in full: what is written of the
other one is a prefix of what was sent (`carried`), and with a half-close it may be a proper one
(`half_close_cut`).  A loop that is left alone gets to the end (`exists_run_readEnd`).
-/

namespace OpenFlux.Tunnel.Relay

variable {relay : Relay}

/-! ### States -/

@[simp] theorem flow_setFlow_self (s : State) (x : Side) (f : Flow) : (s.setFlow x f).flow x = f :=
  Function.update_self ..

theorem flow_setFlow_of_ne (s : State) {x y : Side} (f : Flow) (h : y ≠ x) :
    (s.setFlow x f).flow y = s.flow y :=
  Function.update_of_ne h ..

@[simp] theorem closed_setFlow (s : State) (x : Side) (f : Flow) :
    (s.setFlow x f).closed = s.closed := rfl

theorem eq_or_eq_other (x y : Side) : y = x ∨ y = x.other := by
  cases x <;> cases y <;> decide

theorem reading_iff {f : Flow} : reading f = true ↔ f.loop = .copying ∧ f.buf = [] :=
  decide_eq_true_iff

theorem writing_iff {f : Flow} : writing f = true ↔ f.loop = .copying ∧ f.buf ≠ [] :=
  decide_eq_true_iff

/-! ### Every step -/

/-- What holds of one flow. -/
structure FlowInv (f : Flow) : Prop where
  whole : f.sent = f.written ++ f.buf ++ f.inbox
  atEnd : f.sawEnd = true → f.ended = true ∧ f.loop ≠ .copying ∧ f.buf = [] ∧ f.inbox = []

structure Inv (s : State) : Prop where
  flows : ∀ x, FlowInv (s.flow x)
  -- the first loop that ended has read the end of its stream
  stopped : ∀ x, (s.flow x).loop ≠ .copying →
    (s.flow x).sawEnd = true ∨ (s.flow x.other).sawEnd = true
  closed : ∀ y, s.closed y = true → ∃ x, (s.flow x).sawEnd = true

theorem inv_init : Inv {} := by
  refine ⟨fun x => ⟨rfl, nofun⟩, fun x h => absurd rfl h, nofun⟩

section Steps

variable {s s' : State} {x : Side}

theorem exists_sawEnd (h : Inv s) (hstopped : (s.flow x).loop ≠ .copying) :
    ∃ y, (s.flow y).sawEnd = true := by
  rcases h.stopped x hstopped with hx | hother
  · exact ⟨x, hx⟩
  · exact ⟨x.other, hother⟩

/-- A step of one flow. -/
theorem Inv.setFlow (h : Inv s) {f : Flow} (hf : FlowInv f)
    (hmono : (s.flow x).sawEnd = true → f.sawEnd = true)
    (hstopped : f.loop ≠ .copying →
      f.sawEnd = true ∨ ∃ y, (s.flow y).sawEnd = true) : Inv (s.setFlow x f) := by
  have hkept : ∀ y, (s.flow y).sawEnd = true → ((s.setFlow x f).flow y).sawEnd = true := by
    intro y hy
    by_cases hyx : y = x
    · subst hyx
      rw [flow_setFlow_self]
      exact hmono hy
    · rw [flow_setFlow_of_ne s f hyx]
      exact hy
  refine ⟨fun y => ?_, fun y hy => ?_, fun y hy => ?_⟩
  · by_cases hyx : y = x
    · subst hyx
      rw [flow_setFlow_self]
      exact hf
    · rw [flow_setFlow_of_ne s f hyx]
      exact h.flows y
  · obtain ⟨z, hz⟩ : ∃ z, ((s.setFlow x f).flow z).sawEnd = true := by
      by_cases hyx : y = x
      · subst hyx
        rw [flow_setFlow_self] at hy
        rcases hstopped hy with hsaw | ⟨z, hz⟩
        · exact ⟨y, by rw [flow_setFlow_self]; exact hsaw⟩
        · exact ⟨z, hkept z hz⟩
      · rw [flow_setFlow_of_ne s f hyx] at hy
        obtain ⟨z, hz⟩ := exists_sawEnd h hy
        exact ⟨z, hkept z hz⟩
    rcases eq_or_eq_other y z with rfl | rfl
    · exact .inl hz
    · exact .inr hz
  · obtain ⟨z, hz⟩ := h.closed y hy
    exact ⟨z, hkept z hz⟩

/-- A `Close`, after a loop has read the end of its stream. -/
theorem Inv.close (h : Inv s) (hsaw : ∃ x, (s.flow x).sawEnd = true) (y : Side) :
    Inv { s with closed := Function.update s.closed y true } :=
  ⟨h.flows, h.stopped, fun _ _ => hsaw⟩

theorem inv_step (h : Inv s) {e : Event} (hs' : relay.step s e = some s') : Inv s' := by
  cases e with
  | send x b =>
    simp only [step] at hs'
    split_ifs at hs' with hended
    cases hs'
    obtain ⟨hwhole, hend⟩ := h.flows x
    refine h.setFlow ⟨?_, fun hsaw => absurd (hend hsaw).1 hended⟩ id fun hstopped =>
      .inr (exists_sawEnd h hstopped)
    show (s.flow x).sent ++ b = _
    rw [hwhole, List.append_assoc]
  | finish x =>
    simp only [step] at hs'
    split_ifs at hs' with hended
    cases hs'
    obtain ⟨hwhole, hend⟩ := h.flows x
    exact h.setFlow ⟨hwhole, fun hsaw => absurd (hend hsaw).1 hended⟩ id fun hstopped =>
      .inr (exists_sawEnd h hstopped)
  | read x n =>
    simp only [step] at hs'
    split_ifs at hs' with hread
    cases hs'
    obtain ⟨hwhole, hend⟩ := h.flows x
    obtain ⟨hcopying, hempty⟩ := reading_iff.mp hread.1
    refine h.setFlow ⟨?_, fun hsaw => absurd hcopying (hend hsaw).2.1⟩ id fun hstopped =>
      .inr (exists_sawEnd h hstopped)
    show (s.flow x).sent = _ ++ (s.flow x).inbox.take n ++ (s.flow x).inbox.drop n
    rw [hwhole, hempty, List.append_nil, List.append_assoc, List.take_append_drop]
  | readEnd x =>
    simp only [step] at hs'
    split_ifs at hs' with hread
    cases hs'
    obtain ⟨hwhole, hend⟩ := h.flows x
    obtain ⟨hreading, -, hinbox, hended⟩ := hread
    exact h.setFlow ⟨hwhole, fun _ => ⟨hended, nofun, (reading_iff.mp hreading).2, hinbox⟩⟩
      (fun _ => rfl) fun _ => .inl rfl
  | readFails x =>
    simp only [step] at hs'
    split_ifs at hs' with hread
    cases hs'
    obtain ⟨hwhole, hend⟩ := h.flows x
    have hcopying := (reading_iff.mp hread.1).1
    exact h.setFlow ⟨hwhole, fun hsaw => absurd hcopying (hend hsaw).2.1⟩ id fun _ =>
      .inr (h.closed x hread.2)
  | write x n =>
    simp only [step] at hs'
    split_ifs at hs' with hwrite
    cases hs'
    obtain ⟨hwhole, hend⟩ := h.flows x
    have hcopying := (writing_iff.mp hwrite.1).1
    refine h.setFlow ⟨?_, fun hsaw => absurd hcopying (hend hsaw).2.1⟩ id fun hstopped =>
      .inr (exists_sawEnd h hstopped)
    show (s.flow x).sent =
      (s.flow x).written ++ (s.flow x).buf.take n ++ (s.flow x).buf.drop n ++ (s.flow x).inbox
    rw [hwhole, List.append_assoc (s.flow x).written (List.take n _), List.take_append_drop]
  | writeFails x =>
    simp only [step] at hs'
    split_ifs at hs' with hwrite
    cases hs'
    obtain ⟨hwhole, hend⟩ := h.flows x
    have hcopying := (writing_iff.mp hwrite.1).1
    exact h.setFlow ⟨hwhole, fun hsaw => absurd hcopying (hend hsaw).2.1⟩ id fun _ =>
      .inr (h.closed x.other hwrite.2)
  | close x =>
    simp only [step] at hs'
    obtain ⟨hwhole, hend⟩ := h.flows x
    split at hs'
    · next y ys hloop =>
      cases hs'
      have hsaw := exists_sawEnd h (x := x) (by rw [hloop]; nofun)
      have hset : Inv (s.setFlow x { s.flow x with loop := .closing ys }) :=
        h.setFlow ⟨hwhole, fun hsaw => ⟨(hend hsaw).1, nofun, (hend hsaw).2.2⟩⟩ id fun _ =>
          .inr hsaw
      exact hset.close (exists_sawEnd hset (x := x) (by rw [flow_setFlow_self]; nofun)) y
    · next hloop =>
      cases hs'
      have hsaw := exists_sawEnd h (x := x) (by rw [hloop]; nofun)
      exact h.setFlow ⟨hwhole, fun hsaw => ⟨(hend hsaw).1, nofun, (hend hsaw).2.2⟩⟩ id fun _ =>
        .inr hsaw
    · cases hs'
    · cases hs'

end Steps

/-! ### Every run -/

theorem inv_of_reachable {s : State} (hs : relay.system.Reachable s) : Inv s :=
  EventSystem.Reachable.invariant (I := Inv) inv_init
    (fun _ e _ h hs' => inv_step (e := e) h hs') hs

/-! ### Closing -/

/-- What the loop of a side still has to close. -/
def toClose (relay : Relay) (x : Side) : Loop → List Side
  | .copying => relay.closes x
  | .closing conns => conns
  | .done => []

/-- Each connection that a loop closes is closed, or the loop will still close it. -/
def Closing (relay : Relay) (s : State) : Prop :=
  ∀ x, ∀ y ∈ relay.closes x, y ∈ toClose relay x (s.flow x).loop ∨ s.closed y = true

/-- A step of one flow that closes nothing. -/
theorem Closing.setFlow {s : State} {x : Side} (h : Closing relay s) {f : Flow}
    (hf : toClose relay x f.loop = toClose relay x (s.flow x).loop) :
    Closing relay (s.setFlow x f) := by
  intro z y hy
  rcases h z y hy with hleft | hclosed
  · left
    by_cases hzx : z = x
    · subst hzx
      rw [flow_setFlow_self, hf]
      exact hleft
    · rw [flow_setFlow_of_ne s f hzx]
      exact hleft
  · exact .inr hclosed

/-- All that was read of a side, written or not. -/
def readFrom (f : Flow) : Bytes := f.written ++ f.buf

/-- A step of one flow that closes nothing: it reads and writes at connections that are open. -/
structure Copies (relay : Relay) (s : State) (x : Side) (f : Flow) : Prop where
  toClose : toClose relay x f.loop = toClose relay x (s.flow x).loop
  taken : s.closed x = true → readFrom f = readFrom (s.flow x)
  written : s.closed x.other = true → f.written = (s.flow x).written

theorem step_cases {s s' : State} {e : Event} (hs' : relay.step s e = some s') :
    ∃ x, (∃ f, s' = s.setFlow x f ∧ Copies relay s x f) ∨
      ∃ y ys, (s.flow x).loop = .closing (y :: ys) ∧
        s' = { s.setFlow x { s.flow x with loop := .closing ys } with
          closed := Function.update s.closed y true } := by
  cases e with
  | send x b =>
    simp only [step] at hs'
    split_ifs at hs'
    cases hs'
    exact ⟨x, .inl ⟨_, rfl, rfl, fun _ => rfl, fun _ => rfl⟩⟩
  | finish x =>
    simp only [step] at hs'
    split_ifs at hs'
    cases hs'
    exact ⟨x, .inl ⟨_, rfl, rfl, fun _ => rfl, fun _ => rfl⟩⟩
  | read x n =>
    simp only [step] at hs'
    split_ifs at hs' with hread
    cases hs'
    exact ⟨x, .inl ⟨_, rfl, rfl, fun hclosed => absurd hclosed hread.2.1, fun _ => rfl⟩⟩
  | readEnd x =>
    simp only [step] at hs'
    split_ifs at hs' with hread
    cases hs'
    refine ⟨x, .inl ⟨_, rfl, ?_, fun _ => rfl, fun _ => rfl⟩⟩
    rw [(reading_iff.mp hread.1).1]
    rfl
  | readFails x =>
    simp only [step] at hs'
    split_ifs at hs' with hread
    cases hs'
    refine ⟨x, .inl ⟨_, rfl, ?_, fun _ => rfl, fun _ => rfl⟩⟩
    rw [(reading_iff.mp hread.1).1]
    rfl
  | write x n =>
    simp only [step] at hs'
    split_ifs at hs' with hwrite
    cases hs'
    refine ⟨x, .inl ⟨_, rfl, rfl, fun _ => ?_, fun hclosed => absurd hclosed hwrite.2.1⟩⟩
    show (s.flow x).written ++ _ ++ _ = (s.flow x).written ++ _
    rw [List.append_assoc, List.take_append_drop]
  | writeFails x =>
    simp only [step] at hs'
    split_ifs at hs' with hwrite
    cases hs'
    refine ⟨x, .inl ⟨_, rfl, ?_, fun _ => rfl, fun _ => rfl⟩⟩
    rw [(writing_iff.mp hwrite.1).1]
    rfl
  | close x =>
    simp only [step] at hs'
    split at hs'
    · next y ys hloop =>
      cases hs'
      exact ⟨x, .inr ⟨y, ys, hloop, rfl⟩⟩
    · next hloop =>
      cases hs'
      refine ⟨x, .inl ⟨_, rfl, ?_, fun _ => rfl, fun _ => rfl⟩⟩
      rw [hloop]
      rfl
    · cases hs'
    · cases hs'

theorem closing_step {s s' : State} (h : Closing relay s) {e : Event}
    (hs' : relay.step s e = some s') : Closing relay s' := by
  obtain ⟨x, ⟨f, rfl, hf⟩ | ⟨y, ys, hloop, rfl⟩⟩ := step_cases hs'
  · exact h.setFlow hf.toClose
  · intro z w hw
    show w ∈ toClose relay z ((s.setFlow x _).flow z).loop ∨
      Function.update s.closed y true w = true
    by_cases hwy : w = y
    · subst hwy
      right
      rw [Function.update_self]
    rw [Function.update_of_ne hwy]
    rcases h z w hw with hleft | hclosed
    · left
      by_cases hzx : z = x
      · subst hzx
        rw [hloop] at hleft
        rw [flow_setFlow_self]
        exact (List.mem_cons.mp hleft).resolve_left hwy
      · rw [flow_setFlow_of_ne s _ hzx]
        exact hleft
    · exact .inr hclosed

/-- A loop that is done has closed what it closes. -/
theorem closed_of_done {s : State} (hs : relay.system.Reachable s) {x : Side}
    (hdone : (s.flow x).loop = .done) : ∀ y ∈ relay.closes x, s.closed y = true := by
  have hinit : Closing relay relay.system.init := fun _ _ hy => .inl hy
  have hclosing : Closing relay s :=
    hs.invariant hinit fun _ e _ h hs' => closing_step (e := e) h hs'
  intro y hy
  rcases hclosing x y hy with hleft | hclosed
  · rw [hdone] at hleft
    cases hleft
  · exact hclosed

/-- The side is closed, with this read from it and this written to it. -/
structure Frozen (y : Side) (fromIt toIt : Bytes) (s : State) : Prop where
  closed : s.closed y = true
  taken : readFrom (s.flow y) = fromIt
  written : (s.flow y.other).written = toIt

theorem other_other (x : Side) : x.other.other = x := by
  cases x <;> rfl

theorem Frozen.setFlow {s : State} {x y : Side} {fromIt toIt : Bytes}
    (h : Frozen y fromIt toIt s) {f : Flow} (htaken : x = y → readFrom f = readFrom (s.flow y))
    (hwritten : x = y.other → f.written = (s.flow y.other).written) :
    Frozen y fromIt toIt (s.setFlow x f) := by
  refine ⟨h.closed, ?_, ?_⟩
  · rw [← h.taken]
    by_cases hyx : y = x
    · subst hyx
      rw [flow_setFlow_self]
      exact htaken rfl
    · rw [flow_setFlow_of_ne s f hyx]
  · rw [← h.written]
    by_cases hyx : y.other = x
    · subst hyx
      rw [flow_setFlow_self]
      exact hwritten rfl
    · rw [flow_setFlow_of_ne s f hyx]

theorem frozen_step {s s' : State} {y : Side} {fromIt toIt : Bytes}
    (h : Frozen y fromIt toIt s) {e : Event} (hs' : relay.step s e = some s') :
    Frozen y fromIt toIt s' := by
  obtain ⟨x, ⟨f, rfl, hf⟩ | ⟨z, zs, hloop, rfl⟩⟩ := step_cases hs'
  · refine h.setFlow (fun hx => ?_) fun hx => ?_
    · subst hx
      exact hf.taken h.closed
    · subst hx
      refine hf.written ?_
      rw [other_other]
      exact h.closed
  · have hset : Frozen y fromIt toIt (s.setFlow x { s.flow x with loop := .closing zs }) :=
      h.setFlow (fun hx => hx ▸ rfl) fun hx => hx ▸ rfl
    refine ⟨?_, hset.taken, hset.written⟩
    show Function.update s.closed z true y = true
    by_cases hyz : y = z
    · rw [hyz, Function.update_self]
    · rw [Function.update_of_ne hyz]
      exact h.closed

/-- Of a closed connection nothing is read, and nothing is written to it. -/
theorem frozen_run {s t : State} {es : List Event} (ht : relay.system.run s es = some t)
    {y : Side} (hclosed : s.closed y = true) :
    Frozen y (readFrom (s.flow y)) (s.flow y.other).written t :=
  EventSystem.run_invariant (P := fun _ _ => True)
    (I := Frozen y (readFrom (s.flow y)) (s.flow y.other).written)
    (fun _ e _ h _ hs' => frozen_step (e := e) h hs') ⟨hclosed, rfl, rfl⟩
    (EventSystem.along_true s es) ht

/-! ### Progress -/

/-- Nothing is closed, and the loop of the side is copying a stream that has ended. -/
structure Left (s : State) (x : Side) : Prop where
  closed : ∀ y, s.closed y = false
  copying : (s.flow x).loop = .copying
  ended : (s.flow x).ended = true

section Progress

variable {s : State} {x : Side}

theorem Left.setFlow (h : Left s x) {f : Flow} (hcopying : f.loop = .copying)
    (hended : f.ended = true) : Left (s.setFlow x f) x where
  closed := h.closed
  copying := by rw [flow_setFlow_self]; exact hcopying
  ended := by rw [flow_setFlow_self]; exact hended

/-- What was read is written. -/
theorem exists_run_written (relay : Relay) (h : Left s x) :
    ∃ es t, relay.system.run s es = some t ∧ Left t x ∧ (t.flow x).buf = [] ∧
      (t.flow x).inbox = (s.flow x).inbox := by
  by_cases hbuf : (s.flow x).buf = []
  · exact ⟨[], s, rfl, h, hbuf, rfl⟩
  · have hwrite : writing (s.flow x) = true ∧ ¬ s.closed x.other ∧ 0 < (s.flow x).buf.length ∧
        (s.flow x).buf.length ≤ (s.flow x).buf.length :=
      ⟨writing_iff.mpr ⟨h.copying, hbuf⟩, by rw [h.closed]; decide,
        List.length_pos_of_ne_nil hbuf, le_rfl⟩
    refine ⟨[.write x (s.flow x).buf.length], _,
      EventSystem.run_cons_eq_some.mpr ⟨_, if_pos hwrite, rfl⟩, h.setFlow h.copying h.ended, ?_⟩
    rw [flow_setFlow_self]
    exact ⟨List.drop_length, rfl⟩

/-- What has arrived is read and written. -/
theorem exists_run_drained (relay : Relay) (h : Left s x) (hbuf : (s.flow x).buf = []) :
    ∃ es t, relay.system.run s es = some t ∧ Left t x ∧ (t.flow x).buf = [] ∧
      (t.flow x).inbox = [] := by
  by_cases hinbox : (s.flow x).inbox = []
  · exact ⟨[], s, rfl, h, hbuf, hinbox⟩
  · have hread : reading (s.flow x) = true ∧ ¬ s.closed x ∧ 0 < (s.flow x).inbox.length ∧
        (s.flow x).inbox.length ≤ (s.flow x).inbox.length :=
      ⟨reading_iff.mpr ⟨h.copying, hbuf⟩, by rw [h.closed]; decide,
        List.length_pos_of_ne_nil hinbox, le_rfl⟩
    obtain ⟨es, t, hrun, hleft, hbuf', hinbox'⟩ := exists_run_written relay
      (h.setFlow (f := { s.flow x with
        buf := (s.flow x).inbox.take (s.flow x).inbox.length
        inbox := (s.flow x).inbox.drop (s.flow x).inbox.length }) h.copying h.ended)
    refine ⟨.read x (s.flow x).inbox.length :: es, t,
      EventSystem.run_cons_eq_some.mpr ⟨_, if_pos hread, hrun⟩, hleft, hbuf', hinbox'.trans ?_⟩
    rw [flow_setFlow_self]
    exact List.drop_length

/-- A loop that is left alone carries a stream that has ended to its end. -/
theorem exists_run_readEnd (relay : Relay) (h : Left s x) :
    ∃ es t, relay.system.run s es = some t ∧ (t.flow x).sawEnd = true := by
  obtain ⟨es₁, s₁, hrun₁, hleft₁, hbuf₁, -⟩ := exists_run_written relay h
  obtain ⟨es₂, s₂, hrun₂, hleft₂, hbuf₂, hinbox₂⟩ := exists_run_drained relay hleft₁ hbuf₁
  have hread : reading (s₂.flow x) = true ∧ ¬ s₂.closed x ∧ (s₂.flow x).inbox = [] ∧
      (s₂.flow x).ended = true :=
    ⟨reading_iff.mpr ⟨hleft₂.copying, hbuf₂⟩, by rw [hleft₂.closed]; decide, hinbox₂,
      hleft₂.ended⟩
  have hstep : relay.system.step s₂ (.readEnd x) =
      some (s₂.setFlow x { s₂.flow x with loop := .closing (relay.closes x), sawEnd := true }) :=
    if_pos hread
  refine ⟨es₁ ++ (es₂ ++ [.readEnd x]), _, EventSystem.run_append_eq_some.mpr ⟨s₁, hrun₁,
    EventSystem.run_append_eq_some.mpr ⟨s₂, hrun₂,
      EventSystem.run_cons_eq_some.mpr ⟨_, hstep, rfl⟩⟩⟩, ?_⟩
  rw [flow_setFlow_self]

end Progress

/-! ### Both directions -/

/-- **What the relays carry**: at any time, what is written of a direction is a prefix of what was
sent; it is all of it once the loop has read the end of the stream; and a loop that has ended has
read it, or the other loop has.  As long as nothing is closed, a loop can get there.  But a loop
that is done has closed the connection that it wrote to, in two of the relays both, and from a
`Close` on nothing is read from the connection and nothing is written to it. -/
theorem carried {s : State} (hs : relay.system.Reachable s) :
    (∀ x, (s.flow x).written <+: (s.flow x).sent) ∧
    (∀ x, (s.flow x).sawEnd = true →
      (s.flow x).ended = true ∧ (s.flow x).written = (s.flow x).sent) ∧
    (∀ x, (s.flow x).loop ≠ .copying →
      (s.flow x).sawEnd = true ∨ (s.flow x.other).sawEnd = true) ∧
    (∀ x, Left s x →
      ∃ es t, relay.system.run s es = some t ∧ (t.flow x).sawEnd = true) ∧
    (∀ x, (s.flow x).loop = .done →
      s.closed x.other = true ∧ (relay ≠ .socks5 → s.closed x = true)) ∧
    ∀ y, s.closed y = true → ∀ es t, relay.system.run s es = some t →
      Frozen y (readFrom (s.flow y)) (s.flow y.other).written t := by
  have hinv := inv_of_reachable hs
  refine ⟨fun x => ?_, fun x hsaw => ?_, hinv.stopped, fun x => exists_run_readEnd relay,
    fun x hdone => ⟨?_, fun hrelay => ?_⟩, fun y hclosed es t ht => frozen_run ht hclosed⟩
  · obtain ⟨hwhole, -⟩ := hinv.flows x
    rw [hwhole, List.append_assoc]
    exact List.prefix_append _ _
  · obtain ⟨hwhole, hend⟩ := hinv.flows x
    obtain ⟨hended, -, hbuf, hinbox⟩ := hend hsaw
    rw [hbuf, hinbox, List.append_nil, List.append_nil] at hwhole
    exact ⟨hended, hwhole.symm⟩
  · apply closed_of_done hs hdone
    cases relay <;> exact List.mem_cons_self ..
  · apply closed_of_done hs hdone
    cases relay with
    | socks5 => exact absurd rfl hrelay
    | exitTCP => exact List.mem_cons_of_mem _ (List.mem_singleton_self x)
    | packetTCP => exact List.mem_cons_of_mem _ (List.mem_singleton_self x)

/-- The client sends a byte and ends its direction; the relay carries it, and closes both sides. -/
theorem carried_request : ∃ s, Relay.packetTCP.system.run Relay.packetTCP.system.init
    [.send .client [1], .finish .client, .read .client 1, .write .client 1, .readEnd .client,
      .close .client, .close .client, .close .client] = some s ∧
    (s.flow .client).written = (s.flow .client).sent ∧
    s.closed .target = true ∧ s.closed .client = true ∧
    ∀ es t, Relay.packetTCP.system.run s es = some t → (t.flow .target).written = [] := by
  obtain ⟨s, hs, hsaw, hdone, hwritten⟩ : ∃ s,
      Relay.packetTCP.system.run Relay.packetTCP.system.init
        [.send .client [1], .finish .client, .read .client 1, .write .client 1, .readEnd .client,
          .close .client, .close .client, .close .client] = some s ∧
      (s.flow .client).sawEnd = true ∧ (s.flow .client).loop = .done ∧
      (s.flow .target).written = [] := ⟨_, rfl, rfl, rfl, rfl⟩
  obtain ⟨-, hfull, -, -, hclosed, hfrozen⟩ := carried ⟨_, hs⟩
  obtain ⟨htarget, hclient⟩ := hclosed .client hdone
  have hnot : Relay.packetTCP ≠ .socks5 := nofun
  exact ⟨s, hs, (hfull .client hsaw).2, htarget, hclient hnot, fun es t ht =>
    (hfrozen .client (hclient hnot) es t ht).written.trans hwritten⟩

/-- Both sides have ended and both loops too, but not all that the target sent was written. -/
def Cut (relay : Relay) : Prop :=
  ∃ es s, relay.system.run relay.system.init es = some s ∧
    (∀ x, (s.flow x).ended = true ∧ (s.flow x).loop = .done) ∧
    (s.flow .target).written ≠ (s.flow .target).sent

/-- The client ends its direction before the target answers. -/
theorem half_close_cut : Cut .socks5 ∧ Cut .exitTCP ∧ Cut .packetTCP := by
  have hdone {s : State} (hclient : (s.flow .client).ended ∧ (s.flow .client).loop = .done)
      (htarget : (s.flow .target).ended ∧ (s.flow .target).loop = .done) :
      ∀ x, (s.flow x).ended = true ∧ (s.flow x).loop = .done := by
    rintro (_ | _)
    · exact hclient
    · exact htarget
  refine ⟨⟨[.send .client [1], .finish .client, .read .client 1, .write .client 1,
    .readEnd .client, .send .target [2], .close .client, .close .client, .finish .target,
    .readFails .target, .close .target, .close .target], _, rfl, hdone (by decide) (by decide),
    by decide⟩, ?_, ?_⟩
  all_goals exact ⟨[.send .client [1], .finish .client, .read .client 1, .write .client 1,
    .readEnd .client, .send .target [2], .close .client, .close .client, .close .client,
    .finish .target, .readFails .target, .close .target, .close .target, .close .target], _, rfl,
    hdone (by decide) (by decide), by decide⟩

end OpenFlux.Tunnel.Relay
