import Mathlib.Data.List.Nodup
import Mathlib.Data.List.Perm.Subperm
import OpenFlux.App.HysteriaUdpRelay

/-!
# Correctness of the UDP relay

`Inv` says where the open flows are: in the table, each under its source, or with the worker in
`getFlow`, whose source is not in the table then.  Every step keeps it but two: `forEach` of `close`
may end before a flow that has been stored meanwhile, and a worker may store its flow after it.  In
a run in which neither happens (`InTime`) no flow is left open (`safe_of_inTime`).
-/

namespace OpenFlux.App

/-- `close` has come to the end of `forEach`. -/
def ClosePc.visited : ClosePc → Bool
  | .clearing | .stopping | .awaiting | .returned => true
  | .closing | .dropping | .beginning | .visiting _ => false

/-- `close` has cleared the table. -/
def ClosePc.cleared : ClosePc → Bool
  | .stopping | .awaiting | .returned => true
  | .closing | .dropping | .beginning | .visiting _ | .clearing => false

/-- The worker has seen that its source is not in the table. -/
def Stage.looked : Stage → Bool
  | .checking | .opening | .storing _ => true
  | .looking | .starting _ => false

/-- The worker stores a flow next. -/
def Stage.stores : Stage → Bool
  | .storing _ => true
  | .looking | .checking | .opening | .starting _ => false

/-- The worker has seen that there is room in the table. -/
def Stage.checked : Stage → Bool
  | .opening | .storing _ => true
  | .looking | .checking | .starting _ => false

namespace HysteriaUdpRelay

variable {S : Type} {r r' : HysteriaUdpRelay S}

/-- The flow has been closed. -/
def Closed (created : List (Flow S)) (flow : ℕ) : Prop :=
  ∃ f ∈ created[flow]?, f.isOpen = false

/-- The flow has this source. -/
def Has (created : List (Flow S)) (flow : ℕ) (source : S) : Prop :=
  ∃ f, created[flow]? = some f ∧ f.source = source

/-- What `receiveLoop` relies on: the flow it looks at is one, and the one it removes is closed. -/
def Relies (created : List (Flow S)) : LoopPc S → Prop
  | .testing source flow => Has created flow source
  | .removing _ flow => Closed created flow
  | .checking | .receiving | .submitting _ | .expiring | .ended => True

structure Inv (r : HysteriaUdpRelay S) : Prop where
  inside : ∀ h ∈ r.monitor, r.workers h.worker = .inside
  keys : (r.flows.map Prod.fst).Nodup
  entries : ∀ e ∈ r.flows, Has r.created e.2 e.1
  live : ∀ i f, r.created[i]? = some f → f.isOpen = true →
    (f.source, i) ∈ r.flows ∨ ∃ h ∈ r.monitor, h.source = f.source ∧ h.stage = .storing i
  stored : ∀ h ∈ r.monitor, ∀ flow, h.stage = .storing flow → Has r.created flow h.source
  absent : ∀ h ∈ r.monitor, h.stage.looked = true → h.source ∉ r.flows.map Prod.fst
  full : r.flows.length ≤ maxFlows
  room : ∀ h ∈ r.monitor, h.stage.checked = true → r.flows.length < maxFlows
  loop : Relies r.created r.loop
  visited : ∀ pc ∈ r.closer, pc.visited = true → ∀ e ∈ r.flows, Closed r.created e.2
  cleared : ∀ pc ∈ r.closer, pc.cleared = true → r.flows = []
  replies : ∀ p ∈ r.replies, Has r.created p.1 p.2

theorem inv_init [DecidableEq S] : Inv (udpRelay S).init where
  inside := by simp [udpRelay]
  keys := by simp [udpRelay]
  entries := by simp [udpRelay]
  live := by simp [udpRelay]
  stored := by simp [udpRelay]
  absent := by simp [udpRelay]
  full := by simp [udpRelay]
  room := by simp [udpRelay]
  loop := trivial
  visited := by simp [udpRelay]
  cleared := by simp [udpRelay]
  replies := by simp [udpRelay]

/-! ### The flows -/

/-- The flows are the same but for their receivers, and some may have been closed. -/
structure Ages (created created' : List (Flow S)) : Prop where
  has : ∀ {flow : ℕ} {source : S}, Has created flow source → Has created' flow source
  opened : ∀ {i : ℕ} {f' : Flow S}, created'[i]? = some f' → f'.isOpen = true →
    ∃ f, created[i]? = some f ∧ f.isOpen = true ∧ f.source = f'.source

theorem ages_modify {g : Flow S → Flow S} (hsource : ∀ f, (g f).source = f.source)
    (hopen : ∀ f, (g f).isOpen = true → f.isOpen = true) (created : List (Flow S)) (flow : ℕ) :
    Ages created (created.modify flow g) where
  has := by
    rintro i source ⟨f, hf, rfl⟩
    refine ⟨if flow = i then g f else f, by rw [List.getElem?_modify, hf]; rfl, ?_⟩
    split_ifs
    · exact hsource f
    · rfl
  opened := by
    intro i f' hf' hf'open
    rw [List.getElem?_modify, Option.map_eq_map, Option.map_eq_some_iff] at hf'
    obtain ⟨f, hf, rfl⟩ := hf'
    refine ⟨f, hf, ?_, ?_⟩
    · split_ifs at hf'open
      · exact hopen f hf'open
      · exact hf'open
    · split_ifs
      · exact (hsource f).symm
      · rfl

theorem Ages.closed {created created' : List (Flow S)} (h : Ages created created') {flow : ℕ}
    (hclosed : Closed created flow) : Closed created' flow := by
  obtain ⟨f, hf, hopen⟩ := hclosed
  obtain ⟨f', hf', -⟩ := h.has ⟨f, hf, rfl⟩
  refine ⟨f', hf', ?_⟩
  by_contra hopen'
  obtain ⟨f₀, hf₀, hopen₀, -⟩ := h.opened hf' (Bool.of_not_eq_false hopen')
  obtain rfl := Option.some.inj (hf.symm.trans hf₀)
  rw [hopen] at hopen₀
  cases hopen₀

theorem Ages.relies {created created' : List (Flow S)} (h : Ages created created') {loop : LoopPc S}
    (hloop : Relies created loop) : Relies created' loop := by
  cases loop with
  | testing source flow => exact h.has hloop
  | removing source flow => exact h.closed hloop
  | _ => trivial

theorem Inv.ages (h : Inv r) {created : List (Flow S)} (hages : Ages r.created created) :
    Inv { r with created } where
  inside := h.inside
  keys := h.keys
  entries e he := hages.has (h.entries e he)
  live i f hf hopen := by
    obtain ⟨f₀, hf₀, hopen₀, hsource⟩ := hages.opened hf hopen
    rw [← hsource]
    exact h.live i f₀ hf₀ hopen₀
  stored m hm flow hstage := hages.has (h.stored m hm flow hstage)
  absent := h.absent
  full := h.full
  room := h.room
  loop := hages.relies h.loop
  visited pc hpc hvisited e he := hages.closed (h.visited pc hpc hvisited e he)
  cleared := h.cleared
  replies p hp := hages.has (h.replies p hp)

theorem Inv.closeFlow (h : Inv r) (flow : ℕ) : Inv (r.closeFlow flow) :=
  h.ages (ages_modify (g := fun f => { f with isOpen := false }) (fun _ => rfl)
    (fun _ h => absurd h Bool.false_ne_true) _ _)

theorem closed_closeFlow {flow : ℕ} {source : S} (h : Has r.created flow source) :
    Closed (r.closeFlow flow).created flow := by
  obtain ⟨f, hf, -⟩ := h
  refine ⟨{ f with isOpen := false }, ?_, rfl⟩
  rw [HysteriaUdpRelay.closeFlow, List.getElem?_modify_eq, hf]
  rfl

theorem ages_setReceiver (r : HysteriaUdpRelay S) (flow : ℕ) (pc : ReceiverPc) :
    Ages r.created (r.setReceiver flow pc).created :=
  ages_modify (g := fun f => { f with receiver := pc }) (fun _ => rfl) (fun _ h => h) _ _

theorem Inv.setReceiver (h : Inv r) (flow : ℕ) (pc : ReceiverPc) : Inv (r.setReceiver flow pc) :=
  h.ages (ages_setReceiver r flow pc)

/-- The table loses entries of closed flows. -/
theorem Inv.filter (h : Inv r) {p : S × ℕ → Bool}
    (hclosed : ∀ e ∈ r.flows, p e = false → Closed r.created e.2) :
    Inv { r with flows := r.flows.filter p } where
  inside := h.inside
  keys := h.keys.sublist (List.filter_sublist.map Prod.fst)
  entries e he := h.entries e (List.mem_of_mem_filter he)
  live i f hf hopen := by
    refine (h.live i f hf hopen).imp_left fun hmem => List.mem_filter.mpr ⟨hmem, ?_⟩
    by_contra hp
    obtain ⟨f', hf', hfalse⟩ := hclosed _ hmem (Bool.of_not_eq_true hp)
    obtain rfl := Option.some.inj (hf.symm.trans hf')
    rw [hopen] at hfalse
    cases hfalse
  stored := h.stored
  absent m hm hlooked hmem :=
    h.absent m hm hlooked ((List.filter_sublist.map Prod.fst).subset hmem)
  full := Nat.le_trans (List.length_filter_le _ _) h.full
  room m hm hchecked := Nat.lt_of_le_of_lt (List.length_filter_le _ _) (h.room m hm hchecked)
  loop := h.loop
  visited pc hpc hvisited e he := h.visited pc hpc hvisited e (List.mem_of_mem_filter he)
  cleared pc hpc hcleared := by
    show r.flows.filter p = []
    rw [h.cleared pc hpc hcleared, List.filter_nil]
  replies := h.replies

/-! ### The replies -/

theorem inv_receiver {flow : ℕ} {ok : Bool} (h : Inv r) (hstep : r.stepReceiver flow ok = some r') :
    Inv r' := by
  unfold stepReceiver at hstep
  split at hstep
  · cases hstep
  rename_i f hf
  split at hstep
  -- checking
  · obtain rfl := Option.some.inj hstep
    exact h.setReceiver flow _
  -- receiving
  · split_ifs at hstep
    · obtain rfl := Option.some.inj hstep
      exact h.setReceiver flow _
    · obtain rfl := Option.some.inj hstep
      exact h.setReceiver flow _
  -- sending
  · obtain rfl := Option.some.inj hstep
    have hreceiver := h.setReceiver flow .checking
    have hhas := (ages_setReceiver r flow .checking).has ⟨f, hf, rfl⟩
    refine { hreceiver with replies := fun p hp => ?_ }
    dsimp only at hp
    split_ifs at hp
    · rcases List.mem_append.mp hp with hp | hp
      · exact hreceiver.replies p hp
      · obtain rfl := List.mem_singleton.mp hp
        exact hhas
    · exact hreceiver.replies p hp
  · cases hstep
  · cases hstep

/-! ### The workers -/

/-- A worker that is not in `getFlow` goes on. -/
theorem Inv.setWorker (h : Inv r) {w : Fin 4} (hw : r.workers w ≠ .inside) (pc : WorkerPc S) :
    Inv (r.setWorker w pc) := by
  refine { h with inside := fun m hm => ?_ }
  have hne : m.worker ≠ w := by
    rintro rfl
    exact hw (h.inside m hm)
  show Function.update r.workers w pc m.worker = .inside
  rw [Function.update_of_ne hne]
  exact h.inside m hm

/-- The worker in `getFlow` leaves it, and has no flow that is open and not stored. -/
theorem Inv.leave (h : Inv r) {m : Holder S} (hm : r.monitor = some m)
    (hstored : ∀ flow, m.stage ≠ .storing flow) (pc : WorkerPc S) : Inv (r.leave m.worker pc) where
  inside := by simp [HysteriaUdpRelay.leave]
  keys := h.keys
  entries := h.entries
  live i f hf hopen := by
    refine .inl ((h.live i f hf hopen).resolve_right ?_)
    rintro ⟨m', hm', -, hstage⟩
    obtain rfl := Option.some.inj (hm.symm.trans hm')
    exact hstored i hstage
  stored := by simp [HysteriaUdpRelay.leave]
  absent := by simp [HysteriaUdpRelay.leave]
  full := h.full
  room := by simp [HysteriaUdpRelay.leave]
  loop := h.loop
  visited := h.visited
  cleared := h.cleared
  replies := h.replies

/-- The worker in `getFlow` goes on to a stage, and has no flow that is open and not stored. -/
theorem Inv.enter (h : Inv r) {m : Holder S} (hinside : r.workers m.worker = .inside)
    (hstored : ∀ m' ∈ r.monitor, ∀ flow, m'.stage ≠ .storing flow)
    (hstage : ∀ flow, m.stage ≠ .storing flow)
    (habsent : m.stage.looked = true → m.source ∉ r.flows.map Prod.fst)
    (hroom : m.stage.checked = true → r.flows.length < maxFlows) :
    Inv { r with monitor := some m } where
  inside := by simpa using hinside
  keys := h.keys
  entries := h.entries
  live i f hf hopen := by
    refine .inl ((h.live i f hf hopen).resolve_right ?_)
    rintro ⟨m', hm', -, hstage'⟩
    exact hstored m' hm' i hstage'
  stored m' hm' flow hstage' := by
    obtain rfl := Option.some.inj hm'
    exact absurd hstage' (hstage flow)
  absent := by simpa using habsent
  full := h.full
  room := by simpa using hroom
  loop := h.loop
  visited := h.visited
  cleared := h.cleared
  replies := h.replies

theorem getElem?_append {created : List (Flow S)} {i : ℕ} {f : Flow S} (h : created[i]? = some f)
    (l : List (Flow S)) : (created ++ l)[i]? = some f := by
  rw [List.getElem?_append_left (List.getElem?_eq_some_iff.mp h).1, h]

theorem Has.append {created : List (Flow S)} {flow : ℕ} {source : S} (h : Has created flow source)
    (l : List (Flow S)) : Has (created ++ l) flow source :=
  h.imp fun _ hf => hf.imp_left fun hget => getElem?_append hget l

theorem Closed.append {created : List (Flow S)} {flow : ℕ} (h : Closed created flow)
    (l : List (Flow S)) : Closed (created ++ l) flow :=
  h.imp fun _ hf => hf.imp_left fun hget => getElem?_append hget l

theorem Relies.append {created : List (Flow S)} {loop : LoopPc S} (h : Relies created loop)
    (l : List (Flow S)) : Relies (created ++ l) loop := by
  cases loop with
  | testing source flow => exact Has.append h l
  | removing source flow => exact Closed.append h l
  | _ => trivial

/-- A flow is opened. -/
theorem Inv.open (h : Inv r) {m : Holder S} (hm : r.monitor = some m)
    (hstage : m.stage = .opening) :
    Inv { r with
      created := r.created ++ [{ source := m.source }]
      monitor := some { m with stage := .storing r.created.length } } where
  inside m' hm' := by
    obtain rfl := Option.some.inj hm'
    exact h.inside m hm
  keys := h.keys
  entries e he := (h.entries e he).append _
  live i f hf hopen := by
    by_cases hlt : i < r.created.length
    · rw [List.getElem?_append_left hlt] at hf
      refine .inl ((h.live i f hf hopen).resolve_right ?_)
      rintro ⟨m', hm', -, hstage'⟩
      obtain rfl := Option.some.inj (hm.symm.trans hm')
      rw [hstage] at hstage'
      cases hstage'
    · rw [List.getElem?_append_right (Nat.not_lt.mp hlt), List.getElem?_singleton] at hf
      split_ifs at hf with hzero
      obtain rfl := Option.some.inj hf
      exact .inr ⟨_, rfl, rfl, congrArg Stage.storing (by omega)⟩
  stored m' hm' flow hstage' := by
    obtain rfl := Option.some.inj hm'
    obtain rfl := Stage.storing.inj hstage'
    exact ⟨_, List.getElem?_concat_length, rfl⟩
  absent m' hm' _ := by
    obtain rfl := Option.some.inj hm'
    exact h.absent m hm (by rw [hstage]; rfl)
  full := h.full
  room m' hm' _ := by
    obtain rfl := Option.some.inj hm'
    exact h.room m hm (by rw [hstage]; rfl)
  loop := h.loop.append _
  visited pc hpc hvisited e he := (h.visited pc hpc hvisited e he).append _
  cleared := h.cleared
  replies p hp := (h.replies p hp).append _

/-! ### The table -/

theorem mem_of_lookup [DecidableEq S] {flows : List (S × ℕ)} {source : S} {flow : ℕ}
    (h : flows.lookup source = some flow) : (source, flow) ∈ flows := by
  obtain ⟨before, after, rfl, -⟩ := List.lookup_eq_some_iff.mp h
  exact List.mem_append_right _ (List.mem_cons_self ..)

theorem not_mem_of_lookup [DecidableEq S] {flows : List (S × ℕ)} {source : S}
    (h : flows.lookup source = none) : source ∉ flows.map Prod.fst := by
  intro hmem
  obtain ⟨e, he, rfl⟩ := List.mem_map.mp hmem
  have hne := List.lookup_eq_none_iff.mp h e he
  simp at hne

/-! ### The receive loop -/

theorem Inv.setLoop (h : Inv r) (loop : LoopPc S) (hloop : Relies r.created loop) :
    Inv { r with loop } :=
  { h with loop := hloop }

theorem inv_loop [DecidableEq S] {e : LoopEvent S} (h : Inv r) (hstep : r.stepLoop e = some r') :
    Inv r' := by
  unfold stepLoop at hstep
  split at hstep
  -- checking
  · obtain rfl := Option.some.inj hstep
    exact h.setLoop _ (by split_ifs <;> trivial)
  -- receiving
  · split_ifs at hstep
    obtain rfl := Option.some.inj hstep
    exact h.setLoop _ trivial
  · split_ifs at hstep
    obtain rfl := Option.some.inj hstep
    exact h.setLoop _ trivial
  · obtain rfl := Option.some.inj hstep
    exact h.setLoop _ trivial
  -- submitting
  · split_ifs at hstep
    · obtain rfl := Option.some.inj hstep
      exact h.setLoop _ trivial
    · obtain rfl := Option.some.inj hstep
      exact { h.setLoop .expiring trivial with }
  -- expiring
  · obtain ⟨flow, hlookup, rfl⟩ := Option.map_eq_some_iff.mp hstep
    exact h.setLoop _ (h.entries _ (mem_of_lookup hlookup))
  · obtain rfl := Option.some.inj hstep
    exact h.setLoop _ trivial
  -- testing
  · rename_i source flow hloop
    obtain rfl := Option.some.inj hstep
    have hrelies := h.loop
    rw [hloop] at hrelies
    exact (h.closeFlow flow).setLoop _ (closed_closeFlow hrelies)
  · obtain rfl := Option.some.inj hstep
    exact h.setLoop _ trivial
  -- removing
  · rename_i source flow hloop
    obtain rfl := Option.some.inj hstep
    have hrelies := h.loop
    rw [hloop] at hrelies
    refine (h.filter fun e _ he => ?_).setLoop .expiring trivial
    have heq : e = (source, flow) := by simpa using he
    rw [heq]
    exact hrelies
  · cases hstep

/-! ### The steps of `getFlow` -/

/-- A flow is stored. -/
theorem Inv.store [DecidableEq S] (h : Inv r) {m : Holder S} {flow : ℕ} (hm : r.monitor = some m)
    (hstage : m.stage = .storing flow) (hvisited : ∀ pc ∈ r.closer, pc.visited = false) :
    Inv { r with
      flows := (m.source, flow) :: r.flows.filter (·.1 ≠ m.source)
      monitor := some { m with stage := .starting flow } } := by
  have habsent := h.absent m hm (by rw [hstage]; rfl)
  have hall : r.flows.filter (·.1 ≠ m.source) = r.flows := by
    refine List.filter_eq_self.mpr fun e he => decide_eq_true fun heq => ?_
    exact habsent (List.mem_map.mpr ⟨e, he, heq⟩)
  rw [hall]
  exact {
    inside := fun m' hm' => by
      obtain rfl := Option.some.inj hm'
      exact h.inside m hm
    keys := List.nodup_cons.mpr ⟨habsent, h.keys⟩
    entries := List.forall_mem_cons.mpr ⟨h.stored m hm flow hstage, h.entries⟩
    live := fun i f hf hopen => by
      refine .inl (List.mem_cons.mpr ?_)
      rcases h.live i f hf hopen with hmem | ⟨m', hm', hsource, hstage'⟩
      · exact .inr hmem
      · obtain rfl := Option.some.inj (hm.symm.trans hm')
        obtain rfl := Stage.storing.inj (hstage.symm.trans hstage')
        exact .inl (Prod.ext hsource.symm rfl)
    stored := by simp
    absent := by simp [Stage.looked]
    full := h.room m hm (by rw [hstage]; rfl)
    room := by simp [Stage.checked]
    loop := h.loop
    visited := fun pc hpc htrue => by
      rw [hvisited pc hpc] at htrue
      cases htrue
    cleared := fun pc hpc htrue => by
      have hfalse := hvisited pc hpc
      cases pc <;> cases htrue <;> cases hfalse
    replies := h.replies }

theorem inv_getFlow [DecidableEq S] {m : Holder S} {ok : Bool} (h : Inv r) (hm : r.monitor = some m)
    (hvisited : ∀ flow, m.stage = .storing flow → ∀ pc ∈ r.closer, pc.visited = false) :
    Inv (r.stepGetFlow m ok) := by
  have hstored : ∀ {stage : Stage}, m.stage = stage → (∀ flow, stage ≠ .storing flow) →
      ∀ m' ∈ r.monitor, ∀ flow, m'.stage ≠ .storing flow := by
    rintro stage rfl hne m' hm'
    obtain rfl := Option.some.inj (hm.symm.trans hm')
    exact hne
  unfold stepGetFlow
  cases hstage : m.stage with
  | looking =>
    dsimp only
    cases hlookup : r.flows.lookup m.source with
    | some flow => exact h.leave hm (by simp [hstage]) _
    | none =>
      exact h.enter (h.inside m hm) (hstored hstage (by simp)) (by simp)
        (fun _ => not_mem_of_lookup hlookup) (by simp [Stage.checked])
  | checking =>
    dsimp only
    split_ifs with hlt
    · exact h.enter (h.inside m hm) (hstored hstage (by simp)) (by simp)
        (fun _ => h.absent m hm (by rw [hstage]; rfl)) (fun _ => hlt)
    · exact h.leave hm (by simp [hstage]) _
  | opening =>
    dsimp only
    split_ifs
    · exact h.open hm hstage
    · exact h.leave hm (by simp [hstage]) _
  | storing flow => exact h.store hm hstage (hvisited flow hstage)
  | starting flow =>
    exact (h.setReceiver flow .checking).leave (m := m) hm (by simp [hstage]) _

/-- The worker stores a flow. -/
def Stores (r : HysteriaUdpRelay S) (w : Fin 4) : Prop :=
  ∃ m ∈ r.monitor, m.worker = w ∧ m.stage.stores = true

theorem inv_worker [DecidableEq S] {w : Fin 4} {ok : Bool} (h : Inv r)
    (hvisited : Stores r w → ∀ pc ∈ r.closer, pc.visited = false)
    (hstep : r.stepWorker w ok = some r') : Inv r' := by
  unfold stepWorker at hstep
  cases hw : r.workers w with
  | idle =>
    simp only [hw] at hstep
    split at hstep
    · obtain rfl := Option.some.inj hstep
      exact { h.setWorker (w := w) (by simp [hw]) _ with }
    · cases hstep
  | waiting source =>
    simp only [hw] at hstep
    split_ifs at hstep with hfree
    obtain rfl := Option.some.inj hstep
    have hnone := Option.isNone_iff_eq_none.mp hfree
    refine (h.setWorker (w := w) (by simp [hw]) .inside).enter ?_ ?_ ?_ ?_ ?_
    · exact Function.update_self ..
    · show ∀ m' ∈ r.monitor, _
      simp [hnone]
    · simp
    · simp [Stage.looked]
    · simp [Stage.checked]
  | inside =>
    simp only [hw] at hstep
    split at hstep
    · rename_i m hm
      split_ifs at hstep with hworker
      obtain rfl := Option.some.inj hstep
      exact inv_getFlow h hm fun flow hstage => hvisited ⟨m, hm, hworker, by rw [hstage]; rfl⟩
    · cases hstep
  | sending flow =>
    simp only [hw] at hstep
    obtain rfl := Option.some.inj hstep
    exact h.setWorker (by simp [hw]) _

/-! ### `close` -/

/-- `close` goes on, with nothing to rely on but the flows of the table. -/
theorem Inv.setCloser (h : Inv r) (pc : ClosePc)
    (hvisited : pc.visited = true → ∀ e ∈ r.flows, Closed r.created e.2)
    (hcleared : pc.cleared = true → r.flows = []) : Inv { r with closer := some pc } :=
  { h with
    visited := fun pc' hpc' => by
      obtain rfl := Option.some.inj hpc'
      exact hvisited
    cleared := fun pc' hpc' => by
      obtain rfl := Option.some.inj hpc'
      exact hcleared }

theorem inv_close [DecidableEq S] {entry : Option S} (h : Inv r)
    (hvisited : r.closer = some (.visiting []) → entry = none →
      ∀ e ∈ r.flows, Closed r.created e.2)
    (hstep : r.stepClose entry = some r') : Inv r' := by
  have hearly : ∀ pc : ClosePc, pc.visited = false → Inv { r with closer := some pc } := by
    intro pc hfalse
    refine h.setCloser pc (fun htrue => ?_) (fun htrue => ?_)
    · rw [hfalse] at htrue
      cases htrue
    · cases pc <;> cases htrue <;> cases hfalse
  unfold stepClose at hstep
  split at hstep
  -- the socket
  · obtain rfl := Option.some.inj hstep
    exact { hearly .dropping rfl with }
  · obtain rfl := Option.some.inj hstep
    exact { hearly .beginning rfl with }
  -- `forEach`
  · obtain rfl := Option.some.inj hstep
    exact hearly _ rfl
  · rename_i flow flows hcloser
    obtain rfl := Option.some.inj hstep
    exact (hearly (.visiting flows) rfl).closeFlow flow
  · obtain ⟨flow, -, rfl⟩ := Option.map_eq_some_iff.mp hstep
    exact h.closeFlow flow
  · rename_i hcloser
    obtain rfl := Option.some.inj hstep
    exact h.setCloser _ (fun _ => hvisited hcloser rfl) fun htrue => by cases htrue
  -- the table
  · rename_i hcloser
    obtain rfl := Option.some.inj hstep
    have hempty := h.filter (p := fun _ => false) fun e he _ =>
      h.visited .clearing hcloser rfl e he
    rw [List.filter_false] at hempty
    exact hempty.setCloser .stopping (fun _ => by simp) fun _ => rfl
  -- the workers
  · rename_i hcloser
    obtain rfl := Option.some.inj hstep
    exact { h.setCloser .awaiting (fun _ => h.visited .stopping hcloser rfl)
      (fun _ => h.cleared .stopping hcloser rfl) with }
  · rename_i hcloser
    obtain rfl := Option.some.inj hstep
    exact h.setCloser _ (fun _ => h.visited .awaiting hcloser rfl)
      fun _ => h.cleared .awaiting hcloser rfl
  · cases hstep

/-! ### Runs -/

/-- `close` has not come to the end of `forEach`. -/
def Unvisited (r : HysteriaUdpRelay S) : Prop := ∀ pc ∈ r.closer, pc.visited = false

/-- All flows of the table have been closed. -/
def AllClosed (r : HysteriaUdpRelay S) : Prop := ∀ e ∈ r.flows, Closed r.created e.2

/-- `close` leaves no flow behind: `forEach` ends when all flows of the table are closed, and no
worker stores a flow after it. -/
def InTime (r : HysteriaUdpRelay S) : Event S → Prop
  | .work w _ => Stores r w → Unvisited r
  | .close none => r.closer = some (.visiting []) → AllClosed r
  | .close (some _) | .receive _ | .reply _ _ | .callClose => True

theorem inv_step [DecidableEq S] {e : Event S} (h : Inv r) (hin : InTime r e)
    (hstep : r.step e = some r') : Inv r' := by
  cases e with
  | receive e => exact inv_loop h hstep
  | work w ok => exact inv_worker h hin hstep
  | reply flow ok => exact inv_receiver h hstep
  | callClose =>
    simp only [step] at hstep
    split_ifs at hstep with hnone
    obtain rfl := Option.some.inj hstep
    exact { h.setCloser .closing (fun htrue => by cases htrue) (fun htrue => by cases htrue) with }
  | close entry =>
    refine inv_close h (fun hcloser hentry => ?_) hstep
    subst hentry
    exact hin hcloser

/-- What is promised of the relay. -/
structure Safe (r : HysteriaUdpRelay S) : Prop where
  table : r.flows.length ≤ maxFlows
  bounded : r.created.countP Flow.isOpen ≤ maxFlows
  single : ∀ (i j : ℕ) (f g : Flow S), r.created[i]? = some f → r.created[j]? = some g →
    f.isOpen = true → g.isOpen = true → f.source = g.source → i = j
  replies : ∀ p ∈ r.replies, Has r.created p.1 p.2
  closed : r.closer = some .returned → (∀ w, r.workers w = .idle) →
    ∀ f ∈ r.created, f.isOpen = false

/-- An open flow that is not in the table is the one of the worker in `getFlow`. -/
theorem Inv.single (h : Inv r) {i j : ℕ} {f g : Flow S} (hf : r.created[i]? = some f)
    (hg : r.created[j]? = some g) (hfopen : f.isOpen = true) (hgopen : g.isOpen = true)
    (hsource : f.source = g.source) : i = j := by
  rcases h.live i f hf hfopen with hmem | ⟨m, hm, hmsource, hstage⟩ <;>
    rcases h.live j g hg hgopen with hmem' | ⟨m', hm', hmsource', hstage'⟩
  · exact congrArg Prod.snd (List.inj_on_of_nodup_map h.keys hmem hmem' hsource)
  · have habsent := h.absent m' hm' (by rw [hstage']; rfl)
    rw [hmsource', ← hsource] at habsent
    exact absurd (List.mem_map_of_mem hmem) habsent
  · have habsent := h.absent m hm (by rw [hstage]; rfl)
    rw [hmsource, hsource] at habsent
    exact absurd (List.mem_map_of_mem hmem') habsent
  · obtain rfl := Option.some.inj (hm.symm.trans hm')
    exact Stage.storing.inj (hstage.symm.trans hstage')

/-- The sources of open flows, which are open flows of one list. -/
theorem nodup_sources {created : List (Flow S)}
    (h : ∀ (i j : ℕ) (f g : Flow S), created[i]? = some f → created[j]? = some g →
      f.isOpen = true → g.isOpen = true → f.source = g.source → i = j) :
    ((created.filter Flow.isOpen).map Flow.source).Nodup := by
  induction created with
  | nil => exact List.nodup_nil
  | cons f created ih =>
    have hrest := ih fun i j g g' hg hg' hopen hopen' hsource =>
      Nat.succ.inj (h (i + 1) (j + 1) g g' hg hg' hopen hopen' hsource)
    by_cases hf : f.isOpen = true
    · rw [List.filter_cons_of_pos hf, List.map_cons]
      refine List.nodup_cons.mpr ⟨fun hmem => ?_, hrest⟩
      obtain ⟨g, hg, hsource⟩ := List.mem_map.mp hmem
      obtain ⟨hg, hopen⟩ := List.mem_filter.mp hg
      obtain ⟨i, hi⟩ := List.mem_iff_getElem?.mp hg
      exact absurd (h 0 (i + 1) f g rfl hi hf hopen hsource.symm) (by simp)
    · rwa [List.filter_cons_of_neg hf]

theorem Inv.bounded (h : Inv r) : r.created.countP Flow.isOpen ≤ maxFlows := by
  have hnodup := nodup_sources fun _ _ _ _ => h.single
  have hlength : r.created.countP Flow.isOpen =
      ((r.created.filter Flow.isOpen).map Flow.source).length := by
    rw [List.length_map, List.countP_eq_length_filter]
  -- an open flow is in the table, or it is the one that is stored next
  have hwhere : ∀ source ∈ (r.created.filter Flow.isOpen).map Flow.source,
      source ∈ r.flows.map Prod.fst ∨
        ∃ m ∈ r.monitor, m.source = source ∧ m.stage.checked = true := by
    intro source hsource
    obtain ⟨f, hf, rfl⟩ := List.mem_map.mp hsource
    obtain ⟨hf, hopen⟩ := List.mem_filter.mp hf
    obtain ⟨i, hi⟩ := List.mem_iff_getElem?.mp hf
    refine (h.live i f hi hopen).imp (List.mem_map_of_mem (f := Prod.fst)) ?_
    rintro ⟨m, hm, hsource, hstage⟩
    exact ⟨m, hm, hsource, by rw [hstage]; rfl⟩
  rw [hlength]
  by_cases hroom : ∃ m ∈ r.monitor, m.stage.checked = true
  · obtain ⟨m, hm, hchecked⟩ := hroom
    have hsub : (r.created.filter Flow.isOpen).map Flow.source ⊆
        m.source :: r.flows.map Prod.fst := by
      intro source hsource
      rcases hwhere source hsource with hmem | ⟨m', hm', rfl, -⟩
      · exact List.mem_cons_of_mem _ hmem
      · obtain rfl := Option.some.inj (hm.symm.trans hm')
        exact List.mem_cons_self
    have hle := (List.subperm_of_subset hnodup hsub).length_le
    have hlt := h.room m hm hchecked
    simp only [List.length_cons, List.length_map] at hle ⊢
    omega
  · have hsub : (r.created.filter Flow.isOpen).map Flow.source ⊆ r.flows.map Prod.fst := by
      intro source hsource
      rcases hwhere source hsource with hmem | ⟨m, hm, -, hchecked⟩
      · exact hmem
      · exact absurd ⟨m, hm, hchecked⟩ hroom
    have hle := (List.subperm_of_subset hnodup hsub).length_le
    have hfull := h.full
    simp only [List.length_map] at hle ⊢
    omega

theorem Inv.closed (h : Inv r) (hcloser : r.closer = some .returned)
    (hidle : ∀ w, r.workers w = .idle) : ∀ f ∈ r.created, f.isOpen = false := by
  intro f hf
  obtain ⟨i, hi⟩ := List.mem_iff_getElem?.mp hf
  by_contra hopen
  rcases h.live i f hi (Bool.of_not_eq_false hopen) with hmem | ⟨m, hm, -⟩
  · rw [h.cleared .returned hcloser rfl] at hmem
    cases hmem
  · have hinside := h.inside m hm
    rw [hidle] at hinside
    cases hinside

/-- **The relay**: in every run in which `close` comes to every flow that is stored, there are never
too many open flows or two of one source, replies go to the source of their flow, and nothing is
open once `close` has returned and the workers are done. -/
theorem safe_of_inTime [DecidableEq S] {es : List (Event S)}
    (hrun : (udpRelay S).run (udpRelay S).init es = some r)
    (hin : (udpRelay S).Along InTime (udpRelay S).init es) : Safe r := by
  have h : Inv r := EventSystem.run_invariant (S := udpRelay S) (I := Inv) (P := InTime)
    (fun _ _ _ h hin hstep => inv_step h hin hstep) inv_init hin hrun
  exact ⟨h.full, h.bounded, fun _ _ _ _ => h.single, h.replies, h.closed⟩

instance (created : List (Flow S)) (flow : ℕ) : Decidable (Closed created flow) :=
  Option.decidableExistsMem _

instance (r : HysteriaUdpRelay S) (w : Fin 4) : Decidable (Stores r w) :=
  Option.decidableExistsMem _

instance (r : HysteriaUdpRelay S) : Decidable (Unvisited r) :=
  Option.decidableForallMem (p := fun pc : ClosePc => pc.visited = false) r.closer

instance (r : HysteriaUdpRelay S) : Decidable (AllClosed r) :=
  List.decidableBAll (fun e : S × ℕ => Closed r.created e.2) r.flows

instance (r : HysteriaUdpRelay S) : ∀ e, Decidable (InTime r e)
  | .work w _ => inferInstanceAs (Decidable (Stores r w → Unvisited r))
  | .close none => inferInstanceAs (Decidable (_ → AllClosed r))
  | .close (some _) | .receive _ | .reply _ _ | .callClose => instDecidableTrue

/-- One flow, which is stored before `close` begins. -/
def storedInTime : List (Event ℕ) :=
  [.receive .go, .receive (.packet 7), .receive .go] ++
    List.replicate 8 (.work (Fin.last 3) true) ++ [.callClose] ++ List.replicate 8 (.close none)

theorem safe_storedInTime : ∃ r, (udpRelay ℕ).run (udpRelay ℕ).init storedInTime = some r ∧
    r.closer = some .returned ∧ Safe r := by
  have hcloser : ((udpRelay ℕ).run (udpRelay ℕ).init storedInTime).map (·.closer) =
      some (some .returned) := by decide
  obtain ⟨r, hrun, hreturned⟩ := Option.map_eq_some_iff.mp hcloser
  exact ⟨r, hrun, hreturned, safe_of_inTime hrun (by decide)⟩

/-- One flow, which is opened while `close` runs. -/
def storedLate : List (Event ℕ) :=
  [.receive .go, .receive (.packet 7), .receive .go] ++
    List.replicate 4 (.work (Fin.last 3) true) ++ [.callClose] ++
    List.replicate 7 (.close none) ++ List.replicate 4 (.work (Fin.last 3) true)

/-- It is still open when `close` has returned and the workers are done. -/
theorem not_safe_storedLate : ¬ ∀ (es : List (Event ℕ)) (r : HysteriaUdpRelay ℕ),
    (udpRelay ℕ).run (udpRelay ℕ).init es = some r → Safe r := by
  intro h
  have hleft : ((udpRelay ℕ).run (udpRelay ℕ).init storedLate).map (fun r =>
      (r.closer, List.ofFn r.workers, r.created.map Flow.isOpen)) =
      some (some .returned, List.replicate 4 .idle, [true]) := by decide
  obtain ⟨r, hrun, hleft⟩ := Option.map_eq_some_iff.mp hleft
  simp only [Prod.mk.injEq] at hleft
  obtain ⟨hcloser, hworkers, hopen⟩ := hleft
  have hidle : ∀ w, r.workers w = .idle := fun w =>
    List.eq_of_mem_replicate (hworkers ▸ List.mem_ofFn.mpr ⟨w, rfl⟩)
  obtain ⟨f, hf, hf'⟩ := List.mem_map.mp (hopen ▸ List.mem_singleton_self true)
  rw [(h _ r hrun).closed hcloser hidle f hf] at hf'
  cases hf'

end HysteriaUdpRelay

end OpenFlux.App
