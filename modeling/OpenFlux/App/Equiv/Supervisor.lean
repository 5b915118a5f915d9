import OpenFlux.App.Supervisor

/-!
# Watchers of earlier runs

A watcher shares the fields, the port and the files with those of later runs, and looks at what
tells it that its run is over only at some of its steps.  `Kept` says that no earlier run changes
what a later one shows; `Clear` asks of every call of `start` that takes effect that what is left of
earlier runs will look before it writes, and then the supervisor keeps it (`kept_along_clear`).
Nothing in the code sees to it: a watcher that the client of the old run has just answered writes
into the new one (`not_kept_late`).

Under the condition a thread is of the latest run (`Own`), an earlier one that will look before it
writes (`Settled`), or a call of `stop` after the latest start (`Ending`).  `Evolves` is what the
steps of each of them let the others rely on, and `own_step`, `settled_step` and `ending_step` say
what a thread of each kind does.
-/

namespace OpenFlux.App.Supervisor

open EventSystem

/-- The client of the latest run has accepted a connection. -/
def Accepted (s : Supervisor) : Prop := ∃ p ∈ s.procs, p.run = s.starts ∧ p.accepted = true

/-- What a supervisor shows comes from the latest run, and stays until this run is over. -/
structure Kept (s : Supervisor) : Prop where
  ready : s.ready = true → s.Accepted
  key : s.decided = false → ∀ key ∈ s.written, s.keyFile = some key
  reports : ∀ r ∈ s.reports, r.1 = r.2
  udpRelay : ∀ run ∈ s.udpRelay, run = s.starts
  relayed : s.relayed = true → s.ended = false → s.udpRelay = some s.starts

/-! ### The condition -/

/-- Operations that look at what tells a thread of an earlier run to leave, or begin anew. -/
def checks : Op → Bool
  | .takeRunning _ | .shutDown | .breakIfDead | .sleep | .returnIfReplaced => true
  | _ => false

/-- Operations that neither look nor change what others read. -/
def idle : Op → Bool
  | .nextGeneration | .breakIfStopping | .breakIfNewer | .waitFor | .returnIfStopping
  | .returnIfNewer => true
  | _ => false

/-- All others. -/
def acts (op : Op) : Bool := !checks op && !idle op

/-- The process has exited, and is not the supervisor's any more. -/
def gone (s : Supervisor) (q : ℕ) : Bool := (s.procs[q]?).any (!·.alive) && s.process ≠ some q

/-- The thread is done, or looks before it acts and then finds its process gone. -/
def Looks (s : Supervisor) (t : Thread Locals Op) : Prop :=
  t.code = [] ∨ Ahead acts checks t.code = false ∧ ∀ q ∈ t.locals.process, s.gone q = true

instance (s : Supervisor) (t : Thread Locals Op) : Decidable (s.Looks t) :=
  inferInstanceAs (Decidable (_ ∨ _ ∧ _))

/-- Thread `i` is at a call of `start` that takes effect. -/
def Begins (p : Pool Supervisor Locals Op) (i : ℕ) : Bool :=
  !p.state.running && (p.threads[i]?).any fun t => (t.code.head?).any fun
    | .takeRunning _ => true
    | _ => false

/-- What is asked of a step: where a call of `start` takes effect, nothing of an earlier run is left
to be seen, no callback waits, and every other thread looks before it acts. -/
def Clear (p : Pool Supervisor Locals Op) : Event → Prop
  | .run i _ => Begins p i = true → p.state.ready = false ∧ p.state.udpRelay = none ∧
    p.state.posted = [] ∧ ∀ t ∈ p.others i, p.state.Looks t
  | _ => True

instance (p : Pool Supervisor Locals Op) : DecidablePred (Clear p)
  | .run i _ => inferInstanceAs (Decidable (Begins p i = true → p.state.ready = false ∧
    p.state.udpRelay = none ∧ p.state.posted = [] ∧ ∀ t ∈ p.others i, p.state.Looks t))
  | .start _ | .stop | .exit _ | .output _ | .callback => .isTrue trivial

/-! ### The three kinds of threads -/

variable {P : Program} {s s' : Supervisor} {v : Locals} {op : Op} {rest code : List Op}
  {t : Thread Locals Op} {c : Choice} {r : Effect Supervisor Locals Op}

def isReady : Op → Bool
  | .setReady => true
  | _ => false

def deletes : Op → Bool
  | .deleteKey => true
  | _ => false

def closes : Op → Bool
  | .closeRelay => true
  | _ => false

def fails : Op → Bool
  | .setError _ => true
  | _ => false

/-- Operations after which the run is over. -/
def decides (op : Op) : Bool := isReady op || fails op

def kills : Op → Bool
  | .killStale => true
  | _ => false

/-- Operations of a watcher before it has a connection, and the one that launches it. -/
def watches : Op → Bool
  | .launchWatch | .breakIfDead | .connect | .timeout | .sleep => true
  | _ => false

/-- Operations of the threads of a run. -/
def ofRun : Op → Bool
  | .takeRunning _ | .shutDown | .readProcess => false
  | _ => true

/-- What `stop` does once `stopping` is set. -/
def ends : Op → Bool
  | .clearReady | .clearRunning | .closeRelay | .readProcess | .kill | .clearProcess
  | .deleteKey => true
  | _ => false

/-- The processes that are alive are of the latest run. -/
def Fresh (s : Supervisor) : Prop := ∀ p ∈ s.procs, p.alive = true → p.run = s.starts

/-- What holds of the supervisor, seen or not. -/
structure Good (s : Supervisor) : Prop extends Kept s where
  posted : ∀ call ∈ s.posted, call.1 = s.starts
  procs : ∀ p ∈ s.procs, p.run ≤ s.starts

/-- A thread of the latest run: its client is of this run, and it comes to set `ready`, to delete
the key, to close the relay and to probe the port only when it may. -/
structure Own (s : Supervisor) (t : Thread Locals Op) : Prop where
  run : t.locals.run = s.starts
  process : ∀ q ∈ t.locals.process, ∃ p, s.procs[q]? = some p ∧ p.run = s.starts
  ready : t.code.any isReady = true → s.Accepted
  key : Ahead deletes decides t.code = true → s.decided = true
  relay : Ahead closes fails t.code = true → s.ended = true
  probes : Ahead watches kills t.code = true → s.Fresh
  ops : t.code.all ofRun = true

/-- A thread of an earlier run, or a call that has not begun. -/
def Settled (s : Supervisor) (t : Thread Locals Op) : Prop :=
  t.code = [] ∨ Ahead acts checks t.code = false ∧ ∀ q ∈ t.locals.process,
    ∃ p, s.procs[q]? = some p ∧ p.alive = false ∧ p.run ≠ s.starts ∧ s.process ≠ some q

/-- A call of `stop` that has begun after the latest start. -/
structure Ending (s : Supervisor) (t : Thread Locals Op) : Prop where
  decided : s.decided = true
  ended : s.ended = true
  ops : t.code.all ends = true

/-- A thread has its place among these. -/
def Placed (s : Supervisor) (t : Thread Locals Op) : Prop := Own s t ∨ Settled s t ∨ Ending s t

/-! ### What the threads let each other rely on -/

/-- What a step keeps that is not a start. -/
structure Evolves (s s' : Supervisor) : Prop where
  starts : s'.starts = s.starts
  decided : s.decided = true → s'.decided = true
  ended : s.ended = true → s'.ended = true
  accepted : s.Accepted → s'.Accepted
  fresh : s.Fresh → s'.Fresh
  procs : ∀ (q : ℕ) (p : Proc), s.procs[q]? = some p →
    ∃ p', s'.procs[q]? = some p' ∧ p'.run = p.run ∧ (p.alive = false → p'.alive = false)
  process : ∀ q, s'.process = some q →
    s.process = some q ∨ ∃ p, s'.procs[q]? = some p ∧ p.run = s.starts

theorem Own.evolve (h : Own s t) (he : Evolves s s') : Own s' t where
  run := h.run.trans he.starts.symm
  process q hq := by
    obtain ⟨p, hp, hrun⟩ := h.process q hq
    obtain ⟨p', hp', hrun', -⟩ := he.procs q p hp
    exact ⟨p', hp', (hrun'.trans hrun).trans he.starts.symm⟩
  ready hc := he.accepted (h.ready hc)
  key hc := he.decided (h.key hc)
  relay hc := he.ended (h.relay hc)
  probes hc := he.fresh (h.probes hc)
  ops := h.ops

theorem Settled.evolve (h : Settled s t) (he : Evolves s s') : Settled s' t := by
  rcases h with hdone | ⟨hlooks, hgone⟩
  · exact .inl hdone
  · refine .inr ⟨hlooks, fun q hq => ?_⟩
    obtain ⟨p, hp, hdead, hrun, hprocess⟩ := hgone q hq
    obtain ⟨p', hp', hrun', hdead'⟩ := he.procs q p hp
    have hne : p'.run ≠ s.starts := hrun' ▸ hrun
    refine ⟨p', hp', hdead' hdead, he.starts ▸ hne, fun hnow => ?_⟩
    rcases he.process q hnow with hbefore | ⟨p'', hp'', hown⟩
    · exact hprocess hbefore
    · rw [hp', Option.some.injEq] at hp''
      exact hne (hp'' ▸ hown)

theorem Ending.evolve (h : Ending s t) (he : Evolves s s') : Ending s' t :=
  ⟨he.decided h.decided, he.ended h.ended, h.ops⟩

theorem Placed.evolve (h : Placed s t) (he : Evolves s s') : Placed s' t :=
  h.imp (·.evolve he) (Or.imp (·.evolve he) (·.evolve he))

/-- The fields that matter here. -/
def view (s : Supervisor) : Supervisor :=
  { s with running := false, stopping := false, generation := 0, lastOutput := none,
           socksPort := 0, error := none }

/-- Steps that leave the processes alone. -/
theorem Evolves.of_frame (hstarts : s'.starts = s.starts) (hprocs : s'.procs = s.procs)
    (hprocess : s'.process = s.process) (hdecided : s.decided = true → s'.decided = true)
    (hended : s.ended = true → s'.ended = true) : Evolves s s' := by
  refine ⟨hstarts, hdecided, hended, ?_, ?_, ?_, ?_⟩
  · rw [Accepted, Accepted, hprocs, hstarts]
    exact id
  · rw [Fresh, Fresh, hprocs, hstarts]
    exact id
  · rw [hprocs]
    exact fun q p hp => ⟨p, hp, rfl, id⟩
  · rw [hprocess]
    exact fun q => .inl

theorem Evolves.of_view (h : s'.view = s.view) : Evolves s s' := by
  have hfield : ∀ {β : Type} (f : Supervisor → β), f s'.view = f s.view := fun f => congrArg f h
  have hdecided : s'.decided = s.decided := hfield Supervisor.decided
  have hended : s'.ended = s.ended := hfield Supervisor.ended
  exact .of_frame (hfield Supervisor.starts) (hfield Supervisor.procs) (hfield Supervisor.process)
    (hdecided ▸ id) (hended ▸ id)

/-- Steps that change the processes one by one, and bring none back to life. -/
theorem Evolves.of_map {procs : List Proc} (f : ℕ → Proc → Proc)
    (hprocs : ∀ q, procs[q]? = (s.procs[q]?).map (f q)) (hrun : ∀ q p, (f q p).run = p.run)
    (halive : ∀ q p, (f q p).alive = true → p.alive = true)
    (haccepted : ∀ q p, p.accepted = true → (f q p).accepted = true) :
    Evolves s { s with procs } where
  starts := rfl
  decided := id
  ended := id
  accepted := by
    rintro ⟨p, hp, hprun, hpaccepted⟩
    obtain ⟨q, hq⟩ := List.mem_iff_getElem?.mp hp
    have hq' : procs[q]? = some (f q p) := by rw [hprocs, hq, Option.map_some]
    exact ⟨f q p, List.mem_of_getElem? hq', (hrun q p).trans hprun, haccepted q p hpaccepted⟩
  fresh h := by
    intro p hp hpalive
    obtain ⟨q, hq⟩ := List.mem_iff_getElem?.mp hp
    obtain ⟨p₀, hp₀, rfl⟩ := Option.map_eq_some_iff.mp ((hprocs q).symm.trans hq)
    exact (hrun q p₀).trans (h p₀ (List.mem_of_getElem? hp₀) (halive q p₀ hpalive))
  procs q p hp := by
    refine ⟨f q p, by rw [hprocs, hp, Option.map_some], hrun q p, fun hdead => ?_⟩
    by_contra hnot
    exact absurd ((halive q p (by simpa using hnot)).symm.trans hdead) (by decide)
  process q := .inl

theorem Good.of_view (hg : Good s) (h : s'.view = s.view) : Good s' := by
  have hview : Good s.view :=
    ⟨⟨hg.ready, hg.key, hg.reports, hg.udpRelay, hg.relayed⟩, hg.posted, hg.procs⟩
  rw [← h] at hview
  exact ⟨⟨hview.ready, hview.key, hview.reports, hview.udpRelay, hview.relayed⟩, hview.posted,
    hview.procs⟩

/-- What is seen of the supervisor goes on holding where only the processes change. -/
theorem Good.of_procs {procs : List Proc} (hg : Good s) (he : Evolves s { s with procs })
    (hprocs : ∀ p ∈ procs, p.run ≤ s.starts) : Good { s with procs } :=
  ⟨⟨fun h => he.accepted (hg.ready h), hg.key, hg.reports, hg.udpRelay, hg.relayed⟩, hg.posted,
    hprocs⟩

theorem Good.of_map {procs : List Proc} (hg : Good s) (f : ℕ → Proc → Proc)
    (hprocs : ∀ q, procs[q]? = (s.procs[q]?).map (f q)) (hrun : ∀ q p, (f q p).run = p.run)
    (he : Evolves s { s with procs }) : Good { s with procs } := by
  refine hg.of_procs he fun p hp => ?_
  obtain ⟨q, hq⟩ := List.mem_iff_getElem?.mp hp
  obtain ⟨p₀, hp₀, rfl⟩ := Option.map_eq_some_iff.mp ((hprocs q).symm.trans hq)
  exact hrun q p₀ ▸ hg.procs p₀ (List.mem_of_getElem? hp₀)

/-- Killing a process. -/
theorem evolves_killProc (q : ℕ) : Evolves s (s.killProc q) :=
  .of_map (fun k p => if q = k then { p with alive := false } else p)
    (fun k => by rw [List.getElem?_modify, Option.map_eq_map])
    (fun k p => by split_ifs <;> rfl) (fun k p h => by split_ifs at h; exact h)
    (fun k p h => by split_ifs <;> exact h)

theorem good_killProc (hg : Good s) (q : ℕ) : Good (s.killProc q) :=
  hg.of_map (fun k p => if q = k then { p with alive := false } else p)
    (fun k => by rw [List.getElem?_modify, Option.map_eq_map])
    (fun k p => by split_ifs <;> rfl) (evolves_killProc q)

/-! ### The code of a supervisor -/

/-- A block of code that a thread of the latest run may go on with at any time. -/
structure Block (code : List Op) : Prop where
  ready : code.any isReady = false
  key : Ahead deletes decides code = false
  relay : Ahead closes fails code = false
  ops : code.all ofRun = true

/-- What is asked of the code: `start` kills what is left of earlier runs before it launches the
watcher; a watcher looks before it probes, sets `ready` before it deletes the key, and leaves the
relay alone; `fail` sets the error first; and `stop` sets `stopping` first. -/
structure Lawful (P : Program) : Prop where
  start : ∀ argument, Block (P.start argument)
  start_probes : ∀ argument, Ahead watches kills (P.start argument) = false
  loop : Block P.loop
  loop_looks : Ahead acts checks P.loop = false
  probe : Block P.probe
  connected_key : Ahead deletes decides P.connected = false
  connected_relay : Ahead closes fails P.connected = false
  connected_probes : Ahead watches kills P.connected = false
  connected_ops : P.connected.all ofRun = true
  afterLoop : Block P.afterLoop
  afterLoop_looks : Ahead acts checks P.afterLoop = false
  afterLoop_probes : Ahead watches kills P.afterLoop = false
  failRest : ∀ message, (P.failRest message).any isReady = false
  failRest_probes : ∀ message, Ahead watches kills (P.failRest message) = false
  failRest_ops : ∀ message, (P.failRest message).all ofRun = true
  onLate : P.onLate = [] ∨ P.onLate = [.kill]
  stop_looks : Ahead acts checks P.stop = false
  stopRest : P.stopRest.all ends = true

theorem lawful_native (message : Bytes → Bytes) :
    Lawful (NativeProcessSupervisor.program message) where
  start argument := by cases argument <;> exact ⟨rfl, rfl, rfl, rfl⟩
  start_probes argument := by cases argument <;> rfl
  loop := ⟨rfl, rfl, rfl, rfl⟩
  loop_looks := rfl
  probe := ⟨rfl, rfl, rfl, rfl⟩
  connected_key := rfl
  connected_relay := rfl
  connected_probes := rfl
  connected_ops := rfl
  afterLoop := ⟨rfl, rfl, rfl, rfl⟩
  afterLoop_looks := rfl
  afterLoop_probes := rfl
  failRest _ := rfl
  failRest_probes _ := rfl
  failRest_ops _ := rfl
  onLate := .inl rfl
  stop_looks := rfl
  stopRest := rfl

theorem lawful_hysteria : Lawful HysteriaSupervisor.program where
  start _ := ⟨rfl, rfl, rfl, rfl⟩
  start_probes _ := rfl
  loop := ⟨rfl, rfl, rfl, rfl⟩
  loop_looks := rfl
  probe := ⟨rfl, rfl, rfl, rfl⟩
  connected_key := rfl
  connected_relay := rfl
  connected_probes := rfl
  connected_ops := rfl
  afterLoop := ⟨rfl, rfl, rfl, rfl⟩
  afterLoop_looks := rfl
  afterLoop_probes := rfl
  failRest _ := rfl
  failRest_probes _ := rfl
  failRest_ops _ := rfl
  onLate := .inr rfl
  stop_looks := rfl
  stopRest := rfl

section Code

/-- `fail` and what may follow it. -/
theorem block_fail (hP : Lawful P) (message : Bytes) {tail : List Op}
    (htail : tail = [] ∨ tail = [.kill]) : Block (P.fail message ++ tail) ∧
      Ahead watches kills (P.fail message ++ tail) = false := by
  have hready := hP.failRest message
  have hops := hP.failRest_ops message
  have hprobes : Ahead watches kills (P.failRest message ++ tail) = false := by
    rw [Bool.eq_false_iff]
    intro h
    rcases ahead_append h with h | h
    · exact absurd (h.symm.trans (hP.failRest_probes message)) (by decide)
    · rcases htail with rfl | rfl <;> exact nomatch h
  refine ⟨⟨?_, rfl, rfl, ?_⟩, ?_⟩
  · rcases htail with rfl | rfl <;> simp [Program.fail, hready, isReady]
  · rcases htail with rfl | rfl <;> simp [Program.fail, hops, ofRun]
  · exact hprobes

theorem Own.tail (h : Own s ⟨v, op :: rest⟩) (hdecided : decides op = true → s.decided = true)
    (hended : fails op = true → s.ended = true) (hfresh : kills op = true → s.Fresh) :
    Own s ⟨v, rest⟩ where
  run := h.run
  process := h.process
  ready hc := h.ready (by simp [hc])
  key hc := by
    by_cases hop : decides op = true
    · exact hdecided hop
    · exact h.key (ahead_tail hc (by simpa using hop))
  relay hc := by
    by_cases hop : fails op = true
    · exact hended hop
    · exact h.relay (ahead_tail hc (by simpa using hop))
  probes hc := by
    by_cases hop : kills op = true
    · exact hfresh hop
    · exact h.probes (ahead_tail hc (by simpa using hop))
  ops := by
    have hops := h.ops
    rw [List.all_cons, Bool.and_eq_true] at hops
    exact hops.2

theorem Own.jump (h : Own s ⟨v, op :: rest⟩) (hblock : Block code)
    (hprobes : Ahead watches kills code = true → watches op = true) : Own s ⟨v, code⟩ where
  run := h.run
  process := h.process
  ready hc := absurd (hc.symm.trans hblock.ready) (by decide)
  key hc := absurd (hc.symm.trans hblock.key) (by decide)
  relay hc := absurd (hc.symm.trans hblock.relay) (by decide)
  probes hc := h.probes (by rw [ahead_cons, hprobes hc, Bool.true_or])
  ops := hblock.ops

end Code

/-! ### Steps of the latest run -/

/-- Operations that change nothing of the view and launch nothing. -/
def plain : Op → Bool
  | .nextGeneration | .clearStopping | .clearError | .clearOutput | .parse _ | .freePort
  | .startController _ | .writeConfig | .clearRunning | .breakIfStopping | .breakIfNewer
  | .breakIfDead | .readPort | .startRelay | .leaveLoop | .timeout | .sleep | .waitFor
  | .returnIfStopping | .returnIfNewer | .returnIfReplaced | .report => true
  | _ => false

/-- What a plain operation leaves as it is, and what it goes on with. -/
structure Plain (s : Supervisor) (v : Locals) (op : Op) (r : Effect Supervisor Locals Op) :
    Prop where
  view : r.state.view = s.view
  launched : r.launched = []
  run : r.locals.run = v.run
  process : r.locals.process = v.process
  flow : r.flow = .go [] ∨ ∃ code, r.flow = .exit code ∧ Block code ∧
    (Ahead watches kills code = true → watches op = true)

theorem plain_next {v' : Locals} (h : next s' v' = some r) (hview : s'.view = s.view)
    (hrun : v'.run = v.run) (hprocess : v'.process = v.process) : Plain s v op r := by
  cases h
  exact ⟨hview, rfl, hrun, hprocess, .inl rfl⟩

theorem plain_jump (h : jump s v code = some r) (hblock : Block code)
    (hprobes : Ahead watches kills code = true → watches op = true) : Plain s v op r := by
  cases h
  exact ⟨rfl, rfl, rfl, rfl, .inr ⟨code, rfl, hblock, hprobes⟩⟩

theorem plain_fail (hP : Lawful P) {message : Bytes} (h : jump s v (P.fail message) = some r) :
    Plain s v op r := by
  obtain ⟨hblock, hprobes⟩ := block_fail hP message (.inl rfl)
  rw [List.append_nil] at hblock hprobes
  exact plain_jump h hblock fun h => nomatch h.symm.trans hprobes

theorem exec_plain (hP : Lawful P) (hop : plain op = true) (h : exec P c s v op = some r) :
    Plain s v op r := by
  have hnone : Block [] := ⟨rfl, rfl, rfl, rfl⟩
  have hafter : jump s v P.afterLoop = some r → Plain s v op r :=
    fun h => plain_jump h hP.afterLoop fun h => nomatch h.symm.trans hP.afterLoop_probes
  cases op <;> simp only [plain, Bool.false_eq_true] at hop
  case nextGeneration => exact plain_next h rfl rfl rfl
  case clearStopping => exact plain_next h rfl rfl rfl
  case clearError => exact plain_next h rfl rfl rfl
  case clearOutput => exact plain_next h rfl rfl rfl
  case clearRunning => exact plain_next h rfl rfl rfl
  case readPort => exact plain_next h rfl rfl rfl
  case parse message =>
    cases c <;> simp only [exec, reduceCtorEq] at h
    case uri scheme host =>
      split_ifs at h
      · exact plain_next h rfl rfl rfl
      · exact plain_fail hP h
    case throw e => exact plain_fail hP h
  case freePort =>
    cases c <;> simp only [exec, reduceCtorEq] at h
    case port n => exact plain_next h rfl rfl rfl
    case throw e => exact plain_fail hP h
  case startController message =>
    cases c <;> simp only [exec, reduceCtorEq] at h
    case go => exact plain_next h rfl rfl rfl
    case refuse failure => exact plain_fail hP h
  case writeConfig =>
    cases c <;> simp only [exec, reduceCtorEq] at h
    case go => exact plain_next h rfl rfl rfl
    case throw e => exact plain_fail hP h
  case breakIfStopping =>
    simp only [exec] at h
    split_ifs at h
    · exact hafter h
    · exact plain_next h rfl rfl rfl
  case breakIfNewer =>
    simp only [exec] at h
    split_ifs at h
    · exact hafter h
    · exact plain_next h rfl rfl rfl
  case breakIfDead =>
    simp only [exec] at h
    split at h
    · split_ifs at h
      · exact plain_jump h hP.probe fun _ => rfl
      · exact hafter h
    · exact nomatch h
  case startRelay =>
    cases c <;> simp only [exec, reduceCtorEq] at h
    case go => exact plain_next h rfl rfl rfl
    case refuse failure =>
      obtain ⟨hblock, hprobes⟩ := block_fail hP _ (.inr rfl)
      exact plain_jump h hblock fun h => nomatch h.symm.trans hprobes
  case leaveLoop => exact hafter h
  case timeout =>
    cases c <;> simp only [exec, reduceCtorEq] at h
    case go => exact plain_jump h ⟨rfl, rfl, rfl, rfl⟩ fun _ => rfl
    case late =>
      obtain ⟨hblock, hprobes⟩ := block_fail hP _ hP.onLate
      exact plain_jump h hblock fun h => nomatch h.symm.trans hprobes
  case sleep => exact plain_jump h hP.loop fun _ => rfl
  case waitFor =>
    simp only [exec] at h
    split at h
    · split_ifs at h
      exact plain_next h rfl rfl rfl
    · exact nomatch h
  case returnIfStopping =>
    simp only [exec] at h
    split_ifs at h
    · exact plain_jump h hnone fun h => nomatch h
    · exact plain_next h rfl rfl rfl
  case returnIfNewer =>
    simp only [exec] at h
    split_ifs at h
    · exact plain_jump h hnone fun h => nomatch h
    · exact plain_next h rfl rfl rfl
  case returnIfReplaced =>
    simp only [exec] at h
    split at h
    · split_ifs at h
      · exact plain_jump h ⟨rfl, rfl, rfl, rfl⟩ fun h => nomatch h
      · exact plain_jump h hnone fun h => nomatch h
    · exact nomatch h
  case report =>
    cases c <;> simp only [exec, reduceCtorEq] at h
    case exited code => exact plain_fail hP h

/-- What a step of a thread of the latest run does. -/
structure Stepped (s : Supervisor) (r : Effect Supervisor Locals Op) (rest : List Op) : Prop where
  evolves : Evolves s r.state
  good : Good r.state
  own : Own r.state ⟨r.locals, r.flow.apply rest⟩
  launched : ∀ t ∈ r.launched, Own r.state t

/-- A step that changes fields only which the threads do not rely on. -/
theorem stepped_next (ho : Own s ⟨v, op :: rest⟩) (h : next s' v = some r) (he : Evolves s s')
    (hg : Good s') (hdecided : decides op = true → s'.decided = true)
    (hended : fails op = true → s'.ended = true) (hfresh : kills op = true → s'.Fresh) :
    Stepped s r rest := by
  cases h
  exact ⟨he, hg, (ho.evolve he).tail hdecided hended hfresh, nofun⟩

theorem stepped_fail (hP : Lawful P) (hg : Good s) (ho : Own s ⟨v, op :: rest⟩) {message : Bytes}
    (h : jump s v (P.fail message) = some r) : Stepped s r rest := by
  obtain ⟨hblock, hprobes⟩ := block_fail hP message (.inl rfl)
  rw [List.append_nil] at hblock hprobes
  cases h
  exact ⟨.of_view rfl, hg, ho.jump hblock fun h => (nomatch h.symm.trans hprobes), nofun⟩

theorem stepped_plain (hg : Good s) (ho : Own s ⟨v, op :: rest⟩) (hop : plain op = true)
    (h : Plain s v op r) : Stepped s r rest := by
  obtain ⟨s', v', flow, launched⟩ := r
  obtain ⟨hview, rfl, hrun, hprocess, hflow⟩ := h
  have he : Evolves s s' := .of_view hview
  have hown : ∀ code, Own s ⟨v, code⟩ → Own s' ⟨v', code⟩ := fun code hcode =>
    { hcode.evolve he with
      run := hrun.trans (hcode.evolve he).run
      process := fun q hq => (hcode.evolve he).process q (hprocess ▸ hq) }
  refine ⟨he, hg.of_view hview, ?_, nofun⟩
  rcases hflow with rfl | ⟨code, rfl, hblock, hprobes⟩
  · refine hown rest (ho.tail ?_ ?_ ?_) <;> cases op <;> simp [plain] at hop <;> exact nofun
  · exact hown code (ho.jump hblock hprobes)

theorem own_step (hP : Lawful P) (hg : Good s) (ho : Own s ⟨v, op :: rest⟩)
    (h : exec P c s v op = some r) : Stepped s r rest := by
  by_cases hplain : plain op = true
  · exact stepped_plain hg ho hplain (exec_plain hP hplain h)
  have hrun : v.run = s.starts := ho.run
  have hof : ofRun op = true := by
    have hops := ho.ops
    rw [List.all_cons, Bool.and_eq_true] at hops
    exact hops.1
  cases op <;> simp only [plain, not_true_eq_false, ofRun, Bool.false_eq_true] at hplain hof
  case clearReady =>
    refine stepped_next ho h (.of_frame rfl rfl rfl id id) ?_ nofun nofun nofun
    exact ⟨⟨nofun, hg.key, hg.reports, hg.udpRelay, hg.relayed⟩, hg.posted, hg.procs⟩
  case killStale =>
    have hdead : ∀ q, (s.procs.map fun p : Proc => { p with alive := false })[q]? =
        (s.procs[q]?).map fun p : Proc => { p with alive := false } := fun q => List.getElem?_map
    have he := Evolves.of_map (s := s) (fun _ p => { p with alive := false }) hdead
      (fun _ _ => rfl) (fun _ _ h => nomatch h) (fun _ _ h => h)
    refine stepped_next ho h he (hg.of_map _ hdead (fun _ _ => rfl) he) nofun nofun fun _ p hp => ?_
    obtain ⟨p₀, -, rfl⟩ := List.mem_map.mp hp
    exact nofun
  case writeKey key =>
    cases c <;> simp only [exec, reduceCtorEq] at h
    case go =>
      refine stepped_next ho h (.of_frame rfl rfl rfl id id) ?_ nofun nofun nofun
      refine ⟨⟨hg.ready, fun _ k hk => ?_, hg.reports, hg.udpRelay, hg.relayed⟩, hg.posted,
        hg.procs⟩
      simpa [hrun] using hk
    case throw e => exact stepped_fail hP hg ho h
  case spawn =>
    cases c <;> simp only [exec, reduceCtorEq] at h
    case go =>
      have he : Evolves s { s with procs := s.procs ++ [⟨v.run, s.socksPort, true, false⟩] } := by
        refine ⟨rfl, id, id, ?_, ?_, ?_, fun q => .inl⟩
        · rintro ⟨p, hp, haccepted⟩
          exact ⟨p, List.mem_append_left _ hp, haccepted⟩
        · intro hfresh p hp halive
          rcases List.mem_append.mp hp with hold | hnew
          · exact hfresh p hold halive
          · rw [List.mem_singleton.mp hnew]
            exact hrun
        · intro q p hp
          have hq := (List.getElem?_eq_some_iff.mp hp).1
          exact ⟨p, (List.getElem?_append_left hq).trans hp, rfl, id⟩
      cases h
      refine ⟨he, hg.of_procs he ?_, ?_, nofun⟩
      · intro p hp
        rcases List.mem_append.mp hp with hold | hnew
        · exact hg.procs p hold
        · rw [List.mem_singleton.mp hnew]
          exact hrun.le
      · refine { (ho.evolve he).tail nofun nofun nofun with process := fun q hq => ?_ }
        cases hq
        exact ⟨_, List.getElem?_concat_length .., hrun⟩
    case throw e => exact stepped_fail hP hg ho h
  case setProcess =>
    refine stepped_next ho h ⟨rfl, id, id, id, id, fun q p hp => ⟨p, hp, rfl, id⟩, ?_⟩
      ⟨⟨hg.ready, hg.key, hg.reports, hg.udpRelay, hg.relayed⟩, hg.posted, hg.procs⟩
      nofun nofun nofun
    intro q hq
    exact .inr (ho.process q hq)
  case launchWatch =>
    cases h
    refine ⟨.of_view rfl, hg, ho.tail nofun nofun nofun, fun t ht => ?_⟩
    rw [List.mem_singleton.mp ht]
    exact ho.jump hP.loop fun _ => rfl
  case closeRelay =>
    have hended : s.ended = true := ho.relay rfl
    refine stepped_next ho h (.of_frame rfl rfl rfl id id) ?_ nofun nofun nofun
    exact ⟨⟨hg.ready, hg.key, hg.reports, nofun, fun _ h => nomatch h.symm.trans hended⟩, hg.posted,
      hg.procs⟩
  case kill =>
    simp only [exec] at h
    split at h
    · exact stepped_next ho h (evolves_killProc _) (good_killProc hg _) nofun nofun nofun
    · exact stepped_next ho h (.of_view rfl) hg nofun nofun nofun
  case clearProcess =>
    exact stepped_next ho h ⟨rfl, id, id, id, id, fun q p hp => ⟨p, hp, rfl, id⟩, nofun⟩
      ⟨⟨hg.ready, hg.key, hg.reports, hg.udpRelay, hg.relayed⟩, hg.posted, hg.procs⟩
      nofun nofun nofun
  case deleteKey =>
    have hdecided : s.decided = true := ho.key rfl
    refine stepped_next ho h (.of_frame rfl rfl rfl id id) ?_ nofun nofun nofun
    exact ⟨⟨hg.ready, fun h => (nomatch h.symm.trans hdecided), hg.reports, hg.udpRelay,
      hg.relayed⟩, hg.posted, hg.procs⟩
  case connect =>
    cases c <;> simp only [exec, reduceCtorEq] at h
    case accept q =>
      split_ifs at h with haccepts
      cases h
      have hmap : ∀ k, (s.procs.modify q fun p => { p with accepted := true })[k]? =
          (s.procs[k]?).map fun p => if q = k then { p with accepted := true } else p :=
        fun k => by rw [List.getElem?_modify, Option.map_eq_map]
      have he := Evolves.of_map _ hmap (fun k p => by split_ifs <;> rfl)
        (fun k p h => by split_ifs at h <;> exact h)
        (fun k p h => by split_ifs <;> first | rfl | exact h)
      have hfresh : s.Fresh := ho.probes rfl
      have haccepted : Accepted { s with
          procs := s.procs.modify q fun p => { p with accepted := true } } := by
        cases hq : s.procs[q]? with
        | none => simp [hq] at haccepts
        | some p =>
          simp only [hq, Option.any_some, decide_eq_true_eq] at haccepts
          have hnew := hmap q
          rw [hq, Option.map_some, if_pos rfl] at hnew
          exact ⟨_, List.mem_of_getElem? hnew,
            hfresh p (List.mem_of_getElem? hq) haccepts.1, rfl⟩
      refine ⟨he, hg.of_map _ hmap (fun k p => by split_ifs <;> rfl) he, ?_, nofun⟩
      have hdone : Own _ ⟨v, []⟩ := (ho.evolve he).jump ⟨rfl, rfl, rfl, rfl⟩ nofun
      exact { hdone with
        ready := fun _ => haccepted
        key := fun h => (nomatch h.symm.trans hP.connected_key)
        relay := fun h => (nomatch h.symm.trans hP.connected_relay)
        probes := fun h => (nomatch h.symm.trans hP.connected_probes)
        ops := hP.connected_ops }
    case refuse failure =>
      cases h
      exact ⟨.of_view rfl, hg, ho.jump ⟨rfl, rfl, rfl, rfl⟩ fun _ => rfl, nofun⟩
  case setRelay =>
    refine stepped_next ho h (.of_frame rfl rfl rfl id id) ?_ nofun nofun nofun
    refine ⟨⟨hg.ready, hg.key, hg.reports, fun k hk => ?_, fun _ _ => ?_⟩, hg.posted, hg.procs⟩
    · rw [← Option.some.inj hk]
      exact hrun
    · exact congrArg some hrun
  case setReady =>
    have hdecided : (s.decided || decide (v.run = s.starts)) = true := by simp [hrun]
    refine stepped_next ho h (.of_frame rfl rfl rfl (fun _ => hdecided) id) ?_
      (fun _ => hdecided) nofun nofun
    exact ⟨⟨fun _ => ho.ready rfl, fun h => (nomatch h.symm.trans hdecided), hg.reports,
      hg.udpRelay, hg.relayed⟩, hg.posted, hg.procs⟩
  case setError message =>
    have hdecided : (s.decided || decide (v.run = s.starts)) = true := by simp [hrun]
    have hended : (s.ended || decide (v.run = s.starts)) = true := by simp [hrun]
    refine stepped_next ho h (.of_frame rfl rfl rfl (fun _ => hdecided) fun _ => hended) ?_
      (fun _ => hdecided) (fun _ => hended) nofun
    refine ⟨⟨hg.ready, fun h => (nomatch h.symm.trans hdecided), fun k hk => ?_, hg.udpRelay,
      fun _ h => (nomatch h.symm.trans hended)⟩, hg.posted, hg.procs⟩
    rcases List.mem_append.mp hk with hold | hnew
    · exact hg.reports k hold
    · rw [List.mem_singleton.mp hnew]
      exact hrun
  case post message =>
    refine stepped_next ho h ?_ ?_ nofun nofun nofun
    · split_ifs
      · exact .of_view rfl
      · exact .of_frame rfl rfl rfl id id
    · split_ifs
      · exact hg
      · refine ⟨⟨hg.ready, hg.key, hg.reports, hg.udpRelay, hg.relayed⟩, fun call hcall => ?_,
          hg.procs⟩
        rcases List.mem_append.mp hcall with hold | hnew
        · exact hg.posted call hold
        · rw [List.mem_singleton.mp hnew]
          exact hrun

/-! ### Steps of the other threads -/

theorem settled_step (hP : Lawful P) (hg : Good s) (ht : Settled s ⟨v, op :: rest⟩)
    (hignored : ∀ argument, op = .takeRunning argument → s.running = true)
    (h : exec P c s v op = some r) :
    Evolves s r.state ∧ Good r.state ∧ Placed r.state ⟨r.locals, r.flow.apply rest⟩ ∧
      r.launched = [] := by
  obtain ⟨hlooks, hgone⟩ := ht.resolve_left (List.cons_ne_nil _ _)
  have hjump : ∀ code, Ahead acts checks code = false → jump s v code = some r →
      Evolves s r.state ∧ Good r.state ∧ Placed r.state ⟨r.locals, r.flow.apply rest⟩ ∧
        r.launched = [] := by
    intro code hcode h
    cases h
    exact ⟨.of_view rfl, hg, .inr (.inl (.inr ⟨hcode, hgone⟩)), rfl⟩
  have hgo : ∀ s' v', next s' v' = some r → s'.view = s.view → v'.process = v.process →
      checks op = false →
      Evolves s r.state ∧ Good r.state ∧ Placed r.state ⟨r.locals, r.flow.apply rest⟩ ∧
        r.launched = [] := by
    intro s' v' h hview hprocess hop
    cases h
    have hrest : Ahead acts checks rest = false := by
      rw [Bool.eq_false_iff]
      intro hrest
      exact absurd ((ahead_tail hrest hop).symm.trans hlooks) (by decide)
    have ht' : Settled s ⟨v', rest⟩ := .inr ⟨hrest, hprocess ▸ hgone⟩
    exact ⟨.of_view hview, hg.of_view hview, .inr (.inl (ht'.evolve (.of_view hview))), rfl⟩
  have hop : acts op = false := by
    rw [ahead_cons, Bool.or_eq_false_iff] at hlooks
    exact hlooks.1
  cases op <;> simp only [acts, checks, idle, Bool.not_false, Bool.not_true, Bool.and_true,
    Bool.and_false, Bool.true_eq_false] at hop
  case takeRunning argument =>
    simp only [exec, hignored argument rfl, if_true] at h
    exact hjump [] rfl h
  case nextGeneration => exact hgo _ _ h rfl rfl rfl
  case shutDown =>
    cases h
    exact ⟨.of_frame rfl rfl rfl (fun _ => rfl) fun _ => rfl,
      ⟨⟨hg.ready, nofun, hg.reports, hg.udpRelay, nofun⟩, hg.posted, hg.procs⟩,
      .inr (.inr ⟨rfl, rfl, hP.stopRest⟩), rfl⟩
  case breakIfStopping =>
    simp only [exec] at h
    split_ifs at h
    · exact hjump _ hP.afterLoop_looks h
    · exact hgo _ _ h rfl rfl rfl
  case breakIfNewer =>
    simp only [exec] at h
    split_ifs at h
    · exact hjump _ hP.afterLoop_looks h
    · exact hgo _ _ h rfl rfl rfl
  case breakIfDead =>
    simp only [exec] at h
    split at h
    · next q hq =>
      obtain ⟨p, hp, hdead, -, -⟩ := hgone q hq
      rw [if_neg (by simp [alive, hp, hdead])] at h
      exact hjump _ hP.afterLoop_looks h
    · exact nomatch h
  case sleep => exact hjump _ hP.loop_looks h
  case waitFor =>
    simp only [exec] at h
    split at h
    · split_ifs at h
      exact hgo _ _ h rfl rfl rfl
    · exact nomatch h
  case returnIfStopping =>
    simp only [exec] at h
    split_ifs at h
    · exact hjump _ rfl h
    · exact hgo _ _ h rfl rfl rfl
  case returnIfNewer =>
    simp only [exec] at h
    split_ifs at h
    · exact hjump _ rfl h
    · exact hgo _ _ h rfl rfl rfl
  case returnIfReplaced =>
    simp only [exec] at h
    split at h
    · next q hq =>
      obtain ⟨p, -, -, -, hprocess⟩ := hgone q hq
      rw [if_neg hprocess] at h
      exact hjump _ rfl h
    · exact nomatch h

theorem ending_step (hg : Good s) (ht : Ending s ⟨v, op :: rest⟩) (h : exec P c s v op = some r) :
    Evolves s r.state ∧ Good r.state ∧ Ending r.state ⟨r.locals, r.flow.apply rest⟩ ∧
      r.launched = [] := by
  obtain ⟨hdecided, hended, hops⟩ := ht
  rw [List.all_cons, Bool.and_eq_true] at hops
  obtain ⟨hop, hrest⟩ := hops
  have hgo : ∀ s' v', next s' v' = some r → Evolves s s' → Good s' →
      Evolves s r.state ∧ Good r.state ∧ Ending r.state ⟨r.locals, r.flow.apply rest⟩ ∧
        r.launched = [] := by
    intro s' v' h he hg'
    cases h
    exact ⟨he, hg', ⟨he.decided hdecided, he.ended hended, hrest⟩, rfl⟩
  have hprocs : ∀ (q : ℕ) (p : Proc), s.procs[q]? = some p →
      ∃ p', s.procs[q]? = some p' ∧ p'.run = p.run ∧ (p.alive = false → p'.alive = false) :=
    fun q p hp => ⟨p, hp, rfl, id⟩
  cases op <;> simp only [ends, Bool.false_eq_true] at hop
  case clearReady =>
    exact hgo _ _ h (.of_frame rfl rfl rfl id id)
      ⟨⟨nofun, hg.key, hg.reports, hg.udpRelay, hg.relayed⟩, hg.posted, hg.procs⟩
  case clearRunning => exact hgo _ _ h (.of_view rfl) (hg.of_view rfl)
  case closeRelay =>
    exact hgo _ _ h (.of_frame rfl rfl rfl id id) ⟨⟨hg.ready, hg.key, hg.reports, nofun,
      fun _ h => (nomatch h.symm.trans hended)⟩, hg.posted, hg.procs⟩
  case readProcess => exact hgo _ _ h (.of_view rfl) hg
  case kill =>
    simp only [exec] at h
    split at h
    · exact hgo _ _ h (evolves_killProc _) (good_killProc hg _)
    · exact hgo _ _ h (.of_view rfl) hg
  case clearProcess =>
    exact hgo _ _ h ⟨rfl, id, id, id, id, hprocs, nofun⟩
      ⟨⟨hg.ready, hg.key, hg.reports, hg.udpRelay, hg.relayed⟩, hg.posted, hg.procs⟩
  case deleteKey =>
    exact hgo _ _ h (.of_frame rfl rfl rfl id id) ⟨⟨hg.ready,
      fun h => (nomatch h.symm.trans hdecided), hg.reports, hg.udpRelay, hg.relayed⟩, hg.posted,
      hg.procs⟩

/-! ### The invariant along a run -/

structure Inv (p : Pool Supervisor Locals Op) : Prop where
  good : Good p.state
  placed : ∀ t ∈ p.threads, Placed p.state t

theorem inv_init : Inv (system P).init where
  good := ⟨⟨nofun, nofun, nofun, nofun, nofun⟩, nofun, nofun⟩
  placed := nofun

variable {p p' : Pool Supervisor Locals Op} {i : ℕ}

/-- A thread that looks before it acts is settled once a new run begins. -/
theorem Looks.settled (hg : Good s) (h : s.Looks t) (hstarts : s'.starts = s.starts + 1)
    (hprocs : s'.procs = s.procs) (hprocess : s'.process = s.process) : Settled s' t := by
  rcases h with hdone | ⟨hlooks, hgone⟩
  · exact .inl hdone
  · refine .inr ⟨hlooks, fun q hq => ?_⟩
    have hq' := hgone q hq
    simp only [gone, Bool.and_eq_true, decide_eq_true_eq, ne_eq] at hq'
    obtain ⟨hdead, hne⟩ := hq'
    cases hp : s.procs[q]? with
    | none => simp [hp] at hdead
    | some p =>
      have hrun := hg.procs p (List.mem_of_getElem? hp)
      refine ⟨p, hprocs ▸ hp, by simpa [hp] using hdead, by omega, hprocess ▸ hne⟩

theorem inv_begin (hP : Lawful P) (hp : Inv p) {argument : Option Bytes}
    (hi : p.threads[i]? = some ⟨v, .takeRunning argument :: rest⟩) (hidle : p.state.running = false)
    (hclear : Clear p (.run i c)) (h : exec P c p.state v (.takeRunning argument) = some r) :
    Inv ⟨r.state, p.threads.set i ⟨r.locals, r.flow.apply rest⟩ ++ r.launched⟩ := by
  obtain ⟨hready, hrelay, hposted, hothers⟩ := hclear (by simp [Begins, hidle, hi])
  have hg := hp.good
  simp only [exec, hidle, Bool.false_eq_true, if_false, Option.some.injEq] at h
  subst h
  refine ⟨⟨⟨fun h => (nomatch h.symm.trans hready), fun _ k hk => (nomatch hk), hg.reports,
    fun k hk => ?_, nofun⟩,
    fun call hcall => ?_, fun q hq => ?_⟩, fun t ht => ?_⟩
  · rw [hrelay] at hk
    exact nomatch hk
  · rw [hposted] at hcall
    exact nomatch hcall
  · exact (hg.procs q hq).trans (Nat.le_succ _)
  · rw [List.append_nil] at ht
    rcases Pool.mem_set ht with rfl | hother
    · have hblock := hP.start argument
      refine .inl ⟨rfl, fun q (hq : q ∈ (none : Option ℕ)) => (nomatch hq), fun h => ?_,
        fun h => ?_, fun h => ?_, fun h => ?_, hblock.ops⟩
      · exact nomatch h.symm.trans hblock.ready
      · exact nomatch h.symm.trans hblock.key
      · exact nomatch h.symm.trans hblock.relay
      · exact nomatch h.symm.trans (hP.start_probes argument)
    · exact .inr (.inl ((hothers t hother).settled hg rfl rfl rfl))

theorem inv_run (hP : Lawful P) (hp : Inv p) (hclear : Clear p (.run i c))
    (h : p.step (exec P) i c = some p') : Inv p' := by
  obtain ⟨v, op, rest, r, hi, hr, rfl⟩ := Pool.step_eq_some.mp h
  by_cases hbegin : ∃ argument, op = .takeRunning argument ∧ p.state.running = false
  · obtain ⟨argument, rfl, hidle⟩ := hbegin
    exact inv_begin hP hp hi hidle hclear hr
  · have hignored : ∀ argument, op = .takeRunning argument → p.state.running = true := by
      intro argument hop
      by_contra hidle
      exact hbegin ⟨argument, hop, by simpa using hidle⟩
    obtain ⟨he, hg, hown, hlaunched⟩ : Evolves p.state r.state ∧ Good r.state ∧
        Placed r.state ⟨r.locals, r.flow.apply rest⟩ ∧ ∀ t ∈ r.launched, Placed r.state t := by
      rcases hp.placed _ (List.mem_of_getElem? hi) with ho | hs | he
      · have hstep := own_step hP hp.good ho hr
        exact ⟨hstep.evolves, hstep.good, .inl hstep.own, fun t ht => .inl (hstep.launched t ht)⟩
      · obtain ⟨he, hg, hplaced, hnone⟩ := settled_step hP hp.good hs hignored hr
        exact ⟨he, hg, hplaced, fun t ht => nomatch hnone ▸ ht⟩
      · obtain ⟨he, hg, hending, hnone⟩ := ending_step hp.good he hr
        exact ⟨he, hg, .inr (.inr hending), fun t ht => nomatch hnone ▸ ht⟩
    refine ⟨hg, fun t ht => ?_⟩
    rcases List.mem_append.mp ht with hset | hnew
    · rcases Pool.mem_set hset with rfl | hother
      · exact hown
      · exact (hp.placed t (Pool.mem_of_mem_others hother)).evolve he
    · exact hlaunched t hnew

/-- Steps of the environment. -/
theorem Inv.evolve (hp : Inv p) {s' : Supervisor} (he : Evolves p.state s') (hg : Good s') :
    Inv { p with state := s' } :=
  ⟨hg, fun t ht => (hp.placed t ht).evolve he⟩

theorem Inv.call (hp : Inv p) (ht : Settled p.state t) :
    Inv { p with threads := p.threads ++ [t] } := by
  refine ⟨hp.good, fun u hu => ?_⟩
  rcases List.mem_append.mp hu with hold | hnew
  · exact hp.placed u hold
  · rw [List.mem_singleton.mp hnew]
    exact .inr (.inl ht)

theorem inv_step (hP : Lawful P) {e : Event} (hp : Inv p) (hclear : Clear p e)
    (h : (system P).step p e = some p') : Inv p' := by
  have hg := hp.good
  cases e with
  | start argument =>
    cases h
    exact hp.call (.inr ⟨rfl, nofun⟩)
  | stop =>
    cases h
    exact hp.call (.inr ⟨hP.stop_looks, nofun⟩)
  | run i c => exact inv_run hP hp hclear h
  | exit q =>
    simp only [system, Option.ite_none_right_eq_some, Option.some.injEq] at h
    obtain ⟨-, rfl⟩ := h
    exact hp.evolve (evolves_killProc q) (good_killProc hg q)
  | output line =>
    simp only [system, Option.ite_none_right_eq_some, Option.some.injEq] at h
    obtain ⟨-, rfl⟩ := h
    exact hp.evolve (.of_view rfl) (hg.of_view rfl)
  | callback =>
    simp only [system] at h
    split at h
    · next call posted hposted =>
      cases h
      refine hp.evolve (.of_frame rfl rfl rfl id id) ⟨⟨hg.ready, hg.key, fun k hk => ?_,
        hg.udpRelay, hg.relayed⟩, fun k hk => ?_, hg.procs⟩
      · rcases List.mem_append.mp hk with hold | hnew
        · exact hg.reports k hold
        · rw [List.mem_singleton.mp hnew]
          exact hg.posted call (by simp [hposted])
      · exact hg.posted k (by simp [hposted, hk])
    · exact nomatch h

theorem kept_of_clear (hP : Lawful P) {es : List Event}
    (h : (system P).run (system P).init es = some p)
    (hclear : (system P).Along Clear (system P).init es) : p.state.Kept :=
  (run_invariant (fun _ _ _ hp hc hstep => inv_step hP hp hc hstep) inv_init hclear h).good.toKept

/-- **What a supervisor shows comes from the latest run**, and stays until this run is over, if
whenever a call of `start` takes effect nothing is left of earlier runs but threads that look before
they act. -/
theorem kept_along_clear (message : Bytes → Bytes) :
    (∀ es p, let N := system (NativeProcessSupervisor.program message)
      N.run N.init es = some p → N.Along Clear N.init es → p.state.Kept) ∧
    (∀ es p, let H := system HysteriaSupervisor.program
      H.run H.init es = some p → H.Along Clear H.init es → p.state.Kept) :=
  ⟨fun _ _ => kept_of_clear (lawful_native message),
    fun _ _ => kept_of_clear lawful_hysteria⟩

/-! ### Runs -/

/-- Steps of one thread. -/
def steps (i n : ℕ) : List Event := List.replicate n (.run i .go)

/-- A call of `start` of the native supervisor, thread `i`, up to the launch of its watcher. -/
def startNative (i : ℕ) : List Event :=
  .start (some [1]) :: steps i 6 ++ .run i (.port 7) :: steps i 4

/-- The same of Hysteria's. -/
def startHysteria (i : ℕ) : List Event :=
  .start none :: steps i 6 ++ .run i (.uri (some (literal "hysteria2")) (some [1])) :: steps i 1 ++
    .run i (.port 7) :: steps i 5

/-- Both are stopped while the watcher sleeps, and started again. -/
def nativeCycle : List Event :=
  startNative 0 ++ steps 1 3 ++ [.run 1 (.refuse none), .run 1 .go, .stop] ++ steps 2 7 ++
    startNative 3 ++ steps 4 3 ++ [.run 4 (.accept 1)] ++ steps 4 2 ++ steps 1 5

def hysteriaCycle : List Event :=
  startHysteria 0 ++ steps 1 4 ++ [.run 1 (.refuse none), .run 1 .go, .stop] ++ steps 2 8 ++
    startHysteria 3 ++ steps 4 4 ++ [.run 4 (.accept 1)] ++ steps 4 4 ++ steps 1 5

/-- The watcher is about to set `ready` when the supervisor is stopped and started again. -/
def nativeLate : List Event :=
  startNative 0 ++ steps 1 3 ++ [.run 1 (.accept 0), .stop] ++ steps 2 7 ++
    (startNative 3).take 9 ++ steps 1 2

def hysteriaLate : List Event :=
  startHysteria 0 ++ steps 1 4 ++ [.run 1 (.accept 0)] ++ steps 1 1 ++ [.stop] ++ steps 2 8 ++
    (startHysteria 3).take 9 ++ steps 1 2

theorem kept_along_clear_cycle :
    (∃ p, (system (NativeProcessSupervisor.program id)).run
      (system (NativeProcessSupervisor.program id)).init nativeCycle = some p ∧
      p.state.starts = 2 ∧ p.state.Kept) ∧
    (∃ p, (system HysteriaSupervisor.program).run (system HysteriaSupervisor.program).init
      hysteriaCycle = some p ∧ p.state.starts = 2 ∧ p.state.Kept) := by
  have hnative : ((system (NativeProcessSupervisor.program id)).run
      (system (NativeProcessSupervisor.program id)).init nativeCycle).map
      (fun p => p.state.starts) = some 2 := by
    decide +kernel
  have hhysteria : ((system HysteriaSupervisor.program).run (system HysteriaSupervisor.program).init
      hysteriaCycle).map (fun p => p.state.starts) = some 2 := by
    decide +kernel
  obtain ⟨n, hn, hnstarts⟩ := Option.map_eq_some_iff.mp hnative
  obtain ⟨m, hm, hmstarts⟩ := Option.map_eq_some_iff.mp hhysteria
  exact ⟨⟨n, hn, hnstarts, (kept_along_clear id).1 nativeCycle n hn (by decide +kernel)⟩,
    ⟨m, hm, hmstarts, (kept_along_clear id).2 hysteriaCycle m hm (by decide +kernel)⟩⟩

/-- The old watcher makes the new run ready before it has a process and deletes its key, or puts its
relay in place of the new one. -/
theorem not_kept_late :
    (∃ p, (system (NativeProcessSupervisor.program id)).run
      (system (NativeProcessSupervisor.program id)).init nativeLate = some p ∧ ¬ p.state.Kept) ∧
    (∃ p, (system HysteriaSupervisor.program).run (system HysteriaSupervisor.program).init
      hysteriaLate = some p ∧ ¬ p.state.Kept) := by
  have hnative : ((system (NativeProcessSupervisor.program id)).run
      (system (NativeProcessSupervisor.program id)).init nativeLate).map
      (fun p => (p.state.decided, p.state.written, p.state.keyFile)) =
        some (false, some [1], none) := by
    decide +kernel
  have hhysteria : ((system HysteriaSupervisor.program).run (system HysteriaSupervisor.program).init
      hysteriaLate).map (fun p => (p.state.udpRelay, p.state.starts)) = some (some 1, 2) := by
    decide +kernel
  obtain ⟨n, hn, hnstate⟩ := Option.map_eq_some_iff.mp hnative
  obtain ⟨m, hm, hmstate⟩ := Option.map_eq_some_iff.mp hhysteria
  simp only [Prod.mk.injEq] at hnstate hmstate
  obtain ⟨hdecided, hwritten, hfile⟩ := hnstate
  obtain ⟨hrelay, hstarts⟩ := hmstate
  refine ⟨⟨n, hn, fun hkept => ?_⟩, ⟨m, hm, fun hkept => ?_⟩⟩
  · have hkey := hkept.key hdecided [1] hwritten
    exact nomatch hfile.symm.trans hkey
  · have hone := hkept.udpRelay 1 hrelay
    exact absurd (hone.trans hstarts) (by decide)

end OpenFlux.App.Supervisor
