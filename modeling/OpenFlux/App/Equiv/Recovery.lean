import OpenFlux.App.Equiv.SocksVpnService

/-!
# One recovery at a time

`reconnecting` is taken by compare-and-set and released in the `finally` of the recovery, so while
nothing else touches it the bodies of recoveries exclude each other.  But a recovery that finds
`stopping` set leaves without its `finally`, and `stopEverything` clears the flag under a recovery
that goes on.  `Orderly` says that the one does not happen while the flag is still set, and that
after the other the interrupted recovery ends before the next one takes the flag; then recoveries
exclude each other in every run (`exclusive_run`).  Nothing in the code sees to it: a recovery that
takes the flag after `stopEverything` has cleared it leaves it set for every later session
(`not_exclusive_takenLate`).
-/

namespace OpenFlux.App.SocksVpnService

open EventSystem

variable {message : Bytes → Bytes} {s s' : SocksVpnService} {v : Locals} {op : Op}
  {rest code : List Op} {t : Thread Locals Op} {c : Supervisor.Choice}
  {r : Effect SocksVpnService Locals Op} {p p' : Pool SocksVpnService Locals Op} {i : ℕ}

/-- The thread executes the body of a recovery: it has taken `reconnecting`, and has not come to the
end of its `finally`. -/
def Executing (t : Thread Locals Op) : Prop := t.code.any holds = true

instance : DecidablePred Executing := fun t => inferInstanceAs (Decidable (t.code.any holds = true))

/-- At most one recovery executes, and `reconnecting` is set only while one does. -/
structure Exclusive (p : Pool SocksVpnService Locals Op) : Prop where
  one : AtMostOne Executing p.threads
  held : p.state.reconnecting = true → ∃ t ∈ p.threads, Executing t

def isTake : Op → Bool
  | .takeReconnecting _ => true
  | _ => false

def isCheck : Op → Bool
  | .checkStopping _ => true
  | _ => false

/-- What is asked of the taking of `reconnecting` and of the look at `stopping` after it. -/
def Asked (p : Pool SocksVpnService Locals Op) (op : Op) : Prop :=
  (isTake op = true → p.state.reconnecting = false →
    ∀ t ∈ p.threads, Executing t → t.locals.token ∉ p.state.interrupted) ∧
  (isCheck op = true → p.state.stopping = true → p.state.reconnecting = false)

instance (p : Pool SocksVpnService Locals Op) : DecidablePred (Asked p) :=
  fun _ => inferInstanceAs (Decidable (_ ∧ _))

/-- A recovery takes `reconnecting` only when no recovery executes that `stopEverything` has cleared
it under, and finds `stopping` set only when it has been cleared again. -/
def Orderly (p : Pool SocksVpnService Locals Op) : Event → Prop
  | .run i _ => ∀ op ∈ p.next i, Asked p op
  | _ => True

instance (p : Pool SocksVpnService Locals Op) : DecidablePred (Orderly p)
  | .run i _ => inferInstanceAs (Decidable (∀ op ∈ p.next i, Asked p op))
  | .startOpenFluxNative _ _ | .startHysteriaNative _ _ _ _ | .startTun2Socks | .stopVpn
  | .stopOpenFluxNative | .onStartCommand _ | .onRevoke | .onDestroy | .onAvailable | .onLost _
  | .callback _ | .exit _ _ | .output _ _ => .isTrue trivial

/-! ### Operations that leave the flag alone -/

/-- What recoveries exclude each other by. -/
def flag (s : SocksVpnService) : Bool × ℕ × List ℕ := (s.reconnecting, s.taken, s.interrupted)

def takes : Op → Bool
  | .takeReconnecting _ | .checkStopping _ | .release | .clearReconnecting => true
  | _ => false

/-- The step leaves the flag, and the recovery its thread is in, if it is in one. -/
structure Keeps (s : SocksVpnService) (v : Locals) (r : Effect SocksVpnService Locals Op) :
    Prop where
  flag : r.state.flag = s.flag
  locals : r.locals = v
  flow : (∃ code, r.flow = .go code ∧ code.any holds = false) ∨ r.flow = .unwind isFinally
  launched : ∀ t ∈ r.launched, t.code.any holds = false

theorem flag_view : s.view.flag = s.flag := rfl

theorem Plain.keeps (h : Plain s v op r) : Keeps s v r := by
  obtain ⟨code, hflow, hfits⟩ := h.flow
  simp only [Fits, Bool.and_eq_true, Bool.not_eq_true'] at hfits
  refine ⟨?_, h.locals, .inl ⟨code, hflow, hfits.1⟩, fun t ht => ?_⟩
  · rw [← flag_view, h.view, flag_view]
  · rw [h.launched] at ht
    exact nomatch ht

theorem keeps_go (h : go s' v code = some r) (hflag : s'.flag = s.flag)
    (hcode : code.any holds = false) : Keeps s v r := by
  cases h
  exact ⟨hflag, rfl, .inl ⟨code, rfl, hcode⟩, nofun⟩

theorem keeps_client {b : Backend} {x : Thread Supervisor.Locals Supervisor.Op}
    (h : execClient message c s v b x = some r) : Keeps s v r := by
  unfold execClient at h
  split at h
  · exact keeps_go h rfl rfl
  · obtain ⟨e, -, rfl⟩ := Option.map_eq_some_iff.mp h
    refine ⟨?_, rfl, .inl ⟨_, rfl, rfl⟩, fun t ht => ?_⟩
    · cases b <;> rfl
    · obtain ⟨w, -, rfl⟩ := List.mem_map.mp ht
      rfl

theorem keeps_launch {set : ℕ → Op} (h : launch s v code set = some r)
    (hcode : code.any holds = false) (hset : holds (set s.jobs) = false) : Keeps s v r := by
  cases h
  refine ⟨rfl, rfl, .inl ⟨_, rfl, by simp [hset]⟩, fun t ht => ?_⟩
  rw [List.mem_singleton.mp ht]
  exact hcode

theorem exec_keeps (hop : takes op = false) (h : exec message c s v op = some r) :
    Keeps s v r := by
  by_cases hspecial : special op = false
  · exact (exec_plain hspecial h).keeps
  cases op <;> simp only [special, not_true_eq_false] at hspecial
  case takeReconnecting g => simp [takes] at hop
  case checkStopping g => simp [takes] at hop
  case release => simp [takes] at hop
  case clearReconnecting => simp [takes] at hop
  case client b x => exact keeps_client h
  case launchMonitor g => exact keeps_launch h rfl rfl
  case launchNetwork g => exact keeps_launch h rfl rfl
  case takeStopping =>
    simp only [exec] at h
    split_ifs at h
    · exact keeps_go h rfl rfl
    · exact keeps_go h rfl rfl
  case delay =>
    simp only [exec] at h
    split_ifs at h
    · cases h
      exact ⟨rfl, rfl, .inr rfl, fun _ ht => absurd ht List.not_mem_nil⟩
    · exact keeps_go h rfl rfl
  case available => exact keeps_go h rfl (by split_ifs <;> rfl)
  case hysteriaExited => exact keeps_go h rfl (by split_ifs <;> rfl)
  all_goals exact keeps_go h rfl rfl

/-! ### The invariant along a run -/

/-- The code of a recovery: what it looks at first is at its front, and it ends once. -/
structure Recovers (t : Thread Locals Op) : Prop where
  check : t.code.tail.any isCheck = false
  once : t.code.countP holds ≤ 1

/-- A recovery that executes has the flag, or `stopEverything` has cleared it under it. -/
structure Inv (p : Pool SocksVpnService Locals Op) : Prop where
  exclusive : Exclusive p
  recovers : ∀ t ∈ p.threads, Recovers t
  token : ∀ t ∈ p.threads, Executing t →
    p.state.reconnecting = true ∧ t.locals.token = p.state.taken ∨
      t.locals.token ∈ p.state.interrupted

theorem inv_init : Inv (system message).init where
  exclusive := ⟨.of_forall_not nofun, nofun⟩
  recovers := nofun
  token := nofun

theorem holds_iff : holds op = true ↔ isCheck op = true ∨ isFinally op = true := by
  cases op <;> simp [holds, isCheck, isFinally]

theorem any_isCheck_of_any_holds (h : code.any holds = false) : code.any isCheck = false := by
  rw [List.any_eq_false] at h ⊢
  exact fun op hop hcheck => h op hop (holds_iff.mpr (.inl hcheck))

theorem recovers_of_not (h : code.any holds = false) : Recovers ⟨v, code⟩ where
  check := by
    have hcheck := any_isCheck_of_any_holds h
    rw [List.any_eq_false] at hcheck ⊢
    exact fun op hop => hcheck op (List.mem_of_mem_tail hop)
  once := by
    rw [List.any_eq_false, ← List.countP_eq_zero] at h
    exact h.le.trans (Nat.zero_le 1)

/-- Behind an operation of a recovery there is no other. -/
theorem Recovers.rest_eq (h : Recovers ⟨v, op :: rest⟩) (hop : holds op = true) :
    rest.any holds = false := by
  have honce : (op :: rest).countP holds ≤ 1 := h.once
  rw [List.countP_cons_of_pos hop] at honce
  rw [List.any_eq_false, ← List.countP_eq_zero]
  omega

/-- A step that leaves the flag alone leaves a recovery what it is. -/
theorem Keeps.thread (h : Keeps s v r) (hr : Recovers ⟨v, op :: rest⟩) (hop : holds op = false) :
    Recovers ⟨r.locals, r.flow.apply rest⟩ ∧
      (Executing ⟨r.locals, r.flow.apply rest⟩ ↔ Executing ⟨v, op :: rest⟩) := by
  have hcheck : rest.any isCheck = false := hr.check
  have honce : rest.countP holds ≤ 1 := by
    have honce : (op :: rest).countP holds ≤ 1 := hr.once
    rwa [List.countP_cons_of_neg (by simp [hop])] at honce
  have hexecuting : Executing ⟨v, op :: rest⟩ ↔ rest.any holds = true := by
    simp [Executing, hop]
  rw [hexecuting]
  rcases h.flow with ⟨code, hflow, hcode⟩ | hflow
  · rw [hflow, ControlFlow.apply_go]
    have hcode0 : code.countP holds = 0 := by
      rwa [List.countP_eq_zero, ← List.any_eq_false]
    refine ⟨⟨List.any_eq_false.mpr fun o ho => ?_, ?_⟩, ?_⟩
    · rcases List.mem_append.mp (List.mem_of_mem_tail ho) with hnew | hold
      · exact List.any_eq_false.mp (any_isCheck_of_any_holds hcode) o hnew
      · exact List.any_eq_false.mp hcheck o hold
    · rwa [List.countP_append, hcode0, Nat.zero_add]
    · simp [Executing, hcode]
  · rw [hflow, ControlFlow.apply_unwind]
    refine ⟨⟨List.any_eq_false.mpr fun o ho => ?_, ?_⟩, ?_⟩
    · exact List.any_eq_false.mp hcheck o (List.mem_of_mem_filter (List.mem_of_mem_tail ho))
    · exact (List.filter_sublist.countP_le).trans honce
    · simp only [Executing, List.any_eq_true, List.mem_filter]
      constructor
      · rintro ⟨o, ⟨ho, -⟩, hholds⟩
        exact ⟨o, ho, hholds⟩
      · rintro ⟨o, ho, hholds⟩
        have hfinally := (holds_iff.mp hholds).resolve_left (List.any_eq_false.mp hcheck o ho)
        exact ⟨o, ⟨ho, hfinally⟩, hholds⟩

/-- A step of thread `i` that leaves the flag alone. -/
theorem inv_keeps (hp : Inv p) (hi : p.threads[i]? = some ⟨v, op :: rest⟩) (hop : holds op = false)
    (h : Keeps p.state v r) :
    Inv ⟨r.state, p.threads.set i ⟨r.locals, r.flow.apply rest⟩ ++ r.launched⟩ := by
  have hmem := List.mem_of_getElem? hi
  have hlt := (List.getElem?_eq_some_iff.mp hi).1
  obtain ⟨hrecovers, hexecuting⟩ := h.thread (hp.recovers _ hmem) hop
  have hlaunched : ∀ t ∈ r.launched, ¬ Executing t := fun t ht => by
    simp [Executing, h.launched t ht]
  have hflag := h.flag
  simp only [flag, Prod.mk.injEq] at hflag
  obtain ⟨hreconnecting, htaken, hinterrupted⟩ := hflag
  refine ⟨⟨?_, fun hheld => ?_⟩, fun t ht => ?_, fun t ht hex => ?_⟩
  · exact (hp.exclusive.one.set_of_imp hi hexecuting.mp).append_of_not hlaunched
  · obtain ⟨t, ht, hex⟩ := hp.exclusive.held (hreconnecting ▸ hheld)
    obtain ⟨k, hk⟩ := List.mem_iff_getElem?.mp ht
    rcases eq_or_ne i k with rfl | hne
    · rw [hi, Option.some.injEq] at hk
      exact ⟨_, List.mem_append_left _ (List.mem_set hlt _), hexecuting.mpr (hk ▸ hex)⟩
    · refine ⟨t, List.mem_append_left _ (List.mem_of_getElem? (i := k) ?_), hex⟩
      rwa [List.getElem?_set_ne hne]
  · rcases List.mem_append.mp ht with hset | hnew
    · rcases Pool.mem_set hset with rfl | hother
      · exact hrecovers
      · exact hp.recovers t (Pool.mem_of_mem_others hother)
    · exact recovers_of_not (h.launched t hnew)
  · rw [hreconnecting, htaken, hinterrupted]
    rcases List.mem_append.mp ht with hset | hnew
    · rcases Pool.mem_set hset with rfl | hother
      · have htoken := hp.token _ hmem (hexecuting.mp hex)
        rwa [h.locals]
      · exact hp.token t (Pool.mem_of_mem_others hother) hex
    · exact absurd hex (hlaunched t hnew)

/-- Thread `i` leaves its recovery, and `reconnecting` is cleared. -/
theorem inv_leave (hp : Inv p) (hothers : ∀ t ∈ p.others i, ¬ Executing t)
    (hrest : rest.any holds = false) (hclear : s'.reconnecting = false) :
    Inv ⟨s', p.threads.set i ⟨v, rest⟩⟩ := by
  have hnone : ∀ t ∈ p.threads.set i ⟨v, rest⟩, ¬ Executing t := by
    intro t ht
    rcases Pool.mem_set ht with rfl | hother
    · simp [Executing, hrest]
    · exact hothers t hother
  refine ⟨⟨.of_forall_not hnone, fun h => (nomatch h.symm.trans hclear)⟩, fun t ht => ?_,
    fun t ht hex => absurd hex (hnone t ht)⟩
  rcases Pool.mem_set ht with rfl | hother
  · exact recovers_of_not hrest
  · exact hp.recovers t (Pool.mem_of_mem_others hother)

theorem inv_takeReconnecting (hp : Inv p) {g : ℕ}
    (hi : p.threads[i]? = some ⟨v, .takeReconnecting g :: rest⟩)
    (hasked : Asked p (.takeReconnecting g)) (hfree : p.state.reconnecting = false) :
    Inv ⟨{ p.state with reconnecting := true, taken := p.state.taken + 1 },
      p.threads.set i ⟨{ v with token := p.state.taken + 1 }, .checkStopping g :: rest⟩⟩ := by
  have hnone : ∀ t ∈ p.threads, ¬ Executing t := by
    intro t ht hex
    rcases hp.token t ht hex with ⟨hheld, -⟩ | hinterrupted
    · exact nomatch hheld.symm.trans hfree
    · exact hasked.1 rfl hfree t ht hex hinterrupted
  have hlt := (List.getElem?_eq_some_iff.mp hi).1
  have hrest : rest.any holds = false := by
    have hown := hnone _ (List.mem_of_getElem? hi)
    simpa [Executing, holds] using hown
  refine ⟨⟨.set_of_others fun t ht => hnone t (List.mem_of_mem_eraseIdx ht), fun _ => ?_⟩,
    fun t ht => ?_, fun t ht hex => ?_⟩
  · exact ⟨_, List.mem_set hlt _, rfl⟩
  · rcases Pool.mem_set ht with rfl | hother
    · refine ⟨any_isCheck_of_any_holds hrest, ?_⟩
      rw [List.any_eq_false, ← List.countP_eq_zero] at hrest
      rw [List.countP_cons_of_pos rfl, hrest]
    · exact hp.recovers t (Pool.mem_of_mem_others hother)
  · rcases Pool.mem_set ht with rfl | hother
    · exact .inl ⟨rfl, rfl⟩
    · exact absurd hex (hnone t (Pool.mem_of_mem_others hother))

/-- Thread `i` goes on with its recovery. -/
theorem inv_checkStopping (hp : Inv p) {g : ℕ}
    (hi : p.threads[i]? = some ⟨v, .checkStopping g :: rest⟩) :
    Inv ⟨p.state, p.threads.set i ⟨v, .body g :: .release :: rest⟩⟩ := by
  have hmem := List.mem_of_getElem? hi
  have hlt := (List.getElem?_eq_some_iff.mp hi).1
  have hrest := (hp.recovers _ hmem).rest_eq rfl
  have hothers := hp.exclusive.one.not_others hi rfl
  refine ⟨⟨.set_of_others hothers, fun _ => ⟨_, List.mem_set hlt _, rfl⟩⟩, fun t ht => ?_,
    fun t ht hex => ?_⟩
  · rcases Pool.mem_set ht with rfl | hother
    · have hcheck := any_isCheck_of_any_holds hrest
      rw [List.any_eq_false, ← List.countP_eq_zero] at hrest
      refine ⟨hcheck, ?_⟩
      rw [List.countP_cons_of_neg Bool.false_ne_true, List.countP_cons_of_pos rfl, hrest]
    · exact hp.recovers t (Pool.mem_of_mem_others hother)
  · rcases Pool.mem_set ht with rfl | hother
    · exact hp.token ⟨v, .checkStopping g :: rest⟩ hmem rfl
    · exact absurd hex (hothers t hother)

/-- `stopEverything` clears the flag, under a recovery or not. -/
theorem inv_clearReconnecting (hp : Inv p)
    (hi : p.threads[i]? = some ⟨v, .clearReconnecting :: rest⟩) :
    Inv ⟨{ p.state with
      reconnecting := false,
      interrupted := if p.state.reconnecting then p.state.taken :: p.state.interrupted
        else p.state.interrupted }, p.threads.set i ⟨v, rest⟩⟩ := by
  have hkeeps : Keeps p.state v ⟨p.state, v, .go [], []⟩ := keeps_go rfl rfl rfl
  have hsame := inv_keeps hp hi rfl hkeeps
  rw [List.append_nil] at hsame
  refine ⟨⟨hsame.exclusive.one, nofun⟩, hsame.recovers, fun t ht hex => .inr ?_⟩
  rcases hsame.token t ht hex with ⟨hheld, htoken⟩ | hinterrupted
  · rw [if_pos hheld]
    exact List.mem_cons.mpr (.inl htoken)
  · split_ifs
    · exact List.mem_cons_of_mem _ hinterrupted
    · exact hinterrupted

theorem inv_run (hp : Inv p) (horderly : Orderly p (.run i c))
    (h : p.step (exec message) i c = some p') : Inv p' := by
  obtain ⟨v, op, rest, r, hi, hr, rfl⟩ := Pool.step_eq_some.mp h
  have hasked : Asked p op := horderly op (by simp [Pool.next, hi])
  have hmem := List.mem_of_getElem? hi
  by_cases htakes : takes op = false
  · refine inv_keeps hp hi ?_ (exec_keeps htakes hr)
    cases op <;> first | rfl | exact nomatch htakes
  cases op <;> simp only [takes, not_true_eq_false] at htakes
  case takeReconnecting g =>
    simp only [exec] at hr
    split_ifs at hr with hheld
    · exact inv_keeps hp hi rfl (keeps_go hr rfl rfl)
    · cases hr
      rw [List.append_nil]
      exact inv_takeReconnecting hp hi hasked (by simpa using hheld)
  case checkStopping g =>
    cases hr
    rw [List.append_nil, ControlFlow.apply_go]
    split_ifs with hstopping
    · exact inv_leave hp (hp.exclusive.one.not_others hi rfl)
        ((hp.recovers _ hmem).rest_eq rfl) (hasked.2 rfl hstopping)
    · exact inv_checkStopping hp hi
  case release =>
    cases hr
    rw [List.append_nil]
    exact inv_leave hp (hp.exclusive.one.not_others hi rfl) ((hp.recovers _ hmem).rest_eq rfl) rfl
  case clearReconnecting =>
    cases hr
    rw [List.append_nil]
    exact inv_clearReconnecting hp hi

theorem inv_call (hp : Inv p) (h : call { p with state := s' } code = some p')
    (hflag : s'.flag = p.state.flag) (hcode : code.any holds = false) : Inv p' := by
  cases h
  have hnew : ∀ t ∈ [(⟨{}, code⟩ : Thread Locals Op)], ¬ Executing t := by
    intro t ht
    rw [List.mem_singleton.mp ht]
    simp [Executing, hcode]
  simp only [flag, Prod.mk.injEq] at hflag
  obtain ⟨hreconnecting, htaken, hinterrupted⟩ := hflag
  refine ⟨⟨hp.exclusive.one.append_of_not hnew, fun hheld => ?_⟩, fun t ht => ?_,
    fun t ht hex => ?_⟩
  · obtain ⟨t, ht, hex⟩ := hp.exclusive.held (hreconnecting ▸ hheld)
    exact ⟨t, List.mem_append_left _ ht, hex⟩
  · rcases List.mem_append.mp ht with hold | hlast
    · exact hp.recovers t hold
    · rw [List.mem_singleton.mp hlast]
      exact recovers_of_not hcode
  · rw [hreconnecting, htaken, hinterrupted]
    rcases List.mem_append.mp ht with hold | hlast
    · exact hp.token t hold hex
    · exact absurd hex (hnew t hlast)

theorem flag_setClient (b : Backend) (x : Supervisor) : (s.setClient b x).flag = s.flag := by
  cases b <;> rfl

theorem Inv.of_flag (hp : Inv p) (h : s'.flag = p.state.flag) : Inv { p with state := s' } := by
  simp only [flag, Prod.mk.injEq] at h
  obtain ⟨hreconnecting, htaken, hinterrupted⟩ := h
  refine ⟨⟨hp.exclusive.one, fun hheld => hp.exclusive.held (hreconnecting ▸ hheld)⟩, hp.recovers,
    fun t ht hex => ?_⟩
  rw [hreconnecting, htaken, hinterrupted]
  exact hp.token t ht hex

theorem inv_step {e : Event} (hp : Inv p) (horderly : Orderly p e)
    (h : (system message).step p e = some p') : Inv p' := by
  cases e with
  | run i c => exact inv_run hp horderly h
  | startOpenFluxNative args key => exact inv_call hp h rfl rfl
  | startHysteriaNative uri args key fallback => exact inv_call hp h rfl rfl
  | startTun2Socks => exact inv_call hp h rfl rfl
  | stopVpn => exact inv_call hp h rfl rfl
  | stopOpenFluxNative => exact inv_call hp h rfl rfl
  | onStartCommand intent => exact inv_call hp h rfl (by cases intent <;> rfl)
  | onRevoke => exact inv_call hp h rfl rfl
  | onDestroy => exact inv_call hp h rfl rfl
  | onAvailable => exact inv_call hp h rfl rfl
  | onLost available =>
    cases h
    exact hp.of_flag rfl
  | callback b =>
    simp only [system] at h
    split at h
    · exact inv_call hp h (flag_setClient b _) (by cases b <;> rfl)
    · exact nomatch h
  | exit b q =>
    simp only [system, Option.ite_none_right_eq_some, Option.some.injEq] at h
    obtain ⟨-, rfl⟩ := h
    exact hp.of_flag (flag_setClient b _)
  | output b line =>
    simp only [system, Option.ite_none_right_eq_some, Option.some.injEq] at h
    obtain ⟨-, rfl⟩ := h
    exact hp.of_flag (flag_setClient b _)

/-- **Recoveries exclude each other in every run**, over any number of sessions, and `reconnecting`
is set only while one executes, if a recovery takes the flag only once each that `stopEverything`
has cleared it under has ended, and finds `stopping` set only once the flag is cleared again. -/
theorem exclusive_run {es : List Event} (h : (system message).run (system message).init es = some p)
    (horderly : (system message).Along Orderly (system message).init es) : Exclusive p :=
  (run_invariant (fun _ _ _ hp ho hstep => inv_step hp ho hstep) inv_init horderly h).exclusive

/-! ### Runs -/

/-- A recovery is stopped while it waits, and ends; then comes another session with a recovery. -/
def twoRecoveries : List Event :=
  session 0 ++ unhealthy 0 ++ waits 0 ++ stops 5 ++ steps 4 2 ++ session 6 ++ unhealthy 6 ++
    steps 10 3

theorem exclusive_run_twoRecoveries : ∃ p, (system id).run (system id).init twoRecoveries = some p ∧
    p.state.taken = 2 ∧ Exclusive p := by
  have hrun : ((system id).run (system id).init twoRecoveries).map (fun p => p.state.taken) =
      some 2 := by
    decide +kernel
  obtain ⟨p, hp, htaken⟩ := Option.map_eq_some_iff.mp hrun
  exact ⟨p, hp, htaken, exclusive_run hp (by decide +kernel)⟩

/-- The service is stopped while the health loop is about to take `reconnecting`, and started
again; the start of tun2socks launches no health loop then. -/
def takenLate : List Event :=
  session 0 ++ unhealthy 0 ++ stops 5 ++ steps 4 2 ++ (session 6).take 38

/-- The flag is left set, and the next session does not even watch its health. -/
theorem not_exclusive_takenLate : ¬ ∀ es p, (system id).run (system id).init es = some p →
    Exclusive p := by
  intro h
  have hrun : ((system id).run (system id).init takenLate).map
      (fun p => (p.state.reconnecting, p.threads.any fun t => t.code.any holds)) =
        some (true, false) := by
    decide +kernel
  obtain ⟨p, hp, hstate⟩ := Option.map_eq_some_iff.mp hrun
  rw [Prod.mk.injEq] at hstate
  obtain ⟨hheld, hnone⟩ := hstate
  obtain ⟨t, ht, hex⟩ := (h takenLate p hp).held hheld
  exact List.any_eq_false.mp hnone t ht hex

end OpenFlux.App.SocksVpnService
