import OpenFlux.App.TunnelsViewModel

/-!
# One start job at a time

`startTunnel` and `stop` cancel the start job before them by way of `teardown`, which does nothing
while an earlier teardown is active: a start job that waits for that teardown goes on.  `Careful`
asks that nothing is stopped then, that no start job is active when `startTunnel` does not stop, and
that a start job is cancelled only where it is suspended or comes to a suspension point before it
does anything.  Then start jobs are dropped for good, in every run (`obeyed_run`).  Nothing in the
code sees to it: a tunnel that is started and stopped while a teardown is active runs all the same
(`not_obeyed_stoppedTwice`).

Between two steps `Inv` says what each thread may still do: one that is cancelled comes to a
suspension point before it does anything, and one that is active waits for the teardown, if there
is one.  So what does anything is the active start job (`StartFits.live`), which no command has
dropped.
-/

namespace OpenFlux.App.TunnelsViewModel

open EventSystem

variable {s s' : TunnelsViewModel} {v : Job} {op : Op} {rest code : List Op}
  {t : Thread Job Op} {c : Choice} {r : Effect TunnelsViewModel Job Op}
  {p p' : Pool TunnelsViewModel Job Op} {i j : ℕ} {tunnel : Tunnel} {final : TunnelState}

/-- The start job has neither been cancelled nor completed. -/
def Live (s : TunnelsViewModel) (j : ℕ) : Prop :=
  j < s.starts.length ∧ j ∉ s.cancelled ∧ j ∉ s.completed

/-- The tunnel has a start job that no command has stopped or replaced. -/
def Wanted (s : TunnelsViewModel) (tunnel : Tunnel) : Prop :=
  ∃ j t, s.starts[j]? = some t ∧ t.id = tunnel.id ∧ j ∉ s.dropped

/-- What a command has stopped or replaced has been cancelled and never gets anywhere, and at most
one start job is live. -/
structure Obeyed (s : TunnelsViewModel) : Prop where
  dropped : ∀ j ∈ s.dropped, ¬ s.Live j
  late : s.late = []
  running : ∀ tunnel, s.active = .running tunnel → s.Wanted tunnel
  one : ∀ i j, s.Live i → s.Live j → i = j

/-! ### The condition -/

def suspends : Op → Bool
  | .begin | .delay => true
  | .join k => k.isSome
  | _ => false

/-- The job fails, or is at its end. -/
def leaves : Op → Bool
  | .fail _ | .teardownUnavailable | .finish => true
  | _ => false

def works (op : Op) : Bool := !suspends op && !leaves op

/-- If this is the thread of the start job, it suspends before it does anything. -/
def Waits (s : TunnelsViewModel) (t : Thread Job Op) : Prop :=
  match t.locals with
  | .start j _ => s.startJob = some j → Ahead works suspends t.code = false
  | .teardown _ _ => True

instance (s : TunnelsViewModel) : DecidablePred (Waits s)
  | ⟨.start j _, code⟩ =>
    inferInstanceAs (Decidable (s.startJob = some j → Ahead works suspends code = false))
  | ⟨.teardown _ _, _⟩ => .isTrue trivial

/-- What is asked of a stop. -/
def StopsWell (p : Pool TunnelsViewModel Job Op) : Prop :=
  if p.state.tearing then p.state.connecting = false
  else p.state.active.isStopping = false → ∀ t ∈ p.threads, Waits p.state t

instance (p : Pool TunnelsViewModel Job Op) : Decidable (StopsWell p) :=
  inferInstanceAs (Decidable (if p.state.tearing then p.state.connecting = false
    else p.state.active.isStopping = false → ∀ t ∈ p.threads, Waits p.state t))

/-- What is asked of `startTunnel`. -/
def StartsWell (p : Pool TunnelsViewModel Job Op) (tunnel : Tunnel) : Prop :=
  if p.state.active.starting = none then p.state.connecting = false
  else p.state.active.starting.all (·.id = tunnel.id) = false → StopsWell p

instance (p : Pool TunnelsViewModel Job Op) : Decidable (StartsWell p tunnel) :=
  inferInstanceAs (Decidable (if p.state.active.starting = none then p.state.connecting = false
    else p.state.active.starting.all (·.id = tunnel.id) = false → StopsWell p))

/-- The status sets the state to restoring or running. -/
def resumes (active : TunnelState) : Status → Bool
  | .checking => match active with
    | .restoring _ _ => true
    | _ => false
  | .waitingForNetwork | .restoring | .restored => true
  | .unavailable => false

/-- What is asked of each step. -/
def Careful (p : Pool TunnelsViewModel Job Op) : Event → Prop
  | .stop => StopsWell p
  | .selectTunnel => p.state.active.isActive = true → StopsWell p
  | .startTunnel tunnel => StartsWell p tunnel
  | .connectionStatus status =>
    resumes p.state.active status = true →
      ∀ tunnel ∈ p.state.tunnelData, p.state.active.starting.any (·.id = tunnel.id) = true
  | .nativeProcessExited _ =>
    p.state.active.isActive = true → p.state.active.isUnavailable = false →
      p.state.tearing = false → ∀ t ∈ p.threads, Waits p.state t
  | .vpnRevoked => p.state.active ≠ .idle → ∀ t ∈ p.threads, Waits p.state t
  | .reconcileSystemState =>
    reconciles p.state.active = true → ∀ t ∈ p.threads, Waits p.state t
  | .run i _ => ∀ op ∈ p.next i, leaves op = true → op ≠ .finish → p.state.tearing = false →
    ∀ t ∈ p.others i, Waits p.state t
  | .onServiceConnected | .onServiceDisconnected => True

instance (p : Pool TunnelsViewModel Job Op) : DecidablePred (Careful p)
  | .stop => inferInstanceAs (Decidable (StopsWell p))
  | .selectTunnel => inferInstanceAs (Decidable (_ → StopsWell p))
  | .startTunnel tunnel => inferInstanceAs (Decidable (StartsWell p tunnel))
  | .connectionStatus status => inferInstanceAs (Decidable (
    resumes p.state.active status = true →
      ∀ tunnel ∈ p.state.tunnelData, p.state.active.starting.any (·.id = tunnel.id) = true))
  | .nativeProcessExited _ => inferInstanceAs (Decidable (
    p.state.active.isActive = true → p.state.active.isUnavailable = false →
      p.state.tearing = false → ∀ t ∈ p.threads, Waits p.state t))
  | .vpnRevoked => inferInstanceAs (Decidable (
    p.state.active ≠ .idle → ∀ t ∈ p.threads, Waits p.state t))
  | .reconcileSystemState => inferInstanceAs (Decidable (
    reconciles p.state.active = true → ∀ t ∈ p.threads, Waits p.state t))
  | .run i _ => inferInstanceAs (Decidable (
    ∀ op ∈ p.next i, leaves op = true → op ≠ .finish → p.state.tearing = false →
      ∀ t ∈ p.others i, Waits p.state t))
  | .onServiceConnected | .onServiceDisconnected => .isTrue trivial

/-! ### The invariant -/

/-- The job waits for the teardown, or is to be dispatched and then will. -/
def Joins (k : Option ℕ) (code : List Op) : Prop :=
  ∃ rest, code = .begin :: .join k :: rest ∨ code = .join k :: rest

/-- What the thread of a start job may still do. -/
structure StartFits (s : TunnelsViewModel) (j : ℕ) (tunnel : Tunnel) (code : List Op) : Prop where
  tunnel : s.starts[j]? = some tunnel
  completed : j ∈ s.completed → code = []
  cancelled : j ∈ s.cancelled → Ahead works suspends code = false
  joins : s.Live j → s.tearing = true → Joins s.teardownJob code

def Fits (s : TunnelsViewModel) (t : Thread Job Op) : Prop :=
  match t.locals with
  | .start j tunnel => StartFits s j tunnel t.code
  | .teardown k final => k < s.teardowns ∧ final.starting = none

/-- The number is one of a start job that has been launched. -/
def Known (s : TunnelsViewModel) (j : ℕ) : Prop :=
  j ∈ s.cancelled ∨ j ∈ s.completed ∨ j ∈ s.dropped ∨ s.startJob = some j

structure Inv (p : Pool TunnelsViewModel Job Op) : Prop where
  known : ∀ j, p.state.Known j → j < p.state.starts.length
  startJob : ∀ j, p.state.Live j → p.state.startJob = some j
  dropped : ∀ j ∈ p.state.dropped, ¬ p.state.Live j
  late : p.state.late = []
  starting : ∀ tunnel, p.state.active.starting = some tunnel →
    p.state.Wanted tunnel ∧ (p.state.tearing = true → ∃ j, p.state.Live j)
  stopping : p.state.active.isStopping = true → p.state.startJob = none
  nodup : (p.threads.map Thread.locals).Nodup
  threads : ∀ t ∈ p.threads, Fits p.state t

theorem inv_init : Inv system.init where
  known := by simp [Known, system]
  startJob := by simp [Live, system]
  dropped := by simp [system]
  late := rfl
  starting := by simp [system, TunnelState.starting]
  stopping := by simp [system, TunnelState.isStopping]
  nodup := List.nodup_nil
  threads := by simp [system]

theorem Inv.obeyed (hp : Inv p) : Obeyed p.state where
  dropped := hp.dropped
  late := hp.late
  running tunnel hrunning := (hp.starting tunnel (by rw [hrunning]; rfl)).1
  one i j hi hj := by
    have hsame := (hp.startJob i hi).symm.trans (hp.startJob j hj)
    exact Option.some.inj hsame

theorem Inv.not_connecting (hp : Inv p) (h : p.state.connecting = false) :
    ∀ j, ¬ p.state.Live j := by
  intro j hj
  rw [connecting, hp.startJob j hj, Option.any_some, Bool.and_eq_false_iff] at h
  simp only [Bool.not_eq_eq_eq_not, Bool.not_false, List.contains_eq_mem, decide_eq_true_eq] at h
  exact h.elim hj.2.1 hj.2.2

/-! ### Steps of the state alone -/

/-- The jobs, without the fields that no invariant of theirs reads. -/
def view (s : TunnelsViewModel) : TunnelsViewModel :=
  { s with service := false, activeTunnelData := none, bindRequested := false, active := .idle }

/-- A thread fits a state in which its job is no further than before. -/
theorem Fits.of (h : Fits s t)
    (hstarts : ∀ (j : ℕ) (tunnel : Tunnel),
      s.starts[j]? = some tunnel → s'.starts[j]? = some tunnel)
    (hteardowns : s.teardowns ≤ s'.teardowns)
    (hstart : ∀ j tunnel, t.locals = .start j tunnel → (j ∈ s'.completed → j ∈ s.completed) ∧
      (j ∈ s'.cancelled → j ∈ s.cancelled ∨ Ahead works suspends t.code = false) ∧
      (s'.Live j → s'.tearing = true →
        s.Live j ∧ s.tearing = true ∧ s'.teardownJob = s.teardownJob)) : Fits s' t := by
  obtain ⟨v, code⟩ := t
  cases v with
  | start j tunnel =>
    have hfits : StartFits s j tunnel code := h
    obtain ⟨hcompleted, hcancelled, hlive⟩ := hstart j tunnel rfl
    refine StartFits.mk (hstarts j tunnel hfits.tunnel) (fun hj => hfits.completed (hcompleted hj))
      (fun hj => (hcancelled hj).elim hfits.cancelled id) fun hj htearing => ?_
    obtain ⟨hj, htearing, hsame⟩ := hlive hj htearing
    rw [hsame]
    exact hfits.joins hj htearing
  | teardown k final => exact ⟨h.1.trans_le hteardowns, h.2⟩

/-- What a view shows is the same where the views are. -/
theorem eq_of_view {β : Type} (f : TunnelsViewModel → β) (hf : ∀ s, f s.view = f s)
    (h : s'.view = s.view) : f s' = f s := by
  rw [← hf, h, hf]

theorem Fits.of_view (h : Fits s t) (hview : s'.view = s.view) : Fits s' t := by
  refine h.of (fun j tunnel htunnel => ?_) (eq_of_view (·.teardowns) (fun _ => rfl) hview).ge
    fun j tunnel _ => ⟨fun hj => ?_, fun hj => .inl ?_, fun hj htearing => ⟨?_, ?_, ?_⟩⟩
  · rwa [eq_of_view (·.starts) (fun _ => rfl) hview]
  · rwa [eq_of_view (·.completed) (fun _ => rfl) hview] at hj
  · rwa [eq_of_view (·.cancelled) (fun _ => rfl) hview] at hj
  · rwa [eq_of_view (Live · j) (fun _ => rfl) hview] at hj
  · rwa [eq_of_view (·.tearing) (fun _ => rfl) hview] at htearing
  · exact eq_of_view (·.teardownJob) (fun _ => rfl) hview

/-- The state changes, and the jobs stay as they are. -/
theorem Inv.of_view (hp : Inv p) (hview : s'.view = p.state.view)
    (hstarting : ∀ tunnel, s'.active.starting = some tunnel →
      p.state.Wanted tunnel ∧ (p.state.tearing = true → ∃ j, p.state.Live j))
    (hstopping : s'.active.isStopping = true → p.state.startJob = none) :
    Inv { p with state := s' } where
  known j hj := by
    rw [eq_of_view (Known · j) (fun _ => rfl) hview] at hj
    exact (hp.known j hj).trans_eq (eq_of_view (·.starts.length) (fun _ => rfl) hview).symm
  startJob j hj := by
    rw [eq_of_view (Live · j) (fun _ => rfl) hview] at hj
    exact (eq_of_view (·.startJob) (fun _ => rfl) hview).trans (hp.startJob j hj)
  dropped j hj hlive := by
    rw [eq_of_view (·.dropped) (fun _ => rfl) hview] at hj
    rw [eq_of_view (Live · j) (fun _ => rfl) hview] at hlive
    exact hp.dropped j hj hlive
  late := (eq_of_view (·.late) (fun _ => rfl) hview).trans hp.late
  starting tunnel htunnel := by
    obtain ⟨hwanted, hlive⟩ := hstarting tunnel htunnel
    rw [← eq_of_view (Wanted · tunnel) (fun _ => rfl) hview] at hwanted
    refine ⟨hwanted, fun htearing => ?_⟩
    obtain ⟨j, hj⟩ := hlive ((eq_of_view (·.tearing) (fun _ => rfl) hview).symm.trans htearing)
    rw [← eq_of_view (Live · j) (fun _ => rfl) hview] at hj
    exact ⟨j, hj⟩
  stopping hstop := (eq_of_view (·.startJob) (fun _ => rfl) hview).trans (hstopping hstop)
  nodup := hp.nodup
  threads t ht := (hp.threads t ht).of_view hview

/-- A state in which nothing is starting. -/
theorem Inv.of_rest (hp : Inv p) (hview : s'.view = p.state.view)
    (hstarting : s'.active.starting = none) (hstopping : s'.active.isStopping = false) :
    Inv { p with state := s' } :=
  hp.of_view hview (fun _ h => nomatch h.symm.trans hstarting)
    (fun h => nomatch h.symm.trans hstopping)

/-- The fields of the service change. -/
theorem Inv.of_active (hp : Inv p) (hview : s'.view = p.state.view)
    (hactive : s'.active = p.state.active) : Inv { p with state := s' } :=
  hp.of_view hview (fun tunnel h => hp.starting tunnel (hactive ▸ h))
    (fun h => hp.stopping (hactive ▸ h))

/-- Jobs are dropped when none is live. -/
theorem Inv.drop (hp : Inv p) (hnone : ∀ j, ¬ p.state.Live j)
    (hstarting : p.state.active.starting = none) {l : List ℕ}
    (hl : ∀ j ∈ l, j < p.state.starts.length) :
    Inv { p with state := { p.state with dropped := l } } where
  known j hj := by
    rcases hj with h | h | h | h
    · exact hp.known j (.inl h)
    · exact hp.known j (.inr (.inl h))
    · exact hl j h
    · exact hp.known j (.inr (.inr (.inr h)))
  startJob := hp.startJob
  dropped j _ := hnone j
  late := hp.late
  starting _ h := nomatch h.symm.trans hstarting
  stopping := hp.stopping
  nodup := hp.nodup
  threads t ht := (hp.threads t ht).of (fun _ _ => id) le_rfl fun j _ _ =>
    ⟨id, .inl, fun hj => absurd hj (hnone j)⟩

/-- No job is live once the start job is cancelled. -/
theorem Inv.not_live_cancelStart (hp : Inv p) : ∀ j, ¬ p.state.cancelStart.Live j := by
  rintro j ⟨hj, hcancelled, hcompleted⟩
  rw [TunnelsViewModel.cancelStart, List.mem_append, not_or] at hcancelled
  have hstart := hp.startJob j ⟨hj, hcancelled.2, hcompleted⟩
  exact hcancelled.1 (by rw [hstart]; exact List.mem_singleton_self j)

/-- The start job is cancelled where it waits, and nothing is starting. -/
theorem Inv.cancelStart (hp : Inv p) (hwaits : ∀ t ∈ p.threads, Waits p.state t)
    (hview : s'.view = p.state.cancelStart.view) (hstarting : s'.active.starting = none) :
    Inv { p with state := s' } := by
  have hnone := hp.not_live_cancelStart
  have hcancel : Inv { p with state := { p.state.cancelStart with active := .idle } } :=
    { known := by
        intro j hj
        rcases hj with h | h | h | h
        · rcases List.mem_append.mp h with hstart | hold
          · exact hp.known j (.inr (.inr (.inr (Option.mem_toList.mp hstart))))
          · exact hp.known j (.inl hold)
        · exact hp.known j (.inr (.inl h))
        · exact hp.known j (.inr (.inr (.inl h)))
        · exact nomatch h
      startJob := fun j hj => absurd hj (hnone j)
      dropped := fun j _ => hnone j
      late := hp.late
      starting := nofun
      stopping := nofun
      nodup := hp.nodup
      threads := by
        intro t ht
        refine (hp.threads t ht).of (fun _ _ => id) le_rfl fun j tunnel hlocals =>
          ⟨id, fun hj => ?_, fun hj => absurd hj (hnone j)⟩
        have hwait := hwaits t ht
        rw [Waits, hlocals] at hwait
        rcases List.mem_append.mp hj with hstart | hold
        · exact .inr (hwait (Option.mem_toList.mp hstart))
        · exact .inl hold }
  exact hcancel.of_view hview (fun _ h => nomatch h.symm.trans hstarting) fun _ => rfl

/-! ### Launching jobs -/

theorem nodup_append {threads : List (Thread Job Op)} (h : (threads.map Thread.locals).Nodup)
    (hnew : ∀ t ∈ threads, t.locals ≠ v) :
    ((threads ++ [(⟨v, code⟩ : Thread Job Op)]).map Thread.locals).Nodup := by
  rw [List.map_append, List.nodup_append]
  refine ⟨h, List.nodup_singleton v, fun a ha b hb => ?_⟩
  obtain ⟨t, ht, rfl⟩ := List.mem_map.mp ha
  rw [List.map_singleton, List.mem_singleton] at hb
  exact hb ▸ hnew t ht

/-- The number of a start job in its thread is below the number of jobs. -/
theorem Inv.start_lt (hp : Inv p) (ht : t ∈ p.threads) (hlocals : t.locals = .start j tunnel) :
    j < p.state.starts.length := by
  have hfits := hp.threads t ht
  rw [Fits, hlocals] at hfits
  exact (List.getElem?_eq_some_iff.mp hfits.tunnel).1

theorem Inv.launchTeardown (hp : Inv p) (hnone : ∀ j, ¬ p.state.Live j)
    (hstarting : p.state.active.starting = none) (hfinal : final.starting = none) :
    Inv ⟨{ p.state with
        teardownJob := some p.state.teardowns, teardowns := p.state.teardowns + 1 },
      p.threads ++ [⟨.teardown p.state.teardowns final, code⟩]⟩ where
  known := hp.known
  startJob := hp.startJob
  dropped := hp.dropped
  late := hp.late
  starting _ h := nomatch h.symm.trans hstarting
  stopping := hp.stopping
  nodup := by
    refine nodup_append hp.nodup fun t ht hlocals => ?_
    have hfits := hp.threads t ht
    rw [Fits, hlocals] at hfits
    exact lt_irrefl _ hfits.1
  threads t ht := by
    rcases List.mem_append.mp ht with hold | hnew
    · exact (hp.threads t hold).of (fun _ _ => id) (Nat.le_succ _) fun j _ _ =>
        ⟨id, .inl, fun hj => absurd hj (hnone j)⟩
    · rw [List.mem_singleton.mp hnew]
      exact ⟨Nat.lt_succ_self _, hfinal⟩

theorem Inv.teardown (hp : Inv p)
    (hwaits : p.state.tearing = false → ∀ t ∈ p.threads, Waits p.state t)
    (hfinal : final.starting = none) :
    Inv ⟨(p.state.teardown final).1, p.threads ++ (p.state.teardown final).2⟩ := by
  unfold TunnelsViewModel.teardown
  split_ifs with htearing
  · rwa [List.append_nil]
  · have hcancel : Inv { p with state := { p.state.cancelStart with
        active := .stopping (p.state.active.tunnel.or p.state.activeTunnelData) } } :=
      hp.cancelStart (hwaits (by simpa using htearing)) rfl rfl
    exact hcancel.launchTeardown hp.not_live_cancelStart rfl hfinal

theorem starting_of_isStopping {active : TunnelState} (h : active.isStopping = true) :
    active.starting = none := by
  cases active <;> first | rfl | exact nomatch h

/-- A stop leaves no job live. -/
theorem Inv.stop (hp : Inv p) (hstop : StopsWell p) :
    Inv ⟨p.state.stop.1, p.threads ++ p.state.stop.2⟩ ∧ (∀ j, ¬ p.state.stop.1.Live j) ∧
      p.state.stop.1.active.starting = none := by
  unfold TunnelsViewModel.stop
  split_ifs with hstopping
  · rw [List.append_nil]
    refine ⟨hp, fun j hj => ?_, ?_⟩
    · exact nomatch (hp.startJob j hj).symm.trans (hp.stopping hstopping)
    · exact starting_of_isStopping hstopping
  · unfold StopsWell at hstop
    by_cases htearing : p.state.tearing = true
    · rw [if_pos htearing] at hstop
      have hnone := hp.not_connecting hstop
      rw [TunnelsViewModel.teardown, if_pos htearing, List.append_nil]
      refine ⟨hp, hnone, ?_⟩
      by_contra hne
      obtain ⟨tunnel, htunnel⟩ := Option.ne_none_iff_exists'.mp hne
      obtain ⟨j, hj⟩ := (hp.starting tunnel htunnel).2 htearing
      exact hnone j hj
    · rw [if_neg htearing] at hstop
      refine ⟨hp.teardown (fun _ => hstop (by simpa using hstopping)) rfl, ?_⟩
      rw [TunnelsViewModel.teardown, if_neg htearing]
      exact ⟨hp.not_live_cancelStart, rfl⟩

theorem Inv.launchStart (hp : Inv p) (hnone : ∀ j, ¬ p.state.Live j) :
    Inv ⟨(p.state.launchStart tunnel).1, p.threads ++ (p.state.launchStart tunnel).2⟩ := by
  have hnew : ¬ p.state.Known p.state.starts.length := fun h => lt_irrefl _ (hp.known _ h)
  simp only [Known, not_or] at hnew
  obtain ⟨hcancelled, hcompleted, hdropped, -⟩ := hnew
  have hlength : (p.state.starts ++ [tunnel]).length = p.state.starts.length + 1 :=
    List.length_append
  have hlive : ∀ j, (p.state.launchStart tunnel).1.Live j → j = p.state.starts.length := by
    rintro j ⟨hj, hrest⟩
    by_contra hne
    refine hnone j ⟨?_, hrest⟩
    have hlt : j < p.state.starts.length + 1 := hlength ▸ hj
    omega
  have hself : (p.state.starts ++ [tunnel])[p.state.starts.length]? = some tunnel :=
    List.getElem?_concat_length
  have hnow : (p.state.launchStart tunnel).1.Live p.state.starts.length :=
    ⟨hlength.ge.trans_lt' (Nat.lt_succ_self _), hcancelled, hcompleted⟩
  refine ⟨fun j hj => ?_, fun j hj => ?_, fun j hj hlater => ?_, hp.late, fun other hother => ?_,
    nofun, ?_, fun t ht => ?_⟩
  · show j < (p.state.starts ++ [tunnel]).length
    rw [hlength]
    rcases hj with h | h | h | h
    · exact (hp.known j (.inl h)).trans (Nat.lt_succ_self _)
    · exact (hp.known j (.inr (.inl h))).trans (Nat.lt_succ_self _)
    · exact (hp.known j (.inr (.inr (.inl h)))).trans (Nat.lt_succ_self _)
    · exact Option.some.inj h ▸ Nat.lt_succ_self _
  · exact congrArg some (hlive j hj).symm
  · exact hdropped (hlive j hlater ▸ hj)
  · obtain rfl : tunnel = other := Option.some.inj hother
    exact ⟨⟨_, tunnel, hself, rfl, hdropped⟩, fun _ => ⟨_, hnow⟩⟩
  · exact nodup_append hp.nodup fun t ht hlocals => lt_irrefl _ (hp.start_lt ht hlocals)
  · rcases List.mem_append.mp ht with hold | hlast
    · refine (hp.threads t hold).of (fun k other hk => ?_) le_rfl fun j other hlocals =>
        ⟨id, .inl, fun hj => ?_⟩
      · exact (List.getElem?_append_left (List.getElem?_eq_some_iff.mp hk).1).trans hk
      · exact absurd (hlive j hj) (hp.start_lt hold hlocals).ne
    · rw [List.mem_singleton.mp hlast]
      exact ⟨hself, fun h => absurd h hcompleted, fun h => absurd h hcancelled,
        fun _ _ => ⟨_, .inl rfl⟩⟩

/-! ### Commands and events -/

theorem Inv.stopAll (hp : Inv p) (hstop : StopsWell p) :
    Inv ⟨p.state.stop.1.dropAll, p.threads ++ p.state.stop.2⟩ := by
  obtain ⟨hstopped, hnone, hstarting⟩ := hp.stop hstop
  exact hstopped.drop hnone hstarting fun j hj => List.mem_range.mp hj

theorem inv_startTunnel (hp : Inv p) (hstart : StartsWell p tunnel) :
    Inv ⟨(p.state.startTunnel tunnel).1, p.threads ++ (p.state.startTunnel tunnel).2⟩ := by
  unfold StartsWell at hstart
  cases hstarting : p.state.active.starting with
  | none =>
    rw [if_pos hstarting] at hstart
    have hnone := hp.not_connecting hstart
    have hdrop : Inv { p with state := p.state.dropOthers tunnel } := by
      refine hp.drop hnone hstarting fun j hj => ?_
      rcases List.mem_append.mp hj with hother | hold
      · exact List.mem_range.mp (List.mem_filter.mp hother).1
      · exact hp.known j (.inr (.inr (.inl hold)))
    have heq : p.state.startTunnel tunnel = (p.state.dropOthers tunnel).launchStart tunnel := by
      simp only [startTunnel, hstarting]
    rw [heq]
    exact hdrop.launchStart hnone
  | some running =>
    rw [if_neg (by simp [hstarting]), hstarting, Option.all_some, decide_eq_false_iff_not] at hstart
    by_cases hid : running.id = tunnel.id
    · have heq : p.state.startTunnel tunnel = (p.state, []) := by
        simp only [startTunnel, hstarting, if_pos hid]
      rw [heq, List.append_nil]
      exact hp
    · have heq : p.state.startTunnel tunnel =
          ((p.state.stop.1.dropAll.launchStart tunnel).1,
            p.state.stop.2 ++ (p.state.stop.1.dropAll.launchStart tunnel).2) := by
        simp only [startTunnel, hstarting, if_neg hid]
      rw [heq, ← List.append_assoc]
      exact (hp.stopAll (hstart hid)).launchStart (hp.stop (hstart hid)).2.1

theorem inv_selectTunnel (hp : Inv p) (hcareful : Careful p .selectTunnel) :
    Inv ⟨p.state.selectTunnel.1, p.threads ++ p.state.selectTunnel.2⟩ := by
  unfold TunnelsViewModel.selectTunnel
  split_ifs with hactive
  · exact hp.stopAll (hcareful hactive)
  · rwa [List.append_nil]

theorem Inv.fail (hp : Inv p) {message : Bytes}
    (hwaits : p.state.tearing = false → ∀ t ∈ p.threads, Waits p.state t) :
    Inv ⟨(p.state.fail message).1, p.threads ++ (p.state.fail message).2⟩ := by
  unfold TunnelsViewModel.fail
  split_ifs
  · rwa [List.append_nil]
  · exact hp.teardown hwaits rfl

theorem inv_nativeProcessExited {message : Bytes} (hp : Inv p)
    (hcareful : Careful p (.nativeProcessExited message)) :
    Inv ⟨(p.state.nativeProcessExited message).1,
      p.threads ++ (p.state.nativeProcessExited message).2⟩ := by
  unfold TunnelsViewModel.nativeProcessExited
  split_ifs with hactive
  · exact hp.fail (hcareful hactive.1 (by simpa using hactive.2))
  · rwa [List.append_nil]

theorem inv_vpnRevoked (hp : Inv p) (hcareful : Careful p .vpnRevoked) :
    Inv { p with state := p.state.vpnRevoked } := by
  unfold TunnelsViewModel.vpnRevoked
  split_ifs with hidle
  · exact hp
  · exact hp.cancelStart (hcareful hidle) rfl rfl

theorem inv_reconcileSystemState (hp : Inv p) (hcareful : Careful p .reconcileSystemState) :
    Inv { p with state := p.state.reconcileSystemState } := by
  unfold TunnelsViewModel.reconcileSystemState
  split_ifs with hactive
  · exact hp.cancelStart (hcareful hactive) rfl rfl
  · exact hp

theorem inv_onServiceDisconnected (hp : Inv p) :
    Inv { p with state := p.state.onServiceDisconnected } := by
  unfold TunnelsViewModel.onServiceDisconnected
  dsimp only
  split_ifs
  · exact hp.of_active rfl rfl
  · exact hp.of_rest rfl rfl rfl

theorem Wanted.of_id {other : Tunnel} (h : s.Wanted tunnel) (hid : tunnel.id = other.id) :
    s.Wanted other := by
  obtain ⟨j, started, hj, hstarted, hdropped⟩ := h
  exact ⟨j, started, hj, hstarted.trans hid, hdropped⟩

theorem starting_statusState {active : TunnelState} {status : Status}
    (h : resumes active status = false) :
    (statusState active tunnel status).starting = none ∨
      statusState active tunnel status = active := by
  cases status with
  | checking => cases active <;> first | exact .inr rfl | exact nomatch h
  | unavailable => exact .inl rfl
  | _ => exact nomatch h

theorem isStopping_statusState {active : TunnelState} {status : Status}
    (h : (statusState active tunnel status).isStopping = true) : active.isStopping = true := by
  cases status with
  | checking => cases active <;> exact h
  | _ => exact nomatch h

theorem statusState_starting {active : TunnelState} {status : Status} {other : Tunnel}
    (hresumes : resumes active status = true)
    (h : (statusState active tunnel status).starting = some other) : tunnel = other := by
  cases status with
  | checking => cases active <;> first | exact Option.some.inj h | exact nomatch hresumes
  | unavailable => exact nomatch h
  | _ => exact Option.some.inj h

theorem inv_connectionStatus {status : Status} (hp : Inv p)
    (hcareful : Careful p (.connectionStatus status)) :
    Inv { p with state := p.state.connectionStatus status } := by
  unfold TunnelsViewModel.connectionStatus
  cases htunnel : p.state.tunnelData with
  | none => exact hp
  | some tunnel =>
    refine hp.of_view rfl (fun other hother => ?_) fun h => hp.stopping (isStopping_statusState h)
    cases hresumes : resumes p.state.active status with
    | false =>
      rcases starting_statusState hresumes with hnone | hsame
      · exact nomatch hother.symm.trans hnone
      · exact hp.starting other (hsame ▸ hother)
    | true =>
      obtain rfl := statusState_starting hresumes hother
      obtain ⟨running, hrunning, hid⟩ :=
        (Option.any_eq_true _ _).mp (hcareful hresumes tunnel htunnel)
      obtain ⟨hwanted, hlive⟩ := hp.starting running hrunning
      exact ⟨hwanted.of_id (by simpa using hid), hlive⟩

/-! ### Operations -/

/-- A live start job at the front of whose code there is no `join` has no teardown to wait for. -/
theorem StartFits.not_tearing (h : StartFits s j tunnel (op :: rest)) (hlive : s.Live j)
    (hop : suspends op = false) : s.tearing = false := by
  by_contra htearing
  obtain ⟨k, heq | heq⟩ := h.joins hlive (by simpa using htearing)
  · cases heq
    exact nomatch hop
  · cases heq
    cases hjob : s.teardownJob with
    | none => exact htearing (by rw [tearing, hjob]; rfl)
    | some k =>
      rw [hjob] at hop
      exact nomatch hop

/-- A start job that is about to do anything is live, and no teardown is active. -/
theorem StartFits.live (h : StartFits s j tunnel (op :: rest)) (hop : works op = true) :
    s.Live j ∧ s.tearing = false := by
  have hlive : s.Live j := by
    refine ⟨(List.getElem?_eq_some_iff.mp h.tunnel).1, fun hj => ?_, fun hj => ?_⟩
    · have hahead := h.cancelled hj
      rw [ahead_cons, hop] at hahead
      exact nomatch hahead
    · exact nomatch h.completed hj
  rw [works, Bool.and_eq_true, Bool.not_eq_true'] at hop
  exact ⟨hlive, h.not_tearing hlive hop.1⟩

theorem Fits.of_works (h : Fits s ⟨v, op :: rest⟩) (hop : works op = true) : Fits s ⟨v, code⟩ := by
  cases v with
  | start j tunnel =>
    have hfits : StartFits s j tunnel (op :: rest) := h
    obtain ⟨hlive, htearing⟩ := hfits.live hop
    exact StartFits.mk hfits.tunnel (fun hj => absurd hj hlive.2.2) (fun hj => absurd hj hlive.2.1)
      fun _ hnow => nomatch hnow.symm.trans htearing
  | teardown k final => exact h

theorem works_of_isFinish (h : isFinish op = true) : works op = false := by
  cases op <;> first | rfl | exact nomatch h

/-- The thread of a job that is not a live start job, but comes to its end. -/
theorem Fits.of_finish (h : Fits s ⟨v, op :: rest⟩) (hcode : ∀ op ∈ code, isFinish op = true)
    (hjoins : ∀ j tunnel, v = .start j tunnel → s.Live j → s.tearing = false) :
    Fits s ⟨v, code⟩ := by
  cases v with
  | start j tunnel =>
    have hfits : StartFits s j tunnel (op :: rest) := h
    refine StartFits.mk hfits.tunnel (fun hj => nomatch hfits.completed hj) (fun _ => ?_)
      fun hlive hnow => nomatch hnow.symm.trans (hjoins j tunnel rfl hlive)
    by_contra hahead
    obtain ⟨o, ho, hworks⟩ := List.any_eq_true.mp (any_of_ahead (by simpa using hahead))
    exact nomatch hworks.symm.trans (works_of_isFinish (hcode o ho))
  | teardown k final => exact h

/-- Thread `i` goes on. -/
theorem Inv.set (hp : Inv p) (hi : p.threads[i]? = some ⟨v, op :: rest⟩)
    (hfits : Fits p.state ⟨v, code⟩) : Inv ⟨p.state, p.threads.set i ⟨v, code⟩⟩ where
  known := hp.known
  startJob := hp.startJob
  dropped := hp.dropped
  late := hp.late
  starting := hp.starting
  stopping := hp.stopping
  nodup := by
    have hsame : (p.threads.set i ⟨v, code⟩).map Thread.locals = p.threads.map Thread.locals := by
      apply List.ext_getElem?
      intro k
      rw [List.map_set, List.getElem?_set', List.getElem?_map]
      split_ifs with hk
      · subst hk
        rw [hi]
        rfl
      · rfl
    rw [hsame]
    exact hp.nodup
  threads t ht := by
    rcases Pool.mem_set ht with rfl | hother
    · exact hfits
    · exact hp.threads t (Pool.mem_of_mem_others hother)

/-- A suspension point at the front of a thread's code: it goes on, or the job is cancelled. -/
theorem inv_suspend (hp : Inv p) (hi : p.threads[i]? = some ⟨v, op :: rest⟩)
    (hop : suspends op = true) (hcancelled : p.state.isCancelled v = true ∨ op = .begin ∨
      ∀ j tunnel, v = .start j tunnel → p.state.Live j → p.state.tearing = false)
    (h : p.state.suspend v = some r) :
    Inv ⟨r.state, p.threads.set i ⟨r.locals, r.flow.apply rest⟩ ++ r.launched⟩ := by
  have hfits := hp.threads _ (List.mem_of_getElem? hi)
  unfold suspend at h
  split_ifs at h with hv
  · cases h
    rw [List.append_nil]
    refine hp.set hi (hfits.of_finish (fun o ho => (List.mem_filter.mp ho).2) ?_)
    rintro j tunnel rfl hlive
    exact absurd (List.contains_iff_mem.mp hv) hlive.2.1
  · cases h
    rw [List.append_nil]
    refine hp.set hi ?_
    cases v with
    | teardown k final => exact hfits
    | start j tunnel =>
      have hstart : StartFits p.state j tunnel (op :: rest) := hfits
      refine StartFits.mk hstart.tunnel (fun hj => nomatch hstart.completed hj)
        (fun hj => absurd (List.contains_iff_mem.mpr hj) hv) fun hlive htearing => ?_
      rcases hcancelled with hcancelled | rfl | hnot
      · exact absurd hcancelled hv
      · obtain ⟨k, heq | heq⟩ := hstart.joins hlive htearing
        · cases heq
          exact ⟨k, .inr rfl⟩
        · exact nomatch heq
      · exact nomatch htearing.symm.trans (hnot j tunnel rfl hlive)

/-- Operations that set the state. -/
def sets : Op → Bool
  | .setConnecting | .setStartingTransport | .setChecking | .setStartingTun2Socks | .setRunning
  | .setError _ | .setFinalState => true
  | _ => false

/-- A step that leaves the jobs and the state as they are. -/
structure Quiet (s : TunnelsViewModel) (v : Job) (r : Effect TunnelsViewModel Job Op) : Prop where
  view : r.state.view = s.view
  active : r.state.active = s.active
  locals : r.locals = v
  launched : r.launched = []

theorem quiet_go (h : s'.go v code = some r) (hview : s'.view = s.view)
    (hactive : s'.active = s.active) : Quiet s v r := by
  cases h
  exact ⟨hview, hactive, rfl, rfl⟩

theorem quiet_exit (h : s'.exit v code = some r) (hview : s'.view = s.view)
    (hactive : s'.active = s.active) : Quiet s v r := by
  cases h
  exact ⟨hview, hactive, rfl, rfl⟩

theorem quiet_noDataPath {first : Bool} (h : s.noDataPath v first = some r) : Quiet s v r := by
  unfold noDataPath at h
  split at h
  · split_ifs at h
    · exact quiet_go h rfl rfl
    · exact quiet_exit h rfl rfl
  · exact nomatch h

theorem exec_quiet (hop : works op = true) (hsets : sets op = false) (hreach : s.reach v = s)
    (h : exec c s v op = some r) : Quiet s v r := by
  cases op
  case begin => exact nomatch hop
  case delay => exact nomatch hop
  case finish => exact nomatch hop
  case fail m => exact nomatch hop
  case teardownUnavailable => exact nomatch hop
  case setConnecting => exact nomatch hsets
  case setStartingTransport => exact nomatch hsets
  case setChecking => exact nomatch hsets
  case setStartingTun2Socks => exact nomatch hsets
  case setRunning => exact nomatch hsets
  case setError m => exact nomatch hsets
  case setFinalState => exact nomatch hsets
  case join k =>
    cases k with
    | none => exact quiet_go h rfl rfl
    | some k => exact nomatch hop
  case startService =>
    simp only [exec] at h
    split at h
    · exact quiet_go h rfl rfl
    · exact quiet_exit h rfl rfl
    · exact quiet_exit h rfl rfl
    · exact nomatch h
  case setActiveTunnelData =>
    simp only [exec] at h
    split at h
    · exact quiet_go h rfl rfl
    · exact nomatch h
  case awaitBinding =>
    simp only [exec] at h
    split at h
    · exact quiet_go h rfl rfl
    · exact quiet_go h rfl rfl
    · exact nomatch h
  case checkBinding =>
    simp only [exec] at h
    split_ifs at h
    · exact quiet_go h rfl rfl
    · exact quiet_exit h rfl rfl
  case checkFd =>
    simp only [exec] at h
    split at h
    · exact quiet_go h rfl rfl
    · exact quiet_exit h rfl rfl
  case startTransport fallback =>
    simp only [exec, hreach] at h
    split at h
    · exact quiet_go h rfl rfl
    · split_ifs at h
      · exact quiet_exit h rfl rfl
      · exact quiet_exit h rfl rfl
    · exact nomatch h
  case awaitService code m =>
    simp only [exec] at h
    split at h
    · exact quiet_exit h rfl rfl
    · exact quiet_exit h rfl rfl
    · exact quiet_exit h rfl rfl
    · exact quiet_go h rfl rfl
    · exact quiet_go h rfl rfl
  case waitForDataPath first =>
    simp only [exec] at h
    split at h
    · exact quiet_go h rfl rfl
    · exact quiet_go h rfl rfl
    · exact quiet_noDataPath h
  case startTun2Socks =>
    simp only [exec] at h
    split at h
    · exact quiet_go h rfl rfl
    · exact quiet_exit h rfl rfl
    · exact nomatch h
  case stopVpn connected =>
    simp only [exec] at h
    split at h
    · exact quiet_go h rfl rfl
    · exact quiet_go h rfl rfl
    · exact quiet_go h rfl rfl
  all_goals exact quiet_go h rfl rfl

/-- What the job of a thread that is about to do anything starts was not dropped. -/
theorem Inv.reach_eq (hp : Inv p) (hi : p.threads[i]? = some ⟨v, op :: rest⟩)
    (hop : works op = true) : p.state.reach v = p.state := by
  cases v with
  | teardown k final => rfl
  | start j tunnel =>
    have hfits : StartFits p.state j tunnel (op :: rest) :=
      hp.threads _ (List.mem_of_getElem? hi)
    rw [reach, if_neg]
    exact fun hj => hp.dropped j (List.contains_iff_mem.mp hj) (hfits.live hop).1

/-- A live start job sets the state. -/
theorem inv_setActive (hp : Inv p) (hi : p.threads[i]? = some ⟨v, op :: rest⟩)
    (hop : works op = true) {state : Tunnel → TunnelState}
    (hstate : ∀ tunnel, (state tunnel).starting = some tunnel)
    (hstopping : ∀ tunnel, (state tunnel).isStopping = false)
    (h : p.state.setActive v state = some r) :
    Inv ⟨r.state, p.threads.set i ⟨r.locals, r.flow.apply rest⟩ ++ r.launched⟩ := by
  have hfits := hp.threads _ (List.mem_of_getElem? hi)
  unfold setActive at h
  split at h
  · next j tunnel =>
    cases h
    obtain ⟨hlive, htearing⟩ := StartFits.live hfits hop
    have hwanted : p.state.Wanted tunnel :=
      ⟨j, tunnel, StartFits.tunnel hfits, rfl, fun hj => hp.dropped j hj hlive⟩
    rw [List.append_nil]
    refine (hp.set hi (hfits.of_works hop)).of_view rfl (fun other hother => ?_)
      fun hnow => nomatch hnow.symm.trans (hstopping tunnel)
    obtain rfl : tunnel = other := Option.some.inj ((hstate tunnel).symm.trans hother)
    exact ⟨hwanted, fun _ => ⟨j, hlive⟩⟩
  · exact nomatch h

/-- Each job has one thread. -/
theorem Inv.locals_ne (hp : Inv p) (hi : p.threads[i]? = some ⟨v, code⟩) (ht : t ∈ p.others i) :
    t.locals ≠ v := by
  obtain ⟨k, hne, hk⟩ := List.mem_eraseIdx_iff_getElem?.mp ht
  intro hlocals
  have hlt : k < (p.threads.map Thread.locals).length := by
    rw [List.length_map]
    exact (List.getElem?_eq_some_iff.mp hk).1
  apply hne
  apply (List.getElem?_inj hlt hp.nodup).mp
  rw [List.getElem?_map, List.getElem?_map, hk, hi, Option.map_some, Option.map_some, hlocals]

/-- A start job completes. -/
theorem inv_finishStart (hp : Inv p)
    (hi : p.threads[i]? = some ⟨.start j tunnel, .finish :: rest⟩) :
    Inv ⟨{ p.state with completed := j :: p.state.completed },
      p.threads.set i ⟨.start j tunnel, []⟩⟩ := by
  have hfits : StartFits p.state j tunnel (.finish :: rest) :=
    hp.threads _ (List.mem_of_getElem? hi)
  have hnot : p.state.Live j → p.state.tearing = false := fun hj => hfits.not_tearing hj rfl
  have hset : Inv ⟨p.state, p.threads.set i ⟨.start j tunnel, []⟩⟩ := by
    refine hp.set hi (Fits.of_finish (hp.threads _ (List.mem_of_getElem? hi)) nofun ?_)
    rintro k other heq hk
    cases heq
    exact hnot hk
  have hlive : ∀ k, Live { p.state with completed := j :: p.state.completed } k →
      p.state.Live k ∧ k ≠ j := by
    rintro k ⟨hk, hcancelled, hcompleted⟩
    rw [List.mem_cons, not_or] at hcompleted
    exact ⟨⟨hk, hcancelled, hcompleted.2⟩, hcompleted.1⟩
  refine ⟨fun k hk => ?_, fun k hk => hset.startJob k (hlive k hk).1,
    fun k hk hnow => hset.dropped k hk (hlive k hnow).1, hset.late, fun other hother => ?_,
    hset.stopping, hset.nodup, fun t ht => ?_⟩
  · rcases hk with h | h | h | h
    · exact hset.known k (.inl h)
    · rcases List.mem_cons.mp h with rfl | hold
      · exact (List.getElem?_eq_some_iff.mp hfits.tunnel).1
      · exact hset.known k (.inr (.inl hold))
    · exact hset.known k (.inr (.inr (.inl h)))
    · exact hset.known k (.inr (.inr (.inr h)))
  · obtain ⟨hwanted, hsome⟩ := hset.starting other hother
    refine ⟨hwanted, fun htearing => ?_⟩
    obtain ⟨k, hk⟩ := hsome htearing
    refine ⟨k, hk.1, hk.2.1, fun hcompleted => ?_⟩
    rcases List.mem_cons.mp hcompleted with rfl | hold
    · exact nomatch htearing.symm.trans (hnot hk)
    · exact hk.2.2 hold
  · rcases Pool.mem_set ht with rfl | hother
    · exact StartFits.mk hfits.tunnel (fun _ => rfl) (fun _ => rfl)
        fun hj => absurd rfl (hlive j hj).2
    · have hthread := hp.threads t (Pool.mem_of_mem_others hother)
      refine hthread.of (fun _ _ => id) le_rfl fun k other hlocals =>
        ⟨fun hk => ?_, .inl, fun hk htearing => ⟨(hlive k hk).1, htearing, rfl⟩⟩
      rcases List.mem_cons.mp hk with rfl | hold
      · rw [Fits, hlocals] at hthread
        have hsame : other = tunnel :=
          Option.some.inj ((StartFits.tunnel hthread).symm.trans hfits.tunnel)
        exact absurd (hsame ▸ hlocals) (hp.locals_ne hi hother)
      · exact hold

/-- A teardown job completes. -/
theorem inv_finishTeardown (hp : Inv p) {k : ℕ}
    (hi : p.threads[i]? = some ⟨.teardown k final, .finish :: rest⟩) :
    Inv ⟨{ p.state with tornDown := k :: p.state.tornDown },
      p.threads.set i ⟨.teardown k final, []⟩⟩ := by
  have htearing : tearing { p.state with tornDown := k :: p.state.tornDown } = true →
      p.state.tearing = true := by
    unfold tearing
    cases p.state.teardownJob with
    | none => exact id
    | some job =>
      simp only [Option.any_some, Bool.not_eq_true', List.contains_eq_mem, decide_eq_false_iff_not,
        List.mem_cons, not_or]
      exact And.right
  have hset : Inv ⟨p.state, p.threads.set i ⟨.teardown k final, []⟩⟩ :=
    hp.set hi (Fits.of_finish (hp.threads _ (List.mem_of_getElem? hi)) nofun nofun)
  refine ⟨hset.known, hset.startJob, hset.dropped, hset.late, fun other hother => ?_,
    hset.stopping, hset.nodup, fun t ht => ?_⟩
  · obtain ⟨hwanted, hsome⟩ := hset.starting other hother
    exact ⟨hwanted, fun hnow => hsome (htearing hnow)⟩
  · exact (hset.threads t ht).of (fun _ _ => id) le_rfl fun _ _ _ =>
      ⟨id, .inl, fun hj hnow => ⟨hj, htearing hnow, rfl⟩⟩

theorem inv_finish (hp : Inv p) (hi : p.threads[i]? = some ⟨v, .finish :: rest⟩)
    (h : exec c p.state v .finish = some r) :
    Inv ⟨r.state, p.threads.set i ⟨r.locals, r.flow.apply rest⟩ ++ r.launched⟩ := by
  cases v with
  | start j tunnel =>
    cases h
    rw [List.append_nil]
    exact inv_finishStart hp hi
  | teardown k final =>
    cases h
    rw [List.append_nil]
    exact inv_finishTeardown hp hi

/-- A start job fails, or tears down what it has started, and returns. -/
theorem inv_ending (hp : Inv p) (hi : p.threads[i]? = some ⟨v, op :: rest⟩)
    (hop : suspends op = false) {w : TunnelsViewModel × Launched}
    (hw : Inv ⟨p.state, p.threads.set i ⟨v, [.finish]⟩⟩ →
      Inv ⟨w.1, p.threads.set i ⟨v, [.finish]⟩ ++ w.2⟩)
    (h : ending v w = some r) :
    Inv ⟨r.state, p.threads.set i ⟨r.locals, r.flow.apply rest⟩ ++ r.launched⟩ := by
  have hfits := hp.threads _ (List.mem_of_getElem? hi)
  unfold ending at h
  split at h
  · next j tunnel =>
    cases h
    refine hw (hp.set hi (hfits.of_finish (fun o ho => ?_) ?_))
    · rw [List.mem_singleton.mp ho]
      rfl
    · rintro k other heq hk
      cases heq
      exact StartFits.not_tearing hfits hk hop
  · exact nomatch h

/-- Where the other threads wait, all do once thread `i` is at its end. -/
theorem waits_set (h : ∀ t ∈ p.others i, Waits p.state t) :
    ∀ t ∈ p.threads.set i ⟨v, [.finish]⟩, Waits p.state t := by
  intro t ht
  rcases Pool.mem_set ht with rfl | hother
  · cases v with
    | start j tunnel => exact fun _ => rfl
    | teardown k final => trivial
  · exact h t hother

theorem inv_setFinalState (hp : Inv p) (hi : p.threads[i]? = some ⟨v, .setFinalState :: rest⟩)
    (h : exec c p.state v .setFinalState = some r) :
    Inv ⟨r.state, p.threads.set i ⟨r.locals, r.flow.apply rest⟩ ++ r.launched⟩ := by
  have hfits := hp.threads _ (List.mem_of_getElem? hi)
  simp only [exec] at h
  split at h
  · next k final =>
    cases h
    rw [List.append_nil]
    have hset : Inv ⟨p.state, p.threads.set i ⟨.teardown k final, rest⟩⟩ :=
      hp.set hi (hfits.of_works rfl)
    refine hset.of_view rfl (fun tunnel htunnel => ?_) fun hstopping => ?_
    · dsimp only at htunnel
      split_ifs at htunnel
      · exact nomatch htunnel.symm.trans hfits.2
      · exact hset.starting tunnel htunnel
    · dsimp only at hstopping
      split_ifs at hstopping with hnow
      · exact hset.stopping hnow
      · exact absurd hstopping hnow
  · exact nomatch h

/-- A `join` goes on when there is nothing to wait for any more. -/
theorem inv_join (hp : Inv p) {k : ℕ} (hi : p.threads[i]? = some ⟨v, .join (some k) :: rest⟩)
    (h : exec c p.state v (.join (some k)) = some r) :
    Inv ⟨r.state, p.threads.set i ⟨r.locals, r.flow.apply rest⟩ ++ r.launched⟩ := by
  have hfits := hp.threads _ (List.mem_of_getElem? hi)
  simp only [exec] at h
  split_ifs at h with hblocked
  rw [not_and_or] at hblocked
  refine inv_suspend hp hi rfl ?_ h
  rcases hblocked with hcancelled | hdone
  · exact .inl (by simpa using hcancelled)
  · refine .inr (.inr ?_)
    rintro j tunnel rfl hlive
    by_contra htearing
    obtain ⟨code, heq | heq⟩ := StartFits.joins hfits hlive (by simpa using htearing)
    · exact nomatch heq
    · injection heq with hop
      injection hop with hjob
      apply htearing
      rw [tearing, ← hjob, Option.any_some, Bool.eq_false_iff]
      exact hdone

theorem inv_run (hp : Inv p) (hcareful : Careful p (.run i c)) (h : p.step exec i c = some p') :
    Inv p' := by
  obtain ⟨v, op, rest, r, hi, hr, rfl⟩ := Pool.step_eq_some.mp h
  have hfits := hp.threads _ (List.mem_of_getElem? hi)
  have hwaits : leaves op = true → op ≠ .finish → p.state.tearing = false →
      ∀ t ∈ p.others i, Waits p.state t := hcareful op (by simp [Pool.next, hi])
  by_cases hworks : works op = true
  · by_cases hsets : sets op = false
    · obtain ⟨hview, hactive, hlocals, hlaunched⟩ :=
        exec_quiet hworks hsets (hp.reach_eq hi hworks) hr
      rw [hlaunched, List.append_nil, hlocals]
      exact (hp.set hi (hfits.of_works hworks)).of_active hview hactive
    cases op <;> simp only [sets, not_true_eq_false] at hsets
    case setConnecting => exact inv_setActive hp hi hworks (fun _ => rfl) (fun _ => rfl) hr
    case setStartingTransport =>
      exact inv_setActive hp hi hworks (fun _ => rfl) (fun _ => rfl) hr
    case setChecking => exact inv_setActive hp hi hworks (fun _ => rfl) (fun _ => rfl) hr
    case setStartingTun2Socks =>
      exact inv_setActive hp hi hworks (fun _ => rfl) (fun _ => rfl) hr
    case setRunning =>
      simp only [exec, hp.reach_eq hi hworks] at hr
      exact inv_setActive hp hi hworks (fun _ => rfl) (fun _ => rfl) hr
    case setError m =>
      cases hr
      rw [List.append_nil]
      exact (hp.set hi (hfits.of_works rfl)).of_rest rfl rfl rfl
    case setFinalState => exact inv_setFinalState hp hi hr
  cases op <;> simp only [works, suspends, leaves, Bool.not_true, Bool.not_false, Bool.and_true,
    Bool.and_false, not_true_eq_false] at hworks
  case begin => exact inv_suspend hp hi rfl (.inr (.inl rfl)) hr
  case delay =>
    refine inv_suspend hp hi rfl (.inr (.inr ?_)) hr
    rintro j tunnel rfl hlive
    by_contra htearing
    obtain ⟨code, heq | heq⟩ := StartFits.joins hfits hlive (by simpa using htearing)
    · exact nomatch heq
    · exact nomatch heq
  case join k =>
    cases k with
    | none => exact absurd rfl hworks
    | some k => exact inv_join hp hi hr
  case finish => exact inv_finish hp hi hr
  case fail m =>
    exact inv_ending hp hi rfl (fun hset => hset.fail fun htearing =>
      waits_set (hwaits rfl nofun htearing)) hr
  case teardownUnavailable =>
    simp only [exec] at hr
    split at hr
    · exact inv_ending hp hi rfl (fun hset => hset.teardown (fun htearing =>
        waits_set (hwaits rfl nofun htearing)) rfl) hr
    · exact nomatch hr

theorem inv_step {e : Event} (hp : Inv p) (hcareful : Careful p e)
    (h : system.step p e = some p') : Inv p' := by
  cases e with
  | run i c => exact inv_run hp hcareful h
  | startTunnel tunnel =>
    cases h
    exact inv_startTunnel hp hcareful
  | stop =>
    cases h
    exact hp.stopAll hcareful
  | selectTunnel =>
    cases h
    exact inv_selectTunnel hp hcareful
  | onServiceConnected =>
    cases h
    rw [List.append_nil]
    exact hp.of_active rfl rfl
  | onServiceDisconnected =>
    cases h
    rw [List.append_nil]
    exact inv_onServiceDisconnected hp
  | connectionStatus status =>
    cases h
    rw [List.append_nil]
    exact inv_connectionStatus hp hcareful
  | nativeProcessExited message =>
    cases h
    exact inv_nativeProcessExited hp hcareful
  | vpnRevoked =>
    cases h
    rw [List.append_nil]
    exact inv_vpnRevoked hp hcareful
  | reconcileSystemState =>
    cases h
    rw [List.append_nil]
    exact inv_reconcileSystemState hp hcareful

/-- **What a command has stopped or replaced stays so** in every run that is `Careful`: its start
job is cancelled or completed, never gets to the transport or to running after that, and one start
job at most is live. -/
theorem obeyed_run {es : List Event} (h : system.run system.init es = some p)
    (hcareful : system.Along Careful system.init es) : Obeyed p.state :=
  (run_invariant (fun _ _ _ hp hc hstep => inv_step hp hc hstep) inv_init hcareful h).obeyed

/-! ### Runs -/

/-- Steps of one thread. -/
def steps (i n : ℕ) : List Event := List.replicate n (.run i .go)

/-- The start job in thread `i` connects and runs to its end. -/
def connects (i : ℕ) : List Event := steps i 6 ++ .onServiceConnected :: steps i 13

def home : Tunnel := { id := 1, name := [], transportType := [], transportConnPayload := [] }

def work : Tunnel := { home with id := 2 }

/-- A tunnel runs, recovers and is stopped; another is started after the teardown, and replaced
while it connects. -/
def replaced : List Event :=
  .startTunnel home :: connects 0 ++ [.connectionStatus .restoring, .connectionStatus .restored,
    .stop] ++ steps 1 11 ++ .startTunnel work :: steps 2 7 ++ .startTunnel home :: steps 2 2 ++
    .onServiceConnected :: steps 3 11 ++ connects 4

theorem obeyed_run_replaced : ∃ p, system.run system.init replaced = some p ∧
    p.state.active = .running home ∧ p.state.dropped = [0, 1] ∧ Obeyed p.state := by
  have hrun : (system.run system.init replaced).map
      (fun p => (p.state.active, p.state.dropped)) = some (.running home, [0, 1]) := by
    decide +kernel
  obtain ⟨p, hp, hstate⟩ := Option.map_eq_some_iff.mp hrun
  rw [Prod.mk.injEq] at hstate
  exact ⟨p, hp, hstate.1, hstate.2, obeyed_run hp (by decide +kernel)⟩

/-- A tunnel is stopped while it is dispatched; before that teardown is over another is started, and
stopped. -/
def stoppedTwice : List Event :=
  [.startTunnel home, .stop, .startTunnel work, .stop] ++ steps 1 6 ++ connects 2

/-- It runs nevertheless. -/
theorem not_obeyed_stoppedTwice :
    ¬ ∀ es p, system.run system.init es = some p → Obeyed p.state := by
  intro h
  have hrun : (system.run system.init stoppedTwice).map
      (fun p => (p.state.active, p.state.late)) = some (.running work, [1, 1]) := by
    decide +kernel
  obtain ⟨p, hp, hstate⟩ := Option.map_eq_some_iff.mp hrun
  rw [Prod.mk.injEq] at hstate
  exact nomatch hstate.2.symm.trans (h stoppedTwice p hp).late

end OpenFlux.App.TunnelsViewModel
