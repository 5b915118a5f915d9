import OpenFlux.Tun.Equiv.Watch

/-!
# What a shutdown leaves

`restored_iff`: where all commands work, the routing table after `runClientTUN` is the one before
exactly if every remote host of a snapshot had a route before.  The overrides go whenever the signal
comes, but nothing deletes the routes that the watcher adds (`Tracked`).
-/

namespace OpenFlux.Tun

/-! ### Runs in which the commands work -/

/-- The commands of the event work. -/
def Event.Succeeds : Event → Prop
  | .start _ _ setup => ∀ n, setup.deletions n = .runs
  | .snapshot scan => (∀ ip, scan.outcomes ip = .runs) ∧ ∀ n, scan.configure n = .runs
  | .signal | .exit => True
  | .shutdown closing restoring => (∀ n, closing n = .runs) ∧ ∀ n, restoring n = .runs

/-- The host is in a snapshot. -/
def Seen (es : List Event) (ip : Bytes) : Prop := ∃ seen ∈ scans es, ip ∈ seen.2

theorem seen_concat {es : List Event} {e : Event} {ip : Bytes} :
    Seen (es ++ [e]) ip ↔ Seen es ip ∨ Seen [e] ip := by
  simp only [Seen, scans_concat, List.mem_append]
  constructor
  · rintro ⟨seen, h | h, hip⟩
    · exact .inl ⟨seen, h, hip⟩
    · exact .inr ⟨seen, h, hip⟩
  · rintro (⟨seen, h, hip⟩ | ⟨seen, h, hip⟩)
    · exact ⟨seen, .inl h, hip⟩
    · exact ⟨seen, .inr h, hip⟩

theorem deleteAll_of_runs {o : ℕ → Outcome} (ho : ∀ n, o n = .runs) {ds : List Destination}
    {d : Destination} (hd : d ∈ ds) (t : Table) : deleteAll ds t o d = none := by
  induction ds generalizing t o with
  | nil => cases hd
  | cons d' ds ih =>
    rw [deleteAll]
    obtain rfl | hd := List.mem_cons.mp hd
    · rw [ho 0]
      exact deleteAll_none (Function.update_self ..) ds _
    · exact ih (fun n => ho (n + 1)) hd _

/-- The routes of the process, beside the two overrides. -/
structure Tracked (t₀ : Table) (es : List Event) (s : State) : Prop where
  iface : s.client.savedIface ≠ []
  default : (t₀ .default).isSome = true
  other : ∀ d, d ≠ lower → d ≠ upper → (∀ ip, d ≠ .host ip) → s.table d = t₀ d
  hosts : ∀ ip, (t₀ (.host ip)).isSome = true ∨ ¬ Seen es ip → s.table (.host ip) = t₀ (.host ip)
  seen : ∀ ip, Seen es ip → (s.table (.host ip)).isSome = true

variable {t₀ : Table} {es : List Event} {s s' : State}

/-- An event without a set that leaves the routes. -/
theorem Tracked.concat (h : Tracked t₀ es s) {e : Event} (he : scans [e] = [])
    (hiface : s'.client.savedIface = s.client.savedIface)
    (htable : ∀ d, d ≠ lower → d ≠ upper → s'.table d = s.table d) :
    Tracked t₀ (es ++ [e]) s' := by
  have hseen : ∀ ip, Seen (es ++ [e]) ip ↔ Seen es ip := by
    intro ip
    rw [seen_concat]
    simp [Seen, he]
  refine ⟨hiface ▸ h.iface, h.default, ?_, ?_, ?_⟩
  · intro d hlower hupper hhost
    rw [htable d hlower hupper, h.other d hlower hupper hhost]
  · intro ip hip
    rw [htable _ (host_ne ip).1 (host_ne ip).2, h.hosts ip (by rwa [hseen] at hip)]
  · intro ip hip
    rw [htable _ (host_ne ip).1 (host_ne ip).2]
    exact h.seen ip ((hseen ip).mp hip)

/-- What `SaveDefault` found is kept. -/
theorem removeRoutes_savedIface (c : TUNClient) (t : Table) (o : ℕ → Outcome) :
    (removeRoutes c t o).1.savedIface = c.savedIface := by
  rw [removeRoutes]
  split_ifs <;> rfl

theorem addDefaults_savedIface (c : TUNClient) (ds : List Destination) (t : Table)
    (o : ℕ → Outcome) : (addDefaults c ds t o).2.1.savedIface = c.savedIface := by
  induction ds generalizing t o with
  | nil => rfl
  | cons d ds ih =>
    rw [addDefaults]
    rcases routeAdd t d (.interface c.name) (o 0) with ⟨_ | out, t'⟩
    · exact ih t' _
    · exact removeRoutes_savedIface c t' _

/-! ### The steps -/

theorem tracked_start (hscans : scans es = []) {name : Bytes} {default : Option Bytes}
    {setup : Setup} (hdefault : default.isSome = true → (t₀ .default).isSome = true)
    (hphase : (start t₀ name default setup).phase ≠ .failed) :
    Tracked t₀ (es ++ [.start name default setup]) (start t₀ name default setup) := by
  obtain ⟨hfailed, -⟩ | ⟨hsome, iface, gw, gateway, hiface, heq⟩ :=
    start_cases t₀ name default setup
  · exact absurd hfailed hphase
  · have htable : ∀ d, d ≠ lower → d ≠ upper →
        deleteAll [lower, upper] t₀ setup.deletions d = t₀ d :=
      fun d hlower hupper => deleteAll_of_not_mem (by simp [hlower, hupper]) t₀ _
    rw [heq]
    refine ⟨hiface, hdefault hsome, fun d hlower hupper _ => htable d hlower hupper,
      fun ip _ => htable _ (host_ne ip).1 (host_ne ip).2, ?_⟩
    rintro ip ⟨seen, hseen, -⟩
    rw [scans_concat, hscans] at hseen
    cases hseen

theorem tracked_snapshot (h : Tracked t₀ es s) (hwatched : Watched es s) {scan : Scan} {out : Bytes}
    (hlsof : scan.lsof = some out) (horder : scan.order.toFinset = remoteHosts out)
    (hruns : ∀ ip, scan.outcomes ip = .runs) :
    Tracked t₀ (es ++ [.snapshot scan]) (snapshot s scan out) := by
  have hadded := scan.added s
  obtain ⟨-, hother⟩ := configureDefault_spec hwatched.bypassIPs (scan.add s).2 scan.configure
  have hseen : ∀ ip, Seen [.snapshot scan] ip ↔ ip ∈ scan.order := by
    intro ip
    rw [← List.mem_toFinset, horder]
    simp [Seen, scans, hlsof]
  -- taking the default route does not change what is tracked
  have htable : ∀ d, d ≠ lower → d ≠ upper →
      (snapshot s scan out).table d = (scan.add s).2 d := by
    intro d hlower hupper
    rw [snapshot_eq]
    dsimp only
    split_ifs
    · exact hother d hlower hupper
    · rfl
  constructor
  case iface =>
    rw [snapshot_eq]
    dsimp only
    split_ifs
    · rw [configureDefault, addDefaults_savedIface]
      exact h.iface
    · exact h.iface
  case default => exact h.default
  case other =>
    intro d hlower hupper hhost
    rw [htable d hlower hupper, hadded.other d fun ip _ => hhost ip, h.other d hlower hupper hhost]
  case hosts =>
    intro ip hip
    rw [htable _ (host_ne ip).1 (host_ne ip).2]
    rw [seen_concat, not_or, hseen] at hip
    obtain hsome | ⟨hnot, horder⟩ := hip
    · have heq := h.hosts ip (.inl hsome)
      rw [hadded.kept _ (by rw [heq]; exact hsome), heq]
    · have hfree : ∀ ip' ∈ scan.order, Destination.host ip ≠ .host ip' := by
        rintro ip' hip' ⟨⟩
        exact horder hip'
      rw [hadded.other _ hfree, h.hosts ip (.inr hnot)]
  case seen =>
    intro ip hip
    rw [htable _ (host_ne ip).1 (host_ne ip).2]
    rw [seen_concat, hseen] at hip
    by_cases hsome : (s.table (.host ip)).isSome = true
    · rw [hadded.kept _ hsome]
      exact hsome
    · have hmem : ip ∈ scan.order := hip.resolve_left fun hbefore => hsome (h.seen ip hbefore)
      have hknown : ip ∉ s.watcher.known := fun hknown => hsome (hwatched.known ip hknown)
      exact (hadded.routed ip hmem hknown).mpr (.inr (hruns ip))

theorem restoreDefault_savedIface (c : TUNClient) (t : Table) (o : ℕ → Outcome) :
    (restoreDefault c t o).1.savedIface = c.savedIface := by
  rw [restoreDefault]
  split_ifs
  · rfl
  · dsimp only
    split_ifs <;> rfl

/-- The overrides go at the end, whether the watcher has added them or not. -/
theorem restoreDefault_override {c : TUNClient} (hiface : c.savedIface ≠ []) (t : Table)
    {o : ℕ → Outcome} (ho : ∀ n, o n = .runs) {d : Destination} (hd : d = lower ∨ d = upper) :
    (restoreDefault c t o).2 d = none := by
  have hne : d ≠ .default := by
    rintro rfl
    exact absurd hd (by decide)
  have hdelete : deleteAll [lower, upper] t o d = none := deleteAll_of_runs ho (by simpa using hd) t
  rw [restoreDefault, if_neg fun h => hiface h.2]
  dsimp only
  rw [if_neg hiface]
  exact (routeAdd_of_ne _ _ (.inl hne)).trans hdelete

theorem tracked_shutdown (h : Tracked t₀ es s) (hwatched : Watched es s)
    {closing restoring : ℕ → Outcome} (hruns : ∀ n, restoring n = .runs) :
    Tracked t₀ (es ++ [.shutdown closing restoring]) (shutdown s closing restoring) ∧
      ∀ d, d = lower ∨ d = upper → (shutdown s closing restoring).table d = none := by
  obtain ⟨-, hclose⟩ := removeRoutes_spec hwatched.bypassIPs s.table closing
  have hdefault : (s.table .default).isSome = true := by
    rw [h.other .default (by decide) (by decide) (by simp)]
    exact h.default
  have hiface : (removeRoutes s.client s.table closing).1.savedIface ≠ [] := by
    rw [removeRoutes_savedIface]
    exact h.iface
  refine ⟨h.concat rfl ?_ fun d hlower hupper => ?_, fun d hd => ?_⟩
  · exact (restoreDefault_savedIface ..).trans (removeRoutes_savedIface ..)
  · have hkept : d ≠ .default ∨ ((removeRoutes s.client s.table closing).2 d).isSome = true := by
      by_cases hd : d = .default
      · subst hd
        exact .inr (by rw [hclose _ hlower hupper]; exact hdefault)
      · exact .inl hd
    exact (restoreDefault_spec _ _ restoring hlower hupper hkept).trans (hclose d hlower hupper)
  · exact restoreDefault_override hiface _ hruns hd

/-! ### Runs -/

/-- The watcher has been started, and the process has not ended. -/
def Working (s : State) : Prop := s.phase = .running ∨ s.phase = .stopping ∨ s.phase = .stopped

/-- What holds of the routes in each phase. -/
structure Routes (t₀ : Table) (es : List Event) (s : State) : Prop where
  starting : s.phase = .starting → scans es = [] ∧ s.table = t₀
  working : Working s → Tracked t₀ es s
  done : s.phase = .done → Tracked t₀ es s ∧ ∀ d, d = lower ∨ d = upper → s.table d = none

theorem Routes.of_working (hphase : Working s) (h : Tracked t₀ es s) : Routes t₀ es s := by
  refine ⟨fun hstarting => ?_, fun _ => h, fun hdone => ?_⟩
  · rw [Working, hstarting] at hphase
    simp at hphase
  · rw [Working, hdone] at hphase
    simp at hphase

theorem routes_start (hscans : scans es = []) {name : Bytes} {default : Option Bytes}
    {setup : Setup} (hdefault : default.isSome = true → (t₀ .default).isSome = true) :
    Routes t₀ (es ++ [.start name default setup]) (start t₀ name default setup) := by
  by_cases hphase : (start t₀ name default setup).phase = .failed
  · refine ⟨fun h => ?_, fun h => ?_, fun h => ?_⟩ <;> simp [hphase, Working] at h
  · refine .of_working ?_ (tracked_start hscans hdefault hphase)
    obtain ⟨hfailed, -⟩ | ⟨-, iface, gw, gateway, -, heq⟩ := start_cases t₀ name default setup
    · exact absurd hfailed hphase
    · exact .inl (by rw [heq])

theorem routes_of_run (hrun : (clientTUN t₀).run (clientTUN t₀).init es = some s)
    (hsucceeds : ∀ e ∈ es, e.Succeeds) : Routes t₀ es s := by
  revert hsucceeds
  refine EventSystem.invariant_of_run
    (I := fun es s => (∀ e ∈ es, e.Succeeds) → Routes t₀ es s) ?_ ?_ hrun
  · intro _
    refine ⟨fun _ => ⟨rfl, rfl⟩, by simp [Working, clientTUN], fun h => ?_⟩
    cases h
  · intro es s e s' hes ih hstep hsucceeds
    have hwatched := watched_of_run hes
    have hroutes := ih fun e he => hsucceeds e (List.mem_append_left _ he)
    have he : e.Succeeds := hsucceeds e (by simp)
    obtain ⟨name, default, setup, rfl, hphase, hdefault, rfl⟩ | ⟨scan, rfl, hphase, hlsof, rfl⟩ |
      ⟨scan, out, rfl, hphase, hlsof, horder, rfl⟩ | ⟨rfl, hphase, rfl⟩ | ⟨rfl, hphase, rfl⟩ |
      ⟨closing, restoring, rfl, hphase, rfl⟩ := step_cases hstep
    · obtain ⟨hscans, htable⟩ := hroutes.starting hphase
      rw [htable] at hdefault ⊢
      exact routes_start hscans hdefault
    · have hworking : Working s := hphase.imp_right .inl
      have htracked := hroutes.working hworking
      exact .of_working hworking
        (htracked.concat (by simp [scans, hlsof]) rfl fun _ _ _ => rfl)
    · have hworking : Working s := hphase.imp_right .inl
      refine .of_working ?_
        (tracked_snapshot (hroutes.working hworking) hwatched hlsof horder he.1)
      rw [snapshot_eq]
      exact hworking
    · have htracked := hroutes.working (.inl hphase)
      exact .of_working (.inr (.inl rfl)) (htracked.concat rfl rfl fun _ _ _ => rfl)
    · have htracked := hroutes.working (.inr (.inl hphase))
      exact .of_working (.inr (.inr rfl)) (htracked.concat rfl rfl fun _ _ _ => rfl)
    · have htracked := hroutes.working (.inr (.inr hphase))
      refine ⟨fun h => ?_, fun h => ?_, fun _ => tracked_shutdown htracked hwatched he.2⟩
      · cases h
      · simp [Working, shutdown] at h

/-- The table after the process is the one before exactly if no route was added to it. -/
theorem restored_iff (hlower : t₀ lower = none) (hupper : t₀ upper = none)
    (hrun : (clientTUN t₀).run (clientTUN t₀).init es = some s) (hdone : s.phase = .done)
    (hsucceeds : ∀ e ∈ es, e.Succeeds) :
    s.table = t₀ ↔ ∀ ip, Seen es ip → (t₀ (.host ip)).isSome = true := by
  obtain ⟨htracked, hoverride⟩ := (routes_of_run hrun hsucceeds).done hdone
  constructor
  · intro h ip hip
    rw [← h]
    exact htracked.seen ip hip
  · intro h
    funext d
    by_cases hd : d = lower ∨ d = upper
    · rw [hoverride d hd]
      obtain rfl | rfl := hd
      · exact hlower.symm
      · exact hupper.symm
    · rw [not_or] at hd
      cases d with
      | host ip =>
        by_cases hip : Seen es ip
        · exact htracked.hosts ip (.inl (h ip hip))
        · exact htracked.hosts ip (.inr hip)
      | default => exact htracked.other _ hd.1 hd.2 (by simp)
      | net cidr => exact htracked.other _ hd.1 hd.2 (by simp)

/-- A snapshot with one connection. -/
def connected (now : ℕ) : Scan where
  lsof := some (literal "10.0.0.2:5->1.1.1.1:443 ")
  order := [literal "1.1.1.1"]
  now := now

/-- The signal comes after these snapshots. -/
def stopEvents (scans : List Scan) : List Event :=
  .start (literal "utun5") (some homeRoute) {} :: scans.map .snapshot ++
    [.signal, .exit, .shutdown (fun _ => .runs) fun _ => .runs]

/-- A table with a route of its own to this host. -/
def routedTable : Table :=
  Function.update homeTable (.host (literal "1.1.1.1")) (some (.gateway (literal "10.0.0.9")))

/-- The host is seen and has its route already; the default route is taken, and given back. -/
def routedScans : List Scan := [connected 0, connected 0, connected (4 * second)]

theorem restored_routed : ∃ s, (clientTUN routedTable).run (clientTUN routedTable).init
    (stopEvents routedScans) = some s ∧ s.table = routedTable := by
  have hscans : scans (stopEvents routedScans) = [(0, {literal "1.1.1.1"}),
      (0, {literal "1.1.1.1"}), (4 * second, {literal "1.1.1.1"})] := by decide
  refine ⟨_, rfl, (@restored_iff routedTable (stopEvents routedScans) _ rfl rfl rfl rfl ?_).mpr ?_⟩
  · simp [stopEvents, routedScans, Event.Succeeds, connected]
  · rintro ip ⟨seen, hseen, hip⟩
    rw [hscans] at hseen
    simp only [List.mem_cons, List.not_mem_nil, or_false] at hseen
    obtain rfl | rfl | rfl := hseen <;>
    · obtain rfl := Finset.mem_singleton.mp hip
      rfl

theorem not_restored_connected :
    ¬ ∀ (t₀ : Table) (es : List Event) (s : State), t₀ lower = none → t₀ upper = none →
      (clientTUN t₀).run (clientTUN t₀).init es = some s → s.phase = .done →
      (∀ e ∈ es, e.Succeeds) → s.table = t₀ := by
  intro h
  have hsucceeds : ∀ e ∈ stopEvents [connected 0], e.Succeeds := by
    simp [stopEvents, Event.Succeeds, connected]
  have hroute := congrFun (h homeTable (stopEvents [connected 0]) _ rfl rfl rfl rfl hsucceeds)
    (.host (literal "1.1.1.1"))
  exact absurd hroute (by decide)

end OpenFlux.Tun
