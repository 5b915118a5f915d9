import OpenFlux.Tun.Watch
import OpenFlux.Tun.Equiv.Routes

/-!
# When the default route is taken

`calls_sound_iff`: the watcher calls `onStable` at most once, and not before its set of hosts has
been the same for more than three seconds.  That there are hosts, and that each of them has a bypass
route, it does not look at: this is so exactly if the snapshot is `Ready` for it.

The loop over the hosts is `RoutesAdded`, the comparison with the set before `observe_cases`, and
what a run has made of them `Watched`.
-/

namespace OpenFlux.Tun

/-! ### The bypass routes of a snapshot -/

section AddRoutes

variable (outcomes : Bytes → Outcome)

/-- A command for a host leaves the other routes, and a route that is there. -/
theorem addRoute_of_ne (w : SocketWatcher) (t : Table) (ip : Bytes) (o : Outcome) {d : Destination}
    (h : d ≠ .host ip ∨ (t d).isSome = true) : (addRoute w t ip o).2 d = t d := by
  rw [← routeAdd_of_ne (.gateway w.gateway) o h, addRoute]
  rcases routeAdd t (.host ip) (.gateway w.gateway) o with ⟨_ | out, t'⟩ <;> rfl

/-- Afterwards the host has a route if the command ran or it had one. -/
theorem addRoute_host (w : SocketWatcher) (t : Table) (ip : Bytes) (o : Outcome) :
    ((addRoute w t ip o).2 (.host ip)).isSome = true ↔
      (t (.host ip)).isSome = true ∨ o = .runs := by
  by_cases hadds : Adds t (.host ip) o
  · rw [addRoute, routeAdd_of_adds hadds]
    simp [hadds.1]
  · obtain ⟨out, hout⟩ := routeAdd_of_not_adds (.gateway w.gateway) hadds
    rw [addRoute, hout]
    constructor
    · exact .inl
    · rintro (hsome | rfl)
      · exact hsome
      · by_contra hnone
        exact hadds ⟨rfl, by simpa using hnone⟩

/-- `addRoute` returns nil only for a host that has a route then. -/
theorem isSome_of_addRoute {w : SocketWatcher} {t : Table} {ip : Bytes} {o : Outcome}
    (h : (addRoute w t ip o).1 = true) : ((addRoute w t ip o).2 (.host ip)).isSome = true := by
  rw [addRoute_host]
  cases o with
  | runs => exact .inr rfl
  | fails out hout =>
    rw [addRoute, routeAdd] at h
    exact absurd h (by simp [hout])

/-- What the loop does to the watcher and to the table. -/
structure RoutesAdded (ips : List Bytes) (w w' : SocketWatcher) (t t' : Table) : Prop where
  watcher : w' = { w with known := w'.known }
  known : ∀ ip, ip ∈ w'.known → ip ∈ w.known ∨ ip ∈ ips ∧ (t' (.host ip)).isSome = true
  mono : w.known ⊆ w'.known
  other : ∀ d, (∀ ip ∈ ips, d ≠ .host ip) → t' d = t d
  kept : ∀ d, (t d).isSome = true → t' d = t d
  routed : ∀ ip ∈ ips, ip ∉ w.known →
    ((t' (.host ip)).isSome = true ↔ (t (.host ip)).isSome = true ∨ outcomes ip = .runs)

variable {outcomes} {ip : Bytes} {ips : List Bytes} {w w' : SocketWatcher} {t t' : Table}

theorem RoutesAdded.cons_of_known (h : RoutesAdded outcomes ips w w' t t') (hknown : ip ∈ w.known) :
    RoutesAdded outcomes (ip :: ips) w w' t t' where
  watcher := h.watcher
  known ip' hip' := (h.known ip' hip').imp_right fun hnew => ⟨.tail _ hnew.1, hnew.2⟩
  mono := h.mono
  other d hd := h.other d fun ip' hip' => hd ip' (.tail _ hip')
  kept := h.kept
  routed ip' hip' hnot := by
    obtain rfl | hip' := List.mem_cons.mp hip'
    · exact absurd hknown hnot
    · exact h.routed ip' hip' hnot

/-- The watcher after the command for one host. -/
def learn (w : SocketWatcher) (ip : Bytes) (added : Bool) : SocketWatcher :=
  if added then { w with known := insert ip w.known } else w

theorem learn_eq (w : SocketWatcher) (ip : Bytes) (added : Bool) :
    learn w ip added = { w with known := (learn w ip added).known } := by
  cases added <;> rfl

theorem mem_known_learn {ip' : Bytes} {added : Bool} :
    ip' ∈ (learn w ip added).known ↔ ip' ∈ w.known ∨ added = true ∧ ip' = ip := by
  cases added <;> simp [learn, or_comm]

theorem addRoutes_cons_of_not_mem (outcomes : Bytes → Outcome) (h : ip ∉ w.known) :
    addRoutes outcomes (ip :: ips) w t =
      addRoutes outcomes ips (learn w ip (addRoute w t ip (outcomes ip)).1)
        (addRoute w t ip (outcomes ip)).2 := by
  rw [addRoutes, if_neg h]
  obtain ⟨added, t'⟩ := addRoute w t ip (outcomes ip)
  cases added <;> rfl

theorem RoutesAdded.cons
    (h : RoutesAdded outcomes ips (learn w ip (addRoute w t ip (outcomes ip)).1) w'
      (addRoute w t ip (outcomes ip)).2 t') (hknown : ip ∉ w.known) :
    RoutesAdded outcomes (ip :: ips) w w' t t' where
  watcher := by
    rw [h.watcher, learn_eq]
  known ip' hip' := by
    obtain hbefore | ⟨hnew, hsome⟩ := h.known ip' hip'
    · obtain hbefore | ⟨hadded, rfl⟩ := mem_known_learn.mp hbefore
      · exact .inl hbefore
      · have hsome := isSome_of_addRoute hadded
        exact .inr ⟨.head _, by rw [h.kept _ hsome]; exact hsome⟩
    · exact .inr ⟨.tail _ hnew, hsome⟩
  mono ip' hip' := h.mono (mem_known_learn.mpr (.inl hip'))
  other d hd := by
    rw [h.other d fun ip' hip' => hd ip' (.tail _ hip'),
      addRoute_of_ne w t ip _ (.inl (hd ip (.head _)))]
  kept d hsome := by
    have heq := addRoute_of_ne w t ip (outcomes ip) (.inr hsome)
    rw [h.kept d (by rw [heq]; exact hsome), heq]
  routed ip' hip' hnot := by
    by_cases heq : ip' = ip
    · subst heq
      rw [← addRoute_host w t ip' (outcomes ip')]
      by_cases hsome : ((addRoute w t ip' (outcomes ip')).2 (.host ip')).isSome = true
      · rw [h.kept _ hsome]
      · have hnot' : ip' ∉ (learn w ip' (addRoute w t ip' (outcomes ip')).1).known := by
          rw [mem_known_learn, not_or]
          exact ⟨hnot, fun h => hsome (isSome_of_addRoute h.1)⟩
        have hruns : outcomes ip' ≠ .runs := fun h => hsome ((addRoute_host ..).mpr (.inr h))
        by_cases hmem : ip' ∈ ips
        · rw [h.routed ip' hmem hnot']
          simp only [hruns, or_false]
        · rw [h.other _ fun ip hip heq => hmem (by cases heq; exact hip)]
    · have hip' : ip' ∈ ips := (List.mem_cons.mp hip').resolve_left heq
      have hnot' : ip' ∉ (learn w ip (addRoute w t ip (outcomes ip)).1).known := by
        rw [mem_known_learn, not_or]
        exact ⟨hnot, fun h => heq h.2⟩
      rw [h.routed ip' hip' hnot', addRoute_of_ne w t ip _ (.inl (by simpa using heq))]

variable (outcomes)

theorem addRoutes_spec (ips : List Bytes) (w : SocketWatcher) (t : Table) :
    RoutesAdded outcomes ips w (addRoutes outcomes ips w t).1 t (addRoutes outcomes ips w t).2 := by
  induction ips generalizing w t with
  | nil => exact ⟨rfl, fun _ h => .inl h, fun _ h => h, fun _ _ => rfl, fun _ _ => rfl, nofun⟩
  | cons ip ips ih =>
    by_cases hknown : ip ∈ w.known
    · rw [addRoutes, if_pos hknown]
      exact (ih w t).cons_of_known hknown
    · rw [addRoutes_cons_of_not_mem outcomes hknown]
      exact (ih _ _).cons hknown

end AddRoutes

/-! ### One snapshot -/

theorem sameSet_iff (a b : Finset Bytes) : sameSet a b = true ↔ a = b := by
  rw [sameSet, Bool.and_eq_true, decide_eq_true_iff, decide_eq_true_iff]
  constructor
  · rintro ⟨hcard, hsubset⟩
    exact Finset.eq_of_subset_of_card_le hsubset hcard.ge
  · rintro rfl
    exact ⟨rfl, fun _ h => h⟩

theorem fires_iff {w : SocketWatcher} {current : Finset Bytes} {now : ℕ} :
    fires w current now = true ↔ current = w.lastSet ∧
      (∃ since, w.stableAt = some since ∧ 3 * second < now - since) ∧ w.fired = false := by
  rw [fires, Bool.and_eq_true, Bool.and_eq_true, sameSet_iff, and_assoc]
  cases w.stableAt <;> simp

/-- The set is another one, it is the same for the first time, or it still is. -/
theorem observe_cases (w : SocketWatcher) (current : Finset Bytes) (now : ℕ) :
    (current ≠ w.lastSet ∧
      observe w current now = { w with stableAt := none, lastSet := current }) ∨
    (current = w.lastSet ∧ w.stableAt = none ∧
      observe w current now = { w with stableAt := some now }) ∨
    (current = w.lastSet ∧ (∃ since, w.stableAt = some since) ∧
      observe w current now = { w with fired := w.fired || fires w current now }) := by
  by_cases hsame : current = w.lastSet
  · subst hsame
    have hset : sameSet w.lastSet w.lastSet = true := (sameSet_iff _ _).mpr rfl
    cases hstable : w.stableAt with
    | none =>
      refine .inr (.inl ⟨rfl, rfl, ?_⟩)
      rw [observe, if_pos hset, hstable]
    | some since =>
      refine .inr (.inr ⟨rfl, ⟨since, rfl⟩, ?_⟩)
      rw [observe, if_pos hset, hstable]
      dsimp only
      by_cases hfires : fires w w.lastSet now = true
      · rw [if_pos hfires, hfires, Bool.or_true, ← hstable]
      · rw [if_neg hfires, Bool.eq_false_of_not_eq_true hfires, Bool.or_false]
  · refine .inl ⟨hsame, ?_⟩
    rw [observe, if_neg (mt (sameSet_iff _ _).mp hsame)]

theorem observe_known (w : SocketWatcher) (current : Finset Bytes) (now : ℕ) :
    (observe w current now).known = w.known := by
  obtain ⟨-, h⟩ | ⟨-, -, h⟩ | ⟨-, -, h⟩ := observe_cases w current now <;> rw [h]

theorem observe_fired (w : SocketWatcher) (current : Finset Bytes) (now : ℕ) :
    (observe w current now).fired = (w.fired || fires w current now) := by
  obtain ⟨hne, h⟩ | ⟨-, hstable, h⟩ | ⟨-, -, h⟩ := observe_cases w current now
  · have hfires : fires w current now = false :=
      Bool.eq_false_of_not_eq_true fun hfires => hne (fires_iff.mp hfires).1
    rw [h, hfires, Bool.or_false]
  · have hfires : fires w current now = false := by
      refine Bool.eq_false_of_not_eq_true fun hfires => ?_
      obtain ⟨-, ⟨since, hsince, -⟩, -⟩ := fires_iff.mp hfires
      rw [hstable] at hsince
      cases hsince
    rw [h, hfires, Bool.or_false]
  · rw [h]

/-! ### One step -/

section Snapshot

variable {s s' : State} {scan : Scan} {out : Bytes}

/-- The watcher and the table when the routes of a snapshot are added. -/
def Scan.add (scan : Scan) (s : State) : SocketWatcher × Table :=
  addRoutes scan.outcomes scan.order s.watcher s.table

theorem Scan.added (scan : Scan) (s : State) :
    RoutesAdded scan.outcomes scan.order s.watcher (scan.add s).1 s.table (scan.add s).2 :=
  addRoutes_spec ..

/-- `onStable` is called in a snapshot. -/
def Fires (s : State) (scan : Scan) (out : Bytes) : Prop :=
  fires s.watcher (remoteHosts out) scan.now = true

instance : Decidable (Fires s scan out) := inferInstanceAs (Decidable (_ = true))

theorem fires_add (s : State) (scan : Scan) (out : Bytes) :
    fires (scan.add s).1 (remoteHosts out) scan.now =
      fires s.watcher (remoteHosts out) scan.now := by
  rw [(scan.added s).watcher]
  rfl

theorem snapshot_eq (s : State) (scan : Scan) (out : Bytes) :
    snapshot s scan out =
      { s with
        watcher := observe (scan.add s).1 (remoteHosts out) scan.now
        client := if Fires s scan out then
          (configureDefault s.client (scan.add s).2 scan.configure).2.1 else s.client
        table := if Fires s scan out then
          (configureDefault s.client (scan.add s).2 scan.configure).2.2 else (scan.add s).2
        scanned := true } := by
  have hfires : fires (addRoutes scan.outcomes scan.order s.watcher s.table).1 (remoteHosts out)
      scan.now = fires s.watcher (remoteHosts out) scan.now := fires_add s scan out
  by_cases h : Fires s scan out
  · rw [if_pos h, if_pos h, snapshot]
    dsimp only
    rw [if_pos (hfires.trans h)]
    rfl
  · rw [if_neg h, if_neg h, snapshot]
    dsimp only
    rw [if_neg (by rwa [hfires])]
    rfl

theorem step_cases {e : Event} (h : step s e = some s') :
    (∃ name default setup, e = .start name default setup ∧ s.phase = .starting ∧
      (default.isSome = true → (s.table .default).isSome = true) ∧
      s' = start s.table name default setup) ∨
    (∃ scan, e = .snapshot scan ∧ (s.phase = .running ∨ s.phase = .stopping) ∧ scan.lsof = none ∧
      s' = { s with scanned := true }) ∨
    (∃ scan out, e = .snapshot scan ∧ (s.phase = .running ∨ s.phase = .stopping) ∧
      scan.lsof = some out ∧ scan.order.toFinset = remoteHosts out ∧ s' = snapshot s scan out) ∨
    (e = .signal ∧ s.phase = .running ∧ s' = { s with phase := .stopping }) ∨
    (e = .exit ∧ s.phase = .stopping ∧ s' = { s with phase := .stopped }) ∨
    ∃ closing restoring, e = .shutdown closing restoring ∧ s.phase = .stopped ∧
      s' = shutdown s closing restoring := by
  cases e with
  | start name default setup =>
    simp only [step] at h
    split_ifs at h with hphase
    exact .inl ⟨name, default, setup, rfl, hphase.1, hphase.2, (Option.some.inj h).symm⟩
  | snapshot scan =>
    simp only [step] at h
    split_ifs at h with hphase
    cases hlsof : scan.lsof with
    | none =>
      rw [hlsof] at h
      exact .inr (.inl ⟨scan, rfl, hphase, hlsof, (Option.some.inj h).symm⟩)
    | some out =>
      simp only [hlsof] at h
      split_ifs at h with horder
      exact .inr (.inr (.inl ⟨scan, out, rfl, hphase, hlsof, horder.2, (Option.some.inj h).symm⟩))
  | signal =>
    simp only [step] at h
    split_ifs at h with hphase
    exact .inr (.inr (.inr (.inl ⟨rfl, hphase, (Option.some.inj h).symm⟩)))
  | exit =>
    simp only [step] at h
    split_ifs at h with hphase
    exact .inr (.inr (.inr (.inr (.inl ⟨rfl, hphase.1, (Option.some.inj h).symm⟩))))
  | shutdown closing restoring =>
    simp only [step] at h
    split_ifs at h with hphase
    exact .inr (.inr (.inr (.inr (.inr ⟨closing, restoring, rfl, hphase,
      (Option.some.inj h).symm⟩))))

end Snapshot

/-! ### The beginning and the end of the process -/

theorem saveDefault_eq_ok {c c' : TUNClient} {out : Option Bytes} (h : saveDefault c out = .ok c') :
    out.isSome = true ∧ ∃ iface gw, iface ≠ [] ∧
      c' = { c with savedIface := iface, savedGw := gw } := by
  cases out with
  | none => cases h
  | some out =>
    simp only [saveDefault] at h
    split_ifs at h with hiface
    exact ⟨rfl, _, _, hiface, (Except.ok.inj h).symm⟩

theorem setupInterface_spec (c : TUNClient) (t : Table) (setup : Setup) :
    (setupInterface c t setup).2 = deleteAll [lower, upper] t setup.deletions ∧
      ∀ c', (setupInterface c t setup).1 = .ok c' → ∃ gw, c' = { c with gateway := gw } := by
  refine ⟨rfl, fun c' h => ?_⟩
  simp only [setupInterface] at h
  split_ifs at h
  · exact ⟨_, (Except.ok.inj h).symm⟩
  · cases hgw : setup.realGateway with
    | none =>
      rw [hgw] at h
      cases h
    | some gw =>
      rw [hgw] at h
      exact ⟨gw, (Except.ok.inj h).symm⟩

theorem start_cases (t : Table) (name : Bytes) (default : Option Bytes) (setup : Setup) :
    ((start t name default setup).phase = .failed ∧
      (start t name default setup).client.bypassIPs = [] ∧
      (start t name default setup).watcher = { gateway := [] }) ∨
    (default.isSome = true ∧ ∃ iface gw gateway, iface ≠ [] ∧ start t name default setup =
      { phase := .running
        table := deleteAll [lower, upper] t setup.deletions
        client := { name, gateway, savedIface := iface, savedGw := gw }
        watcher := { gateway } }) := by
  rw [start]
  cases hsave : saveDefault { name } default with
  | error err => exact .inl ⟨rfl, rfl, rfl⟩
  | ok c =>
    obtain ⟨hsome, iface, gw, hiface, rfl⟩ := saveDefault_eq_ok hsave
    obtain ⟨htable, hclient⟩ := setupInterface_spec
      { name, savedIface := iface, savedGw := gw } t setup
    dsimp only
    rcases hsetup : setupInterface { name, savedIface := iface, savedGw := gw } t setup with
      ⟨err | c, t'⟩
    · exact .inl ⟨rfl, rfl, rfl⟩
    · rw [hsetup] at htable hclient
      obtain ⟨gateway, rfl⟩ := hclient c rfl
      exact .inr ⟨hsome, iface, gw, gateway, hiface, by rw [← htable]⟩

/-- The end of the process leaves the hosts alone, if no bypass routes are recorded. -/
theorem shutdown_spec {s : State} (h : s.client.bypassIPs = []) (closing restoring : ℕ → Outcome) :
    (shutdown s closing restoring).client.bypassIPs = [] ∧
      ∀ ip, (shutdown s closing restoring).table (.host ip) = s.table (.host ip) := by
  obtain ⟨hbypass, hclose⟩ := removeRoutes_spec h s.table closing
  refine ⟨(restoreDefault_bypassIPs ..).trans hbypass, fun ip => ?_⟩
  obtain ⟨hlower, hupper⟩ := host_ne ip
  have hrestore := restoreDefault_spec (removeRoutes s.client s.table closing).1
    (removeRoutes s.client s.table closing).2 restoring hlower hupper (.inl (by simp))
  exact hrestore.trans (hclose _ hlower hupper)

/-! ### What the watcher has seen -/

/-- The times and the hosts of the snapshots in which `lsof` worked. -/
def scans (es : List Event) : List (ℕ × Finset Bytes) :=
  es.filterMap fun
    | .snapshot scan => scan.lsof.map fun out => (scan.now, remoteHosts out)
    | _ => none

/-- The set has been the same since then. -/
def SameSince (es : List Event) (current : Finset Bytes) (since : ℕ) : Prop :=
  ∃ past rest, scans es = past ++ (since, current) :: rest ∧ ∀ seen ∈ rest, seen.2 = current

structure Watched (es : List Event) (s : State) : Prop where
  bypassIPs : s.client.bypassIPs = []
  known : ∀ ip ∈ s.watcher.known, (s.table (.host ip)).isSome = true
  stable : ∀ since, s.watcher.stableAt = some since → SameSince es s.watcher.lastSet since

theorem scans_concat (es : List Event) (e : Event) : scans (es ++ [e]) = scans es ++ scans [e] :=
  List.filterMap_append

theorem SameSince.concat {es : List Event} {current : Finset Bytes} {since : ℕ}
    (h : SameSince es current since) {e : Event} (he : ∀ seen ∈ scans [e], seen.2 = current) :
    SameSince (es ++ [e]) current since := by
  obtain ⟨past, rest, heq, hrest⟩ := h
  refine ⟨past, rest ++ scans [e], by rw [scans_concat, heq]; simp, fun seen hseen => ?_⟩
  exact (List.mem_append.mp hseen).elim (hrest seen) (he seen)

/-- An event without a set leaves what was seen. -/
theorem Watched.concat {es : List Event} {s s' : State} (h : Watched es s) {e : Event}
    (he : scans [e] = []) (hclient : s'.client.bypassIPs = [])
    (hhosts : ∀ ip, s'.table (.host ip) = s.table (.host ip)) (hwatcher : s'.watcher = s.watcher) :
    Watched (es ++ [e]) s' where
  bypassIPs := hclient
  known ip hip := by
    rw [hhosts]
    exact h.known ip (hwatcher ▸ hip)
  stable since hsince := by
    rw [hwatcher] at hsince ⊢
    exact (h.stable since hsince).concat (by simp [he])

theorem watched_start (es : List Event) (t : Table) (name : Bytes) (default : Option Bytes)
    (setup : Setup) : Watched es (start t name default setup) := by
  obtain ⟨-, hclient, hwatcher⟩ | ⟨-, iface, gw, gateway, -, heq⟩ :=
    start_cases t name default setup
  · refine ⟨hclient, ?_, ?_⟩ <;> rw [hwatcher]
    · intro ip hip
      exact absurd hip (Finset.notMem_empty ip)
    · exact nofun
  · rw [heq]
    exact ⟨rfl, fun ip hip => absurd hip (Finset.notMem_empty ip), nofun⟩

theorem watched_snapshot {es : List Event} {s : State} (h : Watched es s) {scan : Scan}
    {out : Bytes} (hlsof : scan.lsof = some out) :
    Watched (es ++ [.snapshot scan]) (snapshot s scan out) := by
  have hadded := scan.added s
  have hscans : scans [.snapshot scan] = [(scan.now, remoteHosts out)] := by simp [scans, hlsof]
  obtain ⟨hbypass, hother⟩ := configureDefault_spec h.bypassIPs (scan.add s).2 scan.configure
  rw [snapshot_eq]
  constructor
  case bypassIPs =>
    dsimp only
    split_ifs
    · exact hbypass
    · exact h.bypassIPs
  case known =>
    intro ip hip
    dsimp only at hip ⊢
    have htable : (if Fires s scan out then
        (configureDefault s.client (scan.add s).2 scan.configure).2.2 else (scan.add s).2)
          (.host ip) = (scan.add s).2 (.host ip) := by
      split_ifs
      · exact hother _ (host_ne ip).1 (host_ne ip).2
      · rfl
    rw [observe_known] at hip
    rw [htable]
    obtain hbefore | ⟨-, hsome⟩ := hadded.known ip hip
    · have hsome := h.known ip hbefore
      rw [hadded.kept _ hsome]
      exact hsome
    · exact hsome
  case stable =>
    intro since hsince
    have hlast : (scan.add s).1.lastSet = s.watcher.lastSet := by rw [hadded.watcher]
    have hstableAt : (scan.add s).1.stableAt = s.watcher.stableAt := by rw [hadded.watcher]
    dsimp only at hsince ⊢
    obtain ⟨-, heq⟩ | ⟨hsame, -, heq⟩ | ⟨hsame, -, heq⟩ :=
      observe_cases (scan.add s).1 (remoteHosts out) scan.now <;> rw [heq] at hsince ⊢
    · cases hsince
    · -- the first time that the set is the same
      obtain rfl := Option.some.inj hsince
      exact ⟨scans es, [], by rw [scans_concat, hscans, hsame], nofun⟩
    · dsimp only at hsince ⊢
      rw [hlast] at hsame ⊢
      refine (h.stable since (hstableAt ▸ hsince)).concat ?_
      simp [hscans, hsame]

theorem watched_of_run {t : Table} {es : List Event} {s : State}
    (hrun : (clientTUN t).run (clientTUN t).init es = some s) : Watched es s := by
  refine EventSystem.invariant_of_run (I := Watched) ?_ ?_ hrun
  · exact ⟨rfl, fun ip hip => absurd hip (Finset.notMem_empty ip), nofun⟩
  · intro es s e s' _ h hstep
    obtain ⟨name, default, setup, rfl, -, -, rfl⟩ | ⟨scan, rfl, -, hlsof, rfl⟩ |
      ⟨scan, out, rfl, -, hlsof, -, rfl⟩ | ⟨rfl, -, rfl⟩ | ⟨rfl, -, rfl⟩ |
      ⟨closing, restoring, rfl, -, rfl⟩ := step_cases hstep
    · exact watched_start ..
    · exact h.concat (by simp [scans, hlsof]) h.bypassIPs (fun _ => rfl) rfl
    · exact watched_snapshot h hlsof
    · exact h.concat rfl h.bypassIPs (fun _ => rfl) rfl
    · exact h.concat rfl h.bypassIPs (fun _ => rfl) rfl
    · obtain ⟨hbypass, hhosts⟩ := shutdown_spec h.bypassIPs closing restoring
      exact h.concat rfl hbypass hhosts rfl

/-! ### The calls of `onStable` -/

/-- A call of `onStable` in a run. -/
structure Call (t : Table) (es : List Event) where
  past : List Event
  scan : Scan
  rest : List Event
  out : Bytes
  s : State
  s' : State
  split : es = past ++ .snapshot scan :: rest
  before : (clientTUN t).run (clientTUN t).init past = some s
  lsof : scan.lsof = some out
  fires : Fires s scan out
  after : step s (.snapshot scan) = some s'

namespace Call

variable {t : Table} {es : List Event}

/-- The remote hosts at the call. -/
def current (call : Call t es) : Finset Bytes := remoteHosts call.out

/-- The routing table at the call. -/
def table (call : Call t es) : Table := (call.scan.add call.s).2

/-- There are hosts, they have been the same for more than three seconds, and all have a bypass
route. -/
structure Sound (call : Call t es) : Prop where
  nonempty : call.current.Nonempty
  stable : ∃ since, 3 * second < call.scan.now - since ∧ SameSince call.past call.current since
  routed : ∀ ip ∈ call.current, (call.table (.host ip)).isSome = true

/-- There are hosts, and each has a route before the snapshot or is given one by a command that
runs. -/
def Ready (call : Call t es) : Prop :=
  call.current.Nonempty ∧
    ∀ ip ∈ call.current, (call.s.table (.host ip)).isSome = true ∨ call.scan.outcomes ip = .runs

theorem after_eq (call : Call t es) :
    call.scan.order.toFinset = call.current ∧ call.s' = snapshot call.s call.scan call.out := by
  obtain ⟨name, default, setup, he, -⟩ | ⟨scan, he, -, hlsof, -⟩ |
    ⟨scan, out, he, -, hlsof, horder, h⟩ | ⟨he, -⟩ | ⟨he, -⟩ | ⟨closing, restoring, he, -⟩ :=
    step_cases call.after <;> cases he
  · rw [call.lsof] at hlsof
    cases hlsof
  · obtain rfl := Option.some.inj (call.lsof.symm.trans hlsof)
    exact ⟨horder, h⟩

theorem fired_after (call : Call t es) : call.s'.watcher.fired = true := by
  have hfires := (fires_add call.s call.scan call.out).trans call.fires
  rw [call.after_eq.2, snapshot_eq]
  dsimp only
  rw [observe_fired, hfires, Bool.or_true]

theorem stable (call : Call t es) :
    ∃ since, 3 * second < call.scan.now - since ∧ SameSince call.past call.current since := by
  obtain ⟨hsame, ⟨since, hsince, hlt⟩, -⟩ := fires_iff.mp call.fires
  refine ⟨since, hlt, ?_⟩
  rw [current, hsame]
  exact (watched_of_run call.before).stable since hsince

theorem sound_iff (call : Call t es) : call.Sound ↔ call.Ready := by
  have hadded := call.scan.added call.s
  have hwatched := watched_of_run call.before
  have hroute : ∀ ip ∈ call.current, ((call.table (.host ip)).isSome = true ↔
      (call.s.table (.host ip)).isSome = true ∨ call.scan.outcomes ip = .runs) := by
    intro ip hip
    have hmem : ip ∈ call.scan.order := by
      rw [← List.mem_toFinset, call.after_eq.1]
      exact hip
    by_cases hknown : ip ∈ call.s.watcher.known
    · have hsome := hwatched.known ip hknown
      rw [table, hadded.kept _ hsome]
      exact iff_of_true hsome (.inl hsome)
    · exact hadded.routed ip hmem hknown
  constructor
  · intro h
    exact ⟨h.nonempty, fun ip hip => (hroute ip hip).mp (h.routed ip hip)⟩
  · intro h
    exact ⟨h.1, call.stable, fun ip hip => (hroute ip hip).mpr (h.2 ip hip)⟩

end Call

/-- The watcher fires once. -/
theorem fired_step {s s' : State} {e : Event} (hstep : step s e = some s')
    (h : s.phase ≠ .starting ∧ s.watcher.fired = true) :
    s'.phase ≠ .starting ∧ s'.watcher.fired = true := by
  obtain ⟨name, default, setup, -, hphase, -⟩ | ⟨scan, -, -, -, rfl⟩ |
    ⟨scan, out, -, -, -, -, rfl⟩ | ⟨-, -, rfl⟩ | ⟨-, -, rfl⟩ | ⟨closing, restoring, -, -, rfl⟩ :=
    step_cases hstep
  · exact absurd hphase h.1
  · exact h
  · rw [snapshot_eq]
    refine ⟨h.1, ?_⟩
    dsimp only
    rw [observe_fired, (scan.added s).watcher]
    simp [h.2]
  · exact ⟨nofun, h.2⟩
  · exact ⟨nofun, h.2⟩
  · exact ⟨nofun, h.2⟩

theorem Call.phase_after {t : Table} {es : List Event} (call : Call t es) :
    call.s'.phase ≠ .starting := by
  obtain ⟨name, default, setup, he, -⟩ | ⟨scan, -, hphase, -, heq⟩ |
    ⟨scan, out, -, hphase, -, -, heq⟩ | ⟨he, -⟩ | ⟨he, -⟩ | ⟨closing, restoring, he, -⟩ :=
    step_cases call.after
  any_goals cases he
  · rw [heq]
    obtain h | h := hphase <;> simp [h]
  · rw [heq, snapshot_eq]
    obtain h | h := hphase <;> simp [h]

/-- Of two calls neither comes first. -/
theorem Call.not_lt {t : Table} {es : List Event} (a b : Call t es) :
    ¬ a.past.length < b.past.length := by
  intro hlt
  have ha : a.past ++ [.snapshot a.scan] <+: es :=
    ⟨a.rest, by rw [List.append_assoc]; exact a.split.symm⟩
  have hb : b.past <+: es := ⟨.snapshot b.scan :: b.rest, b.split.symm⟩
  obtain ⟨mid, hmid⟩ := List.prefix_of_prefix_length_le ha hb
    (by rw [List.length_append]; exact hlt)
  have hbefore := b.before
  rw [← hmid, EventSystem.run_append_eq_some] at hbefore
  obtain ⟨u, hu, hrun⟩ := hbefore
  have hafter : (clientTUN t).run (clientTUN t).init (a.past ++ [.snapshot a.scan]) = some a.s' :=
    EventSystem.run_append_eq_some.mpr
      ⟨a.s, a.before, EventSystem.run_cons_eq_some.mpr ⟨a.s', a.after, rfl⟩⟩
  obtain rfl := Option.some.inj (hafter.symm.trans hu)
  have hfired := (EventSystem.run_invariant (S := clientTUN t) (P := fun _ _ => True)
    (I := fun s => s.phase ≠ .starting ∧ s.watcher.fired = true)
    (fun s e s' h _ hs' => fired_step (e := e) hs' h) ⟨a.phase_after, a.fired_after⟩
    (EventSystem.along_true _ mid) hrun).2
  rw [(fires_iff.mp b.fires).2.2] at hfired
  cases hfired

/-- `onStable` is called at most once, and every call of it is sound, exactly if every call is
ready. -/
theorem calls_sound_iff (t : Table) (es : List Event) :
    ((∀ a b : Call t es, a.past = b.past) ∧ ∀ call : Call t es, call.Sound) ↔
      ∀ call : Call t es, call.Ready := by
  have honce : ∀ a b : Call t es, a.past = b.past := by
    intro a b
    have hlength := Nat.le_antisymm (Nat.le_of_not_lt (b.not_lt a)) (Nat.le_of_not_lt (a.not_lt b))
    have ha : a.past <+: es := ⟨.snapshot a.scan :: a.rest, a.split.symm⟩
    have hb : b.past <+: es := ⟨.snapshot b.scan :: b.rest, b.split.symm⟩
    exact (List.prefix_of_prefix_length_le ha hb hlength.le).eq_of_length hlength
  constructor
  · exact fun h call => call.sound_iff.mp (h.2 call)
  · exact fun h => ⟨honce, fun call => call.sound_iff.mpr (h call)⟩

/-- `route -n get default` at home. -/
def homeRoute : Bytes := literal "  gateway: 10.0.0.1\n  interface: en0\n"

/-- The routing table at home. -/
def homeTable : Table
  | .default => some (.gateway (literal "10.0.0.1"))
  | _ => none

/-- A snapshot in which there is only a socket that is not connected. -/
def unconnected (now : ℕ) : Scan where
  lsof := some (literal "UDP *:53")
  order := []
  now := now

/-- Two snapshots without a remote host, four seconds apart. -/
def emptyEvents : List Event :=
  [.start (literal "utun5") (some homeRoute) {}, .snapshot (unconnected 0),
    .snapshot (unconnected (4 * second))]

/-- Its second snapshot. -/
def emptyCall : Call homeTable emptyEvents where
  past := emptyEvents.dropLast
  scan := unconnected (4 * second)
  rest := []
  out := literal "UDP *:53"
  s := _
  s' := _
  split := rfl
  before := rfl
  lsof := rfl
  fires := by decide
  after := rfl

theorem calls_unconnected :
    ¬ ∀ (t : Table) (es : List Event), (∀ a b : Call t es, a.past = b.past) ∧
      ∀ call : Call t es, call.Sound := by
  intro h
  have hempty : emptyCall.current = ∅ := by decide
  have hnonempty := ((h homeTable emptyEvents).2 emptyCall).nonempty
  rw [hempty] at hnonempty
  exact Finset.not_nonempty_empty hnonempty

end OpenFlux.Tun
