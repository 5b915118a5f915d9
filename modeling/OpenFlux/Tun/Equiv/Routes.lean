import OpenFlux.Tun.Routes

/-!
# When `ConfigureDefault` leaves nothing behind

`configureDefault_rolledBack_iff` says for which commands a failed `ConfigureDefault` leaves the
routing table as it was: `removeRoutes` undoes what it does only where the client knows of routes
from before.
-/

namespace OpenFlux.Tun

variable {t : Table} {d : Destination}

theorem host_ne (ip : Bytes) : Destination.host ip ≠ lower ∧ Destination.host ip ≠ upper := by
  simp [lower, upper]

/-! ### Commands -/

/-- The route is added. -/
def Adds (t : Table) (d : Destination) (o : Outcome) : Prop := o = .runs ∧ t d = none

/-- There is no route to delete, or it is not deleted. -/
def Idle (t : Table) (d : Destination) (o : Outcome) : Prop := o = .runs → t d = none

theorem routeAdd_of_adds {hop : Hop} {o : Outcome} (h : Adds t d o) :
    routeAdd t d hop o = (none, Function.update t d (some hop)) := by
  obtain ⟨rfl, hnone⟩ := h
  rw [routeAdd, hnone]
  rfl

theorem routeAdd_of_not_adds (hop : Hop) {o : Outcome} (h : ¬ Adds t d o) :
    ∃ out, routeAdd t d hop o = (some out, t) := by
  cases o with
  | fails out hout => exact ⟨out, rfl⟩
  | runs =>
    have hsome : (t d).isSome = true := by
      by_contra hnone
      exact h ⟨rfl, by simpa using hnone⟩
    exact ⟨fileExists, by rw [routeAdd, if_pos hsome]⟩

/-- Other routes are left, and a route that is there. -/
theorem routeAdd_of_ne (hop : Hop) (o : Outcome) {d' : Destination}
    (h : d' ≠ d ∨ (t d').isSome = true) : (routeAdd t d hop o).2 d' = t d' := by
  by_cases hadds : Adds t d o
  · rw [routeAdd_of_adds hadds]
    obtain hne | hsome := h
    · exact Function.update_of_ne hne _ t
    · refine Function.update_of_ne (fun heq => ?_) _ t
      rw [heq, hadds.2] at hsome
      cases hsome
  · obtain ⟨out, hout⟩ := routeAdd_of_not_adds hop hadds
    rw [hout]

theorem routeDelete_of_ne (t : Table) {d d' : Destination} (h : d' ≠ d) (o : Outcome) :
    routeDelete t d o d' = t d' := by
  cases o with
  | fails => rfl
  | runs => exact Function.update_of_ne h _ t

theorem routeDelete_eq_iff (o : Outcome) : routeDelete t d o = t ↔ Idle t d o := by
  cases o with
  | fails => exact iff_of_true rfl fun h => nomatch h
  | runs =>
    rw [routeDelete, Function.update_eq_self_iff]
    exact ⟨fun h _ => h.symm, fun h => (h rfl).symm⟩

theorem deleteAll_none {d : Destination} (h : t d = none) (ds : List Destination)
    (o : ℕ → Outcome) : deleteAll ds t o d = none := by
  induction ds generalizing t o with
  | nil => exact h
  | cons d' ds ih =>
    apply ih
    by_cases hd : d = d'
    · subst hd
      cases o 0 with
      | fails => exact h
      | runs => exact Function.update_self ..
    · rw [routeDelete_of_ne t hd, h]

/-- Deleting changes nothing exactly if no deletion does. -/
theorem deleteAll_eq_iff (ds : List Destination) (o : ℕ → Outcome) :
    deleteAll ds t o = t ↔ ∀ i d, ds[i]? = some d → Idle t d (o i) := by
  induction ds generalizing o with
  | nil => simp [deleteAll]
  | cons d ds ih =>
    rw [deleteAll]
    constructor
    · intro h
      have hidle : Idle t d (o 0) := by
        intro ho
        rw [← h, ho]
        exact deleteAll_none (Function.update_self ..) ds _
      rw [(routeDelete_eq_iff _).mpr hidle, ih] at h
      rintro (_ | i) d' hd'
      · obtain rfl := Option.some.inj hd'
        exact hidle
      · exact h i d' hd'
    · intro h
      rw [(routeDelete_eq_iff _).mpr (h 0 d rfl), ih]
      exact fun i d' hd' => h (i + 1) d' hd'

theorem deleteAll_of_not_mem {d : Destination} {ds : List Destination} (h : d ∉ ds) (t : Table)
    (o : ℕ → Outcome) : deleteAll ds t o d = t d := by
  induction ds generalizing t o with
  | nil => rfl
  | cons d' ds ih =>
    rw [List.mem_cons, not_or] at h
    rw [deleteAll, ih h.2, routeDelete_of_ne t h.1]

/-- Deleting a route that was just added, and others. -/
theorem deleteAll_update_eq_iff {d : Destination} {ds : List Destination} (hd : t d = none)
    (hnot : d ∉ ds) (hop : Hop) (o : ℕ → Outcome) :
    deleteAll (d :: ds) (Function.update t d (some hop)) o = t ↔
      o 0 = .runs ∧ ∀ i d', ds[i]? = some d' → Idle t d' (o (i + 1)) := by
  rw [deleteAll]
  cases ho : o 0 with
  | fails out hout =>
    refine iff_of_false (fun h => ?_) (by simp)
    have hkept := congrFun h d
    rw [deleteAll_of_not_mem hnot, routeDelete, Function.update_self, hd] at hkept
    cases hkept
  | runs =>
    have hself : Function.update t d none = t := by
      rw [Function.update_eq_self_iff, hd]
    rw [routeDelete, Function.update_idem, hself, deleteAll_eq_iff]
    simp

/-! ### The rollback -/

/-- `removeRoutes` sees something to remove. -/
def TUNClient.Undoable (c : TUNClient) : Prop := c.routesAdded = true ∨ c.bypassIPs ≠ []

theorem removeRoutes_table (c : TUNClient) (t : Table) (o : ℕ → Outcome) [Decidable c.Undoable] :
    (removeRoutes c t o).2 =
      if c.Undoable then deleteAll (lower :: upper :: c.bypassIPs.map .host) t o else t := by
  have hiff : (c.routesAdded = false ∧ c.bypassIPs.length = 0) ↔ ¬ c.Undoable := by
    simp [TUNClient.Undoable]
  rw [removeRoutes]
  by_cases h : c.Undoable
  · rw [if_neg (by rw [hiff]; exact not_not.mpr h), if_pos h]
  · rw [if_pos (hiff.mpr h), if_neg h]

/-- Without recorded bypass routes only the two halves are touched. -/
theorem removeRoutes_spec {c : TUNClient} (h : c.bypassIPs = []) (t : Table) (o : ℕ → Outcome) :
    (removeRoutes c t o).1.bypassIPs = [] ∧
      ∀ d, d ≠ lower → d ≠ upper → (removeRoutes c t o).2 d = t d := by
  rw [removeRoutes]
  split_ifs
  · exact ⟨h, fun _ _ _ => rfl⟩
  · refine ⟨rfl, fun d hlower hupper => deleteAll_of_not_mem ?_ t o⟩
    rw [h]
    simp [hlower, hupper]

theorem addDefaults_spec {c : TUNClient} (h : c.bypassIPs = []) {ds : List Destination}
    (hds : ∀ d ∈ ds, d = lower ∨ d = upper) (t : Table) (o : ℕ → Outcome) :
    (addDefaults c ds t o).2.1.bypassIPs = [] ∧
      ∀ d, d ≠ lower → d ≠ upper → (addDefaults c ds t o).2.2 d = t d := by
  induction ds generalizing t o with
  | nil => exact ⟨h, fun _ _ _ => rfl⟩
  | cons d ds ih =>
    obtain ⟨hd, hds⟩ := List.forall_mem_cons.mp hds
    rw [addDefaults]
    by_cases hadds : Adds t d (o 0)
    · rw [routeAdd_of_adds hadds]
      obtain ⟨hbypass, hother⟩ := ih hds (Function.update t d (some (.interface c.name)))
        fun n => o (n + 1)
      refine ⟨hbypass, fun d' hlower hupper => ?_⟩
      have hne : d' ≠ d := by
        rintro rfl
        exact hd.elim hlower hupper
      exact (hother d' hlower hupper).trans (Function.update_of_ne hne _ t)
    · obtain ⟨out, hout⟩ := routeAdd_of_not_adds (.interface c.name) hadds
      rw [hout]
      exact removeRoutes_spec h t _

theorem configureDefault_spec {c : TUNClient} (h : c.bypassIPs = []) (t : Table)
    (o : ℕ → Outcome) :
    (configureDefault c t o).2.1.bypassIPs = [] ∧
      ∀ d, d ≠ lower → d ≠ upper → (configureDefault c t o).2.2 d = t d :=
  addDefaults_spec h (by simp) t o

theorem restoreDefault_spec (c : TUNClient) (t : Table) (o : ℕ → Outcome) {d : Destination}
    (hlower : d ≠ lower) (hupper : d ≠ upper) (h : d ≠ .default ∨ (t d).isSome = true) :
    (restoreDefault c t o).2 d = t d := by
  have hdelete : deleteAll [lower, upper] t o d = t d :=
    deleteAll_of_not_mem (by simp [hlower, hupper]) t o
  rw [restoreDefault]
  by_cases hnothing : c.defaultSet = false ∧ c.savedIface = []
  · rw [if_pos hnothing]
  · rw [if_neg hnothing]
    dsimp only
    by_cases hiface : c.savedIface = []
    · rw [if_pos hiface]
      exact hdelete
    · rw [if_neg hiface]
      rw [← hdelete] at h ⊢
      exact routeAdd_of_ne _ _ h

theorem restoreDefault_bypassIPs (c : TUNClient) (t : Table) (o : ℕ → Outcome) :
    (restoreDefault c t o).1.bypassIPs = c.bypassIPs := by
  rw [restoreDefault]
  split_ifs
  · rfl
  · dsimp only
    split_ifs <;> rfl

/-- What the commands of a call have to do for its failure to be undone.  `o` has the first
command's outcome, then that of the second one or of the rollback. -/
structure RolledBack (c : TUNClient) (t : Table) (o : ℕ → Outcome) : Prop where
  /-- The first route is added, but not the second one: the first is deleted, and nothing else. -/
  second : Adds t lower (o 0) → ¬ Adds t upper (o 1) → c.Undoable ∧ o 2 = .runs ∧
    ∀ i d, (upper :: c.bypassIPs.map .host)[i]? = some d → Idle t d (o (i + 3))
  /-- Not even the first route is added: nothing is deleted. -/
  first : ¬ Adds t lower (o 0) → c.Undoable →
    ∀ i d, (lower :: upper :: c.bypassIPs.map .host)[i]? = some d → Idle t d (o (i + 1))

theorem configureDefault_rolledBack_iff (c : TUNClient) (t : Table) (o : ℕ → Outcome) :
    ((configureDefault c t o).1.isSome = true → (configureDefault c t o).2.2 = t) ↔
      RolledBack c t o := by
  classical
  have hne : upper ≠ lower := by decide
  have hhosts : lower ∉ upper :: c.bypassIPs.map .host := by
    rw [List.mem_cons, not_or]
    exact ⟨hne.symm, by simp [lower]⟩
  rw [configureDefault, addDefaults]
  by_cases hlower : Adds t lower (o 0)
  · rw [routeAdd_of_adds hlower]
    dsimp only
    rw [addDefaults]
    have hupper : Adds (Function.update t lower (some (.interface c.name))) upper (o 1) ↔
        Adds t upper (o 1) := by
      rw [Adds, Adds, Function.update_of_ne hne]
    by_cases hsecond : Adds t upper (o 1)
    · rw [routeAdd_of_adds (hupper.mpr hsecond)]
      exact iff_of_true (fun h => nomatch h)
        ⟨fun _ hnot => absurd hsecond hnot, fun hnot => absurd hlower hnot⟩
    · obtain ⟨out, hout⟩ := routeAdd_of_not_adds (.interface c.name) (mt hupper.mp hsecond)
      rw [hout]
      dsimp only
      rw [removeRoutes_table]
      by_cases hundo : c.Undoable
      · rw [if_pos hundo]
        have hdelete := deleteAll_update_eq_iff hlower.2 hhosts (.interface c.name)
          fun n => o (n + 1 + 1)
        constructor
        · intro h
          exact ⟨fun _ _ => ⟨hundo, hdelete.mp (h rfl)⟩, fun hnot => absurd hlower hnot⟩
        · intro h _
          exact hdelete.mpr (h.second hlower hsecond).2
      · rw [if_neg hundo]
        refine iff_of_false (fun h => ?_) fun h => hundo (h.second hlower hsecond).1
        have hkept := congrFun (h rfl) lower
        rw [Function.update_self, hlower.2] at hkept
        cases hkept
  · obtain ⟨out, hout⟩ := routeAdd_of_not_adds (.interface c.name) hlower
    rw [hout]
    dsimp only
    rw [removeRoutes_table]
    by_cases hundo : c.Undoable
    · rw [if_pos hundo, deleteAll_eq_iff]
      constructor
      · intro h
        exact ⟨fun hadds => absurd hadds hlower, fun _ _ => h rfl⟩
      · intro h _
        exact h.first hlower hundo
    · rw [if_neg hundo]
      exact iff_of_true (fun _ => rfl)
        ⟨fun hadds => absurd hadds hlower, fun _ hundo' => absurd hundo' hundo⟩

/-- A client that has not touched any route. -/
def newClient : TUNClient where
  name := literal "utun5"

/-- The second command is refused, after the first one. -/
def secondRefused : ℕ → Outcome
  | 1 => .fails (literal "sudo: a password is required") (by decide)
  | _ => .runs

theorem configureDefault_keeps_lower :
    ¬ ∀ (c : TUNClient) (t : Table) (o : ℕ → Outcome),
      (configureDefault c t o).1.isSome = true → (configureDefault c t o).2.2 = t := by
  intro h
  have hkept := congrFun (h newClient (fun _ => none) secondRefused (by decide)) lower
  exact absurd hkept (by decide)

end OpenFlux.Tun
