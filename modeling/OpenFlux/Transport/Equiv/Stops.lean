import OpenFlux.Transport.Stops

/-!
# Stopping twice

`Stop` guards its own channel against a second close, but not the channels below: those of the relay
and of the rooms.  So it can be called again exactly while there is no relay and no room
(`repeatable_stop_iff_relay`, `repeatable_stop_iff_wss`), which is as long as no `Start` has
returned nil (`repeatable_stop_iff`).  After a `Start` that has, one of the first two calls panics.
-/

namespace OpenFlux.Transport

open Chan EventSystem

/-- A call that is no `Start` that returns nil. -/
def Unopened {τ α : Type} (start : τ → α → τ × Except String Unit) (t : τ) :
    LifecycleCall α → Prop
  | .start auth => (start t auth).2 ≠ .ok ()
  | .stop => True

instance {τ α : Type} (start : τ → α → τ × Except String Unit) (t : τ) :
    ∀ c, Decidable (Unopened start t c)
  | .start auth => inferInstanceAs (Decidable ((start t auth).2 ≠ .ok ()))
  | .stop => inferInstanceAs (Decidable True)

/-! ### Volga -/

theorem RelayClient.stop_stop {r r' : RelayClient} (h : r.stop = some r') : r'.stop = none := by
  rw [stop, Option.bind_eq_bind, Option.bind_eq_some_iff] at h
  obtain ⟨queue, hqueue, h⟩ := h
  obtain ⟨batchQueue, -, hr⟩ := Option.bind_eq_some_iff.mp h
  obtain ⟨-, rfl⟩ := close_eq_some.mp hqueue
  obtain rfl := Option.some.inj hr
  rfl

namespace YandexVolgaTransport

variable {t t' : YandexVolgaTransport}

theorem stop_of_none (h : t.relay = none) : t.stop = some
    { keepAliveStop := true, ws := t.ws.map WSListener.stop, relay := none, base := {} } := by
  rw [stop, closeOnce_eq, h]
  rfl

theorem stop_of_some {r : RelayClient} (h : t.relay = some r) : t.stop = r.stop.map fun r' =>
    { keepAliveStop := true, ws := t.ws.map WSListener.stop, relay := some r', base := {} } := by
  rw [stop, closeOnce_eq, h]
  cases hr : r.stop with
  | none => simp [hr]
  | some r' => simp [hr, BaseTransport.stop]

theorem WSListener.map_stop_stop (ws : Option WSListener) :
    (ws.map WSListener.stop).map WSListener.stop = ws.map WSListener.stop := by
  cases ws <;> rfl

/-- A relay is closed by the first call that returns, and closed again by the next one. -/
theorem stop_stop {r : RelayClient} (h : t.relay = some r) (hstop : t.stop = some t') :
    t'.stop = none := by
  rw [stop_of_some h, Option.map_eq_some_iff] at hstop
  obtain ⟨r', hr', rfl⟩ := hstop
  rw [stop_of_some rfl, RelayClient.stop_stop hr', Option.map_none]

theorem repeatable_stop_iff_relay : Repeatable stop t ↔ t.relay = none := by
  cases h : t.relay with
  | none =>
    refine iff_of_true (repeatable_iff.mpr ⟨_, stop_of_none h, ?_⟩) rfl
    rw [stop_of_none rfl, WSListener.map_stop_stop]
  | some r => exact iff_of_false (not_repeatable_of_closes fun t' => stop_stop h) nofun

theorem relay_step {c : LifecycleCall (Except String Unit)} (h : system.step t c = some t') :
    t'.relay = none ↔ t.relay = none ∧ Unopened start t c := by
  match c with
  | .start (.error err) =>
    obtain rfl := Option.some.inj h
    exact (and_iff_left nofun).symm
  | .start (.ok ()) =>
    obtain rfl := Option.some.inj h
    exact iff_of_false nofun fun hnot => hnot.2 rfl
  | .stop =>
    have hstop : t.stop = some t' := h
    cases hrelay : t.relay with
    | none =>
      rw [stop_of_none hrelay] at hstop
      obtain rfl := Option.some.inj hstop
      exact iff_of_true rfl ⟨rfl, trivial⟩
    | some r =>
      rw [stop_of_some hrelay, Option.map_eq_some_iff] at hstop
      obtain ⟨r', -, rfl⟩ := hstop
      exact iff_of_false nofun nofun

theorem relay_eq_none_iff {cs : List (LifecycleCall (Except String Unit))}
    (h : system.run system.init cs = some t) :
    t.relay = none ↔ system.Along (Unopened start) system.init cs := by
  have hinit : system.init.relay = none := rfl
  rw [invariant_iff_along (I := fun t => t.relay = none) (fun _ _ _ => relay_step) h,
    and_iff_right hinit]

end YandexVolgaTransport

/-! ### Cups.online -/

namespace CupsonlineTransport

variable {isClient : Bool} {clientErr : Option String} {t t' : CupsonlineTransport}

theorem CupsWS.stop_eq_some {w w' : CupsWS} :
    w.stop = some w' ↔ w.ctx = false ∧ w' = { closed := true, ctx := true } := by
  rw [CupsWS.stop, Option.bind_eq_bind, Option.bind_eq_some_iff]
  simp only [close_eq_some]
  constructor
  · rintro ⟨_, ⟨hctx, rfl⟩, h⟩
    exact ⟨hctx, (Option.some.inj h).symm⟩
  · rintro ⟨hctx, rfl⟩
    exact ⟨true, ⟨hctx, rfl⟩, rfl⟩

theorem stop_eq_some : t.stop = some t' ↔
    ∃ wss, t.wss.mapM CupsWS.stop = some wss ∧ t' = { t with stopCh := true, wss, base := {} } := by
  rw [stop, closeOnce_eq, Option.bind_eq_bind, Option.bind_some, Option.bind_eq_bind,
    Option.bind_eq_some_iff]
  exact exists_congr fun wss => and_congr_right' (Option.some_inj.trans eq_comm)

/-- The loop over the rooms closes the first, whose channel must be open. -/
theorem mapM_stop_cons {w : CupsWS} {rest wss : List CupsWS}
    (h : (w :: rest).mapM CupsWS.stop = some wss) :
    w.ctx = false ∧ ∃ rest', wss = { closed := true, ctx := true } :: rest' := by
  rw [List.mapM_cons, Option.bind_eq_bind, Option.bind_eq_some_iff] at h
  obtain ⟨w', hw', h⟩ := h
  obtain ⟨rest', -, h⟩ := Option.bind_eq_some_iff.mp h
  obtain ⟨hctx, rfl⟩ := CupsWS.stop_eq_some.mp hw'
  exact ⟨hctx, rest', (Option.some.inj h).symm⟩

/-- A room is closed by the first call that returns, and closed again by the next one. -/
theorem stop_stop (h : t.wss ≠ []) (hstop : t.stop = some t') : t'.stop = none := by
  obtain ⟨wss, hwss, rfl⟩ := stop_eq_some.mp hstop
  obtain ⟨w, rest, hcons⟩ := List.exists_cons_of_ne_nil h
  rw [hcons] at hwss
  obtain ⟨-, rest', rfl⟩ := mapM_stop_cons hwss
  refine Option.eq_none_iff_forall_ne_some.mpr fun t'' ht'' => ?_
  obtain ⟨wss, hwss, -⟩ := stop_eq_some.mp ht''
  exact nomatch (mapM_stop_cons hwss).1

theorem repeatable_stop_iff_wss : Repeatable stop t ↔ t.wss = [] := by
  by_cases h : t.wss = []
  · have hwss : t.wss.mapM CupsWS.stop = some [] := by rw [h]; rfl
    refine iff_of_true (repeatable_iff.mpr ⟨_, stop_eq_some.mpr ⟨[], hwss, rfl⟩, ?_⟩) h
    exact stop_eq_some.mpr ⟨[], rfl, rfl⟩
  · exact iff_of_false (not_repeatable_of_closes fun t' => stop_stop h) h

theorem wss_step {c : LifecycleCall (List (Except String Unit))}
    (h : (system isClient clientErr).step t c = some t') :
    t'.wss = [] ↔ t.wss = [] ∧ Unopened start t c := by
  match c with
  | .start auths =>
    obtain rfl := Option.some.inj h
    rw [Unopened, start]
    cases t.clientErr with
    | some err => exact (and_iff_left nofun).symm
    | none =>
      dsimp only
      by_cases hrooms : auths.countP Except.isOk = 0
      · rw [if_pos hrooms]
        exact (and_iff_left nofun).symm
      · rw [if_neg hrooms]
        refine iff_of_false (fun hnil => ?_) fun hnot => hnot.2 rfl
        have hreplicate := (List.append_eq_nil_iff.mp hnil).2
        exact hrooms ((List.replicate_eq_nil_iff _).mp hreplicate)
  | .stop =>
    obtain ⟨wss, hwss, rfl⟩ := stop_eq_some.mp h
    rw [Unopened, and_true]
    cases hrooms : t.wss with
    | nil =>
      rw [hrooms] at hwss
      exact iff_of_true (Option.some.inj hwss).symm rfl
    | cons w rest =>
      rw [hrooms] at hwss
      obtain ⟨-, rest', rfl⟩ := mapM_stop_cons hwss
      exact iff_of_false nofun nofun

theorem wss_eq_nil_iff {cs : List (LifecycleCall (List (Except String Unit)))}
    (h : (system isClient clientErr).run (system isClient clientErr).init cs = some t) :
    t.wss = [] ↔
      (system isClient clientErr).Along (Unopened start) (system isClient clientErr).init cs := by
  have hinit : (system isClient clientErr).init.wss = [] := rfl
  rw [invariant_iff_along (I := fun t => t.wss = []) (fun _ _ _ => wss_step) h,
    and_iff_right hinit]

end CupsonlineTransport

/-! ### Both -/

/-- **Stopping again**: in every state that calls of `Start` and `Stop` lead to, any number of calls
of `Stop` return and leave the state of the first exactly when no `Start` before them has returned
nil. -/
theorem repeatable_stop_iff (volga : List (LifecycleCall (Except String Unit)))
    (isClient : Bool) (clientErr : Option String)
    (cups : List (LifecycleCall (List (Except String Unit)))) :
    (∀ t, YandexVolgaTransport.system.run YandexVolgaTransport.system.init volga = some t →
      (Repeatable YandexVolgaTransport.stop t ↔ YandexVolgaTransport.system.Along
        (Unopened YandexVolgaTransport.start) YandexVolgaTransport.system.init volga)) ∧
    ∀ t, (CupsonlineTransport.system isClient clientErr).run
        (CupsonlineTransport.system isClient clientErr).init cups = some t →
      (Repeatable CupsonlineTransport.stop t ↔
        (CupsonlineTransport.system isClient clientErr).Along
          (Unopened CupsonlineTransport.start)
          (CupsonlineTransport.system isClient clientErr).init cups) := by
  constructor
  · intro t h
    rw [YandexVolgaTransport.repeatable_stop_iff_relay, YandexVolgaTransport.relay_eq_none_iff h]
  · intro t h
    rw [CupsonlineTransport.repeatable_stop_iff_wss, CupsonlineTransport.wss_eq_nil_iff h]

/-- Both stop again after a `Start` that failed. -/
theorem repeatable_stop_failedStart :
    (∃ t, YandexVolgaTransport.system.run {} [.start (.error "status 403"), .stop] = some t ∧
      Repeatable YandexVolgaTransport.stop t) ∧
    ∃ t, (CupsonlineTransport.system true none).run { isClient := true, clientErr := none }
        [.start [.error "status 403"], .stop] = some t ∧
      Repeatable CupsonlineTransport.stop t := by
  obtain ⟨hvolga, hcups⟩ := repeatable_stop_iff [.start (.error "status 403"), .stop] true none
    [.start [.error "status 403"], .stop]
  constructor
  · refine ⟨_, rfl, (hvolga _ rfl).mpr ?_⟩
    decide
  · refine ⟨_, rfl, (hcups _ rfl).mpr ?_⟩
    decide

/-- Neither stops twice after a `Start` that did not. -/
theorem not_repeatable_stop_started :
    (¬ ∀ cs t, YandexVolgaTransport.system.run YandexVolgaTransport.system.init cs = some t →
      Repeatable YandexVolgaTransport.stop t) ∧
    ¬ ∀ isClient clientErr cs t, (CupsonlineTransport.system isClient clientErr).run
        (CupsonlineTransport.system isClient clientErr).init cs = some t →
      Repeatable CupsonlineTransport.stop t := by
  constructor
  · intro h
    exact nomatch YandexVolgaTransport.repeatable_stop_iff_relay.mp (h [.start (.ok ())] _ rfl)
  · intro h
    exact nomatch
      CupsonlineTransport.repeatable_stop_iff_wss.mp (h true none [.start [.ok ()]] _ rfl)

end OpenFlux.Transport
