import OpenFlux.App.Equiv.AccessKey
import OpenFlux.App.TunnelRepository

/-!
# What the commands do to the stored tunnels

A text that cannot be decoded is loaded as an empty list, and the next tunnel that is added, or the
next one that is removed, is saved in its place: `keeps_iff` says that tunnels get lost exactly
then.  The id -1 stands for no selection, so a tunnel that has it is shown only where it is the
first.
-/

namespace OpenFlux.App

namespace Tunnel

/-- The id of a tunnel in a text, whatever else there is. -/
def storedId : Json → Option Int64 := asObject (required "id" asLong)

theorem storedId_of_decode {j : Json} {t : Tunnel} (h : decode j = some t) :
    storedId j = some t.id := by
  unfold decode at h
  cases j with
  | obj members =>
    obtain ⟨id, hid, h⟩ := Option.bind_eq_some_iff.mp h
    simp only [Option.bind_eq_bind, Option.bind_eq_some_iff] at h
    obtain ⟨_, -, _, -, _, -, _, -, _, -, _, -, _, -, _, -, _, -, _, -, _, -, h⟩ := h
    cases h
    exact hid
  | _ => cases h

end Tunnel

namespace Preferences

variable {K : Libs} {prefs : Preferences} {c : Call}

/-- The ids of the tunnels in the stored text, those that this version cannot decode included. -/
def storedIds (K : Libs) (prefs : Preferences) : List Int64 :=
  match prefs.tunnels.bind K.decodeFromString with
  | some (.arr items) => items.filterMap Tunnel.storedId
  | _ => []

/-- There is no text, or it can be decoded. -/
def Readable (K : Libs) (prefs : Preferences) : Prop :=
  ∀ raw ∈ prefs.tunnels, ∃ tunnels, decodeTunnels K raw = some tunnels

theorem filterMap_of_mapM {α β γ : Type} {f : α → Option β} {g : α → Option γ} {k : β → γ}
    (hg : ∀ {a b}, f a = some b → g a = some (k b)) {as : List α} {bs : List β}
    (h : as.mapM f = some bs) : as.filterMap g = bs.map k := by
  rw [mapM_eq_some_iff] at h
  induction as generalizing bs with
  | nil =>
    rw [List.map_eq_nil_iff.mp h.symm]
    rfl
  | cons a as ih =>
    cases bs with
    | nil => cases h
    | cons b bs =>
      obtain ⟨hb, hbs⟩ := List.cons.inj h
      rw [List.filterMap_cons_some (hg hb), ih hbs, List.map_cons]

theorem load_of_decode {raw : Bytes} {tunnels : List Tunnel}
    (hraw : prefs.tunnels = some raw) (h : decodeTunnels K raw = some tunnels) :
    prefs.load K = tunnels := by
  rw [load, hraw]
  dsimp only
  rw [h, Option.getD_some]

theorem load_of_not_readable (h : ¬ Readable K prefs) : prefs.load K = [] := by
  rw [Readable] at h
  push Not at h
  obtain ⟨raw, hraw, hnone⟩ := h
  rw [load, Option.mem_def.mp hraw]
  dsimp only
  rw [Option.eq_none_iff_forall_ne_some.mpr hnone, Option.getD_none]

theorem ids_eq (h : Readable K prefs) : prefs.storedIds K = (prefs.load K).map Tunnel.id := by
  cases hraw : prefs.tunnels with
  | none =>
    rw [storedIds, load, hraw]
    rfl
  | some raw =>
    obtain ⟨tunnels, htunnels⟩ := h raw hraw
    obtain ⟨j, hj, hlist⟩ := Option.bind_eq_some_iff.mp htunnels
    rw [load_of_decode hraw htunnels, storedIds, hraw, Option.bind_some, hj]
    cases j with
    | arr items => exact filterMap_of_mapM Tunnel.storedId_of_decode hlist
    | _ => cases hlist

/-! ### Saving -/

section Save

variable (hK : ∀ j, K.decodeFromString (K.encodeToString j) = some j)

include hK

theorem decodeTunnels_encode (tunnels : List Tunnel) :
    decodeTunnels K (K.encodeToString (.arr (tunnels.map Tunnel.encode))) = some tunnels := by
  rw [decodeTunnels, hK, Option.bind_some]
  simpa using asList_map Tunnel.decode_encode tunnels

theorem load_save (tunnels : List Tunnel) : (prefs.save K tunnels).load K = tunnels :=
  load_of_decode rfl (decodeTunnels_encode hK tunnels)

theorem readable_save (tunnels : List Tunnel) : Readable K (prefs.save K tunnels) := by
  rintro raw hraw
  obtain rfl := Option.some.inj hraw
  exact ⟨tunnels, decodeTunnels_encode hK tunnels⟩

theorem storedIds_save (tunnels : List Tunnel) :
    (prefs.save K tunnels).storedIds K = tunnels.map Tunnel.id := by
  rw [ids_eq (readable_save hK tunnels), load_save hK]

end Save

/-! ### What a command does -/

/-- The preferences after a call. -/
inductive Change (K : Libs) (prefs : Preferences) (c : Call) : Preferences → Prop
  | none : Change K prefs c prefs
  | added (tunnel : Tunnel) (command : c.command = .addTunnel tunnel)
    (fresh : ∀ it ∈ prefs.load K, it.id ≠ tunnel.id) :
    Change K prefs c (prefs.save K (prefs.load K ++ [tunnel]))
  | removed (tunnel : Tunnel) (command : c.command = .removeTunnel tunnel)
    (allowed : removable c.active tunnel = true) :
    Change K prefs c (prefs.save K ((prefs.load K).filter fun it => it.id ≠ tunnel.id))
  -- the tunnel of an index, by another one or by itself in another mode
  | replaced (i : ℕ) (tunnel new : Tunnel) (found : (prefs.load K)[i]? = some tunnel)
    (named : tunnel.id ≠ new.id → ∃ old, c.command = .updateTunnel old new ∧ old.id = tunnel.id) :
    Change K prefs c (prefs.save K ((prefs.load K).set i new))

theorem change_after (K : Libs) (prefs : Preferences) (c : Call) :
    Change K prefs c (prefs.after K c) := by
  rcases c with ⟨active, command⟩
  cases command with
  | addTunnel tunnel =>
    show Change K prefs _ (prefs.addTunnel K tunnel)
    unfold addTunnel
    dsimp only
    split_ifs with hfresh
    · exact .added tunnel rfl (by simpa using hfresh)
    · exact .none
  | removeTunnel tunnel =>
    show Change K prefs _ (prefs.removeTunnel K active tunnel)
    unfold removeTunnel
    split_ifs with hallowed
    · exact .removed tunnel rfl hallowed
    · exact .none
  | updateTunnel old new =>
    show Change K prefs _ (prefs.updateTunnel K active old new)
    unfold updateTunnel
    dsimp only
    split_ifs
    · exact .none
    · split
      · exact .none
      · next idx hidx =>
        obtain ⟨hlt, hid, -⟩ := List.findIdx?_eq_some_iff_getElem.mp hidx
        refine .replaced idx _ new (List.getElem?_eq_getElem hlt) fun _ => ⟨old, rfl, ?_⟩
        exact (of_decide_eq_true hid).symm
  | setConnectionMode tunnel mode =>
    show Change K prefs _ (prefs.setConnectionMode K active tunnel mode)
    unfold setConnectionMode
    dsimp only
    split_ifs
    · exact .none
    · split
      · exact .none
      · next idx hidx =>
        obtain ⟨hlt, -, -⟩ := List.findIdx?_eq_some_iff_getElem.mp hidx
        have hset : (prefs.load K).modify idx (fun it => { it with connectionMode := mode.name }) =
            (prefs.load K).set idx { (prefs.load K)[idx] with connectionMode := mode.name } := by
          apply List.ext_getElem?
          intro j
          rw [List.getElem?_modify, List.getElem?_set]
          by_cases hj : idx = j
          · subst hj
            simp [hlt]
          · simp [hj]
        rw [hset]
        exact .replaced idx _ _ (List.getElem?_eq_getElem hlt) fun hne => absurd rfl hne

/-! ### The tunnels -/

/-- The call is the removal of this tunnel, and it is allowed. -/
def Removes (c : Call) (id : Int64) : Prop :=
  ∃ tunnel, c.command = .removeTunnel tunnel ∧ tunnel.id = id ∧ removable c.active tunnel = true

/-- Every stored tunnel is still there, unless it is removed; an update may have given it another
id. -/
def Survives (K : Libs) (prefs : Preferences) (c : Call) : Prop :=
  ∀ id ∈ prefs.storedIds K, id ∈ (prefs.after K c).storedIds K ∨ Removes c id ∨
    ∃ old new, c.command = .updateTunnel old new ∧ old.id = id ∧
      new.id ∈ (prefs.after K c).storedIds K

/-- Updates by tunnels of the same id leave distinct ids distinct. -/
def Distinct (K : Libs) (prefs : Preferences) (c : Call) : Prop :=
  (prefs.storedIds K).Nodup → (∀ old new, c.command = .updateTunnel old new → new.id = old.id) →
    ((prefs.after K c).storedIds K).Nodup

section Tunnels

variable (hK : ∀ j, K.decodeFromString (K.encodeToString j) = some j)

include hK

theorem survives_of_readable (h : Readable K prefs) (c : Call) : Survives K prefs c := by
  have hchange := change_after K prefs c
  unfold Survives
  generalize prefs.after K c = prefs' at hchange
  intro id hid
  rw [ids_eq h] at hid
  cases hchange with
  | none =>
    rw [ids_eq h]
    exact .inl hid
  | added tunnel command fresh =>
    rw [storedIds_save hK, List.map_append]
    exact .inl (List.mem_append_left _ hid)
  | removed tunnel command allowed =>
    by_cases hsame : tunnel.id = id
    · exact .inr (.inl ⟨tunnel, command, hsame, allowed⟩)
    · obtain ⟨it, hit, rfl⟩ := List.mem_map.mp hid
      rw [storedIds_save hK]
      exact .inl (List.mem_map_of_mem (List.mem_filter.mpr ⟨hit, by simpa using Ne.symm hsame⟩))
  | replaced i tunnel new found named =>
    rw [storedIds_save hK]
    have hi : i < (prefs.load K).length := (List.getElem?_eq_some_iff.mp found).1
    have hnew : new.id ∈ ((prefs.load K).set i new).map Tunnel.id :=
      List.mem_map_of_mem (List.mem_set hi new)
    obtain ⟨it, hit, rfl⟩ := List.mem_map.mp hid
    obtain ⟨j, hj⟩ := List.mem_iff_getElem?.mp hit
    by_cases hij : i = j
    · subst hij
      obtain rfl := Option.some.inj (found.symm.trans hj)
      by_cases hsame : tunnel.id = new.id
      · exact .inl (hsame ▸ hnew)
      · obtain ⟨old, command, hold⟩ := named hsame
        exact .inr (.inr ⟨old, new, command, hold, hnew⟩)
    · refine .inl (List.mem_map_of_mem (List.mem_iff_getElem?.mpr ⟨j, ?_⟩))
      rw [List.getElem?_set_ne hij, hj]

theorem distinct (prefs : Preferences) (c : Call) : Distinct K prefs c := by
  have hchange := change_after K prefs c
  unfold Distinct
  generalize prefs.after K c = prefs' at hchange
  intro hnodup hkeeps
  have hload : ((prefs.load K).map Tunnel.id).Nodup := by
    by_cases h : Readable K prefs
    · exact ids_eq h ▸ hnodup
    · rw [load_of_not_readable h]
      exact List.nodup_nil
  cases hchange with
  | none => exact hnodup
  | added tunnel command fresh =>
    rw [storedIds_save hK, List.map_append, List.map_singleton]
    refine List.nodup_append.mpr ⟨hload, List.nodup_singleton _, ?_⟩
    intro id hid id' hid'
    obtain ⟨it, hit, rfl⟩ := List.mem_map.mp hid
    rw [List.mem_singleton.mp hid']
    exact fresh it hit
  | removed tunnel command allowed =>
    rw [storedIds_save hK]
    exact hload.sublist (List.filter_sublist.map _)
  | replaced i tunnel new found named =>
    have hsame : tunnel.id = new.id := by
      by_contra hne
      obtain ⟨old, command, hold⟩ := named hne
      exact hne (hold ▸ (hkeeps old new command).symm)
    have hset : ((prefs.load K).set i new).map Tunnel.id = (prefs.load K).map Tunnel.id := by
      obtain ⟨hi, hget⟩ := List.getElem?_eq_some_iff.mp found
      rw [List.map_set, ← hsame, ← hget, ← List.getElem_map Tunnel.id (h := by simpa using hi),
        List.set_getElem_self]
    rw [storedIds_save hK, hset]
    exact hload

/-- A tunnel that is added over a text that cannot be decoded takes the place of all there are. -/
theorem not_survives (h : ¬ Readable K prefs) {id : Int64} (hid : id ∈ prefs.storedIds K)
    {tunnel : Tunnel} (hne : tunnel.id ≠ id) (active : TunnelState) :
    ¬ Survives K prefs ⟨active, .addTunnel tunnel⟩ := by
  have hafter : prefs.after K ⟨active, .addTunnel tunnel⟩ = prefs.save K [tunnel] := by
    show prefs.addTunnel K tunnel = _
    rw [addTunnel, load_of_not_readable h]
    rfl
  intro hsurvives
  rcases hsurvives id hid with hmem | ⟨tunnel', hcommand, -⟩ | ⟨old, new, hcommand, -⟩
  · rw [hafter, storedIds_save hK] at hmem
    exact hne (List.mem_singleton.mp hmem).symm
  · cases hcommand
  · cases hcommand

/-- Every call leaves a text that can be decoded, or one without tunnels. -/
theorem readable_or_after (h : Readable K prefs ∨ prefs.storedIds K = []) (c : Call) :
    Readable K (prefs.after K c) ∨ (prefs.after K c).storedIds K = [] := by
  have hchange := change_after K prefs c
  generalize prefs.after K c = prefs' at hchange
  cases hchange with
  | none => exact h
  | added | removed | replaced => exact .inl (readable_save hK _)

theorem survives_iff (prefs : Preferences) :
    (∀ cs, (repository K prefs).Along (Survives K) prefs cs) ↔
      Readable K prefs ∨ prefs.storedIds K = [] := by
  constructor
  · intro h
    by_contra! hlost
    obtain ⟨hunreadable, hstored⟩ := hlost
    obtain ⟨id, hid⟩ := List.exists_mem_of_ne_nil _ hstored
    obtain ⟨other, hother⟩ : ∃ other : Int64, other ≠ id := by
      by_cases hzero : id = 0
      · exact ⟨1, hzero ▸ by decide⟩
      · exact ⟨0, Ne.symm hzero⟩
    let tunnel : Tunnel :=
      { id := other, name := [], transportType := [], transportConnPayload := [] }
    have hne : tunnel.id ≠ id := hother
    exact not_survives hK hunreadable hid hne .idle (h [⟨.idle, .addTunnel tunnel⟩]).1
  · intro h cs
    refine EventSystem.along_mono (P := fun _ _ => True)
      (I := fun prefs => Readable K prefs ∨ prefs.storedIds K = []) ?_ ?_ h
      (EventSystem.along_true _ cs)
    · rintro prefs c prefs' h - hstep
      obtain rfl := Option.some.inj hstep
      exact readable_or_after hK h c
    · rintro prefs c (h | h) -
      · exact survives_of_readable hK h c
      · intro id hid
        rw [h] at hid
        cases hid

end Tunnels

/-! ### The selected tunnel -/

/-- The tunnel of this id is still there after the call, and the call gives it no other id. -/
def Leaves (K : Libs) (id : Int64) (prefs : Preferences) (c : Call) : Prop :=
  (∃ it ∈ (prefs.after K c).load K, it.id = id) ∧ ∀ old new, c.command = .updateTunnel old new →
    old.id = id → new.id = id ∨ prefs.after K c = prefs

/-- Once the id is selected, its tunnel is shown as long as it is there. -/
def Shows (K : Libs) (id : Int64) (prefs : Preferences) : Prop :=
  ∀ cs prefs', (repository K prefs).run (prefs.setSelectedId id) cs = some prefs' →
    (repository K prefs).Along (Leaves K id) (prefs.setSelectedId id) cs →
      prefs'.getSelected K = (prefs'.load K).find? fun it => it.id = id

/-- The id is selected and its tunnel there; it is the first one if that is how it is found. -/
structure Selected (K : Libs) (id : Int64) (prefs : Preferences) : Prop where
  selected : prefs.selectedTunnelId = some id
  stored : ∃ it ∈ prefs.load K, it.id = id
  first : id = -1 → ∃ it ∈ (prefs.load K).head?, it.id = -1

/-- Without a selection the first tunnel is shown. -/
theorem getSelected_of_none (h : prefs.getSelectedId = none) :
    prefs.getSelected K = (prefs.load K).head? := by
  have hnone : ((prefs.load K).find? fun it => some it.id = none) = none :=
    List.find?_eq_none.mpr fun it _ => by simp
  rw [getSelected, h, hnone, Option.none_or]

theorem getSelected_of_selected {id : Int64} (h : Selected K id prefs) :
    prefs.getSelected K = (prefs.load K).find? fun it => it.id = id := by
  obtain ⟨it, hit, hid⟩ := h.stored
  have hselected : prefs.getSelectedId = if id = -1 then none else some id := by
    rw [getSelectedId, h.selected]
    rfl
  by_cases hnone : id = -1
  · rw [if_pos hnone] at hselected
    obtain ⟨first, hfirst, hminus⟩ := h.first hnone
    obtain ⟨rest, hload⟩ := List.head?_eq_some_iff.mp hfirst
    rw [getSelected_of_none hselected, hload, List.head?_cons,
      List.find?_cons_of_pos (by simpa using hminus.trans hnone.symm)]
  · rw [getSelected, hselected, if_neg hnone]
    have hsome : ((prefs.load K).find? fun it => it.id = id).isSome :=
      List.find?_isSome.mpr ⟨it, hit, decide_eq_true hid⟩
    simp only [Option.some.injEq]
    rw [Option.or_of_isSome hsome]

theorem selected_after (hK : ∀ j, K.decodeFromString (K.encodeToString j) = some j) {id : Int64}
    (h : Selected K id prefs) (hleaves : Leaves K id prefs c) :
    Selected K id (prefs.after K c) := by
  obtain ⟨hstored, hrenamed⟩ := hleaves
  have hchange := change_after K prefs c
  generalize prefs.after K c = prefs' at hchange hstored hrenamed
  cases hchange with
  | none => exact h
  | added tunnel command fresh =>
    refine ⟨h.selected, hstored, fun hminus => ?_⟩
    obtain ⟨first, hfirst, hid⟩ := h.first hminus
    rw [load_save hK, List.head?_append, Option.mem_def.mp hfirst]
    exact ⟨first, rfl, hid⟩
  | removed tunnel command allowed =>
    refine ⟨h.selected, hstored, fun hminus => ?_⟩
    obtain ⟨first, hfirst, hid⟩ := h.first hminus
    obtain ⟨rest, hload⟩ := List.head?_eq_some_iff.mp hfirst
    rw [load_save hK, hload] at hstored ⊢
    have hne : tunnel.id ≠ id := by
      rintro rfl
      obtain ⟨it, hit, hsame⟩ := hstored
      simpa [hsame] using (List.mem_filter.mp hit).2
    have hkept : first.id ≠ tunnel.id := fun hsame => hne (hsame.symm.trans (hid.trans hminus.symm))
    rw [List.filter_cons_of_pos (by simpa using hkept)]
    exact ⟨first, rfl, hid⟩
  | replaced i tunnel new found named =>
    by_cases hsame : prefs.save K ((prefs.load K).set i new) = prefs
    · rw [hsame]
      exact h
    · refine ⟨h.selected, hstored, fun hminus => ?_⟩
      obtain ⟨first, hfirst, hid⟩ := h.first hminus
      obtain ⟨rest, hload⟩ := List.head?_eq_some_iff.mp hfirst
      rw [load_save hK]
      rw [hload] at found ⊢
      cases i with
      | zero =>
        obtain rfl := Option.some.inj found
        refine ⟨new, rfl, ?_⟩
        by_contra hnew
        obtain ⟨old, command, hold⟩ := named fun heq => hnew (heq ▸ hid)
        rcases hrenamed old new command (hold.trans (hid.trans hminus.symm)) with heq | heq
        · exact hnew (heq.trans hminus)
        · exact hsame (hload ▸ heq)
      | succ i => exact ⟨first, rfl, hid⟩

theorem shows_iff (hK : ∀ j, K.decodeFromString (K.encodeToString j) = some j) {id : Int64}
    (hid : ∃ it ∈ prefs.load K, it.id = id) :
    Shows K id prefs ↔ (id = -1 → ∃ it ∈ (prefs.load K).head?, it.id = -1) := by
  constructor
  · rintro h rfl
    have hshown := h [] _ rfl trivial
    rw [getSelected_of_none rfl] at hshown
    obtain ⟨it, hit, hid⟩ := hid
    have hsome : ((prefs.load K).find? fun it => it.id = -1).isSome :=
      List.find?_isSome.mpr ⟨it, hit, decide_eq_true hid⟩
    obtain ⟨first, hfirst⟩ := Option.isSome_iff_exists.mp hsome
    have hminus := List.find?_some hfirst
    exact ⟨first, hshown.trans hfirst, of_decide_eq_true hminus⟩
  · intro hfirst cs prefs' hrun hleaves
    have hselected : Selected K id (prefs.setSelectedId id) := ⟨rfl, hid, hfirst⟩
    refine getSelected_of_selected (EventSystem.run_invariant (I := Selected K id) ?_ hselected
      hleaves hrun)
    rintro prefs c prefs' h hleaves hstep
    obtain rfl := Option.some.inj hstep
    exact selected_after hK h hleaves

/-! ### Together -/

/-- **The stored tunnels**: whatever the commands, no tunnel disappears but by a removal exactly if
the text can be decoded or has no tunnel; the ids stay distinct; and a tunnel that is selected is
shown exactly if its id is not -1 or it is the first one. -/
theorem keeps_iff (hK : ∀ j, K.decodeFromString (K.encodeToString j) = some j)
    (prefs : Preferences) :
    ((∀ cs, (repository K prefs).Along (Survives K) prefs cs) ↔
        Readable K prefs ∨ prefs.storedIds K = []) ∧
      (∀ cs, (repository K prefs).Along (Distinct K) prefs cs) ∧
      ∀ tunnel ∈ prefs.load K, (Shows K tunnel.id prefs ↔
        (tunnel.id = -1 → ∃ it ∈ (prefs.load K).head?, it.id = -1)) := by
  refine ⟨survives_iff hK prefs, fun cs => ?_, fun tunnel htunnel => ?_⟩
  · exact EventSystem.along_of_forall (fun prefs c _ => distinct hK prefs c) prefs
  · exact shows_iff hK ⟨tunnel, htunnel, rfl⟩

/-- A tunnel of this id. -/
def sampleTunnel (id : Int64) : Tunnel where
  id := id
  name := literal "VDS"
  transportType := literal "mailru"
  transportConnPayload := []

/-- A tunnel that this version can read, and one whose mode is an object. -/
def newerPreferences : Preferences where
  tunnels := some (JsonText.write (.arr [(sampleTunnel 1).encode,
    .obj (property "id" (.num 2) ++ property "connectionMode" (.obj []))]))
  selectedTunnelId := none

/-- Two tunnels, the second one with the id -1. -/
def minusOnePreferences : Preferences where
  tunnels := some (JsonText.write (.arr ([sampleTunnel 1, sampleTunnel (-1)].map Tunnel.encode)))
  selectedTunnelId := none

theorem keeps_iff_minusOne :
    ((∀ cs, (repository sampleAppLibs minusOnePreferences).Along (Survives sampleAppLibs)
        minusOnePreferences cs) ↔
      Readable sampleAppLibs minusOnePreferences ∨
        minusOnePreferences.storedIds sampleAppLibs = []) ∧
      (∀ cs, (repository sampleAppLibs minusOnePreferences).Along (Distinct sampleAppLibs)
        minusOnePreferences cs) ∧
      ∀ tunnel ∈ minusOnePreferences.load sampleAppLibs,
        (Shows sampleAppLibs tunnel.id minusOnePreferences ↔
          (tunnel.id = -1 → ∃ it ∈ (minusOnePreferences.load sampleAppLibs).head?, it.id = -1)) :=
  keeps_iff JsonText.read_write minusOnePreferences

theorem decode_write (items : List Json) :
    sampleAppLibs.decodeFromString (JsonText.write (.arr items)) = some (.arr items) :=
  JsonText.read_write _

/-- Both tunnels are lost when a third one is added, and the second one is not shown when it is
selected. -/
theorem not_keeps :
    (¬ ∀ cs, (repository sampleAppLibs newerPreferences).Along (Survives sampleAppLibs)
        newerPreferences cs) ∧
      ¬ Shows sampleAppLibs (-1) minusOnePreferences := by
  constructor
  · rw [survives_iff JsonText.read_write]
    rintro (h | h)
    · obtain ⟨tunnels, htunnels⟩ := h _ rfl
      rw [decodeTunnels, decode_write, Option.bind_some] at htunnels
      cases htunnels
    · rw [storedIds, newerPreferences, Option.bind_some, decode_write] at h
      cases h
  · have hdecode : decodeTunnels sampleAppLibs (JsonText.write
          (.arr ([sampleTunnel 1, sampleTunnel (-1)].map Tunnel.encode))) =
        some [sampleTunnel 1, sampleTunnel (-1)] := by
      rw [decodeTunnels, decode_write, Option.bind_some]
      simpa using asList_map Tunnel.decode_encode [sampleTunnel 1, sampleTunnel (-1)]
    have hload := @load_of_decode sampleAppLibs minusOnePreferences _ _ rfl hdecode
    have hstored : ∃ it ∈ minusOnePreferences.load sampleAppLibs, it.id = -1 := by
      rw [hload]
      exact ⟨sampleTunnel (-1), by simp, rfl⟩
    intro h
    have hfirst := (shows_iff JsonText.read_write hstored).mp h rfl
    rw [hload] at hfirst
    obtain ⟨it, hit, hminus⟩ := hfirst
    obtain rfl := Option.some.inj hit
    exact absurd hminus (by decide)

end Preferences

end OpenFlux.App
