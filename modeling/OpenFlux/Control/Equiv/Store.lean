import Mathlib.Data.List.Basic
import OpenFlux.Control.Store

/-!
# What an error of the store leaves behind

As long as memory and file hold the same users, an operation that fails leaves both as they were
exactly if its save did not fail or would have saved nothing new (`errorKeeps_iff`): the users are
changed in memory first, and nothing changes them back.  So a statement about every operation of a
run is one about its saves (`along_errorKeeps_iff`), and as long as these go well memory and file
agree (`saved_eq_of_run`).
-/

namespace OpenFlux.Control

variable {L : Libs} {s : Store} {e : Event}

/-- An operation that returns an error leaves the users in memory and in the file as they were. -/
def ErrorKeeps (L : Libs) (s : Store) (e : Event) : Prop :=
  (s.apply L e).2 ≠ none →
    (s.apply L e).1.list = s.list ∧ (s.apply L e).1.saved = s.list

/-- The save goes well where the operation has changed something: `Create` once it has an id,
`Revoke` a user that is not yet marked with this very time, `Delete` a user that there is. -/
def Saves (s : Store) : Event → Prop
  | .create _ _ _ _ random _ save => (∃ idBytes, random = .ok idBytes) → save = .saved
  | .revoke id now save =>
    (∃ u, s.users.find? (·.id = id) = some u ∧ u.revokedAt ≠ now) → save = .saved
  | .delete id save => (∃ u ∈ s.users, u.id = id) → save = .saved
  | .reopen => True

/-! ### Saving -/

theorem saveLocked_users (s : Store) (save : SaveResult) :
    (s.saveLocked save).1.users = s.users := by
  cases save <;> rfl

/-- `saveLocked` fails, or the file has the users. -/
theorem saveLocked_cases (s : Store) (save : SaveResult) :
    (save = .saved ∧ (s.saveLocked save).2 = none ∧ (s.saveLocked save).1.saved = s.users) ∨
      (save ≠ .saved ∧ (s.saveLocked save).2 ≠ none ∧ (s.saveLocked save).1.saved = s.saved) := by
  cases save with
  | saved => exact .inl ⟨rfl, rfl, rfl⟩
  | notEncoded err => exact .inr ⟨nofun, nofun, rfl⟩
  | notWritten err tmp => exact .inr ⟨nofun, nofun, rfl⟩
  | notRenamed err => exact .inr ⟨nofun, nofun, rfl⟩

/-- Saving changed users keeps what it should on an error if it goes well or they are the same. -/
theorem saveLocked_keeps_iff (h : s.saved = s.users) (users : List User) (save : SaveResult) :
    (({ s with users }.saveLocked save).2 ≠ none →
        ({ s with users }.saveLocked save).1.list = s.list ∧
          ({ s with users }.saveLocked save).1.saved = s.list) ↔
      (users ≠ s.users → save = .saved) := by
  have husers := saveLocked_users { s with users } save
  rcases saveLocked_cases { s with users } save with ⟨hsave, hnone, -⟩ | ⟨hsave, herr, hsaved⟩
  · exact ⟨fun _ _ => hsave, fun _ herr => absurd hnone herr⟩
  · rw [Store.list, husers, hsaved]
    constructor
    · exact fun hkeep hne => absurd (hkeep herr).1 hne
    · intro hsame _
      have heq : users = s.users := by
        by_contra hne
        exact hsave (hsame hne)
      exact ⟨heq, h⟩

/-- After saving changed users, memory and file agree if it goes well or they are the same. -/
theorem saved_saveLocked (h : s.saved = s.users) {users : List User} {save : SaveResult}
    (hsave : users ≠ s.users → save = .saved) :
    ({ s with users }.saveLocked save).1.saved = ({ s with users }.saveLocked save).1.users := by
  rw [saveLocked_users]
  rcases saveLocked_cases { s with users } save with ⟨-, -, hsaved⟩ | ⟨hne, -, hsaved⟩
  · exact hsaved
  · have heq : users = s.users := by
      by_contra hchange
      exact hne (hsave hchange)
    rw [hsaved, heq]
    exact h

/-! ### The operations -/

/-- A user that is marked is another one, unless it was marked with this time. -/
theorem modify_revokedAt_ne_iff {users : List User} {i : ℕ} {u : User} {now : Time}
    (hi : users[i]? = some u) :
    (users.modify i fun u => { u with revokedAt := now }) ≠ users ↔ u.revokedAt ≠ now := by
  have hnew : (users.modify i fun u => { u with revokedAt := now })[i]? =
      some { u with revokedAt := now } := by
    rw [List.getElem?_modify_eq, hi]
    rfl
  apply not_congr
  constructor
  · intro heq
    rw [heq, hi] at hnew
    exact congrArg User.revokedAt (Option.some.inj hnew)
  · rintro rfl
    apply List.ext_getElem?
    intro j
    by_cases hij : i = j
    · rw [← hij, hnew, hi]
    · exact List.getElem?_modify_ne _ _ hij

/-- Every operation leaves the store alone or saves changed users, and `Saves` is about these. -/
theorem apply_cases (L : Libs) (s : Store) (e : Event) :
    s.apply L e = (s.reopen, none) ∧ Saves s e ∨
      (∃ err, s.apply L e = (s, some err)) ∧ Saves s e ∨
      ∃ users save, s.apply L e = { s with users }.saveLocked save ∧
        (Saves s e ↔ (users ≠ s.users → save = .saved)) := by
  cases e with
  | create userAlias trafficCap timeCap profiles random now save =>
    rcases random with err | idBytes
    · exact .inr (.inl ⟨⟨err, rfl⟩, fun ⟨_, hid⟩ => nomatch hid⟩)
    · refine .inr (.inr ⟨_, save, rfl, ?_⟩)
      have hne : ∀ u, s.users ++ [u] ≠ s.users := fun u heq => by
        simpa using congrArg List.length heq
      exact ⟨fun hsaves _ => hsaves ⟨idBytes, rfl⟩, fun hsave _ => hsave (hne _)⟩
  | revoke id now save =>
    rcases hidx : s.users.findIdx? (·.id = id) with _ | i
    · have hfind : s.users.find? (·.id = id) = none := by
        rw [List.find?_eq_bind_findIdx?_getElem?, hidx]
        rfl
      refine .inr (.inl ⟨⟨"file does not exist", ?_⟩, ?_⟩)
      · simp only [Store.apply, Store.revoke, hidx]
      · rintro ⟨u, hu, -⟩
        exact absurd (hfind.symm.trans hu) nofun
    · obtain ⟨hi, -⟩ := List.findIdx?_eq_some_iff_getElem.mp hidx
      have hget : s.users[i]? = some s.users[i] := List.getElem?_eq_getElem hi
      have hfind : s.users.find? (·.id = id) = some s.users[i] := by
        rw [List.find?_eq_bind_findIdx?_getElem?, hidx, ← hget]
        rfl
      have happly : s.apply L (.revoke id now save) =
          { s with
            users := s.users.modify i fun u => { u with revokedAt := now } }.saveLocked save := by
        simp only [Store.apply, Store.revoke, hidx]
      refine .inr (.inr ⟨_, save, happly, ?_⟩)
      rw [modify_revokedAt_ne_iff hget, Saves, hfind]
      simp
  | delete id save =>
    rcases hidx : s.users.findIdx? (·.id = id) with _ | i
    · refine .inr (.inl ⟨⟨"file does not exist", ?_⟩, ?_⟩)
      · simp only [Store.apply, Store.delete, hidx]
      · rintro ⟨u, hu, hid⟩
        have hnone := List.findIdx?_eq_none_iff.mp hidx u hu
        simp [hid] at hnone
    · obtain ⟨hi, hid, -⟩ := List.findIdx?_eq_some_iff_getElem.mp hidx
      have happly : s.apply L (.delete id save) =
          { s with users := s.users.eraseIdx i }.saveLocked save := by
        simp only [Store.apply, Store.delete, hidx]
      refine .inr (.inr ⟨_, save, happly, ?_⟩)
      have hne : s.users.eraseIdx i ≠ s.users := fun heq => by
        have hlen := congrArg List.length heq
        rw [List.length_eraseIdx_of_lt hi] at hlen
        omega
      have hmem : ∃ u ∈ s.users, u.id = id :=
        ⟨s.users[i], List.getElem_mem hi, of_decide_eq_true hid⟩
      exact ⟨fun hsaves _ => hsaves hmem, fun hsave _ => hsave hne⟩
  | reopen => exact .inl ⟨rfl, trivial⟩

/-- Where memory and file agree, an operation keeps what it should on an error exactly if its save
goes well or there is nothing to save. -/
theorem errorKeeps_iff (h : s.saved = s.users) : ErrorKeeps L s e ↔ Saves s e := by
  unfold ErrorKeeps
  rcases apply_cases L s e with ⟨happly, hsaves⟩ | ⟨⟨err, happly⟩, hsaves⟩ |
    ⟨users, save, happly, hiff⟩
  · rw [happly]
    exact iff_of_true (fun herr => absurd rfl herr) hsaves
  · rw [happly]
    exact iff_of_true (fun _ => ⟨rfl, h⟩) hsaves
  · rw [happly, hiff]
    exact saveLocked_keeps_iff h users save

/-- Memory and file go on agreeing. -/
theorem saved_apply (h : s.saved = s.users) (hsaves : Saves s e) :
    (s.apply L e).1.saved = (s.apply L e).1.users := by
  rcases apply_cases L s e with ⟨happly, -⟩ | ⟨⟨err, happly⟩, -⟩ | ⟨users, save, happly, hiff⟩
  · rw [happly]
    rfl
  · rw [happly]
    exact h
  · rw [happly]
    exact saved_saveLocked h (hiff.mp hsaves)

/-! ### All runs -/

/-- As long as the saves go well, memory and file agree. -/
theorem saved_eq_of_run {secret : Bytes} {file : Option Contents} {es : List Event}
    (hsaves : (system L secret file).Along Saves (system L secret file).init es)
    (hrun : (system L secret file).run (system L secret file).init es = some s) :
    s.saved = s.list := by
  refine EventSystem.run_invariant (I := fun s => s.saved = s.users) ?_ rfl hsaves hrun
  intro s e s' h hsaves hstep
  exact Option.some.inj hstep ▸ saved_apply h hsaves

/-- **Memory and disk**: in a run of the store, opened on any file, the operations that return an
error all leave the users in memory and in the file as they were exactly if no save fails after a
change. -/
theorem along_errorKeeps_iff (L : Libs) (secret : Bytes) (file : Option Contents)
    (es : List Event) :
    (system L secret file).Along (ErrorKeeps L) (system L secret file).init es ↔
      (system L secret file).Along Saves (system L secret file).init es := by
  refine EventSystem.along_congr (I := fun s => s.saved = s.users) (R := fun _ _ => True) ?_
    (fun s e h _ => errorKeeps_iff h) rfl (EventSystem.along_true _ es)
  intro s e s' h hsaves hstep
  exact Option.some.inj hstep ▸ saved_apply h hsaves

/-- A store that is opened on a file with one user. -/
def sampleSystem : EventSystem Store Event :=
  system ⟨fun _ => [], fun _ _ => []⟩ []
    (some (.users [{ id := literal "00", userAlias := literal "anna" }]))

/-- Deleting the user returns the error of the rename, but the user is gone from memory. -/
theorem failed_delete_not_kept :
    ¬ sampleSystem.Along (ErrorKeeps ⟨fun _ => [], fun _ _ => []⟩) sampleSystem.init
      [.delete (literal "00") (.notRenamed "rename users.json.tmp: input/output error")] := by
  intro h
  have hkeep := (h.1 nofun).1
  exact absurd (congrArg List.length hkeep) (by decide)

end OpenFlux.Control
