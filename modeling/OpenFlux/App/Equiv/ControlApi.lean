import OpenFlux.App.ControlApi
import OpenFlux.Control.Server

/-!
# What the app sees of a revocation

The app decodes every list that the server answers with, user by user (`listUsers_getUsers`).  Its
`revokedAt` is the text of the server's, which is written for the zero time as well: `omitempty`
never drops a struct.  So the app takes every user for revoked, and is right exactly about those
that have been (`revokedAt_iff_revoked`).
-/

namespace OpenFlux.App

open Control

variable {L : Control.Libs} {secret : Bytes}

/-- What the app makes of a user. -/
def managedUser (u : User) : ManagedUser where
  id := u.id
  userAlias := u.userAlias
  trafficCap := u.trafficCap
  timeCap := u.timeCap
  createdAt := u.createdAt.format
  revokedAt := some u.revokedAt.format
  bundle := u.bundle

theorem decode_json (u : User) : ManagedUser.decode u.json = some (managedUser u) := by
  simp +decide [ManagedUser.decode, User.json, structJson, asObject, required, defaulted, values,
    Json.asString, nullable, GoValue.json, GoValue.isEmptyValue, managedUser]

/-- The app reads the users that the store lists. -/
theorem listUsers_getUsers (s : Store) :
    listUsers s.getUsers = some (s.list.map managedUser) := by
  rw [Store.getUsers, listUsers, nullable, asList_map decode_json]
  · rfl
  · exact nofun

/-- `Revoke` of this id succeeds. -/
def Revokes (L : Control.Libs) (id : Bytes) (s : Store) (e : Event) : Prop :=
  (∃ now save, e = .revoke id now save) ∧ (s.apply L e).2 = none

/-- `Delete` of this id succeeds. -/
def Deletes (L : Control.Libs) (id : Bytes) (s : Store) (e : Event) : Prop :=
  (∃ save, e = .delete id save) ∧ (s.apply L e).2 = none

/-- In this run of a new store, a `Revoke` of the user has succeeded. -/
def Revoked (L : Control.Libs) (secret : Bytes) (es : List Event) (id : Bytes) : Prop :=
  (system L secret none).Since (Revokes L id) (fun s e => ¬ Deletes L id s e) es

theorem not_revoked {es : List Event} {id : Bytes} (h : ∀ now save, Event.revoke id now save ∉ es) :
    ¬ Revoked L secret es id := by
  rintro ⟨past, e, rest, -, -, rfl, -, ⟨⟨now, save, rfl⟩, -⟩, -⟩
  exact h now save (List.mem_append_right past List.mem_cons_self)

/-- The app takes a user for revoked exactly if a `Revoke` of the user has succeeded. -/
def Agrees (L : Control.Libs) (secret : Bytes) (es : List Event) (u : User) (m : ManagedUser) :
    Prop :=
  m.id = u.id ∧ (m.revokedAt = none ↔ ¬ Revoked L secret es u.id)

/-- **Revocation in the app**: whatever has happened to the store, the app decodes all users that it
lists, and is right about a user's revocation exactly if a `Revoke` of the user has succeeded. -/
theorem agrees_iff_revoked (L : Control.Libs) (secret : Bytes) (es : List Event) :
    ∃ s users, (system L secret none).run (system L secret none).init es = some s ∧
      listUsers s.getUsers = some users ∧
      List.Forall₂ (fun u m => Agrees L secret es u m ↔ Revoked L secret es u.id) s.list users := by
  obtain ⟨s, hs⟩ := EventSystem.exists_run (S := system L secret none) (fun _ _ => ⟨_, rfl⟩) _ es
  refine ⟨s, _, hs, listUsers_getUsers s, ?_⟩
  rw [List.forall₂_map_right_iff]
  refine List.forall₂_same.mpr fun u _ => ?_
  have hsome : (managedUser u).revokedAt ≠ none := nofun
  constructor
  · rintro ⟨-, hiff⟩
    by_contra hnot
    exact hsome (hiff.mpr hnot)
  · exact fun hrevoked => ⟨rfl, fun hnone => absurd hnone hsome, fun hnot => absurd hrevoked hnot⟩

/-- The texts of one bundle and of its signature under a secret of zeros. -/
def sampleLibs : Control.Libs where
  marshal _ := literal "\x7b\"v\":1,\"u\":\"00000000000000000000\",\"p\":null\x7d"
  hmacSHA256 _ _ := [0xBC, 0x3F, 0xEB, 0x5C, 0x04, 0xE1, 0x5A, 0x67, 0x00, 0x84, 0xA6, 0xAA, 0x11, 0x8D,
    0x6A, 0x47, 0x0E, 0x79, 0xB0, 0xE8, 0xB8, 0x50, 0x3B, 0x60, 0x71, 0x8D, 0xCF, 0x6A, 0x50, 0xBF,
    0x03, 0x4F]

/-- One user is created. -/
def sampleCreate : Event :=
  .create (literal "anna") 0 0 none (.ok (List.replicate 10 0)) ⟨2026, 1, 1, 0, 0, 0, 0⟩ .saved

/-- Nobody revokes the user, but the app finds the zero time. -/
theorem created_user_seen_revoked : ∃ s u m,
    (system sampleLibs (List.replicate 32 0) none).run
      (system sampleLibs (List.replicate 32 0) none).init [sampleCreate] = some s ∧
    s.list = [u] ∧ listUsers s.getUsers = some [m] ∧
    ¬ Revoked sampleLibs (List.replicate 32 0) [sampleCreate] u.id ∧
    m.revokedAt = some (literal "0001-01-01T00:00:00Z") := by
  refine ⟨_, _, _, rfl, rfl, listUsers_getUsers _, ?_, by decide⟩
  exact not_revoked fun now save hmem => nomatch List.mem_singleton.mp hmem

end OpenFlux.App
