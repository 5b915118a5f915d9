import OpenFlux.Control.Equiv.Store
import OpenFlux.Control.Server

/-!
# Which requests change which user

`user` cuts slashes and an optional `/revoke` off the path before it looks at the method, so
`DELETE` takes a path that ends in `/revoke`, and `POST` one that does not.  `framed_iff_fits` says
which requests under `/v1/users/` do no more than the method and the path say, in every store.
-/

namespace OpenFlux.Control.Api

variable {L : Libs}

/-- The store is left alone, or the request is one of the two actions for a user that there is, and
only this user is marked or removed. -/
def Framed (s s' : Store) (r : Request) : Prop :=
  s' = s ∨
  (r.method = literal "POST" ∧ ∃ (i : ℕ) (u : User) (now : Time), s.users[i]? = some u ∧
    r.path = literal "/v1/users/" ++ u.id ++ literal "/revoke" ∧
    s'.users = s.users.modify i fun u => { u with revokedAt := now }) ∨
  (r.method = literal "DELETE" ∧ ∃ (i : ℕ) (u : User), s.users[i]? = some u ∧
    r.path = literal "/v1/users/" ++ u.id ∧ s'.users = s.users.eraseIdx i)

/-- The id that is left of the end of a path. -/
def userId (rest : Bytes) : Bytes := trimSuffix (trim rest 0x2F) (literal "/revoke")

/-- If there is a user of the id that is left, the end of the path fits the method. -/
def Fits (s : Store) (r : Request) (rest : Bytes) : Prop :=
  (∃ u ∈ s.users, u.id = userId rest ∧ u.id ≠ []) →
    (r.method = literal "POST" → rest.head? ≠ some 0x2F ∧ literal "/revoke" <:+ rest) ∧
    (r.method = literal "DELETE" → rest.head? ≠ some 0x2F ∧ rest.getLast? ≠ some 0x2F ∧
      ¬ literal "/revoke" <:+ rest)

/-! ### Paths -/

theorem getLast?_revoke {rest : Bytes} (h : literal "/revoke" <:+ rest) :
    rest.getLast? ≠ some 0x2F := by
  obtain ⟨t, rfl⟩ := h
  have hlast : (literal "/revoke").getLast? = some 0x65 := by decide
  rw [List.getLast?_append, hlast]
  show some 0x65 ≠ some 0x2F
  decide

/-- Something is left, if the slashes leave something. -/
theorem userId_ne_nil {rest : Bytes} (h : trim rest 0x2F ≠ []) : userId rest ≠ [] := by
  intro hnil
  rcases trimSuffix_cases (trim rest 0x2F) (literal "/revoke") with htrim | ⟨-, htrim⟩
  · have hempty : trimSuffix (trim rest 0x2F) (literal "/revoke") = [] := hnil
    rw [hempty] at htrim
    have hhead : (trim rest 0x2F).head? = some 0x2F := by
      rw [htrim]
      decide
    exact head_trim rest 0x2F hhead
  · exact h (htrim.symm.trans hnil)

theorem trim_ne_nil {rest : Bytes} (h : userId rest ≠ []) : trim rest 0x2F ≠ [] := by
  intro hnil
  apply h
  rw [userId, hnil]
  decide

/-- What is left does not start with a slash. -/
theorem head_userId (rest : Bytes) : (userId rest).head? ≠ some 0x2F := by
  intro hhead
  apply head_trim rest 0x2F
  rcases trimSuffix_cases (trim rest 0x2F) (literal "/revoke") with htrim | ⟨-, htrim⟩
  · rw [htrim, List.head?_append]
    change (userId rest).head?.or _ = _
    rw [hhead]
    rfl
  · exact (congrArg List.head? htrim).symm.trans hhead

/-- The end of the path of the first action. -/
theorem eq_revoke_iff {rest : Bytes} (h : userId rest ≠ []) :
    rest = userId rest ++ literal "/revoke" ↔
      rest.head? ≠ some 0x2F ∧ literal "/revoke" <:+ rest := by
  constructor
  · intro hrest
    refine ⟨?_, userId rest, hrest.symm⟩
    obtain ⟨c, t, hc⟩ := List.exists_cons_of_ne_nil h
    have hhead := head_userId rest
    rw [hc] at hhead hrest
    rw [hrest]
    exact hhead
  · rintro ⟨hhead, hsuffix⟩
    have htrim := trim_eq_self_iff.mpr ⟨hhead, getLast?_revoke hsuffix⟩
    rw [userId, htrim]
    rcases trimSuffix_cases rest (literal "/revoke") with hcut | ⟨hnot, -⟩
    · exact hcut
    · exact absurd hsuffix hnot

/-- The end of the path of the second. -/
theorem eq_userId_iff {rest : Bytes} :
    rest = userId rest ↔ rest.head? ≠ some 0x2F ∧ rest.getLast? ≠ some 0x2F ∧
      ¬ literal "/revoke" <:+ rest := by
  constructor
  · intro hrest
    have hle := length_trim_le rest 0x2F
    have hlen : rest.length = (userId rest).length := congrArg List.length hrest
    rcases trimSuffix_cases (trim rest 0x2F) (literal "/revoke") with hcut | ⟨hnot, hsame⟩
    · have hcut := congrArg List.length hcut
      have hseven : (literal "/revoke").length = 7 := by decide
      rw [List.length_append, hseven] at hcut
      change (trim rest 0x2F).length = (userId rest).length + 7 at hcut
      omega
    · have htrim : trim rest 0x2F = rest := hsame.symm.trans hrest.symm
      rw [htrim] at hnot
      obtain ⟨hhead, hlast⟩ := trim_eq_self_iff.mp htrim
      exact ⟨hhead, hlast, hnot⟩
  · rintro ⟨hhead, hlast, hnot⟩
    have htrim := trim_eq_self_iff.mpr ⟨hhead, hlast⟩
    rw [userId, htrim]
    rcases trimSuffix_cases rest (literal "/revoke") with hcut | ⟨-, hsame⟩
    · exact absurd ⟨_, hcut.symm⟩ hnot
    · exact hsame.symm

/-! ### Lists of users -/

theorem getElem?_of_cons_eraseIdx {α : Type*} {x : α} {l : List α} {j : ℕ}
    (h : l = x :: l.eraseIdx j) : l[j]? = some x := by
  induction l generalizing j with
  | nil => cases h
  | cons y l ih =>
    obtain ⟨hxy, hl⟩ := List.cons.inj h
    cases j with
    | zero => exact congrArg some hxy
    | succ j =>
      rw [List.eraseIdx_cons_succ, hxy] at hl
      exact ih hl

/-- Erasing at either of two places gives the same list only if the same stands there. -/
theorem getElem?_eq_of_eraseIdx_eq {α : Type*} {l : List α} {i j : ℕ} (hi : i < l.length)
    (hj : j < l.length) (h : l.eraseIdx i = l.eraseIdx j) : l[i]? = l[j]? := by
  induction l generalizing i j with
  | nil => cases hi
  | cons x l ih =>
    cases i with
    | zero =>
      cases j with
      | zero => rfl
      | succ j => exact (getElem?_of_cons_eraseIdx h).symm
    | succ i =>
      cases j with
      | zero =>
        show l[i]? = some x
        exact getElem?_of_cons_eraseIdx h.symm
      | succ j =>
        exact ih (Nat.lt_of_succ_lt_succ hi) (Nat.lt_of_succ_lt_succ hj) (List.cons.inj h).2

/-- Two users that are marked are the same, if the first was not yet. -/
theorem eq_of_modify_eq {users : List User} {i j : ℕ} {u : User} {now now' : Time}
    (hi : users[i]? = some u) (hne : u.revokedAt ≠ now)
    (h : (users.modify i fun u => { u with revokedAt := now }) =
      users.modify j fun u => { u with revokedAt := now' }) : j = i := by
  by_contra hji
  have hleft : (users.modify i fun u => { u with revokedAt := now })[i]? =
      some { u with revokedAt := now } := by
    rw [List.getElem?_modify_eq, hi]
    rfl
  have hright : (users.modify j fun u => { u with revokedAt := now' })[i]? = some u := by
    rw [List.getElem?_modify_ne _ _ hji, hi]
  rw [h, hright, Option.some.injEq] at hleft
  exact hne (congrArg User.revokedAt hleft)

/-! ### The handlers -/

theorem answer_fst (r : Store × Option String) : (answer r).1 = r.1 := by
  obtain ⟨s, _ | err⟩ := r <;> rfl

theorem exists_ne (t : Time) : ∃ now : Time, t ≠ now :=
  ⟨{ t with month := t.month + 1 }, fun h => absurd (congrArg Time.month h) (Nat.ne_of_lt
    (Nat.lt_succ_self _))⟩

theorem users_revoke {s : Store} {id : Bytes} {i : ℕ}
    (hidx : s.users.findIdx? (·.id = id) = some i) (now : Time) (save : SaveResult) :
    (s.revoke id now save).1.users = s.users.modify i fun u => { u with revokedAt := now } := by
  simp only [Store.revoke, hidx, saveLocked_users]

theorem users_delete {s : Store} {id : Bytes} {i : ℕ}
    (hidx : s.users.findIdx? (·.id = id) = some i) (save : SaveResult) :
    (s.delete id save).1.users = s.users.eraseIdx i := by
  simp only [Store.delete, hidx, saveLocked_users]

variable {s : Store} {r : Request} {rest : Bytes}

theorem exists_user_of_findIdx? {id : Bytes} {i : ℕ}
    (hidx : s.users.findIdx? (·.id = id) = some i) :
    ∃ u, s.users[i]? = some u ∧ u.id = id ∧ u ∈ s.users := by
  obtain ⟨hi, hid, -⟩ := List.findIdx?_eq_some_iff_getElem.mp hidx
  exact ⟨s.users[i], List.getElem?_eq_getElem hi, of_decide_eq_true hid, List.getElem_mem hi⟩

/-- `POST`: the user of the id that is left is marked. -/
theorem revoke_framed_iff (hpost : r.method = literal "POST")
    (hpath : r.path = literal "/v1/users/" ++ rest) (hne : userId rest ≠ []) {i : ℕ}
    (hidx : s.users.findIdx? (·.id = userId rest) = some i) :
    (∀ env : Env, Framed s (s.revoke (userId rest) env.now env.save).1 r) ↔
      rest.head? ≠ some 0x2F ∧ literal "/revoke" <:+ rest := by
  obtain ⟨u, hi, hid, -⟩ := exists_user_of_findIdx? hidx
  have hdelete : r.method ≠ literal "DELETE" := by
    rw [hpost]
    decide
  rw [← eq_revoke_iff hne]
  constructor
  · intro h
    obtain ⟨now, hnow⟩ := exists_ne u.revokedAt
    rcases h ⟨now, .error "", .saved⟩ with hsame | ⟨-, j, v, now', hj, hv, husers⟩ | ⟨hmethod, -⟩
    · have husers := congrArg Store.users hsame
      rw [users_revoke hidx] at husers
      exact absurd husers ((modify_revokedAt_ne_iff hi).mpr hnow)
    · rw [users_revoke hidx] at husers
      obtain rfl := eq_of_modify_eq hi hnow husers
      obtain rfl := Option.some.inj (hi.symm.trans hj)
      rw [hpath, List.append_assoc, hid] at hv
      exact List.append_cancel_left hv
    · exact absurd hmethod hdelete
  · intro hrest env
    refine .inr (.inl ⟨hpost, i, u, env.now, hi, ?_, users_revoke hidx _ _⟩)
    rw [hpath, hid, List.append_assoc, ← hrest]

/-- `DELETE`: the user of the id that is left is removed. -/
theorem delete_framed_iff (hdelete : r.method = literal "DELETE")
    (hpath : r.path = literal "/v1/users/" ++ rest) {i : ℕ}
    (hidx : s.users.findIdx? (·.id = userId rest) = some i) :
    (∀ env : Env, Framed s (s.delete (userId rest) env.save).1 r) ↔
      rest.head? ≠ some 0x2F ∧ rest.getLast? ≠ some 0x2F ∧ ¬ literal "/revoke" <:+ rest := by
  obtain ⟨u, hi, hid, -⟩ := exists_user_of_findIdx? hidx
  have hlt : i < s.users.length := (List.getElem?_eq_some_iff.mp hi).1
  have hpost : r.method ≠ literal "POST" := by
    rw [hdelete]
    decide
  rw [← eq_userId_iff]
  constructor
  · intro h
    rcases h ⟨.zero, .error "", .saved⟩ with hsame | ⟨hmethod, -⟩ | ⟨-, j, v, hj, hv, husers⟩
    · have hlen := congrArg (fun s => s.users.length) hsame
      simp only [users_delete hidx, List.length_eraseIdx_of_lt hlt] at hlen
      omega
    · exact absurd hmethod hpost
    · rw [users_delete hidx] at husers
      have hsame := getElem?_eq_of_eraseIdx_eq hlt (List.getElem?_eq_some_iff.mp hj).1 husers
      obtain rfl := Option.some.inj (hi.symm.trans (hsame.trans hj))
      rw [hpath, hid] at hv
      exact List.append_cancel_left hv
  · intro hrest env
    refine .inr (.inr ⟨hdelete, i, u, hi, ?_, users_delete hidx _⟩)
    rw [hpath, hid, ← hrest]

theorem user_eq (s : Store) (hpath : r.path = literal "/v1/users/" ++ rest) (env : Env) :
    user s r env =
      if trim rest 0x2F = [] then (s, .error "missing id" 400)
      else if r.method = literal "POST" then answer (s.revoke (userId rest) env.now env.save)
      else if r.method = literal "DELETE" then answer (s.delete (userId rest) env.save)
      else (s, .error "method not allowed" 405) := by
  unfold user userId
  simp only [hpath, trimPrefix_append]

theorem user_framed_iff (hpath : r.path = literal "/v1/users/" ++ rest) :
    (∀ env, Framed s (user s r env).1 r) ↔ Fits s r rest := by
  simp only [user_eq s hpath]
  by_cases hempty : trim rest 0x2F = []
  · have hnil : userId rest = [] := by
      by_contra hne
      exact trim_ne_nil hne hempty
    simp only [if_pos hempty]
    refine iff_of_true (fun _ => .inl rfl) ?_
    rintro ⟨u, -, hu, hne⟩
    exact absurd (hu.trans hnil) hne
  · have hne := userId_ne_nil hempty
    simp only [if_neg hempty]
    cases hidx : s.users.findIdx? (·.id = userId rest) with
    | none =>
      have hrevoke (env : Env) : (s.revoke (userId rest) env.now env.save).1 = s := by
        simp only [Store.revoke, hidx]
      have hdelete (env : Env) : (s.delete (userId rest) env.save).1 = s := by
        simp only [Store.delete, hidx]
      refine iff_of_true (fun env => .inl ?_) ?_
      · split_ifs
        · rw [answer_fst, hrevoke]
        · rw [answer_fst, hdelete]
        · rfl
      · rintro ⟨u, hu, hid, -⟩
        have hnot := List.findIdx?_eq_none_iff.mp hidx u hu
        exact absurd hid (of_decide_eq_false hnot)
    | some i =>
      obtain ⟨u, -, hid, hu⟩ := exists_user_of_findIdx? hidx
      have hfits : Fits s r rest ↔ (r.method = literal "POST" → rest.head? ≠ some 0x2F ∧
          literal "/revoke" <:+ rest) ∧ (r.method = literal "DELETE" → rest.head? ≠ some 0x2F ∧
          rest.getLast? ≠ some 0x2F ∧ ¬ literal "/revoke" <:+ rest) :=
        forall_prop_of_true ⟨u, hu, hid, by rw [hid]; exact hne⟩
      rw [hfits]
      by_cases hpost : r.method = literal "POST"
      · have hdelete : r.method ≠ literal "DELETE" := by
          rw [hpost]
          decide
        simp only [if_pos hpost, answer_fst]
        rw [revoke_framed_iff hpost hpath hne hidx]
        exact ⟨fun h => ⟨fun _ => h, fun hmethod => absurd hmethod hdelete⟩, fun h => h.1 hpost⟩
      · by_cases hdelete : r.method = literal "DELETE"
        · simp only [if_neg hpost, if_pos hdelete, answer_fst]
          rw [delete_framed_iff hdelete hpath hidx]
          exact ⟨fun h => ⟨fun hmethod => absurd hmethod hpost, fun _ => h⟩, fun h => h.2 hdelete⟩
        · simp only [if_neg hpost, if_neg hdelete]
          exact iff_of_true (fun _ => .inl rfl)
            ⟨fun hmethod => absurd hmethod hpost, fun hmethod => absurd hmethod hdelete⟩

/-! ### Routes -/

/-- The path `/v1/users` has no end. -/
theorem path_of_route_users (h : route r = .users) : r.path = literal "/v1/users" := by
  unfold route at h
  split at h
  · cases h
  · split at h
    · next a b hsplit =>
      split_ifs at h with hhealth husers
      have hjoin : [0x2F].intercalate (r.escapedPath.splitOn 0x2F) = r.escapedPath :=
        List.intercalate_splitOn 0x2F
      rw [hsplit] at hjoin
      have hescaped : r.escapedPath = [] ++ 0x2F :: (a ++ 0x2F :: b) := by
        rw [← hjoin]
        simp [List.intercalate]
      rw [Request.path, hescaped, unescapePath_slash, unescapePath_slash, husers.1, husers.2]
      decide
    · split_ifs at h
    · cases h

/-- The request comes to `user`. -/
def Handled (token : Bytes) (r : Request) : Prop :=
  trimPrefix r.authorization (literal "Bearer ") = token ∧ route r = .user

/-- **The frame of the API**: a request under `/v1/users/` does what its method and path say, or
nothing, exactly if it does not come to `user`, or its path fits its method. -/
theorem framed_iff_fits (L : Libs) (token : Bytes) (s : Store) {r : Request} {rest : Bytes}
    (hpath : r.path = literal "/v1/users/" ++ rest) :
    (∀ env, Framed s (handler L token s r env).1 r) ↔ (Handled token r → Fits s r rest) := by
  have husers : route r ≠ .users := by
    intro h
    have hlen := congrArg List.length ((path_of_route_users h).symm.trans hpath)
    rw [List.length_append] at hlen
    have hshort : (literal "/v1/users").length = 9 := by decide
    have hlong : (literal "/v1/users/").length = 10 := by decide
    omega
  unfold handler Handled
  by_cases hauth : trimPrefix r.authorization (literal "Bearer ") = token
  · simp only [ne_eq, hauth, not_true_eq_false, if_false, true_and]
    cases hroute : route r with
    | user =>
      rw [forall_prop_of_true rfl]
      exact user_framed_iff hpath
    | users => exact absurd hroute husers
    | health => exact iff_of_true (fun _ => .inl rfl) nofun
    | notFound => exact iff_of_true (fun _ => .inl rfl) nofun
    | redirect path => exact iff_of_true (fun _ => .inl rfl) nofun
  · simp only [ne_eq, hauth, not_false_eq_true, if_true, false_and]
    exact iff_of_true (fun _ => .inl rfl) nofun

/-! ### The requests of the app -/

/-- The app revokes and deletes by an id without slashes, as all that `Create` makes are. -/
theorem fits_of_not_mem {id : Bytes} (hne : id ≠ []) (hid : 0x2F ∉ id) :
    (r.method = literal "POST" → Fits s r (id ++ literal "/revoke")) ∧
      (r.method = literal "DELETE" → Fits s r id) := by
  have hends : id.head? ≠ some 0x2F ∧ id.getLast? ≠ some 0x2F :=
    ⟨fun h => hid (List.mem_of_head? h), fun h => hid (List.mem_of_getLast? h)⟩
  constructor
  · rintro hpost -
    refine ⟨fun _ => ⟨fun hhead => ?_, List.suffix_append _ _⟩, fun hdelete => ?_⟩
    · obtain ⟨c, t, rfl⟩ := List.exists_cons_of_ne_nil hne
      exact hends.1 hhead
    · rw [hpost] at hdelete
      exact absurd hdelete (by decide)
  · rintro hdelete -
    refine ⟨fun hpost => ?_, fun _ => ⟨hends.1, hends.2, fun hsuffix => ?_⟩⟩
    · rw [hdelete] at hpost
      exact absurd hpost (by decide)
    · exact hid (hsuffix.subset (by decide))

/-- A store with one user. -/
def annaStore : Store where
  secret := []
  users := [{ id := literal "00", userAlias := literal "anna" }]

/-- A `DELETE` with the path of a revocation. -/
def deleteRevoke : Request where
  method := literal "DELETE"
  escapedPath := literal "/v1/users/00/revoke"
  authorization := literal "Bearer t"

theorem framed_iff_fits_deleteRevoke :
    (∀ env, Framed annaStore (handler ⟨fun _ => [], fun _ _ => []⟩ (literal "t") annaStore
      deleteRevoke env).1 deleteRevoke) ↔
    (Handled (literal "t") deleteRevoke → Fits annaStore deleteRevoke (literal "00/revoke")) :=
  framed_iff_fits _ _ annaStore (by decide +kernel)

/-- The user is removed. -/
theorem deleteRevoke_not_framed :
    ¬ ∀ env, Framed annaStore (handler ⟨fun _ => [], fun _ _ => []⟩ (literal "t") annaStore
      deleteRevoke env).1 deleteRevoke := by
  intro h
  have hremoved : (handler ⟨fun _ => [], fun _ _ => []⟩ (literal "t") annaStore deleteRevoke
      ⟨.zero, .error "", .saved⟩).1.users = [] := by
    decide +kernel
  rcases h ⟨.zero, .error "", .saved⟩ with hsame | ⟨hpost, -⟩ | ⟨-, i, u, hi, hpath, -⟩
  · rw [hsame] at hremoved
    cases hremoved
  · exact absurd hpost (by decide)
  · obtain rfl := List.mem_singleton.mp (List.mem_of_getElem? hi)
    exact absurd hpath (by decide +kernel)

end OpenFlux.Control.Api
