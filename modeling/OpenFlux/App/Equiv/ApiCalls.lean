import Mathlib.Data.List.InsertIdx
import OpenFlux.Algorithm.JsonText
import OpenFlux.App.ApiCalls
import OpenFlux.App.Equiv.ControlApi
import OpenFlux.Control.Equiv.Disk
import OpenFlux.Control.Equiv.Server

/-!
# The users through the control API

The app's calls go through JSON, paths and routes to the store and back, and none of it shows: what
they return is what they would of a list of the users as the app sees them (`session`).  With
another token they do nothing.
-/

namespace OpenFlux.App.ControlApiClient

open Control Api

variable {L : Control.Libs} {K : App.Libs} {unmarshal : Bytes → Option Json}

/-- Either side reads the JSON of the other, whose strings are valid UTF-8.  The server's encoder
ends it with a line break. -/
structure Lawful (L : Control.Libs) (K : App.Libs) (unmarshal : Bytes → Option Json) : Prop where
  unmarshal_encode : ∀ {j : Json}, j.valid = true → unmarshal (K.encodeToString j) = some j
  decode_marshal : ∀ {j : Json}, j.valid = true →
    K.decodeFromString (L.marshal j ++ [0x0A]) = some j

/-! ### Bodies -/

theorem fields_append (name : Bytes) (m n : Members) :
    Json.fields name (m ++ n) = Json.fields name m ++ Json.fields name n := by
  rw [Json.fields, List.filter_append, List.map_append]
  rfl

theorem fields_property (name : String) (value : Json) :
    Json.fields (literal name) (property name value) = [value] := by
  simp [Json.fields, property]

theorem fields_property_of_ne {name name' : String}
    (h : Json.foldName (literal name') ≠ Json.foldName (literal name)) (value : Json) :
    Json.fields (literal name) (property name' value) = [] := by
  simp [Json.fields, property, h]

theorem fields_propertyUnless {α : Type} [DecidableEq α] (default : α) (name : String)
    (encode : α → Json) (value : α) :
    Json.fields (literal name) (propertyUnless default name encode value) =
      if value = default then [] else [encode value] := by
  unfold propertyUnless
  split_ifs
  · rfl
  · exact fields_property name (encode value)

theorem fields_propertyUnless_of_ne {α : Type} [DecidableEq α] {name name' : String}
    (h : Json.foldName (literal name') ≠ Json.foldName (literal name)) (default : α)
    (encode : α → Json) (value : α) :
    Json.fields (literal name) (propertyUnless default name' encode value) = [] := by
  unfold propertyUnless
  split_ifs
  · rfl
  · exact fields_property_of_ne h (encode value)

/-- What the server makes of a profile. -/
def profile (p : ManagedProfile) : Profile := ⟨p.name, p.uri⟩

theorem ofJson_encode_profile (p : ManagedProfile) :
    Profile.ofJson p.encode = some (profile p) := by
  rw [ManagedProfile.encode, Profile.ofJson]
  simp (disch := decide) only [fields_append, fields_property, fields_property_of_ne,
    List.nil_append, List.append_nil]
  rfl

/-- What the server makes of a request to create a user: no profiles are nil. -/
def userRequest (v : ManagedUserRequest) : UserRequest where
  userAlias := v.userAlias
  trafficCap := v.trafficCap
  timeCap := v.timeCap
  profiles := if v.profiles = [] then none else some (v.profiles.map profile)

theorem int64Field_propertyUnless (n : Int64) :
    Json.int64Field (if n = 0 then [] else [.num n.toInt]) = some n := by
  split_ifs with hzero
  · rw [hzero]
    rfl
  · exact Json.int64Field_toInt n

theorem mapM_ofJson (ps : List ManagedProfile) :
    (ps.map ManagedProfile.encode).mapM Profile.ofJson = some (ps.map profile) := by
  induction ps with
  | nil => rfl
  | cons p ps ih =>
    rw [List.map_cons, List.mapM_cons, ofJson_encode_profile, ih]
    rfl

theorem profilesField_propertyUnless (ps : List ManagedProfile) :
    profilesField (if ps = [] then [] else [.arr (ps.map ManagedProfile.encode)]) =
      some (if ps = [] then none else some (ps.map profile)) := by
  split_ifs with hnil
  · rfl
  · show (((ps.map ManagedProfile.encode).mapM Profile.ofJson).map some).bind some = _
    rw [mapM_ofJson]
    rfl

/-- The server reads the request as the app has written it. -/
theorem ofJson_encode (v : ManagedUserRequest) :
    UserRequest.ofJson v.encode = some (userRequest v) := by
  rw [ManagedUserRequest.encode, UserRequest.ofJson]
  simp (disch := decide) only [fields_append, fields_property, fields_property_of_ne,
    fields_propertyUnless, fields_propertyUnless_of_ne, List.nil_append, List.append_nil,
    int64Field_propertyUnless, profilesField_propertyUnless]
  rfl

/-! ### Paths -/

/-- An id as `Create` makes them. -/
def IsId (id : Bytes) : Prop := id ≠ [] ∧ ∀ c ∈ id, c ∈ literal "0123456789abcdef"

/-- The strings of a new user are valid, and the user that a call is about has such an id. -/
def Call.Plain : Call → Prop
  | .listUsers => True
  | .createUser value => value.encode.valid = true
  | .revokeUser id | .deleteUser id => IsId id

/-- `Create` makes such an id of any random bytes. -/
theorem isId_hexEncode {idBytes : Bytes} (h : idBytes ≠ []) : IsId (hexEncode idBytes) := by
  have hdigit : ∀ v < 16, hexDigit v ∈ literal "0123456789abcdef" := by decide
  constructor
  · obtain ⟨a, b, rfl⟩ := List.exists_cons_of_ne_nil h
    exact List.cons_ne_nil _ _
  · intro c hc
    obtain ⟨a, -, hc⟩ := List.mem_flatMap.mp hc
    have hlt : a.toNat < 256 := a.toNat_lt
    simp only [List.mem_cons, List.not_mem_nil, or_false] at hc
    rcases hc with rfl | rfl
    · exact hdigit _ (by omega)
    · exact hdigit _ (by omega)

theorem IsId.notMem {id : Bytes} (h : IsId id) {c : UInt8} (hc : c ∉ literal "0123456789abcdef") :
    c ∉ id :=
  fun hmem => hc (h.2 c hmem)

theorem IsId.isSegment {id : Bytes} (h : IsId id) : IsSegment id := by
  refine ⟨h.notMem (by decide), h.1, ?_, ?_⟩
  · rintro rfl
    exact h.notMem (c := 0x2E) (by decide) (by decide)
  · rintro rfl
    exact h.notMem (c := 0x2E) (by decide) (by decide)

/-- The segments of the path of a call. -/
def Call.segments : Call → List Bytes
  | .listUsers | .createUser _ => [literal "v1", literal "users"]
  | .revokeUser id => [literal "v1", literal "users", id, literal "revoke"]
  | .deleteUser id => [literal "v1", literal "users", id]

theorem path_eq (c : Call) : c.path = pathOf c.segments := by
  cases c with
  | listUsers => rfl
  | createUser value => rfl
  | revokeUser id =>
    have hrevoke : literal "/revoke" = [0x2F] ++ literal "revoke" := rfl
    show literal "/v1/users/" ++ id ++ literal "/revoke" = _
    simp only [Call.segments, pathOf, List.intercalate_cons_cons, List.intercalate_singleton,
      hrevoke, List.append_assoc]
    rfl
  | deleteUser id =>
    simp only [Call.segments, pathOf, List.intercalate_cons_cons, List.intercalate_singleton]
    rfl

theorem segments_ne_nil (c : Call) : c.segments ≠ [] := by
  cases c <;> exact List.cons_ne_nil _ _

theorem isSegment_of_mem {c : Call} (h : c.Plain) : ∀ s ∈ c.segments, IsSegment s := by
  have hv1 : IsSegment (literal "v1") := by decide
  have husers : IsSegment (literal "users") := by decide
  have hrevoke : IsSegment (literal "revoke") := by decide
  cases c with
  | listUsers => simp [Call.segments, hv1, husers]
  | createUser value => simp [Call.segments, hv1, husers]
  | revokeUser id => simp [Call.segments, hv1, husers, hrevoke, IsId.isSegment h]
  | deleteUser id => simp [Call.segments, hv1, husers, IsId.isSegment h]

theorem notMem_path {c : Call} (h : c.Plain) : 0x25 ∉ c.path := by
  have husers : 0x25 ∉ literal "/v1/users" := by decide
  cases c with
  | listUsers => exact husers
  | createUser value => exact husers
  | revokeUser id =>
    simp only [Call.path, List.mem_append, not_or]
    exact ⟨⟨by decide, IsId.notMem h (by decide)⟩, by decide⟩
  | deleteUser id =>
    simp only [Call.path, List.mem_append, not_or]
    exact ⟨by decide, IsId.notMem h (by decide)⟩

/-- The requests are not redirected. -/
theorem cleanPath_path {c : Call} (h : c.Plain) : cleanPath c.path = c.path := by
  rw [path_eq]
  exact cleanPath_pathOf (segments_ne_nil c) (isSegment_of_mem h)

/-- Where the requests go. -/
def Call.route : Call → Route
  | .listUsers | .createUser _ => .users
  | .revokeUser _ | .deleteUser _ => .user

theorem route_request (token : Bytes) {c : Call} (h : c.Plain) :
    Api.route (request K unmarshal token c) = c.route := by
  have hsplit : c.path.splitOn 0x2F = [] :: c.segments := by
    rw [path_eq, splitOn_pathOf (segments_ne_nil c) fun s hs => (isSegment_of_mem h s hs).1]
  have hescaped : (request K unmarshal token c).escapedPath = c.path := rfl
  rw [Api.route, if_neg fun hclean => hclean.2 (by rw [hescaped, cleanPath_path h]), hescaped,
    hsplit]
  cases c with
  | listUsers => rfl
  | createUser value => rfl
  | revokeUser id => exact if_pos (by decide)
  | deleteUser id => exact if_pos (by decide)

theorem path_request (token : Bytes) {c : Call} (h : c.Plain) :
    (request K unmarshal token c).path = c.path :=
  unescapePath_eq_self (notMem_path h)

theorem userId_revoke {id : Bytes} (h : IsId id) : userId (id ++ literal "/revoke") = id := by
  have hhead : (id ++ literal "/revoke").head? ≠ some 0x2F := by
    obtain ⟨c, t, rfl⟩ := List.exists_cons_of_ne_nil h.1
    intro hc
    rw [List.cons_append, List.head?_cons, Option.some.injEq] at hc
    exact h.notMem (c := 0x2F) (by decide) (hc ▸ List.mem_cons_self)
  rw [userId, trim_eq_self_iff.mpr ⟨hhead, getLast?_revoke (List.suffix_append _ _)⟩, trimSuffix,
    if_pos (List.isSuffixOf_iff_suffix.mpr (List.suffix_append _ _)), List.length_append,
    Nat.add_sub_cancel, List.take_left]

theorem userId_self {id : Bytes} (h : IsId id) : userId id = id := by
  have hslash : 0x2F ∉ id := h.notMem (by decide)
  exact (eq_userId_iff.mpr ⟨fun hc => hslash (List.mem_of_head? hc),
    fun hc => hslash (List.mem_of_getLast? hc),
    fun hc => hslash (hc.subset (by decide))⟩).symm

/-! ### What the server does -/

variable {s : Store} {token : Bytes} {env : Env}

theorem handler_request {c : Call} (h : c.Plain) :
    handler L token s (request K unmarshal token c) env =
      match c.route with
      | .users => users L s (request K unmarshal token c) env
      | _ => user s (request K unmarshal token c) env := by
  have htoken : trimPrefix (request K unmarshal token c).authorization (literal "Bearer ") =
      token := trimPrefix_append _ token
  rw [handler, if_neg (not_not.mpr htoken), route_request token h]
  cases c <;> rfl

/-- A call without the token of the server. -/
theorem handler_of_ne {admin : Bytes} (h : token ≠ admin) (c : Call) :
    handler L admin s (request K unmarshal token c) env = (s, .error "unauthorized" 401) := by
  have htoken : trimPrefix (request K unmarshal token c).authorization (literal "Bearer ") =
      token := trimPrefix_append _ token
  rw [handler, htoken, if_pos h]

theorem handler_revokeUser {id : Bytes} (h : IsId id) :
    handler L token s (request K unmarshal token (.revokeUser id)) env =
      answer (s.revoke id env.now env.save) := by
  have hpath : (request K unmarshal token (.revokeUser id)).path =
      literal "/v1/users/" ++ (id ++ literal "/revoke") := by
    rw [path_request token (c := .revokeUser id) h, ← List.append_assoc]
    rfl
  have hne : trim (id ++ literal "/revoke") 0x2F ≠ [] := by
    apply trim_ne_nil
    rw [userId_revoke h]
    exact h.1
  rw [handler_request (c := .revokeUser id) h]
  show user s _ env = _
  have hpost : (request K unmarshal token (.revokeUser id)).method = literal "POST" := rfl
  rw [user_eq s hpath, if_neg hne, if_pos hpost, userId_revoke h]

theorem handler_deleteUser {id : Bytes} (h : IsId id) :
    handler L token s (request K unmarshal token (.deleteUser id)) env =
      answer (s.delete id env.save) := by
  have hpath : (request K unmarshal token (.deleteUser id)).path = literal "/v1/users/" ++ id :=
    path_request token (c := .deleteUser id) h
  have hne : trim id 0x2F ≠ [] := by
    apply trim_ne_nil
    rw [userId_self h]
    exact h.1
  have hpost : (request K unmarshal token (.deleteUser id)).method ≠ literal "POST" := by
    show literal "DELETE" ≠ literal "POST"
    decide
  rw [handler_request (c := .deleteUser id) h]
  show user s _ env = _
  have hdelete : (request K unmarshal token (.deleteUser id)).method = literal "DELETE" := rfl
  rw [user_eq s hpath, if_neg hne, if_neg hpost, if_pos hdelete, userId_self h]

/-! ### The directory -/

/-- The users as the app sees them. -/
abbrev Directory := List ManagedUser

namespace Directory

/-- A user that is created now. -/
def newUser (L : Control.Libs) (secret : Bytes) (v : ManagedUserRequest) (idBytes : Bytes)
    (now : Time) : ManagedUser where
  id := hexEncode idBytes
  userAlias := trimSpace v.userAlias
  trafficCap := v.trafficCap
  timeCap := v.timeCap
  createdAt := now.format
  revokedAt := some Time.zero.format
  bundle := bundleToken L secret
    { version := 1, userID := hexEncode idBytes, profiles := (userRequest v).profiles }

/-- What is returned where everything is saved. -/
def ifSaved (env : Env) (result : Result) : Option Result :=
  if env.save = .saved then some result else none

def create (L : Control.Libs) (secret : Bytes) (d : Directory) (v : ManagedUserRequest)
    (env : Env) : Directory × Option Result :=
  if trimSpace v.userAlias = [] then (d, none)
  else
    match env.random with
    | .error _ => (d, none)
    | .ok idBytes =>
      let u := newUser L secret v idBytes env.now
      (d ++ [u], ifSaved env (.user u))

def revoke (d : Directory) (id : Bytes) (env : Env) : Directory × Option Result :=
  match d.findIdx? (·.id = id) with
  | some i =>
    (d.modify i fun u => { u with revokedAt := some env.now.format }, ifSaved env .unit)
  | none => (d, none)

def delete (d : Directory) (id : Bytes) (env : Env) : Directory × Option Result :=
  match d.findIdx? (·.id = id) with
  | some i => (d.eraseIdx i, ifSaved env .unit)
  | none => (d, none)

/-- A call, had it a directory to go to.  A change that is not saved is made all the same. -/
def perform (L : Control.Libs) (secret : Bytes) (d : Directory) (c : Call × Env) :
    Directory × Option Result :=
  match c.1 with
  | .listUsers => (d, some (.users d))
  | .createUser v => d.create L secret v c.2
  | .revokeUser id => d.revoke id c.2
  | .deleteUser id => d.delete id c.2

end Directory

/-- The directory has the users of the store, whose strings are valid. -/
structure Agree (secret : Bytes) (s : Store) (d : Directory) : Prop where
  secret : s.secret = secret
  users : s.users.map managedUser = d
  valid : ∀ u ∈ s.users, u.json.valid = true

variable {secret : Bytes} {d : Directory}

theorem saveLocked_secret (s : Store) (save : SaveResult) :
    (s.saveLocked save).1.secret = s.secret := by
  cases save <;> rfl

/-- What the app is told of a save. -/
theorem saveLocked_eq_none_iff (s : Store) (save : SaveResult) :
    (s.saveLocked save).2 = none ↔ save = .saved := by
  rcases saveLocked_cases s save with ⟨hsave, hnone, -⟩ | ⟨hsave, herr, -⟩
  · exact iff_of_true hnone hsave
  · exact iff_of_false herr hsave

/-- A change of the users that is saved. -/
theorem agree_saveLocked (h : Agree secret s d) {users : List User}
    (hvalid : ∀ u ∈ users, u.json.valid = true) (save : SaveResult) :
    Agree secret ({ s with users }.saveLocked save).1 (users.map managedUser) := by
  refine ⟨?_, ?_, ?_⟩
  · rw [saveLocked_secret]
    exact h.secret
  · rw [saveLocked_users]
  · rw [saveLocked_users]
    exact hvalid

theorem findIdx?_map (h : Agree secret s d) (id : Bytes) :
    d.findIdx? (·.id = id) = s.users.findIdx? (·.id = id) := by
  rw [← h.users, List.findIdx?_map]
  rfl

/-! ### One call -/

/-- The store and the directory after a call, and what it returns. -/
def Matches (L : Control.Libs) (K : App.Libs) (secret : Bytes) (c : Call) (r : Store × Response)
    (q : Directory × Option Result) : Prop :=
  Agree secret r.1 q.1 ∧ ((receive L r.2).bind fun text => c.read K text) = q.2

theorem matches_listUsers (hlaw : Lawful L K unmarshal) (h : Agree secret s d) :
    Matches L K secret .listUsers (s, .json s.getUsers) (d, some (.users d)) := by
  have hvalid : s.getUsers.valid = true := by
    refine validItems_iff.mpr fun v hv => ?_
    obtain ⟨u, hu, rfl⟩ := List.mem_map.mp hv
    exact h.valid u hu
  refine ⟨h, ?_⟩
  show ((K.decodeFromString (L.marshal s.getUsers ++ [0x0A])).bind App.listUsers).map _ = _
  rw [hlaw.decode_marshal hvalid, Option.bind_some, listUsers_getUsers, Store.list, h.users]
  rfl

theorem valid_userAlias {v : ManagedUserRequest} (h : v.encode.valid = true) :
    validUTF8 v.userAlias = true := by
  rw [ManagedUserRequest.encode, Json.valid] at h
  simp only [validMembers_append, validMembers_property, Bool.and_eq_true] at h
  exact h.1.1.1.2

theorem matches_createUser (hlaw : Lawful L K unmarshal) (h : Agree secret s d)
    {v : ManagedUserRequest} (hv : v.encode.valid = true) (env : Env) :
    Matches L K secret (.createUser v)
      (users L s (request K unmarshal token (.createUser v)) env) (d.create L secret v env) := by
  have hbody : (request K unmarshal token (.createUser v)).body = some (userRequest v) := by
    show (unmarshal (K.encodeToString v.encode)).bind UserRequest.ofJson = _
    rw [hlaw.unmarshal_encode hv, Option.bind_some, ofJson_encode]
  have hget : (request K unmarshal token (.createUser v)).method ≠ literal "GET" := by
    show literal "POST" ≠ literal "GET"
    decide
  have hpost : ¬ (request K unmarshal token (.createUser v)).method ≠ literal "POST" :=
    fun hne => hne rfl
  rw [users, if_neg hget, if_neg hpost, hbody, Directory.create]
  show Matches _ _ _ _ (if trimSpace v.userAlias = [] then _ else _) _
  split_ifs with hblank
  · exact ⟨h, rfl⟩
  · cases env.random with
    | error err => exact ⟨h, rfl⟩
    | ok idBytes =>
      let u : User := {
        id := hexEncode idBytes
        userAlias := trimSpace v.userAlias
        trafficCap := v.trafficCap
        timeCap := v.timeCap
        createdAt := env.now
        bundle := bundleToken L s.secret
          { version := 1, userID := hexEncode idBytes, profiles := (userRequest v).profiles } }
      let r := { s with users := s.users ++ [u] }.saveLocked env.save
      have hcreate : s.create L (trimSpace (userRequest v).userAlias) (userRequest v).trafficCap
          (userRequest v).timeCap (userRequest v).profiles (.ok idBytes) env.now env.save =
          (r.1, u, r.2) := rfl
      have hnew : managedUser u = Directory.newUser L secret v idBytes env.now := by
        rw [← h.secret]
        rfl
      have hu : u.json.valid = true := valid_json_iff.mpr
        ⟨validUTF8_of_ascii (hexEncode_ascii idBytes),
          validUTF8_trimSpace (valid_userAlias hv),
          validUTF8_of_ascii (bundleToken_ascii L _ _)⟩
      have hagree : Agree secret r.1 (d ++ [Directory.newUser L secret v idBytes env.now]) := by
        rw [← hnew, ← h.users, ← List.map_singleton, ← List.map_append]
        exact agree_saveLocked h (List.forall_mem_append.mpr
          ⟨h.valid, List.forall_mem_singleton.mpr hu⟩) env.save
      have hsaved : r.2 = none ↔ env.save = .saved := saveLocked_eq_none_iff _ _
      rw [hcreate]
      generalize r = r at hagree hsaved
      obtain ⟨s', _ | err⟩ := r
      · refine ⟨hagree, ?_⟩
        show ((K.decodeFromString (L.marshal u.json ++ [0x0A])).bind ManagedUser.decode).map _ =
          Directory.ifSaved env (.user (Directory.newUser L secret v idBytes env.now))
        rw [hlaw.decode_marshal hu, Option.bind_some, decode_json, hnew, Directory.ifSaved,
          if_pos (hsaved.mp rfl)]
        rfl
      · refine ⟨hagree, ?_⟩
        show none = Directory.ifSaved env (.user (Directory.newUser L secret v idBytes env.now))
        rw [Directory.ifSaved, if_neg fun hsave => by cases hsaved.mpr hsave]

theorem map_modify {α β : Type*} {f : α → β} {g : α → α} {g' : β → β} (h : ∀ a, f (g a) = g' (f a))
    (l : List α) (i : ℕ) : (l.modify i g).map f = (l.map f).modify i g' := by
  refine List.ext_getElem? fun j => ?_
  simp only [List.getElem?_map, List.getElem?_modify]
  split_ifs
  · cases l[j]? with
    | none => rfl
    | some a => exact congrArg some (h a)
  · simp only [Option.map_eq_map, Option.map_id']

/-- A change of one user, found by its id, that is saved. -/
theorem matches_answer (h : Agree secret s d) {users : List User} {d' : Directory}
    (husers : users.map managedUser = d') (hvalid : ∀ u ∈ users, u.json.valid = true)
    (save : SaveResult) {c : Call}
    (hc : ∀ text, c.read K text = some .unit) {env : Env} (hsave : env.save = save) :
    Matches L K secret c (answer ({ s with users }.saveLocked save))
      (d', Directory.ifSaved env .unit) := by
  subst husers hsave
  have hagree := agree_saveLocked h hvalid env.save
  have hsaved := saveLocked_eq_none_iff { s with users } env.save
  generalize { s with users }.saveLocked env.save = r at hagree hsaved
  obtain ⟨s', _ | err⟩ := r
  · refine ⟨hagree, ?_⟩
    rw [Directory.ifSaved, if_pos (hsaved.mp rfl)]
    exact hc _
  · refine ⟨hagree, ?_⟩
    rw [Directory.ifSaved, if_neg fun hsave => by cases hsaved.mpr hsave]
    rfl

theorem matches_revokeUser (h : Agree secret s d) (id : Bytes) (env : Env) :
    Matches L K secret (.revokeUser id) (answer (s.revoke id env.now env.save))
      (d.revoke id env) := by
  rw [Store.revoke, Directory.revoke, findIdx?_map h]
  cases hidx : s.users.findIdx? (·.id = id) with
  | none => exact ⟨h, rfl⟩
  | some i =>
    refine matches_answer h ?_ ?_ env.save (fun _ => rfl) rfl
    · rw [← h.users]
      refine map_modify ?_ s.users i
      intro u
      rfl
    · intro u hu
      obtain ⟨j, hj⟩ := List.mem_iff_getElem?.mp hu
      rw [List.getElem?_modify] at hj
      obtain ⟨v, hv, rfl⟩ := Option.map_eq_some_iff.mp hj
      have hv := h.valid v (List.mem_of_getElem? hv)
      have hstrings := valid_json_iff.mp hv
      split
      -- the mark is a time, whose text is in ASCII
      · exact valid_json_iff.mpr hstrings
      · exact hv

theorem matches_deleteUser (h : Agree secret s d) (id : Bytes) (env : Env) :
    Matches L K secret (.deleteUser id) (answer (s.delete id env.save)) (d.delete id env) := by
  rw [Store.delete, Directory.delete, findIdx?_map h]
  cases hidx : s.users.findIdx? (·.id = id) with
  | none => exact ⟨h, rfl⟩
  | some i =>
    refine matches_answer h ?_ ?_ env.save (fun _ => rfl) rfl
    · rw [← h.users, List.eraseIdx_map]
    · exact fun u hu => h.valid u (List.mem_of_mem_eraseIdx hu)

theorem matches_perform (hlaw : Lawful L K unmarshal) (h : Agree secret s d) {c : Call × Env}
    (hc : c.1.Plain) :
    Agree secret (perform L K unmarshal token token s c).1 (d.perform L secret c).1 ∧
      (perform L K unmarshal token token s c).2 = (d.perform L secret c).2 := by
  obtain ⟨c, env⟩ := c
  have hperform {r : Store × Response}
      (hr : handler L token s (request K unmarshal token c) env = r) :
      perform L K unmarshal token token s (c, env) =
        (r.1, (receive L r.2).bind fun text => c.read K text) := by
    rw [← hr]
    rfl
  cases c with
  | listUsers =>
    rw [hperform (handler_request hc)]
    exact matches_listUsers hlaw h
  | createUser v =>
    rw [hperform (handler_request hc)]
    exact matches_createUser hlaw h hc env
  | revokeUser id =>
    rw [hperform (handler_revokeUser hc)]
    exact matches_revokeUser h id env
  | deleteUser id =>
    rw [hperform (handler_deleteUser hc)]
    exact matches_deleteUser h id env

/-- **The app manages the users of the server**: calls with the token of the server, with valid
strings and about users of ids as the server makes them, return what they would of a directory of
the users as the app sees them, and the store goes on having its users; calls with another token
change nothing, and all of them fail. -/
theorem session (hlaw : Lawful L K unmarshal) {s : Store}
    (hvalid : ∀ u ∈ s.users, u.json.valid = true) (admin : Bytes) {calls : List (Call × Env)}
    (hcalls : ∀ c ∈ calls, c.1.Plain) :
    (let left := Responder.run (perform L K unmarshal admin admin) s calls
      let right := Responder.run (Directory.perform L s.secret) (s.list.map managedUser) calls
      left.2 = right.2 ∧ left.1.list.map managedUser = right.1) ∧
    ∀ token ≠ admin, Responder.run (perform L K unmarshal admin token) s calls =
      (s, calls.map fun _ => none) := by
  constructor
  · have hstart : Agree s.secret s (s.list.map managedUser) := ⟨rfl, rfl, hvalid⟩
    have hstep : ∀ t d, ∀ c ∈ calls, Agree s.secret t d →
        Agree s.secret (perform L K unmarshal admin admin t c).1
          (Directory.perform L s.secret d c).1 ∧
        (perform L K unmarshal admin admin t c).2 = (Directory.perform L s.secret d c).2 :=
      fun t d c hc h => matches_perform hlaw h (hcalls c hc)
    obtain ⟨hlast, hresults⟩ := Responder.run_simulates hstep hstart
    exact ⟨hresults, hlast.users⟩
  · intro token hne
    clear hcalls
    induction calls with
    | nil => rfl
    | cons c calls ih =>
      have hperform : perform L K unmarshal admin token s c = (s, none) := by
        unfold perform
        rw [handler_of_ne hne]
        rfl
      rw [Responder.run_cons, hperform, ih, List.map_cons]

/-- `JsonText` on both sides, with the line break dropped. -/
def samplePlain : Control.Libs where
  marshal := JsonText.write
  hmacSHA256 _ _ := List.replicate 32 0

def sampleText : App.Libs where
  encodeToString := JsonText.write
  decodeFromString s := JsonText.read (if s.getLast? = some 0x0A then s.dropLast else s)
  urlDecode _ := none

theorem sample_lawful : Lawful samplePlain sampleText JsonText.read where
  unmarshal_encode _ := JsonText.read_write _
  decode_marshal {j} _ := by
    show JsonText.read (if (JsonText.write j ++ [0x0A]).getLast? = some 0x0A then
      (JsonText.write j ++ [0x0A]).dropLast else JsonText.write j ++ [0x0A]) = some j
    rw [List.getLast?_concat, if_pos rfl, List.dropLast_concat, JsonText.read_write]

/-- A user is created, listed and revoked. -/
def sampleCalls : List (Call × Env) :=
  [(.createUser { userAlias := literal " anna " },
      ⟨⟨2026, 1, 1, 0, 0, 0, 0⟩, .ok (List.replicate 10 0), .saved⟩),
    (.listUsers, ⟨.zero, .error "", .saved⟩),
    (.revokeUser (hexEncode (List.replicate 10 0)), ⟨⟨2026, 1, 2, 0, 0, 0, 0⟩, .error "", .saved⟩)]

theorem session_sample :
    (Responder.run (perform samplePlain sampleText JsonText.read (literal "t") (literal "t"))
      { secret := [] } sampleCalls).2 =
    (Responder.run (Directory.perform samplePlain []) [] sampleCalls).2 := by
  have hplain : ∀ c ∈ sampleCalls, c.1.Plain := by
    have hanna : ({ userAlias := literal " anna " } : ManagedUserRequest).encode.valid = true := by
      decide +kernel
    simp only [sampleCalls, List.forall_mem_cons, Call.Plain, hanna, true_and]
    exact ⟨isId_hexEncode (List.cons_ne_nil _ _), fun c hc => by cases hc⟩
  exact (session sample_lawful (s := { secret := [] }) (fun u hu => by cases hu) (literal "t")
    hplain).1.1

end OpenFlux.App.ControlApiClient
