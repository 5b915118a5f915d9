import OpenFlux.Control.Disk
import OpenFlux.Go.TimeText

/-!
# What is on disk after a crash

The temporary file is renamed when it is complete, so the file always has the users of a completed
save: the last one, or the one in progress once it is renamed (`Inv`).  `reopen_users` says that
this is what a store has that is opened after a crash at any point, field by field: what is written
is read back (`decode_encode`).
-/

namespace OpenFlux.Control

variable {L : Libs} {R : Reader}

/-- What is relied on of the standard library: a JSON value whose strings are valid UTF-8 and a time
are read back from their texts, and such values are all that is read. -/
structure Lawful (L : Libs) (R : Reader) : Prop where
  unmarshal_indent : ∀ {j : Json}, j.valid = true →
    R.unmarshal (JsonText.indent (L.marshal j)) = some j
  valid_of_unmarshal : ∀ {data : Bytes} {j : Json}, R.unmarshal data = some j → j.valid = true
  parseTime_format : ∀ {t : Time}, t.Valid → R.parseTime t.format = some t
  valid_of_parseTime : ∀ {s : Bytes} {t : Time}, R.parseTime s = some t → t.Valid

/-- The strings of the user are valid UTF-8, and the times are times. -/
structure User.Valid (u : User) : Prop where
  id : validUTF8 u.id = true
  userAlias : validUTF8 u.userAlias = true
  createdAt : u.createdAt.Valid
  revokedAt : u.revokedAt.Valid
  bundle : validUTF8 u.bundle = true

/-! ### Texts -/

theorem padded_ascii (width n : ℕ) : ∀ c ∈ padded width n, c < 0x80 := by
  intro c hc
  obtain ⟨i, -, rfl⟩ := List.mem_map.mp hc
  rw [UInt8.lt_iff_toNat_lt, UInt8.toNat_ofNat']
  show _ < 0x80
  omega

theorem format_ascii (t : Time) : ∀ c ∈ t.format, c < 0x80 := by
  have hfraction : ∀ c ∈ Time.fraction t, c < 0x80 := by
    unfold Time.fraction
    split_ifs
    · nofun
    · refine List.forall_mem_cons.mpr ⟨by decide, fun c hc => ?_⟩
      exact padded_ascii 9 _ c ((List.rdropWhile_prefix (p := _) _).subset hc)
  intro c hc
  simp only [Time.format, List.mem_append, List.mem_singleton] at hc
  rcases hc with (((((((((((hc | rfl) | hc) | rfl) | hc) | rfl) | hc) | rfl) | hc) | rfl) | hc) |
    hc) | rfl
  all_goals first | exact padded_ascii _ _ c hc | exact hfraction c hc | decide

/-- The members of a user as JSON. -/
def User.members (u : User) : List (Bytes × Json) :=
  [(literal "id", .str u.id), (literal "alias", .str u.userAlias),
    (literal "trafficCap", .num u.trafficCap.toInt), (literal "timeCap", .num u.timeCap.toInt),
    (literal "createdAt", .str u.createdAt.format), (literal "revokedAt", .str u.revokedAt.format),
    (literal "bundle", .str u.bundle)]

theorem User.json_eq (u : User) : u.json = .obj u.members := rfl

theorem valid_json_iff {u : User} : u.json.valid = true ↔
    validUTF8 u.id = true ∧ validUTF8 u.userAlias = true ∧ validUTF8 u.bundle = true := by
  have hname : ∀ name ∈ [literal "id", literal "alias", literal "trafficCap", literal "timeCap",
      literal "createdAt", literal "revokedAt", literal "bundle"], validUTF8 name = true := by
    decide +kernel
  simp only [List.forall_mem_cons] at hname
  obtain ⟨hid, halias, htraffic, htime, hcreated, hrevoked, hbundle, -⟩ := hname
  have hmembers : (∀ m ∈ u.members, validUTF8 m.1 = true ∧ m.2.valid = true) ↔
      validUTF8 u.id = true ∧ validUTF8 u.userAlias = true ∧ validUTF8 u.bundle = true := by
    unfold User.members
    simp only [List.forall_mem_cons]
    constructor
    · rintro ⟨⟨-, hid⟩, ⟨-, halias⟩, -, -, -, -, ⟨-, hbundle⟩, -⟩
      exact ⟨hid, halias, hbundle⟩
    · rintro ⟨hid', halias', hbundle'⟩
      exact ⟨⟨hid, hid'⟩, ⟨halias, halias'⟩, ⟨htraffic, rfl⟩, ⟨htime, rfl⟩,
        ⟨hcreated, validUTF8_of_ascii (format_ascii _)⟩,
        ⟨hrevoked, validUTF8_of_ascii (format_ascii _)⟩, ⟨hbundle, hbundle'⟩, nofun⟩
  exact validMembers_iff.trans hmembers

theorem User.Valid.valid_json {u : User} (h : u.Valid) : u.json.valid = true :=
  valid_json_iff.mpr ⟨h.id, h.userAlias, h.bundle⟩

theorem storeFile_eq (users : List User) :
    storeFile users = .obj [(literal "users", .arr (users.map User.json))] := rfl

theorem valid_storeFile {users : List User} (h : ∀ u ∈ users, u.Valid) :
    (storeFile users).valid = true := by
  have husers : (Json.arr (users.map User.json)).valid = true := by
    refine validItems_iff.mpr fun v hv => ?_
    obtain ⟨u, hu, rfl⟩ := List.mem_map.mp hv
    exact (h u hu).valid_json
  rw [storeFile_eq]
  have hname : validUTF8 (literal "users") = true := by decide
  exact validMembers_iff.mpr (List.forall_mem_singleton.mpr ⟨hname, husers⟩)

/-! ### Reading back -/

theorem userNames_nodup : ([literal "id", literal "alias", literal "trafficCap", literal "timeCap",
    literal "createdAt", literal "revokedAt", literal "bundle"].map Json.foldName).Nodup := by
  decide +kernel

theorem fields_members {u : User} {name : Bytes} {v : Json} (i : ℕ)
    (h : u.members[i]? = some (name, v)) : Json.fields name u.members = [v] :=
  Json.fields_of_nodup u.members userNames_nodup (List.mem_of_getElem? h)

theorem ofJson_json (hL : Lawful L R) {u : User} (h : u.Valid) :
    User.ofJson R u.json = some u := by
  have hcreated := Json.timeField_str (hL.parseTime_format h.createdAt)
  have hrevoked := Json.timeField_str (hL.parseTime_format h.revokedAt)
  rw [User.json_eq, User.ofJson, fields_members 0 rfl, fields_members 1 rfl, fields_members 2 rfl,
    fields_members 3 rfl, fields_members 4 rfl, fields_members 5 rfl, fields_members 6 rfl,
    Json.int64Field_toInt, Json.int64Field_toInt, hcreated, hrevoked]
  rfl

/-- **What is saved is read back**, every field of every user. -/
theorem decode_encode (hL : Lawful L R) {users : List User} (h : ∀ u ∈ users, u.Valid) :
    decode R (encode L users) = some users := by
  have hfields : Json.fields (literal "users") [(literal "users", .arr (users.map User.json))] =
      [.arr (users.map User.json)] :=
    Json.fields_of_nodup [(literal "users", .arr (users.map User.json))] (List.nodup_singleton _)
      List.mem_cons_self
  have hmap : (users.map User.json).mapM (User.ofJson R) = some users := by
    clear hfields
    induction users with
    | nil => rfl
    | cons u users ih =>
      obtain ⟨hu, h⟩ := List.forall_mem_cons.mp h
      rw [List.map_cons, List.mapM_cons, ofJson_json hL hu, ih h]
      rfl
  rw [decode, encode, hL.unmarshal_indent (valid_storeFile h), Option.bind_some, storeFile_eq,
    usersOfJson, hfields]
  show ((users.map User.json).mapM (User.ofJson R)).bind some = some users
  rw [hmap]
  rfl

theorem valid_of_ofJson (hL : Lawful L R) {j : Json} (hj : j.valid = true) {u : User}
    (h : User.ofJson R j = some u) : u.Valid := by
  cases j with
  | null =>
    cases h
    exact ⟨rfl, rfl, Time.valid_zero, Time.valid_zero, rfl⟩
  | obj members =>
    have hstring {name s : Bytes} (hs : Json.stringField (Json.fields name members) = some s) :
        validUTF8 s = true :=
      Json.valid_of_stringField (fun _ => Json.valid_of_mem_fields hj) hs
    rw [User.ofJson] at h
    simp only [Option.bind_eq_bind, Option.bind_eq_some_iff] at h
    obtain ⟨id, hid, userAlias, halias, trafficCap, -, timeCap, -, createdAt, hcreated, revokedAt,
      hrevoked, bundle, hbundle, h⟩ := h
    cases h
    exact ⟨hstring hid, hstring halias, Json.valid_of_timeField hL.valid_of_parseTime hcreated,
      Json.valid_of_timeField hL.valid_of_parseTime hrevoked, hstring hbundle⟩
  | bool b => cases h
  | num n => cases h
  | str s => cases h
  | arr items => cases h

theorem valid_of_decode (hL : Lawful L R) {data : Bytes} {users : List User}
    (h : decode R data = some users) : ∀ u ∈ users, u.Valid := by
  obtain ⟨j, hj, h⟩ := Option.bind_eq_some_iff.mp h
  have hvalid := hL.valid_of_unmarshal hj
  cases j with
  | null =>
    cases h
    nofun
  | obj members =>
    refine foldlM_invariant (P := fun users => ∀ u ∈ users, u.Valid) ?_ nofun h
    intro users₀ v hv users₁ _ husers₁
    have hv := Json.valid_of_mem_fields hvalid hv
    cases v with
    | arr items =>
      intro u hu
      obtain ⟨j, hj, hju⟩ := exists_of_mem_mapM husers₁ hu
      exact valid_of_ofJson hL (validItems_iff.mp hv j hj) hju
    | null =>
      cases husers₁
      nofun
    | bool b => cases husers₁
    | num n => cases husers₁
    | str s => cases husers₁
    | obj members => cases husers₁
  | bool b => cases h
  | num n => cases h
  | str s => cases h
  | arr items => cases h

/-! ### What a call does to the users -/

theorem hexEncode_ascii (b : Bytes) : ∀ c ∈ hexEncode b, c < 0x80 := by
  have hdigit : ∀ v < 16, hexDigit v < 0x80 := by decide
  intro c hc
  obtain ⟨a, -, hc⟩ := List.mem_flatMap.mp hc
  have hlt : a.toNat < 256 := a.toNat_lt
  simp only [List.mem_cons, List.not_mem_nil, or_false] at hc
  rcases hc with rfl | rfl
  · exact hdigit _ (by omega)
  · exact hdigit _ (by omega)

theorem bundleToken_ascii (L : Libs) (secret : Bytes) (bundle : Bundle) :
    ∀ c ∈ bundleToken L secret bundle, c < 0x80 := by
  have hprefix : ∀ c ∈ literal "terzaet://", c < 0x80 :=
    List.all_iff_forall_prop.mp (by decide)
  have hdot : ∀ c ∈ literal ".", c < 0x80 := List.all_iff_forall_prop.mp (by decide)
  have hurl : ∀ c ∈ urlAlphabet, c < 0x80 := by decide +kernel
  intro c hc
  simp only [bundleToken, List.mem_append] at hc
  rcases hc with ((hc | hc) | hc) | hc
  · exact hprefix c hc
  · exact hurl c (encodeRawURL_subset _ c hc)
  · exact hdot c hc
  · exact hurl c (encodeRawURL_subset _ c hc)

/-- A call that is about to save has added a user, marked one, or removed one. -/
theorem change_cases {m : OpenStore} {op : Op} {users : List User}
    (h : m.change L op = .ok users) :
    (∃ u : User, u.Valid ∧ users = m.users ++ [u]) ∨
      (∃ (i : ℕ) (now : Time), now.Valid ∧
        users = m.users.modify i fun u => { u with revokedAt := now }) ∨
      ∃ (i : ℕ) (u : User), op = .delete u.id ∧ m.users[i]? = some u ∧
        users = m.users.eraseIdx i := by
  unfold OpenStore.change at h
  cases op with
  | create userAlias trafficCap timeCap profiles random now =>
    cases random with
    | error err => cases h
    | ok idBytes =>
      cases h
      refine .inl ⟨_, ⟨validUTF8_of_ascii (hexEncode_ascii idBytes), userAlias.2, now.2,
        Time.valid_zero, validUTF8_of_ascii (bundleToken_ascii L _ _)⟩, rfl⟩
  | revoke id now =>
    simp only [Op.event, Store.apply, Store.revoke] at h
    cases hidx : m.users.findIdx? (·.id = id) with
    | none =>
      simp only [hidx] at h
      cases h
    | some i =>
      simp only [hidx] at h
      cases h
      exact .inr (.inl ⟨i, now, now.2, rfl⟩)
  | delete id =>
    simp only [Op.event, Store.apply, Store.delete] at h
    cases hidx : m.users.findIdx? (·.id = id) with
    | none =>
      simp only [hidx] at h
      cases h
    | some i =>
      simp only [hidx] at h
      cases h
      obtain ⟨hi, hid, -⟩ := List.findIdx?_eq_some_iff_getElem.mp hidx
      refine .inr (.inr ⟨i, m.users[i], ?_, List.getElem?_eq_getElem hi, rfl⟩)
      rw [of_decide_eq_true hid]

/-- A user is kept but for its mark. -/
def KeptIn (u : User) (users : List User) : Prop :=
  ∃ u' ∈ users, { u' with revokedAt := u.revokedAt } = u

theorem keptIn_of_mem {u : User} {users : List User} (h : u ∈ users) : KeptIn u users :=
  ⟨u, h, rfl⟩

theorem KeptIn.trans {u v : User} {users : List User} (h : { v with revokedAt := u.revokedAt } = u)
    (hv : KeptIn v users) : KeptIn u users := by
  obtain ⟨w, hw, hwv⟩ := hv
  refine ⟨w, hw, ?_⟩
  rw [← hwv] at h
  exact h

theorem valid_change {m : OpenStore} {op : Op} {users : List User}
    (h : m.change L op = .ok users) (hvalid : ∀ u ∈ m.users, u.Valid) : ∀ u ∈ users, u.Valid := by
  rcases change_cases h with ⟨u, hu, rfl⟩ | ⟨i, now, hnow, rfl⟩ | ⟨i, u, -, -, rfl⟩
  · intro v hv
    rcases List.mem_append.mp hv with hv | hv
    · exact hvalid v hv
    · exact List.mem_singleton.mp hv ▸ hu
  · intro v hv
    obtain ⟨j, hj⟩ := List.mem_iff_getElem?.mp hv
    rw [List.getElem?_modify] at hj
    obtain ⟨u, hu, rfl⟩ := Option.map_eq_some_iff.mp hj
    have hu := hvalid u (List.mem_of_getElem? hu)
    split
    · exact { hu with revokedAt := hnow }
    · exact hu
  · exact fun v hv => hvalid v (List.mem_of_mem_eraseIdx hv)

/-- A call leaves a user, or deletes it. -/
theorem kept_change {m : OpenStore} {op : Op} {users : List User} (h : m.change L op = .ok users)
    {u : User} (hu : u ∈ m.users) : op = .delete u.id ∨ KeptIn u users := by
  rcases change_cases h with ⟨v, -, rfl⟩ | ⟨i, now, -, rfl⟩ | ⟨i, v, rfl, hv, rfl⟩
  · exact .inr (keptIn_of_mem (List.mem_append_left _ hu))
  · obtain ⟨j, hj⟩ := List.mem_iff_getElem?.mp hu
    right
    by_cases hij : i = j
    · refine ⟨{ u with revokedAt := now }, List.mem_of_getElem? (i := j) ?_, rfl⟩
      rw [hij, List.getElem?_modify_eq, hj]
      rfl
    · refine keptIn_of_mem (List.mem_of_getElem? (i := j) ?_)
      rw [List.getElem?_modify_ne _ _ hij, hj]
  · by_cases huv : u = v
    · exact .inl (huv ▸ rfl)
    · right
      obtain ⟨j, hj⟩ := List.mem_iff_getElem?.mp hu
      refine keptIn_of_mem (List.mem_eraseIdx_iff_getElem?.mpr ⟨j, ?_, hj⟩)
      rintro rfl
      exact huv (Option.some.inj (hj.symm.trans hv))

/-! ### Opening -/

theorem valid_usersIn (hL : Lawful L R) (disk : Disk) : ∀ u ∈ usersIn R disk, u.Valid := by
  unfold usersIn
  cases h : disk.file.bind (decode R) with
  | none => nofun
  | some users =>
    obtain ⟨data, -, hdata⟩ := Option.bind_eq_some_iff.mp h
    exact valid_of_decode hL hdata

/-- `Open` leaves the users' files alone and takes the users that it finds. -/
theorem openStore_cases (R : Reader) (disk : Disk) (env : OpenEnv) :
    (openStore R disk env).1 =
        { disk with secretFile := (loadSecret disk.secretFile env.secret).1 } ∧
      ∀ m, (openStore R disk env).2 = .ok m → m.users = usersIn R disk := by
  unfold openStore
  cases hsecret : (loadSecret disk.secretFile env.secret).2 with
  | error err => exact ⟨by simp only [hsecret], fun m hm => by simp only [hsecret] at hm; cases hm⟩
  | ok secret =>
    simp only [hsecret, usersIn]
    cases hfails : env.readErr with
    | some err => exact ⟨rfl, nofun⟩
    | none =>
      cases hfile : disk.file with
      | none => exact ⟨rfl, fun m hm => by cases hm; rfl⟩
      | some data => exact ⟨rfl, fun m hm => by cases hm; rfl⟩

/-- `Open` succeeds if the secret is there and the file can be read or does not exist. -/
theorem openStore_ok (R : Reader) {disk : Disk} {env : OpenEnv} {secret : Bytes}
    (hsecret : (loadSecret disk.secretFile env.secret).2 = .ok secret)
    (hfails : env.readErr = none) :
    ∃ m, (openStore R disk env).2 = .ok m := by
  simp only [openStore, hsecret, hfails]
  cases disk.file <;> exact ⟨_, rfl⟩

/-! ### Every step -/

/-- The text that is to be saved. -/
def SavePc.text : SavePc → Option Bytes
  | .creating data | .writing data _ | .renaming data => some data
  | .idle | .returning => none

structure Inv (L : Libs) (R : Reader) (s : Server) : Prop where
  valid : ∀ m, s.store = some m → ∀ u ∈ m.users, u.Valid
  saving : ∀ data, s.pc.text = some data → ∃ m, s.store = some m ∧
    data = encode L m.users ∧ s.inProgress = some m.users
  writing : ∀ data n, s.pc = .writing data n → s.disk.tmp = some (data.take n)
  complete : ∀ data, s.pc = .renaming data → s.disk.tmp = some data
  returning : s.pc = .returning → s.inProgress = some (usersIn R s.disk) ∧
    ∃ m, s.store = some m ∧ m.users = usersIn R s.disk
  running : s.store ≠ none → s.pc ≠ .returning → usersIn R s.disk = s.completed
  crashed : s.store = none → s.pc = .idle ∧
    (usersIn R s.disk = s.completed ∨ s.inProgress = some (usersIn R s.disk))

section Steps

variable {s s' : Server}

theorem inv_init (L : Libs) (R : Reader) (disk : Disk) :
    Inv L R { disk, completed := usersIn R disk } where
  valid := nofun
  saving := nofun
  writing := nofun
  complete := nofun
  returning := nofun
  running hopen := absurd rfl hopen
  crashed _ := ⟨rfl, .inl rfl⟩

theorem inv_start (hL : Lawful L R) (h : Inv L R s) {env : OpenEnv}
    (hs' : s.start R env = some s') : Inv L R s' := by
  unfold Server.start at hs'
  split at hs'
  · cases hs'
  · next hclosed =>
    obtain ⟨hpc, hfile⟩ := h.crashed hclosed
    obtain ⟨hdisk, husers⟩ := openStore_cases R s.disk env
    have hsame : usersIn R (openStore R s.disk env).1 = usersIn R s.disk := by rw [hdisk]; rfl
    split at hs'
    · next disk err hopen =>
      cases hs'
      rw [hopen] at hsame
      have htext : s.pc.text = none := by rw [hpc]; rfl
      exact {
        valid := h.valid
        saving := fun data hdata => by rw [htext] at hdata; cases hdata
        writing := fun data n hw => by rw [hpc] at hw; cases hw
        complete := fun data hw => by rw [hpc] at hw; cases hw
        returning := fun hw => by rw [hpc] at hw; cases hw
        running := fun hopen => absurd hclosed hopen
        crashed := fun _ => ⟨hpc, by rw [hsame]; exact hfile⟩ }
    · next disk m hopen =>
      cases hs'
      rw [hopen] at hsame
      have hm : m.users = usersIn R s.disk := husers m (by rw [hopen])
      exact {
        valid := by
          rintro _ ⟨⟩
          rw [hm]
          exact valid_usersIn hL s.disk
        saving := nofun
        writing := nofun
        complete := nofun
        returning := nofun
        running := fun _ _ => hsame.trans hm.symm
        crashed := nofun }

theorem inv_call (h : Inv L R s) {op : Op} (hs' : s.call L op = some s') : Inv L R s' := by
  unfold Server.call at hs'
  split at hs'
  · next m hopen hidle =>
    split at hs'
    · cases hs'
      exact h
    · next users hchange =>
      cases hs'
      have hfile := h.running (by rw [hopen]; nofun) (by rw [hidle]; nofun)
      exact {
        valid := by
          rintro _ ⟨⟩
          exact valid_change hchange (h.valid m hopen)
        saving := by
          rintro _ ⟨⟩
          exact ⟨_, rfl, rfl, rfl⟩
        writing := nofun
        complete := nofun
        returning := nofun
        running := fun _ _ => hfile
        crashed := nofun }
  · cases hs'

/-- A step in `os.WriteFile`. -/
theorem Inv.move (h : Inv L R s) {data : Bytes} (hdata : s.pc.text = some data) {pc : SavePc}
    {tmp : Option Bytes} (hpc : pc.text = some data)
    (hwriting : ∀ n, pc = .writing data n → tmp = some (data.take n))
    (hcomplete : pc = .renaming data → tmp = some data) :
    Inv L R { s with disk := { s.disk with tmp }, pc } := by
  obtain ⟨m, hopen, htext, hprogress⟩ := h.saving data hdata
  have hreturning : s.pc ≠ .returning := by
    intro hw
    rw [hw] at hdata
    cases hdata
  exact {
    valid := h.valid
    saving := fun data' hdata' => by
      cases hpc.symm.trans hdata'
      exact ⟨m, hopen, htext, hprogress⟩
    writing := by
      rintro data' n rfl
      cases hpc
      exact hwriting n rfl
    complete := by
      rintro data' rfl
      cases hpc
      exact hcomplete rfl
    returning := by
      rintro rfl
      cases hpc
    running := fun hne _ => h.running hne hreturning
    crashed := fun hclosed => absurd hclosed (by rw [hopen]; nofun) }

/-- The new file has the users that were to be saved. -/
theorem inv_rename (hL : Lawful L R) (h : Inv L R s) {data : Bytes} (hpc : s.pc = .renaming data) :
    Inv L R { s with
      disk := { s.disk with file := s.disk.tmp, tmp := none }
      pc := .returning } := by
  obtain ⟨m, hopen, htext, hprogress⟩ := h.saving data (by rw [hpc]; rfl)
  have husers : usersIn R { s.disk with file := s.disk.tmp, tmp := none } = m.users := by
    rw [usersIn, h.complete data hpc, htext, Option.bind_some,
      decode_encode hL (h.valid m hopen), Option.getD_some]
  exact {
    valid := h.valid
    saving := nofun
    writing := nofun
    complete := nofun
    returning := fun _ => ⟨by rw [husers]; exact hprogress, m, hopen, husers.symm⟩
    running := fun _ hne => absurd rfl hne
    crashed := fun hclosed => absurd hclosed (by rw [hopen]; nofun) }

theorem inv_succeed (h : Inv L R s) {m : OpenStore} (hopen : s.store = some m)
    (hpc : s.pc = .returning) :
    Inv L R { s with pc := .idle, completed := m.users, inProgress := none } := by
  obtain ⟨-, m', hopen', husers⟩ := h.returning hpc
  obtain rfl := Option.some.inj (hopen.symm.trans hopen')
  exact {
    valid := h.valid
    saving := nofun
    writing := nofun
    complete := nofun
    returning := nofun
    running := fun _ _ => husers.symm
    crashed := fun hclosed => absurd hclosed (by rw [hopen]; nofun) }

/-- A save that fails has left the file alone. -/
theorem inv_fail (h : Inv L R s) {data : Bytes} (hdata : s.pc.text = some data) :
    Inv L R { s with pc := .idle, inProgress := none } := by
  obtain ⟨m, hopen, -⟩ := h.saving data hdata
  have hreturning : s.pc ≠ .returning := by
    intro hw
    rw [hw] at hdata
    cases hdata
  exact {
    valid := h.valid
    saving := nofun
    writing := nofun
    complete := nofun
    returning := nofun
    running := fun hne _ => h.running hne hreturning
    crashed := fun hclosed => absurd hclosed (by rw [hopen]; nofun) }

theorem inv_crash (h : Inv L R s) : Inv L R { s with store := none, pc := .idle } where
  valid := nofun
  saving := nofun
  writing := nofun
  complete := nofun
  returning := nofun
  running hne := absurd rfl hne
  crashed _ := by
    refine ⟨rfl, ?_⟩
    by_cases hopen : s.store = none
    · exact (h.crashed hopen).2
    by_cases hpc : s.pc = .returning
    · exact .inr (h.returning hpc).1
    · exact .inl (h.running hopen hpc)

theorem inv_step (hL : Lawful L R) (h : Inv L R s) {e : ServerEvent}
    (hs' : s.step L R e = some s') : Inv L R s' := by
  cases e with
  | start env => exact inv_start hL h hs'
  | call op => exact inv_call h hs'
  | create =>
    simp only [Server.step] at hs'
    split at hs'
    · next data hpc =>
      cases hs'
      exact h.move (by rw [hpc]; rfl) rfl (by rintro n ⟨⟩; rfl) nofun
    · cases hs'
  | write k =>
    simp only [Server.step] at hs'
    split at hs'
    · next data n hpc =>
      cases hs'
      exact h.move (by rw [hpc]; rfl) rfl (by rintro n ⟨⟩; rfl) nofun
    · cases hs'
  | close =>
    simp only [Server.step] at hs'
    split at hs'
    · next data n hpc =>
      split_ifs at hs' with hlen
      cases hs'
      refine h.move (by rw [hpc]; rfl) rfl nofun fun _ => ?_
      rw [h.writing data n hpc, List.take_of_length_le hlen]
    · cases hs'
  | rename =>
    simp only [Server.step] at hs'
    split at hs'
    · next data hpc =>
      cases hs'
      exact inv_rename hL h hpc
    · cases hs'
  | succeed =>
    simp only [Server.step] at hs'
    split at hs'
    · next m hopen hpc =>
      cases hs'
      exact inv_succeed h hopen hpc
    · cases hs'
  | fail =>
    simp only [Server.step] at hs'
    split at hs'
    · next data hpc =>
      cases hs'
      exact inv_fail h (by rw [hpc]; rfl)
    · next data n hpc =>
      cases hs'
      exact inv_fail h (by rw [hpc]; rfl)
    · next data hpc =>
      cases hs'
      exact inv_fail h (by rw [hpc]; rfl)
    · cases hs'
    · cases hs'
  | crash =>
    cases hs'
    exact inv_crash h

end Steps

/-! ### Every run -/

theorem inv_of_reachable (hL : Lawful L R) {disk : Disk} {s : Server}
    (hs : (server L R disk).Reachable s) : Inv L R s :=
  EventSystem.Reachable.invariant (I := Inv L R) (inv_init L R disk)
    (fun _ e _ h hs' => inv_step (e := e) hL h hs') hs

/-- What a file decodes to. -/
def contents (R : Reader) (data : Bytes) : Contents :=
  match decode R data with
  | some users => .users users
  | none => .other

/-- The store with its files by what they decode to. -/
def OpenStore.view (R : Reader) (m : OpenStore) (disk : Disk) : Store where
  secret := m.secret
  users := m.users
  file := disk.file.map (contents R)
  tmp := disk.tmp.map (contents R)

/-- What a call makes of the users, its save makes the file. -/
theorem view_change {m : OpenStore} {op : Op} {users : List User} (h : m.change L op = .ok users)
    (disk : Disk) :
    (m.view R disk).apply L (op.event .saved) =
      ({ m.view R disk with users, file := some (.users users), tmp := none }, none) := by
  unfold OpenStore.change at h
  cases op with
  | create userAlias trafficCap timeCap profiles random now =>
    cases random with
    | error err => cases h
    | ok idBytes =>
      cases h
      rfl
  | revoke id now =>
    simp only [Op.event, Store.apply, Store.revoke, OpenStore.view] at h ⊢
    cases hidx : m.users.findIdx? (·.id = id) with
    | none =>
      simp only [hidx] at h
      cases h
    | some i =>
      simp only [hidx] at h
      cases h
      rfl
  | delete id =>
    simp only [Op.event, Store.apply, Store.delete, OpenStore.view] at h ⊢
    cases hidx : m.users.findIdx? (·.id = id) with
    | none =>
      simp only [hidx] at h
      cases h
    | some i =>
      simp only [hidx] at h
      cases h
      rfl

/-- A call whose save runs up to the rename. -/
theorem run_write {disk : Disk} {s : Server} {m : OpenStore} (hopen : s.store = some m)
    (hidle : s.pc = .idle) {op : Op} {users : List User} (h : m.change L op = .ok users) :
    ∃ deleted, (server L R disk).run s
        [.call op, .create, .write (encode L users).length, .close] = some { s with
      disk := { s.disk with tmp := some (encode L users) }
      store := some { m with users }
      pc := .renaming (encode L users)
      inProgress := some users
      deleted } := by
  obtain ⟨deleted, hcall⟩ : ∃ deleted, s.call L op = some { s with
      store := some { m with users }
      pc := .creating (encode L users)
      inProgress := some users
      deleted } := by
    simp only [Server.call, hopen, hidle, h]
    exact ⟨_, rfl⟩
  have htake : (encode L users).take (0 + (encode L users).length) = encode L users := by
    rw [Nat.zero_add, List.take_length]
  refine ⟨deleted, EventSystem.run_cons_eq_some.mpr ⟨_, hcall, EventSystem.run_cons_eq_some.mpr
    ⟨_, rfl, EventSystem.run_cons_eq_some.mpr ⟨_, rfl, EventSystem.run_cons_eq_some.mpr
    ⟨_, if_pos (Nat.zero_add _).ge, ?_⟩⟩⟩⟩⟩
  rw [htake]
  rfl

/-- A call whose save runs to its end does to memory and file what `Store.apply` does in one
step. -/
theorem run_save (hL : Lawful L R) {disk : Disk} {s : Server}
    (hs : (server L R disk).Reachable s) {m : OpenStore} (hopen : s.store = some m)
    (hidle : s.pc = .idle) {op : Op} {users : List User} (h : m.change L op = .ok users) :
    ∃ s', (server L R disk).run s ([.call op, .create, .write (encode L users).length, .close] ++
        [.rename, .succeed]) = some s' ∧
      s'.store = some { m with users } ∧
      ({ m with users } : OpenStore).view R s'.disk =
        ((m.view R s.disk).apply L (op.event .saved)).1 := by
  have hvalid := valid_change h ((inv_of_reachable hL hs).valid m hopen)
  have hdecode : contents R (encode L users) = .users users := by
    rw [contents, decode_encode hL hvalid]
  obtain ⟨deleted, hwrite⟩ := run_write (L := L) (R := R) hopen hidle h
  refine ⟨_, EventSystem.run_append_eq_some.mpr ⟨_, hwrite, rfl⟩, rfl, ?_⟩
  rw [view_change h]
  simp only [OpenStore.view, Option.map_some, Option.map_none, hdecode]

/-- What is opened is `Store.reopen` of what is on disk. -/
theorem view_openStore (R : Reader) {disk : Disk} {env : OpenEnv} {m : OpenStore}
    (h : (openStore R disk env).2 = .ok m) : m.users = (m.view R disk).reopen.users := by
  rw [(openStore_cases R disk env).2 m h, usersIn, Store.reopen, Store.saved, OpenStore.view]
  cases disk.file with
  | none => rfl
  | some data =>
    simp only [Option.bind_some, Option.map_some, contents]
    cases decode R data <;> rfl

/-- **After a crash**, wherever it comes, the store that is opened has the users of the last save
that was completed or of the one that was in progress, if the secret is there and the file can be
read. -/
theorem reopen_users (hL : Lawful L R) {disk : Disk} {s : Server}
    (hs : (server L R disk).Reachable s) (env : OpenEnv) {secret : Bytes}
    (hsecret : (loadSecret s.disk.secretFile env.secret).2 = .ok secret)
    (hfails : env.readErr = none) :
    ∃ m, (openStore R s.disk env).2 = .ok m ∧
      (m.users = s.completed ∨ s.inProgress = some m.users) := by
  have hinv := inv_of_reachable hL hs
  obtain ⟨m, hm⟩ := openStore_ok R hsecret hfails
  refine ⟨m, hm, ?_⟩
  rw [(openStore_cases R s.disk env).2 m hm]
  exact ((inv_crash hinv).crashed rfl).2

/-! ### A library -/

/-- A writer of JSON; no call below makes a bundle. -/
def plainLibs : Libs := ⟨JsonText.write, fun _ _ => []⟩

def plainReader : Reader where
  unmarshal s := (JsonText.read (JsonText.compact s)).filter Json.valid
  parseTime := Time.parseUTC

theorem unmarshal_indent_plain {j : Json} (hj : j.valid = true) :
    plainReader.unmarshal (JsonText.indent (plainLibs.marshal j)) = some j := by
  show (JsonText.read (JsonText.compact (JsonText.indent (JsonText.write j)))).filter _ = _
  rw [JsonText.read_compact_indent, Option.filter_some, if_pos hj]

theorem valid_of_unmarshal_plain {data : Bytes} {j : Json}
    (h : plainReader.unmarshal data = some j) : j.valid = true := by
  change (JsonText.read (JsonText.compact data)).filter Json.valid = some j at h
  exact (Option.filter_eq_some_iff.mp h).2

theorem parseTime_plain : plainReader.parseTime = Time.parseUTC := rfl

theorem plain_lawful : Lawful plainLibs plainReader where
  unmarshal_indent := unmarshal_indent_plain
  valid_of_unmarshal := valid_of_unmarshal_plain
  parseTime_format ht := by
    rw [parseTime_plain]
    exact Time.parseUTC_format ht
  valid_of_parseTime ht := by
    rw [parseTime_plain] at ht
    exact Time.valid_of_parseUTC ht

/-- A user that was made on the third of May 2024. -/
def sampleUser : User where
  id := literal "00"
  userAlias := literal "anna"
  createdAt := ⟨2024, 5, 3, 9, 30, 0, 120000000⟩

def sampleDisk : Disk where
  file := some (encode plainLibs [sampleUser])
  secretFile := some (List.replicate 32 7)

/-- Nothing fails; random bytes are not needed. -/
def sampleEnv : OpenEnv where
  secret := { random := .error "" }

theorem openStore_sampleDisk : openStore plainReader sampleDisk sampleEnv =
    (sampleDisk, .ok (OpenStore.mk (List.replicate 32 7) [sampleUser])) := by
  have hvalid : ∀ u ∈ [sampleUser], u.Valid :=
    List.forall_mem_singleton.mpr ⟨by decide, by decide, by decide, by decide, by decide⟩
  have hread : (decode plainReader (encode plainLibs [sampleUser])).getD [] = [sampleUser] := by
    rw [decode_encode plain_lawful hvalid]
    rfl
  have hopen : openStore plainReader sampleDisk sampleEnv = (sampleDisk, .ok (OpenStore.mk
      (List.replicate 32 7) ((decode plainReader (encode plainLibs [sampleUser])).getD []))) := rfl
  rw [hopen, hread]

/-- The crash comes when the first bytes are written of a file without the user. -/
theorem reopen_sampleDisk : ∃ s, (server plainLibs plainReader sampleDisk).run
    (server plainLibs plainReader sampleDisk).init
      [.start sampleEnv, .call (.delete (literal "00")), .create, .write 7, .crash] = some s ∧
    ∃ m, (openStore plainReader s.disk sampleEnv).2 = .ok m ∧
      (m.users = s.completed ∨ s.inProgress = some m.users) := by
  have hstart : (server plainLibs plainReader sampleDisk).step
      (server plainLibs plainReader sampleDisk).init (.start sampleEnv) = some {
        disk := sampleDisk
        store := some (OpenStore.mk (List.replicate 32 7) [sampleUser])
        completed := [sampleUser] } := by
    simp only [server, Server.step, Server.start, openStore_sampleDisk]
  obtain ⟨s, hs, hdisk⟩ : ∃ s, (server plainLibs plainReader sampleDisk).run
      (server plainLibs plainReader sampleDisk).init
        [.start sampleEnv, .call (.delete (literal "00")), .create, .write 7, .crash] = some s ∧
      s.disk.secretFile = some (List.replicate 32 7) :=
    ⟨_, EventSystem.run_cons_eq_some.mpr ⟨_, hstart, rfl⟩, rfl⟩
  have hsecret : (loadSecret s.disk.secretFile sampleEnv.secret).2 = .ok (List.replicate 32 7) := by
    rw [hdisk]
    rfl
  exact ⟨s, hs, reopen_users plain_lawful ⟨_, hs⟩ sampleEnv hsecret rfl⟩

end OpenFlux.Control
