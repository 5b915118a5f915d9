import OpenFlux.Transport.Oneme.CallHandler

/-!
# Which messages of a call the handlers take

`msgHandler_isSome_iff` says exactly which messages, in which states of the handler, a message
handler takes without a panic: those of the form that its type assertions expect (`Expected`).
-/

namespace OpenFlux.Transport.Oneme

variable {F PC DC : Type} {role : Role}

/-! ### What is expected of a message -/

/-- One of the roles of a participant is `CREATOR`. -/
def IsCreator (part : GoMap F) : Prop :=
  ∃ roles, part.lookup (literal "roles") = .slice roles ∧ .str (literal "CREATOR") ∈ roles

/-- A participant whose roles are texts, with a number as `id` where the handler reads it. -/
def IsParticipant (creator : Bool) (p : Dynamic F) : Prop :=
  ∃ part : GoMap F, p = .map part ∧
    (∀ roles, part.lookup (literal "roles") = .slice roles → ∀ r ∈ roles, ∃ s, r = .str s) ∧
    ((IsCreator part ↔ creator = true) → ∃ x, part.lookup (literal "id") = .num x)

/-- The STUN and the TURN server of a call, the latter as `createPeerConnection` hands it on. -/
def Servers (cp : GoMap F) (server : ICEServer) : Prop :=
  ∃ turn stun : GoMap F,
    cp.lookup (literal "turn") = .map turn ∧ cp.lookup (literal "stun") = .map stun ∧
    (∀ url urls, stun.lookup (literal "urls") = .slice (url :: urls) → ∃ s, url = .str s) ∧
    (turn.lookup (literal "urls")).asSlice.getD [] = server.urls.map .str ∧
    server.username = (turn.lookup (literal "username")).asString.getD [] ∧
    server.credential = (turn.lookup (literal "credential")).asString.getD []

/-- The caller has a peer connection when it makes its offer. -/
def HasConnection (lib : Library F PC DC) (pauses : Pauses F PC DC role) (server : ICEServer)
    (h : CallHandler F PC DC) : Prop :=
  match pauses.settling.pc with
  | some pc => pc.isSome
  | none => (lib.newPeerConnection server).isSome ∨ (pauses.waiting.pc.getD h.pc).isSome

/-- The `data` of a message without `conversationParams`. -/
def Relayed (data d : GoMap F) : Prop :=
  (∀ cp, data.lookup (literal "conversationParams") ≠ .map cp) ∧
    data.lookup (literal "data") = .map d

/-- The participants of the conversation in a message. -/
def Participants (creator : Bool) (data : GoMap F) : Prop :=
  ∀ (conv : GoMap F) parts, data.lookup (literal "conversation") = .map conv →
    conv.lookup (literal "participants") = .slice parts → ∀ p ∈ parts, IsParticipant creator p

/-- A message of the form that the handler expects, in a state where it can be handled. -/
structure Expected (lib : Library F PC DC) (role : Role) (pauses : Pauses F PC DC role)
    (data : GoMap F) (h : CallHandler F PC DC) : Prop where
  participants : h.localID = 0 → Participants (role = .receiver) data
  servers : ∀ cp, data.lookup (literal "conversationParams") = .map cp →
    ∃ server, Servers cp server ∧ (role = .caller → HasConnection lib pauses server h)
  sdp : role = .receiver → ∀ (d sdp : GoMap F), Relayed data d →
    d.lookup (literal "sdp") = .map sdp →
    (∃ s, sdp.lookup (literal "type") = .str s) ∧ ∃ s, sdp.lookup (literal "sdp") = .str s
  candidate : ∀ d c, Relayed data d → (∀ sdp, d.lookup (literal "sdp") ≠ .map sdp) →
    d.lookup (literal "candidate") = .map c → h.dcInbound = true

namespace CallHandler

variable (lib : Library F PC DC) {h h' : CallHandler F PC DC}

/-! ### The local participant -/

theorem isSome_isCreator (roles : List (Dynamic F)) :
    (isCreator roles).isSome ↔ ∀ r ∈ roles, ∃ s, r = .str s :=
  foldlM_isSome_iff (fun _ _ => by simp [Option.isSome_iff_exists]) roles false

theorem isCreator_eq_some {roles : List (Dynamic F)} {b : Bool} (h : isCreator roles = some b) :
    b = true ↔ .str (literal "CREATOR") ∈ roles := by
  have hfold : ∀ (roles : List (Dynamic F)) (b b' : Bool),
      roles.foldlM (fun found r => r.asString.map fun s => found || s = literal "CREATOR") b =
        some b' → (b' = true ↔ b = true ∨ .str (literal "CREATOR") ∈ roles) := by
    intro roles
    induction roles with
    | nil =>
      intro b b' h
      cases h
      simp
    | cons r roles ih =>
      intro b b' h
      rw [List.foldlM_cons, Option.bind_eq_bind, Option.bind_eq_some_iff] at h
      obtain ⟨b₁, hb₁, h⟩ := h
      obtain ⟨s, hs, rfl⟩ := Option.map_eq_some_iff.mp hb₁
      obtain rfl := Dynamic.asString_eq_some.mp hs
      rw [ih _ _ h, Bool.or_eq_true, decide_eq_true_iff, List.mem_cons, Dynamic.str.injEq,
        or_assoc, eq_comm (a := s)]
  rw [hfold roles false b h]
  simp

theorem participant_isSome_iff (creator : Bool) (h : CallHandler F PC DC) (p : Dynamic F) :
    (participant lib creator h p).isSome ↔ IsParticipant creator p := by
  unfold IsParticipant
  cases hp : p.asMap with
  | none =>
    rw [participant, hp]
    refine iff_of_false nofun ?_
    rintro ⟨part, rfl, -⟩
    cases hp
  | some part =>
    obtain rfl := Dynamic.asMap_eq_some.mp hp
    have hroles :
        (∀ roles, part.lookup (literal "roles") = .slice roles → ∀ r ∈ roles, ∃ s, r = .str s) ↔
          (isCreator ((part.lookup (literal "roles")).asSlice.getD [])).isSome := by
      rw [isSome_isCreator]
      exact Dynamic.forall_slice_iff
    have hcreator : IsCreator part ↔
        .str (literal "CREATOR") ∈ (part.lookup (literal "roles")).asSlice.getD [] := by
      unfold IsCreator
      cases part.lookup (literal "roles") <;> simp [Dynamic.asSlice]
    simp only [Dynamic.map.injEq, exists_eq_left', hroles, hcreator]
    rw [participant, hp, Option.bind_eq_bind, Option.bind_some]
    cases hfold : isCreator ((part.lookup (literal "roles")).asSlice.getD []) with
    | none => simp
    | some found =>
      rw [← isCreator_eq_some hfold, ← Bool.eq_iff_iff, Option.bind_eq_bind, Option.bind_some]
      by_cases hc : found = creator
      · rw [if_pos hc]
        simp [hc, Option.isSome_iff_exists]
      · rw [if_neg hc]
        simp [hc]

variable {lib} in
/-- Nothing but `localID` is set. -/
theorem participant_eq_some {creator : Bool} {p : Dynamic F}
    (hp : participant lib creator h p = some h') : ∃ id, h' = { h with localID := id } := by
  rw [participant] at hp
  obtain ⟨part, -, hp⟩ := Option.bind_eq_some_iff.mp hp
  obtain ⟨found, -, hp⟩ := Option.bind_eq_some_iff.mp hp
  split_ifs at hp
  · obtain ⟨id, -, rfl⟩ := Option.map_eq_some_iff.mp hp
    exact ⟨_, rfl⟩
  · cases hp
    exact ⟨_, rfl⟩

variable {lib} in
theorem findLocalID_eq_some {creator : Bool} {data : GoMap F}
    (hid : findLocalID lib creator data h = some h') : ∃ id, h' = { h with localID := id } := by
  have hfold : ∀ (parts : List (Dynamic F)) (h : CallHandler F PC DC),
      parts.foldlM (participant lib creator) h = some h' → ∃ id, h' = { h with localID := id } := by
    intro parts
    induction parts with
    | nil =>
      intro h hid
      cases hid
      exact ⟨_, rfl⟩
    | cons p parts ih =>
      intro h hid
      rw [List.foldlM_cons] at hid
      obtain ⟨h₁, hp, hid⟩ := Option.bind_eq_some_iff.mp hid
      obtain ⟨id₁, rfl⟩ := participant_eq_some hp
      obtain ⟨id, rfl⟩ := ih _ hid
      exact ⟨id, rfl⟩
  unfold findLocalID at hid
  split at hid
  · split at hid
    · split at hid
      · exact hfold _ _ hid
      · cases hid
        exact ⟨_, rfl⟩
    · cases hid
      exact ⟨_, rfl⟩
  · cases hid
    exact ⟨_, rfl⟩

theorem findLocalID_isSome_iff (creator : Bool) (data : GoMap F) (h : CallHandler F PC DC) :
    (findLocalID lib creator data h).isSome ↔ (h.localID = 0 → Participants creator data) := by
  rw [findLocalID]
  by_cases hid : h.localID = 0
  · rw [if_pos hid]
    cases hconv : (data.lookup (literal "conversation")).asMap with
    | none =>
      refine iff_of_true rfl fun _ conv parts hconv' => ?_
      rw [hconv'] at hconv
      cases hconv
    | some conv =>
      obtain hconv := Dynamic.asMap_eq_some.mp hconv
      dsimp only
      cases hparts : (conv.lookup (literal "participants")).asSlice with
      | none =>
        refine iff_of_true rfl fun _ conv' parts hconv' hparts' => ?_
        cases hconv.symm.trans hconv'
        rw [hparts'] at hparts
        cases hparts
      | some parts =>
        obtain hparts := Dynamic.asSlice_eq_some.mp hparts
        dsimp only
        rw [foldlM_isSome_iff (participant_isSome_iff lib creator)]
        constructor
        · intro hall _ conv' parts' hconv' hparts'
          cases hconv.symm.trans hconv'
          cases hparts.symm.trans hparts'
          exact hall
        · intro hall
          exact hall hid conv parts hconv hparts
  · rw [if_neg hid]
    exact iff_of_true rfl fun hid' => absurd hid' hid

/-! ### The peer connection -/

theorem exists_stunURLs (stun : GoMap F) : (∃ urls, stunURLs stun = some urls) ↔
    ∀ url urls, stun.lookup (literal "urls") = .slice (url :: urls) → ∃ s, url = .str s := by
  rw [stunURLs]
  rcases stun.lookup (literal "urls") with _ | _ | _ | _ | (_ | ⟨url, urls⟩) | _
  case slice.cons =>
    simp [Dynamic.asSlice]
  all_goals exact iff_of_true ⟨_, rfl⟩ (by simp)

theorem turnURLs_eq_some {turn : GoMap F} {urls : List Bytes} :
    turnURLs turn = some urls ↔
      (turn.lookup (literal "urls")).asSlice.getD [] = urls.map .str := by
  rw [turnURLs]
  cases (turn.lookup (literal "urls")).asSlice with
  | none => cases urls <;> simp
  | some vs => exact Dynamic.mapM_asString_eq_some

theorem iceServer_eq_some {cp : GoMap F} {server : ICEServer} :
    iceServer cp = some server ↔ Servers cp server := by
  unfold iceServer Servers
  simp only [Option.bind_eq_bind, Option.bind_eq_some_iff, Dynamic.asMap_eq_some,
    turnURLs_eq_some, ← exists_stunURLs, Option.pure_def, Option.some.injEq]
  constructor
  · rintro ⟨turn, hturn, stun, hstun, stunURLs, hstunURLs, turnURLs, hturnURLs, rfl⟩
    exact ⟨turn, stun, hturn, hstun, ⟨stunURLs, hstunURLs⟩, hturnURLs, rfl, rfl⟩
  · rintro ⟨turn, stun, hturn, hstun, ⟨stunURLs, hstunURLs⟩, hturnURLs, husername, hcredential⟩
    refine ⟨turn, hturn, stun, hstun, stunURLs, hstunURLs, server.urls, hturnURLs, ?_⟩
    rw [← husername, ← hcredential]

theorem createPeerConnection_isSome_iff (cp : GoMap F) (h : CallHandler F PC DC) :
    (createPeerConnection lib cp h).isSome ↔ ∃ server, Servers cp server := by
  simp only [createPeerConnection, ← iceServer_eq_some]
  cases iceServer cp with
  | none => simp
  | some server =>
    refine iff_of_true ?_ ⟨server, rfl⟩
    rw [Option.bind_eq_bind, Option.bind_some]
    split
    · rfl
    · split <;> rfl

variable {lib} in
/-- There is a peer connection if a new one can be made, or there was one before. -/
theorem isSome_pc_createPeerConnection {cp : GoMap F} {server : ICEServer}
    (hserver : Servers cp server) (hh' : createPeerConnection lib cp h = some h') :
    h'.pc.isSome ↔ (lib.newPeerConnection server).isSome ∨ h.pc.isSome := by
  rw [createPeerConnection, iceServer_eq_some.mpr hserver, Option.bind_eq_bind,
    Option.bind_some] at hh'
  cases hnew : lib.newPeerConnection server with
  | none =>
    rw [hnew] at hh'
    cases hh'
    simp
  | some pc =>
    rw [hnew] at hh'
    dsimp only at hh'
    split at hh' <;> cases hh' <;> simp

variable {lib} in
theorem hasConnection_iff {pauses : Pauses F PC DC role} {cp : GoMap F} {server : ICEServer}
    (hserver : Servers cp server)
    (hh' : createPeerConnection lib cp (pauses.waiting.after h) = some h') :
    HasConnection lib pauses server h ↔ (pauses.settling.after h').pc.isSome := by
  have hpc := isSome_pc_createPeerConnection hserver hh'
  rw [HasConnection, Meanwhile.after]
  cases pauses.settling.pc with
  | none => exact hpc.symm
  | some pc => exact Iff.rfl

/-! ### Descriptions -/

theorem isSome_pc_flushPendingCandidates (h : CallHandler F PC DC) :
    (h.flushPendingCandidates lib).pc.isSome = h.pc.isSome := by
  have hfold : ∀ (cs : List (GoMap F)) (h : CallHandler F PC DC),
      (cs.foldl (addICECandidate lib) h).pc.isSome = h.pc.isSome := by
    intro cs
    induction cs with
    | nil => exact fun _ => rfl
    | cons c cs ih =>
      intro h
      rw [List.foldl_cons, ih, addICECandidate, Option.isSome_map]
  exact hfold h.pendingCandidates h

/-- A receiver keeps its peer connection during a pause. -/
theorem isSome_pc_after (m : Meanwhile F PC DC .receiver) (hpc : h.pc.isSome) :
    (m.after h).pc.isSome := by
  rw [Meanwhile.after]
  rcases hm : m.pc with _ | _ | pc
  · exact hpc
  · exact absurd hm (m.keeps_pc rfl)
  · rfl

theorem handleSDP_isSome (pauses : Pauses F PC DC .receiver) (sdpType sdpStr : Bytes)
    (h : CallHandler F PC DC) : (handleSDP lib pauses sdpType sdpStr h).isSome := by
  unfold handleSDP
  split
  · rfl
  · split
    · split
      · rfl
      · next pc _ =>
        -- the peer connection that was given the offer answers it
        have hsettled := isSome_pc_after pauses.settling (h := { h with pc := some pc }) rfl
        have hflushed := (isSome_pc_flushPendingCandidates lib
          { pauses.settling.after { h with pc := some pc } with hasRemoteDesc := true }).trans
            hsettled
        obtain ⟨pc', hpc'⟩ := Option.isSome_iff_exists.mp hflushed
        dsimp only
        rw [hpc', Option.bind_eq_bind, Option.bind_some]
        split <;> rfl
    · split
      · split <;> rfl
      · rfl

/-! ### The handlers -/

section Expected

variable {pauses : Pauses F PC DC role} {data : GoMap F}

theorem expected_iff_of_params {cp : GoMap F}
    (hparts : h.localID = 0 → Participants (role = .receiver) data)
    (hcp : data.lookup (literal "conversationParams") = .map cp) :
    Expected lib role pauses data h ↔
      ∃ server, Servers cp server ∧ (role = .caller → HasConnection lib pauses server h) := by
  have hrelayed (d : GoMap F) : ¬ Relayed data d := fun hd => hd.1 cp hcp
  constructor
  · intro hexp
    exact hexp.servers cp hcp
  · intro hservers
    refine ⟨hparts, fun cp' hcp' => ?_, fun _ d _ hd => absurd hd (hrelayed d),
      fun d _ hd => absurd hd (hrelayed d)⟩
    cases hcp.symm.trans hcp'
    exact hservers

theorem expected_of_ignored (hparts : h.localID = 0 → Participants (role = .receiver) data)
    (hcp : ∀ cp, data.lookup (literal "conversationParams") ≠ .map cp)
    (hd : ∀ d, data.lookup (literal "data") ≠ .map d) : Expected lib role pauses data h :=
  ⟨hparts, fun cp h => absurd h (hcp cp), fun _ d _ h => absurd h.2 (hd d),
    fun d _ h => absurd h.2 (hd d)⟩

theorem expected_iff_of_relayed {d : GoMap F}
    (hparts : h.localID = 0 → Participants (role = .receiver) data) (hd : Relayed data d) :
    Expected lib role pauses data h ↔
      (role = .receiver → ∀ sdp : GoMap F, d.lookup (literal "sdp") = .map sdp →
        (∃ s, sdp.lookup (literal "type") = .str s) ∧ ∃ s, sdp.lookup (literal "sdp") = .str s) ∧
      ((∀ sdp, d.lookup (literal "sdp") ≠ .map sdp) →
        ∀ c, d.lookup (literal "candidate") = .map c → h.dcInbound = true) := by
  constructor
  · intro hexp
    exact ⟨fun hrole sdp => hexp.sdp hrole d sdp hd, fun hsdp c => hexp.candidate d c hd hsdp⟩
  · rintro ⟨hsdp, hcandidate⟩
    refine ⟨hparts, fun cp hcp => absurd hcp (hd.1 cp), fun hrole d' sdp hd' => ?_,
      fun d' c hd' hnone => ?_⟩
    · cases hd.2.symm.trans hd'.2
      exact hsdp hrole sdp
    · cases hd.2.symm.trans hd'.2
      exact hcandidate hnone c

end Expected

/-- What both handlers do in the end. -/
theorem candidate_isSome_iff (d : GoMap F) (h : CallHandler F PC DC) :
    (match (d.lookup (literal "candidate")).asMap with
      | some c => candidate lib c h
      | none => some (h, none)).isSome ↔
    ∀ c, d.lookup (literal "candidate") = .map c → h.dcInbound = true := by
  cases hc : (d.lookup (literal "candidate")).asMap with
  | none => exact iff_of_true rfl fun c h => absurd h (Dynamic.asMap_eq_none.mp hc c)
  | some c =>
    have hinjection : useICEInjection = true := rfl
    dsimp only
    rw [candidate, if_pos hinjection]
    cases hin : h.dcInbound with
    | false =>
      refine iff_of_false nofun fun hall => ?_
      exact absurd (hall c (Dynamic.asMap_eq_some.mp hc)) nofun
    | true => exact iff_of_true rfl fun _ _ => rfl

theorem outgoingHandler_isSome_iff {pauses : Pauses F PC DC .caller} {data : GoMap F} :
    (outgoingHandler lib pauses data h).isSome ↔ Expected lib .caller pauses data h := by
  have hparts := findLocalID_isSome_iff lib false data h
  rw [outgoingHandler]
  cases hfind : findLocalID lib false data h with
  | none =>
    rw [hfind] at hparts
    exact iff_of_false nofun fun hexp => absurd (hparts.mpr hexp.participants) nofun
  | some h₁ =>
    rw [hfind] at hparts
    replace hparts := hparts.mp rfl
    obtain ⟨id, rfl⟩ := findLocalID_eq_some hfind
    rw [Option.bind_eq_bind, Option.bind_some]
    cases hcp : (data.lookup (literal "conversationParams")).asMap with
    | some cp =>
      rw [expected_iff_of_params lib hparts (Dynamic.asMap_eq_some.mp hcp)]
      have hcreate := createPeerConnection_isSome_iff lib cp
        (pauses.waiting.after { h with localID := id })
      dsimp only
      cases hh₂ : createPeerConnection lib cp (pauses.waiting.after { h with localID := id }) with
      | none =>
        rw [hh₂] at hcreate
        refine iff_of_false nofun ?_
        rintro ⟨server, hserver, -⟩
        exact absurd (hcreate.mpr ⟨server, hserver⟩) nofun
      | some h₂ =>
        rw [hh₂] at hcreate
        obtain ⟨server, hserver⟩ := hcreate.mp rfl
        rw [Option.bind_some]
        cases hpc : (pauses.settling.after h₂).pc with
        | none =>
          refine iff_of_false nofun ?_
          rintro ⟨server', hserver', hconn⟩
          have hsome := (hasConnection_iff hserver' hh₂).mp (hconn rfl)
          rw [hpc] at hsome
          cases hsome
        | some pc =>
          refine iff_of_true ?_ ⟨server, hserver, fun _ => ?_⟩
          · rw [Option.bind_eq_bind, Option.bind_some]
            split <;> rfl
          · apply (hasConnection_iff hserver hh₂).mpr
            rw [hpc]
            rfl
    | none =>
      rw [Dynamic.asMap_eq_none] at hcp
      dsimp only
      cases hd : (data.lookup (literal "data")).asMap with
      | none =>
        exact iff_of_true rfl (expected_of_ignored lib hparts hcp (Dynamic.asMap_eq_none.mp hd))
      | some d =>
        rw [expected_iff_of_relayed lib hparts ⟨hcp, Dynamic.asMap_eq_some.mp hd⟩]
        dsimp only
        cases hsdp : (d.lookup (literal "sdp")).asMap with
        | some sdp =>
          dsimp only
          rw [if_neg (by simp [useICEInjection])]
          exact iff_of_true rfl
            ⟨nofun, fun hno => absurd (Dynamic.asMap_eq_some.mp hsdp) (hno sdp)⟩
        | none =>
          have hno := Dynamic.asMap_eq_none.mp hsdp
          refine (candidate_isSome_iff lib d _).trans
            ⟨fun hall => ⟨nofun, fun _ => hall⟩, fun hall => hall.2 hno⟩

theorem incomingHandler_isSome_iff {pauses : Pauses F PC DC .receiver} {data : GoMap F} :
    (incomingHandler lib pauses data h).isSome ↔ Expected lib .receiver pauses data h := by
  have hparts := findLocalID_isSome_iff lib true data h
  rw [incomingHandler]
  cases hfind : findLocalID lib true data h with
  | none =>
    rw [hfind] at hparts
    exact iff_of_false nofun fun hexp => absurd (hparts.mpr hexp.participants) nofun
  | some h₁ =>
    rw [hfind] at hparts
    replace hparts := hparts.mp rfl
    obtain ⟨id, rfl⟩ := findLocalID_eq_some hfind
    rw [Option.bind_eq_bind, Option.bind_some]
    cases hcp : (data.lookup (literal "conversationParams")).asMap with
    | some cp =>
      rw [expected_iff_of_params lib hparts (Dynamic.asMap_eq_some.mp hcp)]
      refine Iff.trans ?_ ((createPeerConnection_isSome_iff lib cp
        { h with localID := id }).trans ⟨fun ⟨server, h⟩ => ⟨server, h, nofun⟩,
          fun ⟨server, h, _⟩ => ⟨server, h⟩⟩)
      dsimp only
      cases createPeerConnection lib cp { h with localID := id } <;> rfl
    | none =>
      rw [Dynamic.asMap_eq_none] at hcp
      dsimp only
      cases hd : (data.lookup (literal "data")).asMap with
      | none =>
        exact iff_of_true rfl (expected_of_ignored lib hparts hcp (Dynamic.asMap_eq_none.mp hd))
      | some d =>
        rw [expected_iff_of_relayed lib hparts ⟨hcp, Dynamic.asMap_eq_some.mp hd⟩]
        dsimp only
        cases hsdp : (d.lookup (literal "sdp")).asMap with
        | some sdp =>
          dsimp only
          rw [Dynamic.asMap_eq_some] at hsdp
          cases htype : (sdp.lookup (literal "type")).asString with
          | none =>
            refine iff_of_false nofun fun hall => ?_
            obtain ⟨⟨s, hs⟩, -⟩ := hall.1 rfl sdp hsdp
            rw [hs] at htype
            cases htype
          | some sdpType =>
            rw [Option.bind_eq_bind, Option.bind_some]
            cases hstr : (sdp.lookup (literal "sdp")).asString with
            | none =>
              refine iff_of_false nofun fun hall => ?_
              obtain ⟨-, s, hs⟩ := hall.1 rfl sdp hsdp
              rw [hs] at hstr
              cases hstr
            | some sdpStr =>
              have hsome := handleSDP_isSome lib pauses sdpType sdpStr
                { h with localID := id }
              obtain ⟨h', hh'⟩ := Option.isSome_iff_exists.mp hsome
              refine iff_of_true ?_ ⟨fun _ sdp' hsdp' => ?_, fun hno => absurd hsdp (hno sdp)⟩
              · rw [Option.bind_some, hh']
                rfl
              · cases hsdp.symm.trans hsdp'
                exact ⟨⟨sdpType, Dynamic.asString_eq_some.mp htype⟩,
                  sdpStr, Dynamic.asString_eq_some.mp hstr⟩
        | none =>
          have hno := Dynamic.asMap_eq_none.mp hsdp
          refine (candidate_isSome_iff lib d _).trans
            ⟨fun hall => ⟨fun _ sdp h => absurd h (hno sdp), fun _ => hall⟩, fun hall => hall.2 hno⟩

/-- **A message handler panics exactly on messages of another form than it expects**, a message
without servers among them. -/
theorem msgHandler_isSome_iff (role : Role) (pauses : Pauses F PC DC role)
    (data : GoMap F) (h : CallHandler F PC DC) :
    (msgHandler lib role pauses data h).isSome ↔ Expected lib role pauses data h := by
  cases role with
  | caller => exact outgoingHandler_isSome_iff lib
  | receiver => exact incomingHandler_isSome_iff lib

/-- A library whose functions succeed. -/
def acting : Library ℤ Unit Unit where
  toInt64 := Int64.ofInt
  toUint16 := UInt16.ofInt
  newPeerConnection _ := some ()
  createDataChannel pc := (pc, some ())
  createOffer _ := some []
  createAnswer _ := some []
  setRemoteDescription pc _ _ := some pc
  addICECandidate pc _ := pc

/-- Nothing happens during the pauses. -/
def quiet : Pauses ℤ Unit Unit role := ⟨⟨none, id, nofun⟩, ⟨none, id, nofun⟩⟩

/-- `{"conversationParams":{}}` ends the process of a caller and of a receiver alike. -/
theorem msgHandler_noServers :
    msgHandler acting .caller quiet [(literal "conversationParams", .map [])]
        { conn := some 0, dcInbound := true } = none ∧
      msgHandler acting .receiver quiet [(literal "conversationParams", .map [])]
        { conn := some 0, dcInbound := true } = none :=
  ⟨rfl, rfl⟩

end CallHandler

end OpenFlux.Transport.Oneme
