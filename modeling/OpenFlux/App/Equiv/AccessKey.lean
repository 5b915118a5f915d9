import OpenFlux.Algorithm.JsonText
import OpenFlux.App.AccessKey
import OpenFlux.App.Equiv.Tunnel
import OpenFlux.Control.Equiv.Disk
import OpenFlux.Go.Base64

/-!
# Access keys from the server to the phone

The app takes a key of the server apart into the bundle that was signed (`parse_bundleToken`,
`decode_bundle_json`), whose strings are valid if the server's are (`valid_of_build`).  A link to
Hysteria is no JSON and the JSON of a tunnel is no link, so each profile is taken for what it is
(`ofBundle_eq_ok`), and the tunnel in it is the one that `build` made of the server's
(`build_eq_ok`, `documentProfile_eq_ok`).  `parse_create` puts them together.
-/

namespace OpenFlux.App

/-- The characters that a JSON text can start with. -/
def jsonStart : Bytes := literal " \t\n\r\x7b[\"-0123456789tfn"

/-- The libraries on both sides fit together: the app decodes the base64 of either side, and the
JSON of a value whose strings are valid UTF-8, which itself is.  A text in JSON starts with white
space or a value, and SHA-256 has 32 bytes. -/
structure Lawful (L : Control.Libs) (K : Libs) : Prop where
  decode_encode : ∀ {j : Json}, j.valid = true → K.decodeFromString (K.encodeToString j) = some j
  valid_encode : ∀ {j : Json}, j.valid = true → validUTF8 (K.encodeToString j) = true
  decode_marshal : ∀ {j : Json}, j.valid = true → K.decodeFromString (L.marshal j) = some j
  head_of_decode : ∀ {s j}, K.decodeFromString s = some j → ∃ c ∈ jsonStart, s.head? = some c
  urlDecode_encode : ∀ b, K.urlDecode (encodeRawURL b) = some b
  length_hmac : ∀ key message, (L.hmacSHA256 key message).length = 32

variable {L : Control.Libs} {K : Libs}

/-! ### Strings -/

/-- A string that starts and ends with other characters than white space is left alone by `trim`. -/
theorem trim_eq_self {s : Bytes} {c d : UInt8} (hc : s.head? = some c) (hd : s.getLast? = some d)
    (hstart : ∀ cut ∈ Kotlin.whitespace, ∃ b ∈ cut.head?, b ≠ c)
    (hend : ∀ cut ∈ Kotlin.whitespace.map List.reverse, ∃ b ∈ cut.head?, b ≠ d) :
    Kotlin.trim s = s := by
  obtain ⟨t, rfl⟩ := List.head?_eq_some_iff.mp hc
  have hrev : ∃ u, (c :: t).reverse = d :: u :=
    List.head?_eq_some_iff.mp (List.head?_reverse.trans hd)
  obtain ⟨u, hu⟩ := hrev
  rw [Kotlin.trim, Kotlin.trimEnd, trimCuts_of_head hstart, hu, trimCuts_of_head hend, ← hu,
    List.reverse_reverse]

theorem foldCase_cons {c : UInt8} (hc : c < 0x80) (s : Bytes) :
    Kotlin.foldCase (c :: s) =
      (if 0x61 ≤ c ∧ c ≤ 0x7A then c - 0x20 else c) :: Kotlin.foldCase s := by
  rw [Kotlin.foldCase]
  all_goals
    rintro t rfl -
    exact absurd hc (by decide)

theorem foldCase_append {pre : Bytes} (hpre : ∀ c ∈ pre, c < 0x80) (s : Bytes) :
    Kotlin.foldCase (pre ++ s) = Kotlin.foldCase pre ++ Kotlin.foldCase s := by
  induction pre with
  | nil => rfl
  | cons c pre ih =>
    obtain ⟨hc, hpre⟩ := List.forall_mem_cons.mp hpre
    rw [List.cons_append, foldCase_cons hc, foldCase_cons hc, ih hpre, List.cons_append]

/-- An ASCII beginning is found. -/
theorem startsWithIgnoreCase_append {pre : Bytes} (hpre : ∀ c ∈ pre, c < 0x80) (s : Bytes) :
    Kotlin.startsWithIgnoreCase (pre ++ s) pre = true := by
  rw [Kotlin.startsWithIgnoreCase, foldCase_append hpre, List.isPrefixOf_iff_prefix]
  exact List.prefix_append _ _

/-- A JSON text is no link. -/
theorem not_startsWithIgnoreCase_of_json {s : Bytes} {c : UInt8} (hc : c ∈ jsonStart)
    (hs : s.head? = some c) : Kotlin.startsWithIgnoreCase s (literal "hysteria2://") = false := by
  have hstart : ∀ c ∈ jsonStart,
      c < 0x80 ∧ (if 0x61 ≤ c ∧ c ≤ 0x7A then c - 0x20 else c) ≠ 0x48 := by
    decide +kernel
  obtain ⟨t, rfl⟩ := List.head?_eq_some_iff.mp hs
  rw [Kotlin.startsWithIgnoreCase, foldCase_cons (hstart c hc).1, Bool.eq_false_iff]
  intro hpre
  have hcons := List.isPrefixOf_iff_prefix.mp hpre
  exact (hstart c hc).2 (List.cons_prefix_cons.mp hcons).1.symm

/-! ### The token -/

theorem require_of {condition : Prop} [Decidable condition] (h : condition) (message : String) :
    require condition message = .ok () := by
  rw [require, if_pos h]

theorem encodeRawURL_ne_nil {b : Bytes} (h : b ≠ []) : encodeRawURL b ≠ [] := by
  match b with
  | [] => exact absurd rfl h
  | [a] => exact nofun
  | [a, b] => exact nofun
  | a :: b :: c :: rest => exact nofun

/-- What stands around the dot of a token is found again. -/
theorem split_token {payload : Bytes} (hpayload : (0x2E : UInt8) ∉ payload) (signature : Bytes) :
    (payload ++ 0x2E :: signature).idxOf 0x2E = payload.length ∧
      (payload ++ 0x2E :: signature).take payload.length = payload ∧
      (payload ++ 0x2E :: signature).drop (payload.length + 1) = signature := by
  refine ⟨?_, List.take_left, ?_⟩
  · rw [List.idxOf_append_of_notMem hpayload, List.idxOf_cons_self, Nat.add_zero]
  · rw [← List.drop_drop, List.drop_left]
    rfl

/-- There is no white space around a token. -/
theorem trim_token (payload : Bytes) {b : Bytes} (h : b ≠ []) :
    Kotlin.trim (literal "terzaet://" ++ (payload ++ encodeRawURL b)) =
      literal "terzaet://" ++ (payload ++ encodeRawURL b) := by
  obtain ⟨d, hd⟩ := Option.ne_none_iff_exists'.mp
    (List.getLast?_eq_none_iff.not.mpr (encodeRawURL_ne_nil h))
  have hlast : (literal "terzaet://" ++ (payload ++ encodeRawURL b)).getLast? = some d := by
    rw [← List.append_assoc, List.getLast?_append, hd]
    rfl
  have hrange := urlAlphabet_range d (encodeRawURL_subset _ d (List.mem_of_getLast? hd))
  have hwhitespace : ∀ cut ∈ Kotlin.whitespace.map List.reverse, ∃ b ∈ cut.head?,
      ¬(b = 0x2D ∨ 0x30 ≤ b ∧ b ≤ 0x39 ∨ 0x41 ≤ b ∧ b ≤ 0x7A) := by decide +kernel
  refine trim_eq_self rfl hlast (by decide +kernel) fun cut hcut => ?_
  obtain ⟨b, hb, hnot⟩ := hwhitespace cut hcut
  exact ⟨b, hb, fun heq => hnot (heq ▸ hrange)⟩

/-- `parse` of a signed bundle. -/
theorem parse_bundleToken (hlaw : Lawful L K) (secret : Bytes) {bundle : Control.Bundle}
    (hvalid : bundle.json.valid = true) (id : Int64) :
    TunnelBundleParser.parse K (Control.bundleToken L secret bundle) id =
      (orFailure (TunnelBundle.decode bundle.json)).bind fun bundle =>
        TunnelBundleParser.ofBundle K bundle id := by
  have hdecode := hlaw.decode_marshal hvalid
  have hpayload : L.marshal bundle.json ≠ [] := by
    intro hnil
    obtain ⟨c, -, hc⟩ := hlaw.head_of_decode hdecode
    rw [hnil] at hc
    cases hc
  have hmac : L.hmacSHA256 secret (L.marshal bundle.json) ≠ [] := by
    intro hnil
    have hlen := hlaw.length_hmac secret (L.marshal bundle.json)
    rw [hnil] at hlen
    cases hlen
  have hdot : (0x2E : UInt8) ∉ encodeRawURL (L.marshal bundle.json) :=
    fun hmem => absurd (urlAlphabet_range _ (encodeRawURL_subset _ _ hmem)) (by decide)
  set payload := L.marshal bundle.json
  set signature := encodeRawURL (L.hmacSHA256 secret payload) with hsignature
  obtain ⟨hidx, htake, hdrop⟩ := split_token hdot signature
  set token := encodeRawURL payload ++ 0x2E :: signature with htoken
  have hvalue : Control.bundleToken L secret bundle = literal "terzaet://" ++ token := by
    simp only [Control.bundleToken, htoken, List.append_assoc]
    rfl
  have hlen : 0 < (encodeRawURL payload).length ∧
      (encodeRawURL payload).length + 1 < token.length := by
    have hp := List.length_pos_of_ne_nil (encodeRawURL_ne_nil hpayload)
    have hs : 0 < signature.length := List.length_pos_of_ne_nil (encodeRawURL_ne_nil hmac)
    rw [htoken, List.length_append, List.length_cons]
    omega
  have htrim : Kotlin.trim (literal "terzaet://" ++ token) = literal "terzaet://" ++ token := by
    rw [htoken, List.append_cons]
    exact trim_token _ hmac
  have hprefix : Kotlin.startsWithIgnoreCase (literal "terzaet://" ++ token)
      (literal "terzaet://") = true := startsWithIgnoreCase_append (by decide +kernel) token
  have hbrace : Kotlin.startsWith (literal "terzaet://" ++ token) (literal "\x7b") = false := rfl
  have htail : (literal "terzaet://" ++ token).drop 10 = token := rfl
  simp only [TunnelBundleParser.parse, hvalue, htrim, hprefix, hbrace, htail, hidx, htake, hdrop,
    hlaw.urlDecode_encode, Bool.false_eq_true, if_false]
  rw [require_of trivial, require_of hlen, require_of (encodeRawURL_ne_nil hmac)]
  show (orFailure ((K.decodeFromString payload).bind TunnelBundle.decode) >>= fun bundle =>
    TunnelBundleParser.ofBundle K bundle id) = _
  rw [hdecode]
  rfl

/-! ### The bundle -/

/-- What the app reads of the bundle that `Create` makes. -/
theorem decode_bundle_json (userID : Bytes) (profiles : List Control.Profile) :
    TunnelBundle.decode
      ({ version := 1, userID, profiles := some profiles } : Control.Bundle).json =
      some { userId := userID, profiles := profiles.map fun p => ⟨p.name, p.uri⟩ } := by
  have hstr : ∀ s, Json.asString (.str s) = some s := fun _ => rfl
  have hprofile : ∀ p : Control.Profile,
      TunnelBundleProfile.decode p.json = some ⟨p.name, p.uri⟩ := by
    intro p
    simp +decide [TunnelBundleProfile.decode, Control.Profile.json, structJson, asObject, defaulted,
      values, GoValue.json, hstr]
  have hprofiles := asList_map hprofile profiles
  have hversion : asInt (.num 1) = some 1 := by decide
  simp +decide [TunnelBundle.decode, Control.Bundle.json, structJson, asObject, defaulted, values,
    GoValue.json, GoValue.isEmptyValue, hstr, hprofiles, hversion]

/-- The bundle is valid if its user and its profiles are. -/
theorem valid_bundle {userID : Bytes} (hid : validUTF8 userID = true)
    {profiles : List Control.Profile}
    (h : ∀ p ∈ profiles, validUTF8 p.name = true ∧ validUTF8 p.uri = true) :
    ({ version := 1, userID, profiles := some profiles } : Control.Bundle).json.valid = true := by
  have hname : ∀ name ∈ [literal "v", literal "u", literal "p", literal "name", literal "uri"],
      validUTF8 name = true := by
    decide +kernel
  simp only [List.forall_mem_cons] at hname
  obtain ⟨hv, hu, hp, hname, huri, -⟩ := hname
  have hprofiles : (Json.arr (profiles.map Control.Profile.json)).valid = true := by
    refine validItems_iff.mpr fun v hv => ?_
    obtain ⟨p, hp, rfl⟩ := List.mem_map.mp hv
    show validMembers [(literal "name", .str p.name), (literal "uri", .str p.uri)] = true
    simp only [validMembers_iff, List.forall_mem_cons]
    exact ⟨⟨hname, (h p hp).1⟩, ⟨huri, (h p hp).2⟩, nofun⟩
  show validMembers [(literal "v", .num 1), (literal "u", .str userID),
    (literal "p", .arr (profiles.map Control.Profile.json))] = true
  simp only [validMembers_iff, List.forall_mem_cons]
  exact ⟨⟨hv, rfl⟩, ⟨hu, hid⟩, ⟨hp, hprofiles⟩, nofun⟩

/-! ### The two kinds of profiles -/

theorem decodeTunnel_hysteria (hlaw : Lawful L K) {uri : Bytes}
    (h : literal "hysteria2://" <+: uri) : TunnelBundleParser.decodeTunnel K uri = none := by
  rcases hj : K.decodeFromString uri with _ | j
  · rw [TunnelBundleParser.decodeTunnel, hj]
    rfl
  · obtain ⟨c, hc, hhead⟩ := hlaw.head_of_decode hj
    obtain ⟨s, rfl⟩ := h
    obtain rfl : 0x68 = c := Option.some.inj hhead
    exact absurd hc (by decide)

theorem startsWith_hysteria {uri : Bytes} (h : literal "hysteria2://" <+: uri) :
    Kotlin.startsWithIgnoreCase uri (literal "hysteria2://") = true := by
  obtain ⟨s, rfl⟩ := h
  exact startsWithIgnoreCase_append (by decide +kernel) s

theorem decodeTunnel_document (hlaw : Lawful L K) {t : Tunnel} (ht : t.Valid) :
    TunnelBundleParser.decodeTunnel K (K.encodeToString t.encode) = some t := by
  rw [TunnelBundleParser.decodeTunnel, hlaw.decode_encode ht.valid_encode]
  exact t.decode_encode

theorem startsWith_document (hlaw : Lawful L K) {t : Tunnel} (ht : t.Valid) :
    Kotlin.startsWithIgnoreCase (K.encodeToString t.encode) (literal "hysteria2://") = false := by
  obtain ⟨c, hc, hhead⟩ := hlaw.head_of_decode (hlaw.decode_encode ht.valid_encode)
  exact not_startsWithIgnoreCase_of_json hc hhead

theorem hysteriaProfile_eq_ok {server : Tunnel} {profile : ManagedProfile}
    (h : ManagedUserProfiles.hysteriaProfile server = .ok profile) :
    server.hysteriaUri = some profile.uri ∧ Kotlin.isNotBlank profile.uri = true ∧
      validUTF8 profile.name = true := by
  unfold ManagedUserProfiles.hysteriaProfile at h
  split at h
  · next uri huri =>
    obtain ⟨hserver, hblank⟩ := Option.filter_eq_some_iff.mp huri
    have hname : validUTF8 (literal "Hysteria 2") = true := by decide +kernel
    rw [← Except.ok.inj h]
    exact ⟨hserver, hblank, hname⟩
  · cases h

/-- A tunnel to the server's document: the payload is that of a form with the trimmed address, and
what is left of the rest is the server's. -/
structure DocumentTunnel (server : Tunnel) (serverDocumentUrl : Option Bytes) (t : Tunnel) :
    Prop where
  transportType : t.transportType = server.transportType
  encryptionKey : t.encryptionKey = server.encryptionKey
  document : ∃ raw, serverDocumentUrl = some raw ∧
    Kotlin.startsWith (Kotlin.trim raw) (literal "https://") = true ∧
    TunnelPayload.build { TunnelPayload.parse server.transportType server.transportConnPayload with
      url := Kotlin.trim raw } = some t.transportConnPayload
  valid : server.Valid → (∀ s ∈ t.transportConnPayload, validUTF8 s = true) → t.Valid

theorem documentProfile_eq_ok {server : Tunnel} {serverDocumentUrl : Option Bytes}
    {profile : ManagedProfile}
    (h : ManagedUserProfiles.documentProfile K server serverDocumentUrl = .ok profile) :
    validUTF8 profile.name = true ∧ ∃ t : Tunnel, profile.uri = K.encodeToString t.encode ∧
      DocumentTunnel server serverDocumentUrl t := by
  have hmailru : validUTF8 (literal "Mail Документы") = true := by decide +kernel
  have hyandex : validUTF8 (literal "Яндекс Документы") = true := by decide +kernel
  have hmode : validUTF8 ConnectionMode.yandex.name = true := by decide +kernel
  unfold ManagedUserProfiles.documentProfile at h
  split at h
  · cases h
  · next url hurl =>
    obtain ⟨hmap, hstart⟩ := Option.filter_eq_some_iff.mp hurl
    obtain ⟨raw, hraw, rfl⟩ := Option.map_eq_some_iff.mp hmap
    dsimp only at h
    split at h
    · cases h
    · next payload hpayload =>
      rw [← Except.ok.inj h]
      refine ⟨?_, _, rfl, rfl, rfl, ⟨raw, hraw, hstart, hpayload⟩, fun hserver hvalid => ?_⟩
      · dsimp only
        split_ifs
        · exact hmailru
        · exact hyandex
      · exact ⟨hserver.name, hserver.transportType, hvalid, hserver.encryptionKey, nofun, nofun,
          nofun, hmode⟩

namespace DocumentTunnel

variable {server t : Tunnel} {serverDocumentUrl : Option Bytes}

theorem payload_ne_nil (h : DocumentTunnel server serverDocumentUrl t) :
    t.transportConnPayload ≠ [] := by
  obtain ⟨raw, -, -, hpayload⟩ := h.document
  obtain ⟨args, -, hargs⟩ := Option.map_eq_some_iff.mp hpayload
  rw [← hargs]
  exact List.cons_ne_nil _ _

theorem url (h : DocumentTunnel server serverDocumentUrl t)
    (htransport : (TransportType.ofString server.transportType).usesUrl = true) :
    ∃ url, serverDocumentUrl = some url ∧
      TunnelPayload.value "url" t.transportConnPayload = Kotlin.trim url := by
  obtain ⟨raw, hraw, -, hpayload⟩ := h.document
  exact ⟨raw, hraw, TunnelPayload.value_build hpayload htransport⟩

theorem valid_of_server (h : DocumentTunnel server serverDocumentUrl t)
    (htransport : (TransportType.ofString server.transportType).usesUrl = true)
    (hserver : server.Valid) (hurl : ∀ url ∈ serverDocumentUrl, validUTF8 url = true) :
    t.Valid := by
  obtain ⟨raw, hraw, -, hpayload⟩ := h.document
  exact h.valid hserver
    (TunnelPayload.valid_build hpayload htransport (Kotlin.validUTF8_trim (hurl raw hraw)))

end DocumentTunnel

theorem build_eq_ok {server : Tunnel} {includeYandex includeHysteria : Bool}
    {serverDocumentUrl : Option Bytes} {profiles : List ManagedProfile}
    (h : ManagedUserProfiles.build K server includeYandex includeHysteria serverDocumentUrl =
      .ok profiles) :
    ∃ hysteria document : Option ManagedProfile,
      profiles = hysteria.toList ++ document.toList ∧
      (if includeHysteria then
        ∃ p, hysteria = some p ∧ ManagedUserProfiles.hysteriaProfile server = .ok p
      else hysteria = none) ∧
      if includeYandex then
        ∃ p, document = some p ∧
          ManagedUserProfiles.documentProfile K server serverDocumentUrl = .ok p
      else document = none := by
  have hprofile : ∀ {included : Bool} {r : Except Failure ManagedProfile}
      {ps : List ManagedProfile},
      (if included then r.map ([·]) else .ok []) = Except.ok ps →
      ∃ o : Option ManagedProfile, ps = o.toList ∧
        if included then ∃ p, o = some p ∧ r = .ok p else o = none := by
    intro included r ps hps
    rcases included with _ | _
    · exact ⟨none, (Except.ok.inj hps).symm, rfl⟩
    · rcases r with err | p
      · cases hps
      · exact ⟨some p, (Except.ok.inj hps).symm, p, rfl, rfl⟩
  have hbind : ∀ {α β : Type} {x : Except Failure α} {f : α → Except Failure β} {b : β},
      (x >>= f) = .ok b → ∃ a, x = .ok a ∧ f a = .ok b := by
    intro α β x f b hx
    rcases x with err | a
    · cases hx
    · exact ⟨a, rfl, hx⟩
  unfold ManagedUserProfiles.build at h
  obtain ⟨hs, hhs, h⟩ := hbind h
  obtain ⟨ds, hds, h⟩ := hbind h
  obtain ⟨hysteria, rfl, hhysteria⟩ := hprofile hhs
  obtain ⟨document, rfl, hdocument⟩ := hprofile hds
  exact ⟨hysteria, document, (Except.ok.inj h).symm, hhysteria, hdocument⟩

/-- The strings of the profiles are valid if the server's are. -/
theorem valid_of_build (hlaw : Lawful L K) {server : Tunnel} {includeYandex includeHysteria : Bool}
    {serverDocumentUrl : Option Bytes} {profiles : List ManagedProfile}
    (h : ManagedUserProfiles.build K server includeYandex includeHysteria serverDocumentUrl =
      .ok profiles)
    (htransport : (TransportType.ofString server.transportType).usesUrl = true)
    (hserver : server.Valid) (hurl : ∀ url ∈ serverDocumentUrl, validUTF8 url = true) :
    ∀ p ∈ profiles, validUTF8 p.name = true ∧ validUTF8 p.uri = true := by
  obtain ⟨hysteria, document, rfl, hhys, hdoc⟩ := build_eq_ok h
  refine List.forall_mem_append.mpr ⟨fun p hp => ?_, fun p hp => ?_⟩
  · rcases includeHysteria with _ | _
    · obtain rfl : hysteria = none := hhys
      cases hp
    · obtain ⟨q, rfl, hq⟩ := hhys
      obtain rfl := List.mem_singleton.mp hp
      obtain ⟨huri, -, hname⟩ := hysteriaProfile_eq_ok hq
      exact ⟨hname, hserver.hysteriaUri _ huri⟩
  · rcases includeYandex with _ | _
    · obtain rfl : document = none := hdoc
      cases hp
    · obtain ⟨q, rfl, hq⟩ := hdoc
      obtain rfl := List.mem_singleton.mp hp
      obtain ⟨hname, t, huri, ht⟩ := documentProfile_eq_ok hq
      have hencode := hlaw.valid_encode (ht.valid_of_server htransport hserver hurl).valid_encode
      exact ⟨hname, huri ▸ hencode⟩

/-- The links and tunnels in the profiles of a server. -/
theorem map_uri_of_build {server : Tunnel} {includeYandex includeHysteria : Bool}
    {serverDocumentUrl : Option Bytes} {profiles : List ManagedProfile}
    (h : ManagedUserProfiles.build K server includeYandex includeHysteria serverDocumentUrl =
      .ok profiles) :
    ∃ (hysteria : Option Bytes) (document : Option Tunnel),
      profiles.map (·.uri) =
        hysteria.toList ++ document.toList.map (fun t => K.encodeToString t.encode) ∧
      (if includeHysteria then
        ∃ uri, hysteria = some uri ∧ server.hysteriaUri = some uri ∧ Kotlin.isNotBlank uri = true
      else hysteria = none) ∧
      if includeYandex then ∃ t, document = some t ∧ DocumentTunnel server serverDocumentUrl t
      else document = none := by
  obtain ⟨hysteria, document, rfl, hhys, hdoc⟩ := build_eq_ok h
  have hlink : if includeHysteria then ∃ uri, hysteria.map (·.uri) = some uri ∧
      server.hysteriaUri = some uri ∧ Kotlin.isNotBlank uri = true
      else hysteria.map (·.uri) = none := by
    rcases includeHysteria with _ | _
    · obtain rfl : hysteria = none := hhys
      rfl
    · obtain ⟨p, rfl, hp⟩ := hhys
      obtain ⟨huri, hblank, -⟩ := hysteriaProfile_eq_ok hp
      exact ⟨p.uri, rfl, huri, hblank⟩
  have htunnel : ∃ tunnel : Option Tunnel,
      document.map (·.uri) = tunnel.map (fun t => K.encodeToString t.encode) ∧
      if includeYandex then ∃ t, tunnel = some t ∧ DocumentTunnel server serverDocumentUrl t
      else tunnel = none := by
    rcases includeYandex with _ | _
    · obtain rfl : document = none := hdoc
      exact ⟨none, rfl, rfl⟩
    · obtain ⟨p, rfl, hp⟩ := hdoc
      obtain ⟨-, t, huri, ht⟩ := documentProfile_eq_ok hp
      exact ⟨some t, congrArg some huri, t, rfl, ht⟩
  obtain ⟨tunnel, huri, htunnel⟩ := htunnel
  refine ⟨hysteria.map (·.uri), tunnel, ?_, hlink, htunnel⟩
  rw [List.map_append, ← Option.toList_map, ← Option.toList_map, ← Option.toList_map, huri]

/-! ### The whole way -/

/-- The tunnel that the phone should end up with. -/
structure Imported (server : Tunnel) (includeYandex includeHysteria : Bool)
    (serverDocumentUrl : Option Bytes) (id : Int64) (t : Tunnel) : Prop where
  id : t.id = id
  adminHost : t.adminHost = none
  adminUser : t.adminUser = none
  adminPort : t.adminPort = none
  serverRevision : t.serverRevision = 0
  hysteriaUri : t.hysteriaUri = if includeHysteria then server.hysteriaUri else none
  document : includeYandex = true → t.transportType = server.transportType ∧
    t.encryptionKey = server.encryptionKey ∧ ∃ url, serverDocumentUrl = some url ∧
      (TunnelPayload.parse t.transportType t.transportConnPayload).url = Kotlin.trim url
  both : includeYandex = true → includeHysteria = true →
    t.connectionMode = ConnectionMode.auto.name ∧ t.autoFallback = true
  onlyHysteria : includeYandex = false →
    t.connectionMode = ConnectionMode.hysteria2.name ∧ t.autoFallback = false
  onlyDocument : includeHysteria = false →
    t.connectionMode = ConnectionMode.yandex.name ∧ t.autoFallback = false

/-- The tunnel for a bundle with profiles of one or both kinds. -/
theorem ofBundle_eq_ok (hlaw : Lawful L K) {hysteria : Option Bytes} {document : Option Tunnel}
    (hhysteria : ∀ uri ∈ hysteria, literal "hysteria2://" <+: uri)
    (hdocument : ∀ t ∈ document, t.Valid) {bundle : TunnelBundle} (hversion : bundle.version = 1)
    (hprofiles : bundle.profiles.map (·.uri) =
      hysteria.toList ++ document.toList.map fun t => K.encodeToString t.encode)
    (hsome : document ≠ none ∨ hysteria ≠ none) (id : Int64) :
    TunnelBundleParser.ofBundle K bundle id = .ok (TunnelBundleParser.imported
      (document.getD (TunnelBundleParser.hysteriaBase bundle id)) hysteria id) := by
  have hyandex : (bundle.profiles.map (·.uri)).findSome? (TunnelBundleParser.decodeTunnel K) =
      document := by
    rw [hprofiles]
    rcases hysteria with _ | uri <;> rcases document with _ | t
    · rfl
    · simp [decodeTunnel_document hlaw (hdocument t rfl)]
    · simp [decodeTunnel_hysteria hlaw (hhysteria uri rfl)]
    · simp [decodeTunnel_hysteria hlaw (hhysteria uri rfl),
        decodeTunnel_document hlaw (hdocument t rfl)]
  have hfound : (bundle.profiles.map (·.uri)).find?
      (Kotlin.startsWithIgnoreCase · (literal "hysteria2://")) = hysteria := by
    rw [hprofiles]
    rcases hysteria with _ | uri <;> rcases document with _ | t
    · rfl
    · simp [startsWith_document hlaw (hdocument t rfl)]
    · simp [startsWith_hysteria (hhysteria uri rfl)]
    · simp [startsWith_hysteria (hhysteria uri rfl)]
  rw [List.findSome?_map] at hyandex
  rw [List.find?_map] at hfound
  replace hyandex : (bundle.profiles.findSome? fun profile =>
      TunnelBundleParser.decodeTunnel K profile.uri) = document := hyandex
  replace hfound : (bundle.profiles.find? fun profile =>
      Kotlin.startsWithIgnoreCase profile.uri (literal "hysteria2://")).map (·.uri) = hysteria :=
    hfound
  simp only [TunnelBundleParser.ofBundle, hyandex, hfound]
  rw [require_of hversion, require_of hsome]
  rfl

/-- What the app makes of the link and the tunnel of the chosen protocols. -/
theorem imported_imported {server : Tunnel} {includeYandex includeHysteria : Bool}
    {serverDocumentUrl : Option Bytes} {hysteria : Option Bytes} {document : Option Tunnel}
    (hhys : if includeHysteria then
        ∃ uri, hysteria = some uri ∧ server.hysteriaUri = some uri ∧ Kotlin.isNotBlank uri = true
      else hysteria = none)
    (hdoc : if includeYandex then
        ∃ t, document = some t ∧ DocumentTunnel server serverDocumentUrl t
      else document = none)
    (htransport : (TransportType.ofString server.transportType).usesUrl = true)
    (hsome : document ≠ none ∨ hysteria ≠ none) (bundle : TunnelBundle) (id : Int64) :
    Imported server includeYandex includeHysteria serverDocumentUrl id
      (TunnelBundleParser.imported (document.getD (TunnelBundleParser.hysteriaBase bundle id))
        hysteria id) := by
  refine ⟨rfl, rfl, rfl, rfl, rfl, ?_, ?_, ?_, ?_, ?_⟩
  · rcases includeHysteria with _ | _
    · exact hhys
    · obtain ⟨uri, rfl, hserver, -⟩ := hhys
      exact hserver.symm
  · rintro rfl
    obtain ⟨t, rfl, ht⟩ := hdoc
    exact ⟨ht.transportType, ht.encryptionKey, ht.url htransport⟩
  · rintro rfl rfl
    obtain ⟨t, rfl, ht⟩ := hdoc
    obtain ⟨uri, rfl, -, hblank⟩ := hhys
    simp [TunnelBundleParser.imported, ht.payload_ne_nil, hblank]
  · rintro rfl
    obtain rfl : document = none := hdoc
    obtain ⟨uri, rfl⟩ := Option.ne_none_iff_exists'.mp (hsome.resolve_left fun h => h rfl)
    simp [TunnelBundleParser.imported, TunnelBundleParser.hysteriaBase]
  · rintro rfl
    obtain rfl : hysteria = none := hhys
    obtain ⟨t, rfl⟩ := Option.ne_none_iff_exists'.mp (hsome.resolve_right fun h => h rfl)
    simp [TunnelBundleParser.imported]

/-- **Access keys round-trip**: the key that `Create` makes of the profiles of a server with a URL
transport, whose strings are valid, is parsed, for every id, into the tunnel of the protocols that
were chosen. -/
theorem parse_create (hlaw : Lawful L K) {server : Tunnel} {includeYandex includeHysteria : Bool}
    {serverDocumentUrl : Option Bytes} {profiles : List ManagedProfile}
    (hbuild : ManagedUserProfiles.build K server includeYandex includeHysteria serverDocumentUrl =
      .ok profiles)
    (hne : profiles ≠ [])
    (htransport : (TransportType.ofString server.transportType).usesUrl = true)
    (hhysteria : includeHysteria = true → ∀ uri, server.hysteriaUri = some uri →
      literal "hysteria2://" <+: uri)
    (hserver : server.Valid) (hurl : ∀ url ∈ serverDocumentUrl, validUTF8 url = true)
    (s : Control.Store) (userAlias : Bytes) (trafficCap timeCap : Int64) (idBytes : Bytes)
    (now : Time) (save : Control.SaveResult) (id : Int64) :
    ∃ t, TunnelBundleParser.parse K (s.create L userAlias trafficCap timeCap
        (some (profiles.map fun p => ⟨p.name, p.uri⟩)) (.ok idBytes) now save).2.1.bundle id = .ok t ∧
      Imported server includeYandex includeHysteria serverDocumentUrl id t := by
  have hparse : TunnelBundleParser.parse K (s.create L userAlias trafficCap timeCap
      (some (profiles.map fun p => ⟨p.name, p.uri⟩)) (.ok idBytes) now save).2.1.bundle id =
      TunnelBundleParser.ofBundle K {
        userId := hexEncode idBytes
        profiles := profiles.map fun p => ⟨p.name, p.uri⟩ } id := by
    have hprofiles : ∀ p ∈ profiles.map fun p => (⟨p.name, p.uri⟩ : Control.Profile),
        validUTF8 p.name = true ∧ validUTF8 p.uri = true :=
      List.forall_mem_map.mpr (valid_of_build hlaw hbuild htransport hserver hurl)
    have hvalid := valid_bundle (validUTF8_of_ascii (Control.hexEncode_ascii idBytes)) hprofiles
    refine (parse_bundleToken hlaw s.secret hvalid id).trans ?_
    rw [decode_bundle_json, List.map_map]
    rfl
  obtain ⟨hysteria, document, huris, hhys, hdoc⟩ := map_uri_of_build hbuild
  have hlinks : ∀ uri ∈ hysteria, literal "hysteria2://" <+: uri := by
    intro uri hmem
    rcases includeHysteria with _ | _
    · rw [show hysteria = none from hhys] at hmem
      cases hmem
    · obtain ⟨uri', rfl, hserver, -⟩ := hhys
      obtain rfl := Option.some.inj hmem
      exact hhysteria rfl uri' hserver
  have hdocument : ∀ t ∈ document, t.Valid := by
    intro t hmem
    rcases includeYandex with _ | _
    · rw [show document = none from hdoc] at hmem
      cases hmem
    · obtain ⟨t', rfl, ht⟩ := hdoc
      obtain rfl := Option.some.inj hmem
      exact ht.valid_of_server htransport hserver hurl
  have hsome : document ≠ none ∨ hysteria ≠ none := by
    by_contra! hnone
    rw [hnone.1, hnone.2] at huris
    exact hne (List.map_eq_nil_iff.mp huris)
  have huris' : (profiles.map fun p => (⟨p.name, p.uri⟩ : TunnelBundleProfile)).map (·.uri) =
      hysteria.toList ++ document.toList.map fun t => K.encodeToString t.encode :=
    List.map_map.trans huris
  rw [hparse]
  exact ⟨_, ofBundle_eq_ok hlaw hlinks hdocument rfl huris' hsome id,
    imported_imported hhys hdoc htransport hsome _ id⟩

/-! ### A key -/

/-- The JSON texts that both sides write, and the signature of the key below. -/
def sampleControlLibs : Control.Libs where
  marshal := JsonText.write
  hmacSHA256 _ _ := [
    0x21, 0x2B, 0xBC, 0x3C, 0x5A, 0x4A, 0x45, 0x28, 0xF6, 0x6D, 0xDE, 0x20, 0x46, 0x68, 0x03,
    0x7B, 0xC6, 0xC6, 0x97, 0x4E, 0x82, 0x37, 0x4C, 0xF6, 0xAB, 0xEB, 0xFA, 0x95, 0x11, 0x24,
    0x78, 0xC0]

def sampleAppLibs : Libs where
  encodeToString := JsonText.write
  decodeFromString := JsonText.read
  urlDecode := Base64.decode rawURLEncoding

theorem sample_lawful : Lawful sampleControlLibs sampleAppLibs where
  decode_encode _ := JsonText.read_write _
  valid_encode := JsonText.valid_write
  decode_marshal _ := JsonText.read_write _
  head_of_decode := by
    intro s j h
    obtain ⟨c, hc, hs⟩ := JsonText.head_of_read h
    have hsub : ∀ c ∈ literal "\x7b[\"-0123456789tfn", c ∈ jsonStart := by decide +kernel
    exact ⟨c, hsub c hc, hs⟩
  urlDecode_encode := by
    intro b
    rw [encodeRawURL_eq]
    exact Base64.decode_encode b
  length_hmac _ _ := rfl

/-- A server with Hysteria and a document. -/
def sampleServer : Tunnel where
  id := 1
  name := literal "Server"
  transportType := literal "yandex"
  transportConnPayload := []
  adminHost := some (literal "10.0.0.1")
  adminUser := some (literal "root")
  adminPort := some 22
  hysteriaUri := some (literal "hysteria2://secret@example.com:443/")

theorem sampleServer_valid : sampleServer.Valid := by
  refine ⟨?_, ?_, nofun, nofun, ?_, ?_, ?_, ?_⟩ <;> decide +kernel

theorem sampleUrl_valid :
    ∀ url ∈ some (literal " https://disk.yandex.ru/d/x\n"), validUTF8 url = true := by
  decide +kernel

/-- The key for both protocols, under a secret of zeros. -/
theorem parse_create_both : ∃ profiles t,
    ManagedUserProfiles.build sampleAppLibs sampleServer true true
      (some (literal " https://disk.yandex.ru/d/x\n")) = .ok profiles ∧
    TunnelBundleParser.parse sampleAppLibs
      (Control.Store.create sampleControlLibs { secret := List.replicate 32 0 } (literal "anna") 0 0
        (some (profiles.map fun p => ⟨p.name, p.uri⟩)) (.ok (List.replicate 10 0))
        ⟨2026, 1, 1, 0, 0, 0, 0⟩ .saved).2.1.bundle 99 = .ok t ∧
    Imported sampleServer true true (some (literal " https://disk.yandex.ru/d/x\n")) 99 t := by
  have hhysteria : true = true → ∀ uri, sampleServer.hysteriaUri = some uri →
      literal "hysteria2://" <+: uri := by
    rintro - uri huri
    rw [← Option.some.inj huri]
    decide
  obtain ⟨profile, profiles, hbuild⟩ : ∃ profile profiles,
      ManagedUserProfiles.build sampleAppLibs sampleServer true true
        (some (literal " https://disk.yandex.ru/d/x\n")) = .ok (profile :: profiles) := ⟨_, _, rfl⟩
  obtain ⟨t, hparse, himported⟩ := parse_create sample_lawful hbuild (List.cons_ne_nil _ _)
    (by decide) hhysteria sampleServer_valid sampleUrl_valid { secret := List.replicate 32 0 }
    (literal "anna") 0 0 (List.replicate 10 0) ⟨2026, 1, 1, 0, 0, 0, 0⟩ .saved 99
  exact ⟨_, t, hbuild, hparse, himported⟩

end OpenFlux.App
