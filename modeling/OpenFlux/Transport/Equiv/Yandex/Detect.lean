import OpenFlux.Transport.Yandex.Detect

/-!
# Detection and the transports

What `DetectDocumentTransport` takes for the modern editor passes the checks of `authorize`, and what
it takes for the legacy editor passes those checks of `fetchDocInfo` that detection makes as well.
`fetchDocInfo` needs more, a token and a document with a key (`HasDocument`), and asks for another
attempt where they are missing (`detectDocumentTransport_agrees`).
-/

namespace OpenFlux.Transport.Yandex

variable {F : Type} {parse : JsonNumber → Except Bytes F} {page : Dynamic JsonNumber}

/-- The client config has what the legacy transport needs beyond what detection looks at. -/
def HasDocument (page : Dynamic JsonNumber) : Prop :=
  ∃ config office editor document, page.intoMap = .ok config ∧
    (config.lookup (literal "officeActionData")).asMap = some office ∧
    (office.lookup (literal "editor_config")).asMap = some editor ∧
    (editor.lookup (literal "document")).asMap = some document ∧
    (editor.lookup (literal "token")).asText.isSome ∧
    (document.lookup (literal "key")).asText.isSome

/-- The errors of `fetchDocInfo` for what detection does not look at. -/
def documentErrors : List Bytes :=
  [literal "editor_config.document missing - will reconnect",
    literal "editor_config.token missing - will reconnect",
    literal "editor_config.document.key missing - will reconnect"]

theorem wrapError_ok_bind {α β : Type} (text : String) (a : α) (k : α → Checked β) :
    wrapError text (.ok a) >>= k = k a := rfl

/-! ### The config before and after the conversion of its numbers -/

theorem asText_lookup_convert {m : GoMap JsonNumber} {m' : GoMap F}
    (h : convertMembers parse m = .ok m') (name : Bytes) :
    (m'.lookup name).asText = (m.lookup name).asText := by
  rw [Dynamic.asText, Dynamic.asText, asString_convert (lookup_convert h name)]

theorem asMap_lookup_convert {m : GoMap JsonNumber} {m' : GoMap F}
    (h : convertMembers parse m = .ok m') {name : Bytes} {o' : GoMap F}
    (ho' : (m'.lookup name).asMap = some o') :
    ∃ o, (m.lookup name).asMap = some o ∧ convertMembers parse o = .ok o' := by
  rcases asMap_convert (lookup_convert h name) with ⟨-, hnone⟩ | ⟨o, o'', ho, ho'', hconvert⟩
  · exact absurd (hnone.symm.trans ho') nofun
  · obtain rfl := Option.some.inj (ho''.symm.trans ho')
    exact ⟨o, ho, hconvert⟩

theorem unmarshalMap_eq_ok {config : GoMap F} (h : unmarshalMap parse page = .ok config) :
    ∃ cfg, page.intoMap = .ok cfg ∧ convertMembers parse cfg = .ok config := by
  unfold unmarshalMap at h
  cases hcfg : page.intoMap with
  | error err =>
    rw [hcfg] at h
    cases h
  | ok cfg =>
    rw [hcfg] at h
    exact ⟨cfg, rfl, h⟩

/-! ### The three functions -/

/-- Detection has found an `officeActionData` with the texts of one editor or of the other. -/
theorem detect_eq_ok {transport : Bytes}
    (h : (detectDocumentTransport parse page).run = some (.ok transport)) :
    ∃ config office, unmarshalMap parse page = .ok config ∧
      (config.lookup (literal "officeActionData")).asMap = some office ∧
      (transport = documentTransportModern ∧
          (office.lookup (literal "action_url")).asText.isSome ∧
          (office.lookup (literal "access_token")).asText.isSome ∨
        transport = documentTransportLegacy ∧
          (office.lookup (literal "editor_config")).asMap.isSome ∧
          (office.lookup (literal "balancer_url")).asText.isSome) := by
  unfold detectDocumentTransport at h
  cases hconfig : unmarshalMap parse page with
  | error err =>
    rw [hconfig] at h
    cases h
  | ok config =>
    rw [hconfig, wrapError_ok_bind] at h
    split at h
    · next office hoffice =>
      refine ⟨config, office, rfl, hoffice, ?_⟩
      split_ifs at h with hmodern hlegacy
      · cases h
        exact .inl ⟨rfl, hmodern⟩
      · cases h
        exact .inr ⟨rfl, hlegacy⟩
      · cases h
    · cases h

/-- Behind the checks of detection, `fetchDocInfo` asks for a document, a token and a key. -/
theorem fetchDocInfo_of_detected {config office editor : GoMap F}
    (cookies : List (Bytes × Bytes)) (userID : Bytes)
    (hconfig : unmarshalMap parse page = .ok config)
    (hoffice : (config.lookup (literal "officeActionData")).asMap = some office)
    (heditor : (office.lookup (literal "editor_config")).asMap = some editor)
    (hbalancer : (office.lookup (literal "balancer_url")).asText.isSome) :
    (∃ info document, (fetchDocInfo parse cookies userID page).run = some (.ok info) ∧
        (editor.lookup (literal "document")).asMap = some document ∧
        (editor.lookup (literal "token")).asText.isSome ∧
        (document.lookup (literal "key")).asText.isSome) ∨
      (∃ err ∈ documentErrors, (fetchDocInfo parse cookies userID page).run = some (.error err)) ∧
        ∀ document, (editor.lookup (literal "document")).asMap = some document →
          ¬ ((editor.lookup (literal "token")).asText.isSome ∧
            (document.lookup (literal "key")).asText.isSome) := by
  obtain ⟨balancerURL, hbalancerURL⟩ := Option.isSome_iff_exists.mp hbalancer
  unfold fetchDocInfo
  rw [hconfig, wrapError_ok_bind, hoffice]
  dsimp only
  rw [heditor]
  dsimp only
  rw [hbalancerURL]
  dsimp only
  cases hdocument : (editor.lookup (literal "document")).asMap with
  | none => exact .inr ⟨⟨_, List.mem_cons_self .., rfl⟩, nofun⟩
  | some document =>
    dsimp only
    cases htoken : (editor.lookup (literal "token")).asText with
    | none => exact .inr ⟨⟨_, by simp [documentErrors], rfl⟩, by simp⟩
    | some token =>
      dsimp only
      cases hkey : (document.lookup (literal "key")).asText with
      | none =>
        refine .inr ⟨⟨_, by simp [documentErrors], rfl⟩, fun other hother => ?_⟩
        obtain rfl := Option.some.inj hother
        simp [hkey]
      | some docKey => exact .inl ⟨_, document, rfl, rfl, rfl, by rw [hkey]; rfl⟩

theorem getStr_ne_nil {m : GoMap JsonNumber} {key : Bytes} (h : (m.lookup key).asText.isSome) :
    getStr m key ≠ [] := by
  obtain ⟨s, hs⟩ := Option.isSome_iff_exists.mp h
  obtain ⟨hstr, hne⟩ := Option.filter_eq_some_iff.mp hs
  rw [getStr, Dynamic.asString_eq_some.mp hstr]
  simpa using hne

theorem authorize_of_detected {config office : GoMap JsonNumber}
    (hconfig : page.intoMap = .ok config)
    (hoffice : (config.lookup (literal "officeActionData")).asMap = some office)
    (haction : (office.lookup (literal "action_url")).asText.isSome)
    (htoken : (office.lookup (literal "access_token")).asText.isSome) :
    ∃ cfg, (authorize page).run = some (.ok cfg) := by
  unfold authorize
  rw [hconfig, wrapError_ok_bind, hoffice]
  dsimp only
  rw [if_neg (getStr_ne_nil haction), if_neg (getStr_ne_nil htoken)]
  exact ⟨_, rfl⟩

/-! ### No panic -/

theorem fetchDocInfo_ne_none (parse : JsonNumber → Except Bytes F)
    (cookies : List (Bytes × Bytes)) (userID : Bytes) (page : Dynamic JsonNumber) :
    (fetchDocInfo parse cookies userID page).run ≠ none := by
  unfold fetchDocInfo
  cases unmarshalMap parse page with
  | error err => exact nofun
  | ok config =>
    rw [wrapError_ok_bind]
    repeat' split
    all_goals exact nofun

theorem authorize_ne_none (page : Dynamic JsonNumber) : (authorize page).run ≠ none := by
  unfold authorize
  cases page.intoMap with
  | error err => exact nofun
  | ok config =>
    rw [wrapError_ok_bind]
    dsimp only
    split
    · split_ifs <;> exact nofun
    · exact nofun

/-! ### Detection against the transports -/

theorem hasDocument_iff {config office editor : GoMap F}
    (hconfig : unmarshalMap parse page = .ok config)
    (hoffice : (config.lookup (literal "officeActionData")).asMap = some office)
    (heditor : (office.lookup (literal "editor_config")).asMap = some editor) :
    HasDocument page ↔ ∃ document, (editor.lookup (literal "document")).asMap = some document ∧
      (editor.lookup (literal "token")).asText.isSome ∧
        (document.lookup (literal "key")).asText.isSome := by
  obtain ⟨cfg, hcfg, hconvert⟩ := unmarshalMap_eq_ok hconfig
  obtain ⟨o, ho, hconvert⟩ := asMap_lookup_convert hconvert hoffice
  obtain ⟨e, he, hconvert⟩ := asMap_lookup_convert hconvert heditor
  rw [asText_lookup_convert hconvert]
  constructor
  · rintro ⟨cfg', o', e', d, hcfg', ho', he', hd, htoken, hkey⟩
    cases hcfg.symm.trans hcfg'
    cases ho.symm.trans ho'
    cases he.symm.trans he'
    rcases asMap_convert (lookup_convert hconvert (literal "document")) with
      ⟨hnone, -⟩ | ⟨d', document, hd', hdocument, hconvert⟩
    · exact absurd (hnone.symm.trans hd) nofun
    · cases hd'.symm.trans hd
      exact ⟨document, hdocument, htoken, (asText_lookup_convert hconvert _).symm ▸ hkey⟩
  · rintro ⟨document, hdocument, htoken, hkey⟩
    obtain ⟨d, hd, hconvert⟩ := asMap_lookup_convert hconvert hdocument
    rw [asText_lookup_convert hconvert] at hkey
    exact ⟨cfg, o, e, d, hcfg, ho, he, hd, htoken, hkey⟩

/-- **Detection**: a page taken for the modern editor passes the checks of `authorize`, and of one
taken for the legacy editor `fetchDocInfo` makes an info, or asks for another attempt because the
editor's config has no token or no document with a key.  Neither ever panics. -/
theorem detectDocumentTransport_agrees (parse : JsonNumber → Except Bytes F)
    (cookies : List (Bytes × Bytes)) (userID : Bytes) (page : Dynamic JsonNumber) :
    ((detectDocumentTransport parse page).run = some (.ok documentTransportLegacy) →
      (HasDocument page ∧
        ∃ info, (fetchDocInfo parse cookies userID page).run = some (.ok info)) ∨
      ¬ HasDocument page ∧ ∃ err ∈ documentErrors,
        (fetchDocInfo parse cookies userID page).run = some (.error err)) ∧
    ((detectDocumentTransport parse page).run = some (.ok documentTransportModern) →
      ∃ cfg, (authorize page).run = some (.ok cfg)) ∧
    (fetchDocInfo parse cookies userID page).run ≠ none ∧ (authorize page).run ≠ none := by
  refine ⟨fun hlegacy => ?_, fun hmodern => ?_, fetchDocInfo_ne_none parse cookies userID page,
    authorize_ne_none page⟩
  · obtain ⟨config, office, hconfig, hoffice, ⟨hne, -⟩ | ⟨-, heditor, hbalancer⟩⟩ :=
      detect_eq_ok hlegacy
    · exact absurd hne (by decide)
    · obtain ⟨editor, heditor⟩ := Option.isSome_iff_exists.mp heditor
      rw [hasDocument_iff hconfig hoffice heditor]
      rcases fetchDocInfo_of_detected cookies userID hconfig hoffice heditor hbalancer with
        ⟨info, document, hinfo, hdocument⟩ | ⟨herr, hnone⟩
      · exact .inl ⟨⟨document, hdocument⟩, info, hinfo⟩
      · exact .inr ⟨fun ⟨document, hdocument, htexts⟩ => hnone document hdocument htexts, herr⟩
  · obtain ⟨config, office, hconfig, hoffice, ⟨-, haction, htoken⟩ | ⟨hne, -⟩⟩ :=
      detect_eq_ok hmodern
    · obtain ⟨cfg, hcfg, hconvert⟩ := unmarshalMap_eq_ok hconfig
      obtain ⟨o, ho, hconvert⟩ := asMap_lookup_convert hconvert hoffice
      rw [asText_lookup_convert hconvert] at haction htoken
      exact authorize_of_detected hcfg ho haction htoken
    · exact absurd hne (by decide)

/-- A page with an `editor_config` that is empty. -/
def emptyEditor : Dynamic JsonNumber :=
  .map [(literal "officeActionData", .map [
    (literal "editor_config", .map []),
    (literal "balancer_url", .str (literal "https://example.test"))])]

/-- Detection takes it for the legacy editor, and `fetchDocInfo` fails on it. -/
theorem not_fetchDocInfo_emptyEditor :
    ¬ ∀ page, (detectDocumentTransport (fun _ => .ok ()) page).run =
        some (.ok documentTransportLegacy) →
      ∃ info, (fetchDocInfo (fun _ => .ok ()) [] (literal "0123456789") page).run =
        some (.ok info) := by
  intro h
  obtain ⟨info, hinfo⟩ := h emptyEditor (by rfl)
  have herr : (fetchDocInfo (fun _ => .ok ()) [] (literal "0123456789") emptyEditor).run =
      some (.error (literal "editor_config.document missing - will reconnect")) := by rfl
  exact nomatch herr.symm.trans hinfo

end OpenFlux.Transport.Yandex
