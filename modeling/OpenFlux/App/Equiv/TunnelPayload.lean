import OpenFlux.App.Equiv.Tunnel

/-!
# Forms and the command lines that are built from them

`build_parsed_iff`: a form that `build` accepts is read back unchanged exactly if its
values are `UrlKept` or `MaxKept`.  `value` and `hasFlag` look at every argument, the values among
them: `value_cons_eq_iff` says what they make of one.
-/

namespace OpenFlux.App.TunnelPayload

/-- The arguments of `build` after the transport's own. -/
def Form.switches (form : Form) : List Bytes :=
  (if form.legacyCodec then [literal "--codec", literal "legacy"] else []) ++
    (if form.debug then [literal "--debug"] else [])

/-! ### What is read in one argument -/

/-- After its dashes `arg` is `name`. -/
def Spells (arg : Bytes) (name : String) : Prop :=
  Kotlin.startsWith arg (literal "-") = true ∧ Kotlin.trimStart arg 0x2D = literal name

/-- After its dashes `arg` is `name=w`. -/
def Assigns (arg : Bytes) (name : String) (w : Bytes) : Prop :=
  Kotlin.startsWith arg (literal "-") = true ∧
    Kotlin.trimStart arg 0x2D = literal name ++ literal "=" ++ w

/-- `value` stops at `arg` when it looks for `name`. -/
def Sets (arg : Bytes) (name : String) : Prop := Spells arg name ∨ ∃ w, Assigns arg name w

instance (arg : Bytes) (name : String) : Decidable (Spells arg name) :=
  inferInstanceAs (Decidable (_ ∧ _))

instance (arg : Bytes) (name : String) (w : Bytes) : Decidable (Assigns arg name w) :=
  inferInstanceAs (Decidable (_ ∧ _))

variable {arg w x : Bytes} {name : String} {payload : List Bytes}

theorem not_assigns_of_spells (h : Spells arg name) : ¬ Assigns arg name w := by
  intro hassign
  have heq : literal name = literal name ++ literal "=" ++ w := h.2.symm.trans hassign.2
  have hlength := congrArg List.length heq
  simp only [List.length_append, show (literal "=").length = 1 by decide] at hlength
  omega

theorem Spells.not_sets {other : String} (h : Spells arg name)
    (hne : ¬ (literal name = literal other ∨ literal other ++ literal "=" <+: literal name)) :
    ¬ Sets arg other := by
  rintro (hspells | ⟨w, hassign⟩)
  · exact hne (.inl (h.2.symm.trans hspells.2))
  · exact hne (.inr ⟨w, hassign.2.symm.trans h.2⟩)

theorem substringAfter_assign (hname : 0x3D ∉ literal name) (w : Bytes) :
    Kotlin.substringAfter (literal name ++ literal "=" ++ w) 0x3D = w := by
  have hassign : literal name ++ literal "=" ++ w = literal name ++ 0x3D :: w := by
    rw [List.append_assoc]
    rfl
  rw [hassign, Kotlin.substringAfter, if_pos (by simp), List.dropWhile_append_of_pos]
  · simp
  · intro c hc
    have hne : c ≠ 0x3D := fun heq => hname (heq ▸ hc)
    simpa using hne

theorem value_of_spells (h : Spells arg name) (payload : List Bytes) :
    value name (arg :: payload) = payload.headD [] := by
  rw [value, h.1, h.2]
  simp

theorem value_of_assigns (hname : 0x3D ∉ literal name) (h : Assigns arg name w)
    (payload : List Bytes) : value name (arg :: payload) = w := by
  have hne : Kotlin.trimStart arg 0x2D ≠ literal name :=
    fun heq => not_assigns_of_spells ⟨h.1, heq⟩ h
  have hassign : Kotlin.startsWith (Kotlin.trimStart arg 0x2D) (literal name ++ literal "=") := by
    rw [h.2]
    exact List.isPrefixOf_iff_prefix.mpr ⟨w, rfl⟩
  rw [value, h.1]
  simp only [Bool.not_true, Bool.false_eq_true, if_false, if_neg hne, if_pos hassign]
  rw [h.2, substringAfter_assign hname]

theorem value_of_not_sets (h : ¬ Sets arg name) (payload : List Bytes) :
    value name (arg :: payload) = value name payload := by
  by_cases hdash : Kotlin.startsWith arg (literal "-") = true
  · have hne : Kotlin.trimStart arg 0x2D ≠ literal name := fun heq => h (.inl ⟨hdash, heq⟩)
    have hassign : ¬ Kotlin.startsWith (Kotlin.trimStart arg 0x2D)
        (literal name ++ literal "=") := by
      intro hassign
      obtain ⟨w, hw⟩ := List.isPrefixOf_iff_prefix.mp hassign
      exact h (.inr ⟨w, hdash, hw.symm⟩)
    rw [value, hdash]
    simp only [Bool.not_true, Bool.false_eq_true, if_false, if_neg hne, if_neg hassign]
  · rw [value, Bool.eq_false_of_not_eq_true hdash]
    rfl

theorem sets_iff : Sets arg name ↔ Kotlin.startsWith arg (literal "-") = true ∧
    (Kotlin.trimStart arg 0x2D = literal name ∨
      literal name ++ literal "=" <+: Kotlin.trimStart arg 0x2D) := by
  constructor
  · rintro (⟨hdash, hspells⟩ | ⟨w, hdash, hassign⟩)
    · exact ⟨hdash, .inl hspells⟩
    · exact ⟨hdash, .inr ⟨w, hassign.symm⟩⟩
  · rintro ⟨hdash, hspells | ⟨w, hassign⟩⟩
    · exact .inl ⟨hdash, hspells⟩
    · exact .inr ⟨w, hdash, hassign.symm⟩

instance : Decidable (Sets arg name) := decidable_of_iff _ sets_iff.symm

theorem value_cons_eq_iff (hname : 0x3D ∉ literal name) (arg : Bytes) (payload : List Bytes)
    (x : Bytes) :
    value name (arg :: payload) = x ↔
      (Spells arg name → payload.headD [] = x) ∧ (∀ w, Assigns arg name w → w = x) ∧
        (¬ Sets arg name → value name payload = x) := by
  by_cases hspells : Spells arg name
  · rw [value_of_spells hspells]
    constructor
    · intro h
      exact ⟨fun _ => h, fun w hw => absurd hw (not_assigns_of_spells hspells),
        fun hsets => absurd (.inl hspells) hsets⟩
    · intro h
      exact h.1 hspells
  by_cases hassigns : ∃ w, Assigns arg name w
  · obtain ⟨w, hw⟩ := hassigns
    rw [value_of_assigns hname hw]
    constructor
    · rintro rfl
      refine ⟨fun h => absurd h hspells, fun w' hw' => ?_, fun hsets => absurd (.inr ⟨w, hw⟩) hsets⟩
      exact List.append_cancel_left (hw'.2.symm.trans hw.2)
    · intro h
      exact h.2.1 w hw
  · have hsets : ¬ Sets arg name := not_or.mpr ⟨hspells, hassigns⟩
    rw [value_of_not_sets hsets]
    constructor
    · intro h
      exact ⟨fun hs => absurd hs hspells, fun w hw => absurd ⟨w, hw⟩ hassigns, fun _ => h⟩
    · intro h
      exact h.2.2 hsets

/-- The codec is `legacy` if `arg` says so, or leaves it to what follows. -/
theorem value_codec_cons_iff (arg : Bytes) {payload : List Bytes}
    (hnext : payload.headD [] ≠ literal "legacy") :
    value "codec" (arg :: payload) = literal "legacy" ↔
      Assigns arg "codec" (literal "legacy") ∨
        ¬ Sets arg "codec" ∧ value "codec" payload = literal "legacy" := by
  by_cases hsets : Sets arg "codec"
  · obtain hspells | ⟨w, hw⟩ := hsets
    · have hassign : ¬ Assigns arg "codec" (literal "legacy") := not_assigns_of_spells hspells
      rw [value_of_spells hspells]
      exact iff_of_false hnext (by simp [hassign, Sets, hspells])
    · have hsets : Sets arg "codec" := .inr ⟨w, hw⟩
      rw [value_of_assigns (by decide) hw]
      simp only [hsets, not_true, false_and, or_false]
      constructor
      · rintro rfl
        exact hw
      · intro hassign
        exact List.append_cancel_left (hw.2.symm.trans hassign.2)
  · have hassign : ¬ Assigns arg "codec" (literal "legacy") := fun h => hsets (.inr ⟨_, h⟩)
    rw [value_of_not_sets hsets]
    simp only [hsets, hassign, not_false_iff, true_and, false_or]

theorem hasFlag_cons (arg : Bytes) (payload : List Bytes) (name : String) :
    hasFlag (arg :: payload) name = true ↔ Spells arg name ∨ hasFlag payload name = true := by
  simp [hasFlag, Spells]

/-! ### The command line -/

/-- The arguments that no value is in. -/
theorem value_switches (form : Form) :
    value "url" form.switches = [] ∧ value "maxToken" form.switches = [] ∧
      value "maxUid" form.switches = [] ∧
      (value "codec" form.switches = literal "legacy" ↔ form.legacyCodec = true) := by
  unfold Form.switches
  cases form.legacyCodec <;> cases form.debug <;> decide

theorem hasFlag_switches (form : Form) :
    hasFlag form.switches "legacy" = false ∧ hasFlag form.switches "debug" = form.debug := by
  unfold Form.switches
  cases form.legacyCodec <;> cases form.debug <;> decide

theorem headD_switches (form : Form) :
    (form.switches.headD [] = [] ↔ form.legacyCodec = false ∧ form.debug = false) ∧
      form.switches.headD [] ≠ literal "legacy" := by
  unfold Form.switches
  cases form.legacyCodec <;> cases form.debug <;> decide

/-- The arguments before the transport's own. -/
theorem value_head (t : TransportType) (payload : List Bytes) {name : String}
    (hname : name ∈ ["url", "maxToken", "maxUid", "codec"]) :
    value name (literal "--role" :: literal "client" :: literal "--transport" :: t.cliName ::
        payload) =
      value name payload := by
  have hcli : Kotlin.startsWith t.cliName (literal "-") = false := by cases t <;> decide
  have hskip : ∀ flag ∈ [literal "--role", literal "--transport"],
      Kotlin.startsWith flag (literal "-") = true ∧ Kotlin.trimStart flag 0x2D ≠ literal name ∧
        Kotlin.startsWith (Kotlin.trimStart flag 0x2D) (literal name ++ literal "=") = false := by
    revert hname name
    decide
  have hrole := hskip (literal "--role") (by decide)
  have htransport := hskip (literal "--transport") (by decide)
  rw [value_skip _ hrole.1 hrole.2.1 hrole.2.2 (by decide),
    value_skip _ htransport.1 htransport.2.1 htransport.2.2 hcli]

theorem hasFlag_head (t : TransportType) (payload : List Bytes) {name : String}
    (hname : name ∈ ["legacy", "debug"]) :
    hasFlag (literal "--role" :: literal "client" :: literal "--transport" :: t.cliName :: payload)
        name =
      hasFlag payload name := by
  have hargs : ∀ name ∈ ["legacy", "debug"], ∀ arg ∈ [literal "--role", literal "client",
      literal "--transport", t.cliName], (Kotlin.startsWith arg (literal "-") &&
        decide (Kotlin.trimStart arg 0x2D = literal name)) = false := by
    cases t <;> decide
  have hargs := hargs name hname
  simp only [hasFlag, List.any_cons, hargs _ (by simp : literal "--role" ∈ _),
    hargs _ (by simp : literal "client" ∈ _), hargs _ (by simp : literal "--transport" ∈ _),
    hargs _ (by simp : t.cliName ∈ _), Bool.false_or]

theorem build_url {form : Form} {payload : List Bytes} (h : build form = some payload)
    (hurl : form.transport.usesUrl = true) :
    payload = literal "--role" :: literal "client" :: literal "--transport" ::
      form.transport.cliName :: literal "--url" :: form.url :: form.switches := by
  obtain ⟨args, hargs, rfl⟩ := Option.map_eq_some_iff.mp h
  rw [if_pos hurl] at hargs
  split_ifs at hargs
  rw [← Option.some.inj hargs, List.append_assoc]
  rfl

theorem build_max {form : Form} {payload : List Bytes} (h : build form = some payload)
    (hurl : form.transport.usesUrl = false) :
    payload = literal "--role" :: literal "client" :: literal "--transport" ::
      form.transport.cliName :: literal "--maxToken" :: form.maxToken :: literal "--maxUid" ::
      form.maxUid :: form.switches := by
  obtain ⟨args, hargs, rfl⟩ := Option.map_eq_some_iff.mp h
  rw [if_neg (by simp [hurl])] at hargs
  split_ifs at hargs
  rw [← Option.some.inj hargs, List.append_assoc]
  rfl

theorem ofString_name (t : TransportType) : TransportType.ofString t.name = t := by
  cases t <;> decide

theorem parse_eq_iff (form : Form) (payload : List Bytes) :
    parse form.transport.name payload = form ↔
      value "url" payload = form.url ∧ value "maxToken" payload = form.maxToken ∧
        value "maxUid" payload = form.maxUid ∧
        (value "codec" payload = literal "legacy" ∨ hasFlag payload "legacy" = true ↔
          form.legacyCodec = true) ∧
        (hasFlag payload "debug" = true ↔ form.debug = true) := by
  obtain ⟨transport, url, maxToken, maxUid, legacyCodec, debug⟩ := form
  simp only [parse, ofString_name, Form.mk.injEq, true_and]
  rw [Bool.eq_iff_iff, Bool.or_eq_true, decide_eq_true_iff, Bool.eq_iff_iff (b := debug)]

/-- `arg`, with the switches after it, gives the field `name` no value. -/
def Form.Unset (form : Form) (arg : Bytes) (name : String) : Prop :=
  (Spells arg name → form.legacyCodec = false ∧ form.debug = false) ∧
    ∀ w, Assigns arg name w → w = []

theorem value_last_eq_nil_iff (form : Form) (arg : Bytes) {name : String}
    (hname : name ∈ ["url", "maxToken", "maxUid"]) :
    value name (arg :: form.switches) = [] ↔ form.Unset arg name := by
  have hnoEq : ∀ name ∈ ["url", "maxToken", "maxUid"], 0x3D ∉ literal name := by decide
  have hswitches : value name form.switches = [] := by
    obtain ⟨hurl, htoken, huid, -⟩ := value_switches form
    simp only [List.mem_cons, List.not_mem_nil, or_false] at hname
    obtain rfl | rfl | rfl := hname
    · exact hurl
    · exact htoken
    · exact huid
  rw [value_cons_eq_iff (hnoEq name hname), (headD_switches form).1, hswitches]
  simp only [implies_true, and_true, Form.Unset]

/-! ### Forms with a URL -/

/-- The URL is read as the URL and as nothing else. -/
structure UrlKept (form : Form) : Prop where
  maxToken : form.Unset form.url "maxToken"
  maxUid : form.Unset form.url "maxUid"
  codec : form.legacyCodec = true → Sets form.url "codec" →
    Assigns form.url "codec" (literal "legacy")
  legacy : Assigns form.url "codec" (literal "legacy") ∨ Spells form.url "legacy" →
    form.legacyCodec = true
  debug : Spells form.url "debug" → form.debug = true

theorem parse_build_url_iff {form : Form} {payload : List Bytes}
    (hbuild : build form = some payload) (hurl : form.transport.usesUrl = true)
    (htoken : form.maxToken = []) (huid : form.maxUid = []) :
    parse form.transport.name payload = form ↔ UrlKept form := by
  have hfield : ∀ name ∈ ["maxToken", "maxUid"], value name payload = [] ↔
      form.Unset form.url name := by
    have hnames : ∀ name ∈ ["maxToken", "maxUid"], name ∈ ["url", "maxToken", "maxUid", "codec"] ∧
      name ∈ ["url", "maxToken", "maxUid"] ∧ ¬ Sets (literal "--url") name := by decide
    intro name hname
    obtain ⟨hhead, hlast, hflag⟩ := hnames name hname
    rw [build_url hbuild hurl, value_head _ _ hhead, value_of_not_sets hflag,
      value_last_eq_nil_iff form _ hlast]
  have hcodec : value "codec" payload = literal "legacy" ↔
      Assigns form.url "codec" (literal "legacy") ∨
        ¬ Sets form.url "codec" ∧ form.legacyCodec = true := by
    rw [build_url hbuild hurl, value_head _ _ (by decide), value_of_not_sets (by decide),
      value_codec_cons_iff _ (headD_switches form).2, (value_switches form).2.2.2]
  have hhas : ∀ name ∈ ["legacy", "debug"], hasFlag payload name = true ↔
      Spells form.url name ∨ hasFlag form.switches name = true := by
    have hflag : ∀ name ∈ ["legacy", "debug"], ¬ Spells (literal "--url") name := by decide
    intro name hname
    rw [build_url hbuild hurl, hasFlag_head _ _ hname, hasFlag_cons, hasFlag_cons]
    simp only [hflag name hname, false_or]
  rw [parse_eq_iff, htoken, huid, hfield _ (by decide), hfield _ (by decide),
    hcodec, hhas _ (by decide), hhas _ (by decide), (hasFlag_switches form).1,
    (hasFlag_switches form).2]
  constructor
  · rintro ⟨-, htoken, huid, hlegacy, hdebug⟩
    refine ⟨htoken, huid, ?_, ?_, fun h => hdebug.mp (.inl h)⟩
    · intro hon hsets
      obtain (hassign | ⟨hnot, -⟩) | hspells | hfalse := hlegacy.mpr hon
      · exact hassign
      · exact absurd hsets hnot
      · exact absurd hsets (hspells.not_sets (by decide))
      · cases hfalse
    · rintro (hassign | hspells)
      · exact hlegacy.mp (.inl (.inl hassign))
      · exact hlegacy.mp (.inr (.inl hspells))
  · intro h
    refine ⟨value_build hbuild hurl, h.maxToken, h.maxUid, ⟨?_, ?_⟩, ⟨?_, .inr⟩⟩
    · rintro ((hassign | ⟨-, hon⟩) | hspells | hfalse)
      · exact h.legacy (.inl hassign)
      · exact hon
      · exact h.legacy (.inr hspells)
      · cases hfalse
    · intro hon
      by_cases hsets : Sets form.url "codec"
      · exact .inl (.inl (h.codec hon hsets))
      · exact .inl (.inr ⟨hsets, hon⟩)
    · rintro (hspells | hon)
      · exact h.debug hspells
      · exact hon

/-! ### Forms with a token -/

/-- The token and the user id are read as themselves and as nothing else. -/
structure MaxKept (form : Form) : Prop where
  url_maxToken : ¬ Spells form.maxToken "url" ∧ ∀ w, Assigns form.maxToken "url" w → w = []
  url_maxUid : ¬ Assigns form.maxToken "url" [] → form.Unset form.maxUid "url"
  maxUid : (Spells form.maxToken "maxUid" → form.maxUid = literal "--maxUid") ∧
    ∀ w, Assigns form.maxToken "maxUid" w → w = form.maxUid
  codec : form.legacyCodec = true →
    (Sets form.maxToken "codec" →
      Assigns form.maxToken "codec" (literal "legacy") ∨ Spells form.maxUid "legacy") ∧
    (¬ Sets form.maxToken "codec" → Sets form.maxUid "codec" →
      Assigns form.maxUid "codec" (literal "legacy") ∨ Spells form.maxToken "legacy")
  legacy : Assigns form.maxToken "codec" (literal "legacy") ∨ Spells form.maxToken "legacy" ∨
      Spells form.maxUid "legacy" ∨
      ¬ Sets form.maxToken "codec" ∧ Assigns form.maxUid "codec" (literal "legacy") →
    form.legacyCodec = true
  debug : Spells form.maxToken "debug" ∨ Spells form.maxUid "debug" → form.debug = true

theorem parse_build_max_iff {form : Form} {payload : List Bytes}
    (hbuild : build form = some payload) (husesUrl : form.transport.usesUrl = false)
    (hurl : form.url = []) :
    parse form.transport.name payload = form ↔ MaxKept form := by
  have hpayload := build_max hbuild husesUrl
  have hurlField : value "url" payload = [] ↔
      (¬ Spells form.maxToken "url" ∧ ∀ w, Assigns form.maxToken "url" w → w = []) ∧
        (¬ Assigns form.maxToken "url" [] → form.Unset form.maxUid "url") := by
    rw [hpayload, value_head _ _ (by decide), value_of_not_sets (by decide),
      value_cons_eq_iff (by decide), value_of_not_sets (by decide),
      value_last_eq_nil_iff form _ (by decide)]
    have hnext : (literal "--maxUid" :: form.maxUid :: form.switches).headD [] ≠ [] := by
      rw [List.headD_cons]
      decide
    simp only [hnext, imp_false, and_assoc]
    refine and_congr_right fun hspells => and_congr_right fun hassigns =>
      imp_congr_left (not_congr ?_)
    constructor
    · rintro (h | ⟨w, hw⟩)
      · exact absurd h hspells
      · exact hassigns w hw ▸ hw
    · intro h
      exact .inr ⟨_, h⟩
  have htoken : value "maxToken" payload = form.maxToken := by
    rw [hpayload, value_head _ _ (by decide), value_of_spells (by decide)]
    rfl
  have huid : value "maxUid" payload = form.maxUid ↔
      (Spells form.maxToken "maxUid" → form.maxUid = literal "--maxUid") ∧
        ∀ w, Assigns form.maxToken "maxUid" w → w = form.maxUid := by
    rw [hpayload, value_head _ _ (by decide), value_of_not_sets (by decide),
      value_cons_eq_iff (by decide), value_of_spells (by decide)]
    simp only [List.headD_cons, implies_true, and_true, eq_comm]
  have hcodec : value "codec" payload = literal "legacy" ↔
      Assigns form.maxToken "codec" (literal "legacy") ∨ ¬ Sets form.maxToken "codec" ∧
        (Assigns form.maxUid "codec" (literal "legacy") ∨
          ¬ Sets form.maxUid "codec" ∧ form.legacyCodec = true) := by
    have hnext :
        (literal "--maxUid" :: form.maxUid :: form.switches).headD [] ≠ literal "legacy" := by
      rw [List.headD_cons]
      decide
    rw [hpayload, value_head _ _ (by decide), value_of_not_sets (by decide),
      value_codec_cons_iff _ hnext, value_of_not_sets (by decide),
      value_codec_cons_iff _ (headD_switches form).2, (value_switches form).2.2.2]
  have hhas : ∀ name ∈ ["legacy", "debug"], hasFlag payload name = true ↔
      Spells form.maxToken name ∨ Spells form.maxUid name ∨ hasFlag form.switches name = true := by
    have hflag : ∀ name ∈ ["legacy", "debug"],
        ¬ Spells (literal "--maxToken") name ∧ ¬ Spells (literal "--maxUid") name := by decide
    intro name hname
    rw [hpayload, hasFlag_head _ _ hname, hasFlag_cons, hasFlag_cons, hasFlag_cons, hasFlag_cons]
    simp only [hflag name hname, false_or]
  rw [parse_eq_iff, hurl, hurlField, huid, hcodec, hhas _ (by decide), hhas _ (by decide),
    (hasFlag_switches form).1, (hasFlag_switches form).2]
  constructor
  · rintro ⟨⟨htokenUrl, huidUrl⟩, -, huid, hlegacy, hdebug⟩
    refine ⟨htokenUrl, huidUrl, huid, ?_, ?_, ?_⟩
    · intro hon
      obtain (hassign | ⟨hnot, hassign | ⟨hnotUid, -⟩⟩) | hspells | hspells | hfalse :=
        hlegacy.mpr hon
      · exact ⟨fun _ => .inl hassign, fun hnot => absurd (.inr ⟨_, hassign⟩) hnot⟩
      · exact ⟨fun hsets => absurd hsets hnot, fun _ _ => .inl hassign⟩
      · exact ⟨fun hsets => absurd hsets hnot, fun _ hsets => absurd hsets hnotUid⟩
      · exact ⟨fun hsets => absurd hsets (hspells.not_sets (by decide)), fun _ _ => .inr hspells⟩
      · exact ⟨fun _ => .inr hspells, fun _ hsets => absurd hsets (hspells.not_sets (by decide))⟩
      · cases hfalse
    · rintro (hassign | hspells | hspells | ⟨hnot, hassign⟩)
      · exact hlegacy.mp (.inl (.inl hassign))
      · exact hlegacy.mp (.inr (.inl hspells))
      · exact hlegacy.mp (.inr (.inr (.inl hspells)))
      · exact hlegacy.mp (.inl (.inr ⟨hnot, .inl hassign⟩))
    · rintro (hspells | hspells)
      · exact hdebug.mp (.inl hspells)
      · exact hdebug.mp (.inr (.inl hspells))
  · intro h
    refine ⟨⟨h.url_maxToken, h.url_maxUid⟩, htoken, h.maxUid, ⟨?_, ?_⟩,
      ⟨?_, fun hon => .inr (.inr hon)⟩⟩
    · rintro ((hassign | ⟨hnot, hassign | ⟨-, hon⟩⟩) | hspells | hspells | hfalse)
      · exact h.legacy (.inl hassign)
      · exact h.legacy (.inr (.inr (.inr ⟨hnot, hassign⟩)))
      · exact hon
      · exact h.legacy (.inr (.inl hspells))
      · exact h.legacy (.inr (.inr (.inl hspells)))
      · cases hfalse
    · intro hon
      by_cases hsets : Sets form.maxToken "codec"
      · obtain hassign | hspells := (h.codec hon).1 hsets
        · exact .inl (.inl hassign)
        · exact .inr (.inr (.inl hspells))
      · by_cases huidSets : Sets form.maxUid "codec"
        · obtain hassign | hspells := (h.codec hon).2 hsets huidSets
          · exact .inl (.inr ⟨hsets, .inl hassign⟩)
          · exact .inr (.inl hspells)
        · exact .inl (.inr ⟨hsets, .inr ⟨huidSets, hon⟩⟩)
    · rintro (hspells | hspells | hon)
      · exact h.debug (.inl hspells)
      · exact h.debug (.inr hspells)
      · exact hon

/-! ### All forms -/

/-- The fields that the transport does not use are empty. -/
def Form.UnusedEmpty (form : Form) : Prop :=
  if form.transport.usesUrl then form.maxToken = [] ∧ form.maxUid = [] else form.url = []

instance (form : Form) : Decidable form.UnusedEmpty :=
  inferInstanceAs (Decidable (if form.transport.usesUrl then
    form.maxToken = [] ∧ form.maxUid = [] else form.url = []))

theorem build_parsed_iff {form : Form} {payload : List Bytes} (hbuild : build form = some payload)
    (hunused : form.UnusedEmpty) :
    parse form.transport.name payload = form ↔
      if form.transport.usesUrl then UrlKept form else MaxKept form := by
  by_cases hurl : form.transport.usesUrl = true
  · rw [Form.UnusedEmpty, if_pos hurl] at hunused
    rw [if_pos hurl]
    exact parse_build_url_iff hbuild hurl hunused.1 hunused.2
  · rw [Form.UnusedEmpty, if_neg hurl] at hunused
    rw [if_neg hurl]
    exact parse_build_max_iff hbuild (Bool.eq_false_of_not_eq_true hurl) hunused

/-- A URL that is a debug switch. -/
def debugUrl : Form := { transport := .yandex, url := literal "--debug" }

theorem debugUrl_not_parsed :
    ¬ ∀ (form : Form) (payload : List Bytes), build form = some payload → form.UnusedEmpty →
      parse form.transport.name payload = form := by
  intro h
  exact absurd (h debugUrl _ rfl (by decide)) (by decide)

theorem build_parsed_maxUid :
    parse (literal "max") [literal "--role", literal "client", literal "--transport",
        literal "oneme", literal "--maxToken", literal "--maxUid", literal "--maxUid",
        literal "--maxUid"] =
      { transport := .max, maxToken := literal "--maxUid", maxUid := literal "--maxUid" } := by
  have hplain : ∀ arg name, ¬ Sets arg name → ∀ w, ¬ Assigns arg name w :=
    fun _ _ h w hw => h (.inr ⟨w, hw⟩)
  refine (@build_parsed_iff ⟨.max, [], literal "--maxUid", literal "--maxUid", false, false⟩ _ rfl
    (by decide)).mpr ?_
  exact {
    url_maxToken := ⟨by decide, fun w hw => absurd hw (hplain _ _ (by decide) w)⟩
    url_maxUid := fun _ => ⟨by decide, fun w hw => absurd hw (hplain _ _ (by decide) w)⟩
    maxUid := ⟨fun _ => rfl, fun w hw => absurd hw (not_assigns_of_spells (by decide))⟩
    codec := by simp
    legacy := by decide
    debug := by decide }

end OpenFlux.App.TunnelPayload
