import OpenFlux.App.Equiv.AccessKey
import OpenFlux.App.Equiv.NativeArgs
import OpenFlux.Main.Equiv.Encryption
import OpenFlux.Main.Settings

/-!
# From an access key to a running client

A form of the app becomes a payload, the payload a command line, and the command line the options of
the client.  `launch` says that these are what the form asks for, as long as none of its values is
taken for a flag.  The address of a document in an access key never is, so whoever imports a key
ends up with a client on the channel of the server, with the keys of its exit (`client_of_key`).
-/

namespace OpenFlux.App

open OpenFlux.Flag Main NativeArgs

/-! ### Values -/

/-- The filter keeps the value, and no alias is expanded in it. -/
structure Carried (v : Bytes) : Prop where
  boolean : named v ownedBoolean = false
  withValue : named v ownedWithValue = false
  expand : expandShortFlag v = v

/-- A value that starts with another character than a dash is no flag. -/
theorem carried_of_head {c : UInt8} {v : Bytes} (hc : c ≠ 0x2D) : Carried (c :: v) := by
  have hdash : Kotlin.startsWith (c :: v) [0x2D] = false := by
    simp [Kotlin.startsWith, List.isPrefixOf, hc.symm]
  have hname : flagName (c :: v) = none := by
    rw [flagName, hdash]
    rfl
  refine ⟨by rw [named, hname]; rfl, by rw [named, hname]; rfl, ?_⟩
  have hall : ∀ entry ∈ aliases, entry.1.head? = some 0x2D := by decide +kernel
  have hfind : aliases.find? (fun entry => usesAlias (c :: v) entry.1) = none := by
    rw [List.find?_eq_none]
    intro entry hentry huses
    obtain ⟨short, hshort⟩ := List.head?_eq_some_iff.mp (hall entry hentry)
    simp only [usesAlias, hshort, List.cons_append, Bool.or_eq_true, beq_iff_eq, List.cons.injEq,
      List.isPrefixOf_iff_prefix, List.cons_prefix_cons] at huses
    rcases huses with ⟨h, -⟩ | ⟨h, -⟩
    · exact hc h
    · exact hc h.symm
  rw [expandShortFlag, hfind]

theorem keep_carried {v : Bytes} (h : Carried v) (payload : List Bytes) :
    keep (v :: payload) = v :: keep payload := by
  rw [keep.eq_def]
  dsimp only
  rw [h.boolean, h.withValue]
  rfl

/-- Of such values only, everything is kept and nothing is expanded. -/
theorem keep_eq_self {args : List Bytes} (h : ∀ v ∈ args, Carried v) :
    keep args = args ∧ expandShortFlags args = args := by
  induction args with
  | nil => exact ⟨rfl, rfl⟩
  | cons v args ih =>
    obtain ⟨hv, hargs⟩ := List.forall_mem_cons.mp h
    obtain ⟨hkeep, hexpand⟩ := ih hargs
    refine ⟨by rw [keep_carried hv, hkeep], ?_⟩
    show expandShortFlag v :: expandShortFlags args = _
    rw [hv.expand, hexpand]

theorem carried_literal : ∀ v ∈ [literal "--transport", literal "--url", literal "--maxToken",
    literal "--maxUid", literal "--codec", literal "legacy", literal "--debug"], Carried v := by
  intro v hv
  have hall : ∀ v ∈ [literal "--transport", literal "--url", literal "--maxToken",
      literal "--maxUid", literal "--codec", literal "legacy", literal "--debug"],
      named v ownedBoolean = false ∧ named v ownedWithValue = false ∧ expandShortFlag v = v := by
    decide +kernel
  exact ⟨(hall v hv).1, (hall v hv).2.1, (hall v hv).2.2⟩

theorem carried_cliName (t : App.TransportType) : Carried t.cliName := by
  cases t
  all_goals exact ⟨by decide +kernel, by decide +kernel, by decide +kernel⟩

/-! ### The arguments of a form -/

namespace TunnelPayload

/-- The values that the transport needs. -/
def Form.values (form : Form) : List Bytes :=
  if form.transport.usesUrl then [form.url] else [form.maxToken, form.maxUid]

/-- The arguments for the transport. -/
def Form.transportArgs (form : Form) : List Bytes :=
  literal "--transport" :: form.transport.cliName ::
    if form.transport.usesUrl then [literal "--url", form.url]
    else [literal "--maxToken", form.maxToken, literal "--maxUid", form.maxUid]

/-- The arguments after them. -/
def Form.modifiers (form : Form) : List Bytes :=
  (if form.legacyCodec then [literal "--codec", literal "legacy"] else []) ++
    if form.debug then [literal "--debug"] else []

theorem build_eq_some {form : Form} {payload : List Bytes} (h : build form = some payload) :
    payload = literal "--role" :: literal "client" :: (form.transportArgs ++ form.modifiers) := by
  obtain ⟨args, hargs, rfl⟩ := Option.map_eq_some_iff.mp h
  unfold Form.transportArgs Form.modifiers
  split_ifs at hargs with hurl hnone hnone
  · rw [← Option.some.inj hargs, if_pos hurl]
    simp only [List.cons_append, List.nil_append]
  · rw [← Option.some.inj hargs, if_neg hurl]
    simp only [List.cons_append, List.nil_append]

/-- All arguments are kept but for the role, which the app sets itself. -/
theorem keep_build {form : Form} {payload : List Bytes} (h : build form = some payload)
    (hvalues : ∀ v ∈ form.values, Carried v) :
    keep payload = form.transportArgs ++ form.modifiers ∧
      expandShortFlags (keep payload) = form.transportArgs ++ form.modifiers := by
  have hall : ∀ v ∈ form.transportArgs ++ form.modifiers, Carried v := by
    intro v hv
    unfold Form.transportArgs Form.modifiers at hv
    unfold Form.values at hvalues
    have hlit := carried_literal
    simp only [List.forall_mem_cons, List.not_mem_nil, false_implies, implies_true,
      and_true] at hlit
    obtain ⟨htransport, hurl, htoken, huid, hcodec, hlegacy, hdebug⟩ := hlit
    have hcli := carried_cliName form.transport
    cases form.transport.usesUrl <;> cases form.legacyCodec <;> cases form.debug <;>
      simp at hv hvalues <;> grind
  have hrole : keep payload = keep (form.transportArgs ++ form.modifiers) := by
    rw [build_eq_some h]
    have hbool : named (literal "--role") ownedBoolean = false := by decide +kernel
    have hvalue : named (literal "--role") ownedWithValue = true := by decide +kernel
    have hequals : (0x3D : UInt8) ∉ literal "--role" := by decide +kernel
    rw [keep.eq_def]
    dsimp only
    rw [hbool, hvalue, if_neg Bool.false_ne_true, if_pos rfl, if_neg hequals]
  obtain ⟨hargs, hexpand⟩ := keep_eq_self hall
  rw [hrole, hargs]
  exact ⟨rfl, hexpand⟩

end TunnelPayload

/-! ### The parse -/

/-- Only these flags are set. -/
structure SetsOnly (names : List Bytes) (f g : FlagSet) : Prop where
  formal : ∀ name, name ∉ names → g.formal name = f.formal name
  actual : ∀ name, name ∉ names → (name ∈ g.actual ↔ name ∈ f.actual)

theorem SetsOnly.refl (names : List Bytes) (f : FlagSet) : SetsOnly names f f :=
  ⟨fun _ _ => rfl, fun _ _ => Iff.rfl⟩

theorem SetsOnly.trans {names : List Bytes} {f g h : FlagSet} (hfg : SetsOnly names f g)
    (hgh : SetsOnly names g h) : SetsOnly names f h :=
  ⟨fun name hname => (hgh.formal name hname).trans (hfg.formal name hname),
    fun name hname => (hgh.actual name hname).trans (hfg.actual name hname)⟩

theorem setsOnly_setString (f : FlagSet) {name : Bytes} {names : List Bytes} (hname : name ∈ names)
    (text : Bytes) : SetsOnly names f (f.setString name text) := by
  have hne : ∀ other, other ∉ names → other ≠ name := by
    rintro other hother rfl
    exact hother hname
  refine ⟨fun other hother => f.formal_setString_of_ne (hne other hother) text, ?_⟩
  intro other hother
  show other ∈ f.actual ++ [name] ↔ _
  rw [List.mem_append, List.mem_singleton, or_iff_left (hne other hother)]

theorem setsOnly_setBool (f : FlagSet) {name : Bytes} {names : List Bytes} (hname : name ∈ names)
    (v : Bool) : SetsOnly names f (f.setBool name v) := by
  have hne : ∀ other, other ∉ names → other ≠ name := by
    rintro other hother rfl
    exact hother hname
  refine ⟨fun other hother => f.formal_setBool_of_ne (hne other hother) v, ?_⟩
  intro other hother
  show other ∈ f.actual ++ [name] ↔ _
  rw [List.mem_append, List.mem_singleton, or_iff_left (hne other hother)]

/-- The flags of the transports, and those after them. -/
def transportFlags : List Bytes :=
  [literal "transport", literal "url", literal "maxToken", literal "maxUid"]

def modifierFlags : List Bytes := [literal "codec", literal "debug"]

/-- Flags that no argument of a form sets, and that change what the others come to. -/
def deprecatedFlags : List Bytes := [literal "legacy", literal "bench-send", literal "bench-sink"]

theorem classify_flags :
    classify (literal "--transport") = .flag (literal "transport") none ∧
    classify (literal "--url") = .flag (literal "url") none ∧
    classify (literal "--maxToken") = .flag (literal "maxToken") none ∧
    classify (literal "--maxUid") = .flag (literal "maxUid") none ∧
    classify (literal "--codec") = .flag (literal "codec") none ∧
    classify (literal "--debug") = .flag (literal "debug") none := by
  decide +kernel

namespace TunnelPayload

/-- The flags `--codec` and `--debug`, as the form asks for them. -/
structure Modified (form : Form) (g : FlagSet) : Prop where
  codec : g.formal (literal "codec") =
    some (.string (if form.legacyCodec then codecLegacy else codecBatched))
  debug : g.formal (literal "debug") = some (.bool form.debug)

theorem parse_modifiers (form : Form) {f : FlagSet}
    (hcodec : f.formal (literal "codec") = some (.string codecBatched))
    (hdebug : f.formal (literal "debug") = some (.bool false)) :
    ∃ g, Flag.parse f form.modifiers = .ok g ∧ Modified form g ∧ SetsOnly modifierFlags f g := by
  obtain ⟨-, -, -, -, codecFlag, debugFlag⟩ := classify_flags
  have hne : literal "debug" ≠ literal "codec" := by decide +kernel
  have mcodec : literal "codec" ∈ modifierFlags := List.mem_cons_self ..
  have mdebug : literal "debug" ∈ modifierFlags := List.mem_cons_of_mem _ (List.mem_cons_self ..)
  -- first the codec, then the log level
  have hfirst : ∃ g, (∀ args, Flag.parse f ((if form.legacyCodec then [literal "--codec",
      literal "legacy"] else []) ++ args) = Flag.parse g args) ∧
      g.formal (literal "codec") =
        some (.string (if form.legacyCodec then codecLegacy else codecBatched)) ∧
      g.formal (literal "debug") = some (.bool false) ∧ SetsOnly modifierFlags f g := by
    cases form.legacyCodec with
    | false => exact ⟨f, fun _ => rfl, hcodec, hdebug, .refl _ f⟩
    | true =>
      refine ⟨f.setString (literal "codec") codecLegacy, fun args => ?_,
        f.formal_setString_self .., ?_, setsOnly_setString f mcodec _⟩
      · exact parse_string codecFlag hcodec codecLegacy args
      · rw [f.formal_setString_of_ne hne]
        exact hdebug
  obtain ⟨g, hparse, hgcodec, hgdebug, hsets⟩ := hfirst
  unfold Form.modifiers
  rw [hparse]
  cases hd : form.debug with
  | false => exact ⟨g, rfl, ⟨hgcodec, hd ▸ hgdebug⟩, hsets⟩
  | true =>
    refine ⟨g.setBool (literal "debug") true, parse_bool debugFlag hgdebug [], ⟨?_, ?_⟩,
      hsets.trans (setsOnly_setBool g mdebug true)⟩
    · rw [g.formal_setBool_of_ne hne.symm]
      exact hgcodec
    · rw [hd]
      exact g.formal_setBool_self ..

/-- The flags of the transport, as the form asks for them. -/
structure Addressed (form : Form) (g : FlagSet) : Prop where
  transport : g.formal (literal "transport") = some (.string form.transport.cliName)
  url : form.transport.usesUrl = true →
    g.formal (literal "url") = some (.string form.url) ∧ literal "url" ∈ g.actual
  account : form.transport.usesUrl = false →
    g.formal (literal "maxToken") = some (.string form.maxToken) ∧
      g.formal (literal "maxUid") = some (.string form.maxUid) ∧ literal "url" ∉ g.actual

theorem parse_transportArgs (form : Form) {f : FlagSet}
    (hstring : ∀ name ∈ transportFlags, ∃ v, f.formal name = some (.string v))
    (hurl : literal "url" ∉ f.actual) (rest : List Bytes) :
    ∃ g, Flag.parse f (form.transportArgs ++ rest) = Flag.parse g rest ∧ Addressed form g ∧
      SetsOnly transportFlags f g := by
  obtain ⟨transportFlag, urlFlag, tokenFlag, uidFlag, -, -⟩ := classify_flags
  have hmem : ∀ name ∈ transportFlags, name ∈ transportFlags := fun _ h => h
  simp only [transportFlags, List.forall_mem_cons, List.not_mem_nil, false_implies, implies_true,
    and_true] at hstring hmem
  obtain ⟨⟨v, hv⟩, ⟨u, hu⟩, ⟨t, ht⟩, ⟨i, hi⟩⟩ := hstring
  obtain ⟨mtransport, murl, mtoken, muid⟩ := hmem
  set f₁ := f.setString (literal "transport") form.transport.cliName with hf₁
  have hfirst : ∀ args, Flag.parse f (literal "--transport" :: form.transport.cliName :: args) =
      Flag.parse f₁ args := parse_string transportFlag hv _
  have hother : ∀ {name : Bytes}, name ≠ literal "transport" → f₁.formal name = f.formal name :=
    fun h => f.formal_setString_of_ne h _
  have hsets₁ : SetsOnly transportFlags f f₁ := setsOnly_setString f mtransport _
  have hself : f₁.formal (literal "transport") = some (.string form.transport.cliName) :=
    f.formal_setString_self ..
  unfold Form.transportArgs
  cases huses : form.transport.usesUrl with
  | true =>
    refine ⟨f₁.setString (literal "url") form.url, ?_, ⟨?_, fun _ => ⟨?_, ?_⟩, ?_⟩,
      hsets₁.trans (setsOnly_setString f₁ murl _)⟩
    · refine (hfirst _).trans ?_
      exact parse_string urlFlag ((hother (by decide +kernel)).trans hu) form.url rest
    · rw [f₁.formal_setString_of_ne (by decide +kernel)]
      exact hself
    · exact f₁.formal_setString_self ..
    · exact List.mem_append_right _ (List.mem_singleton_self _)
    · rw [huses]
      exact nofun
  | false =>
    set f₂ := f₁.setString (literal "maxToken") form.maxToken with hf₂
    refine ⟨f₂.setString (literal "maxUid") form.maxUid, ?_, ⟨?_, ?_, fun _ => ⟨?_, ?_, ?_⟩⟩,
      (hsets₁.trans (setsOnly_setString f₁ mtoken _)).trans (setsOnly_setString f₂ muid _)⟩
    · refine (hfirst _).trans ?_
      have ht₁ : f₁.formal (literal "maxToken") = some (.string t) :=
        (hother (by decide +kernel)).trans ht
      refine (parse_string tokenFlag ht₁ form.maxToken _).trans ?_
      have hi₂ : f₂.formal (literal "maxUid") = some (.string i) := by
        rw [f₁.formal_setString_of_ne (by decide +kernel), hother (by decide +kernel)]
        exact hi
      exact parse_string uidFlag hi₂ form.maxUid rest
    · rw [f₂.formal_setString_of_ne (by decide +kernel),
        f₁.formal_setString_of_ne (by decide +kernel)]
      exact hself
    · rw [huses]
      exact nofun
    · rw [f₂.formal_setString_of_ne (by decide +kernel)]
      exact f₁.formal_setString_self ..
    · exact f₂.formal_setString_self ..
    · show literal "url" ∉ ((f.actual ++ [literal "transport"]) ++ [literal "maxToken"]) ++
        [literal "maxUid"]
      have hnot : literal "url" ∉ [literal "transport", literal "maxToken", literal "maxUid"] := by
        decide +kernel
      rw [List.append_assoc, List.append_assoc, List.mem_append, not_or]
      exact ⟨hurl, hnot⟩

theorem Addressed.of_setsOnly {form : Form} {f g : FlagSet} (h : Addressed form f)
    (hsets : SetsOnly modifierFlags f g) : Addressed form g := by
  have hnot : ∀ name ∈ transportFlags, name ∉ modifierFlags := by decide +kernel
  have hformal : ∀ name ∈ transportFlags, g.formal name = f.formal name :=
    fun name hname => hsets.formal name (hnot name hname)
  have hactual : literal "url" ∈ g.actual ↔ literal "url" ∈ f.actual :=
    hsets.actual _ (by decide +kernel)
  simp only [transportFlags, List.forall_mem_cons, List.not_mem_nil, false_implies, implies_true,
    and_true] at hformal
  obtain ⟨stransport, surl, stoken, suid⟩ := hformal
  refine ⟨stransport.trans h.transport, fun huses => ?_, fun huses => ?_⟩
  · obtain ⟨hurl, hmem⟩ := h.url huses
    exact ⟨surl.trans hurl, hactual.mpr hmem⟩
  · obtain ⟨htoken, huid, hmem⟩ := h.account huses
    exact ⟨stoken.trans htoken, suid.trans huid, fun hmem' => hmem (hactual.mp hmem')⟩

/-! ### The command line -/

/-- The app's own arguments set none of the flags of a form. -/
theorem withOwn_formal (socksAddress : Bytes) (keyFile : Option Bytes) :
    ∀ name ∈ transportFlags ++ (modifierFlags ++ deprecatedFlags),
      (withOwn socksAddress keyFile).formal name = commandLine.formal name := by
  have hfree : ∀ name ∈ transportFlags ++ (modifierFlags ++ deprecatedFlags), name ∉ fixed := by
    decide +kernel
  obtain ⟨-, -, -, -, -, -, -, hagree⟩ := withOwn_spec socksAddress keyFile
  exact fun name hname => hagree name (hfree name hname)

theorem url_notMem_withOwn (socksAddress : Bytes) (keyFile : Option Bytes) :
    literal "url" ∉ (withOwn socksAddress keyFile).actual := by
  cases keyFile with
  | none =>
    show literal "url" ∉ [literal "role", literal "inbound", literal "socks5"]
    decide +kernel
  | some keyFile =>
    show literal "url" ∉ [literal "role", literal "inbound", literal "socks5",
      literal "encryption-key-file"]
    decide +kernel

/-- The flags that the client reads. -/
theorem parse_form {form : Form} {payload : List Bytes} (h : build form = some payload)
    (hvalues : ∀ v ∈ form.values, Carried v) {socksAddress : Bytes} {keyFile : Option Bytes}
    (hsocks : expandShortFlag socksAddress = socksAddress)
    (hkeyFile : keyFile.map expandShortFlag = keyFile) :
    ∃ g, Flag.parse commandLine
        (expandShortFlags (NativeArgs.build payload socksAddress keyFile)) = .ok g ∧
      Addressed form g ∧ Modified form g ∧
      ∀ name ∈ deprecatedFlags, g.formal name = commandLine.formal name := by
  have hformal := withOwn_formal socksAddress keyFile
  have hstring : ∀ name ∈ transportFlags,
      ∃ v, (withOwn socksAddress keyFile).formal name = some (.string v) := by
    have hdefined : ∀ name ∈ transportFlags, ∃ v, commandLine.formal name = some (.string v) := by
      simp only [transportFlags, List.forall_mem_cons, List.not_mem_nil, false_implies,
        implies_true, and_true]
      exact ⟨⟨_, rfl⟩, ⟨_, rfl⟩, ⟨_, rfl⟩, ⟨_, rfl⟩⟩
    intro name hname
    obtain ⟨v, hv⟩ := hdefined name hname
    exact ⟨v, (hformal name (List.mem_append_left _ hname)).trans hv⟩
  -- first the transport, then the modifiers, and each leaves the other's flags alone
  obtain ⟨f, hparse₁, haddressed, hsets₁⟩ := parse_transportArgs form hstring
    (url_notMem_withOwn socksAddress keyFile) form.modifiers
  have hkept : ∀ name ∈ modifierFlags ++ deprecatedFlags,
      f.formal name = commandLine.formal name := by
    have hnot : ∀ name ∈ modifierFlags ++ deprecatedFlags, name ∉ transportFlags := by
      decide +kernel
    intro name hname
    exact (hsets₁.formal name (hnot name hname)).trans
      (hformal name (List.mem_append_right _ hname))
  obtain ⟨g, hparse₂, hmodified, hsets₂⟩ := parse_modifiers form
    ((hkept (literal "codec") (by decide +kernel)).trans rfl)
    ((hkept (literal "debug") (by decide +kernel)).trans rfl)
  refine ⟨g, ?_, haddressed.of_setsOnly hsets₂, hmodified, fun name hname => ?_⟩
  · rw [NativeArgs.build, expandShortFlags, List.map_append]
    refine (parse_own socksAddress keyFile _).trans ?_
    rw [hsocks, hkeyFile]
    refine (congrArg (Flag.parse _) (keep_build h hvalues).2).trans ?_
    rw [hparse₁, hparse₂]
  · have hnot : ∀ name ∈ deprecatedFlags, name ∉ modifierFlags := by decide +kernel
    exact (hsets₂.formal name (hnot name hname)).trans
      (hkept name (List.mem_append_right _ hname))

/-! ### The client -/

/-- The client runs what the form asks for. -/
structure Serves (form : Form) (o : Options) : Prop where
  transport : o.flags.string (literal "transport") = form.transport.cliName
  url : form.transport.usesUrl = true →
    o.flags.string (literal "url") = form.url ∧ literal "url" ∈ o.flags.actual
  account : form.transport.usesUrl = false →
    o.flags.string (literal "maxToken") = form.maxToken ∧
      o.flags.string (literal "maxUid") = form.maxUid ∧ literal "url" ∉ o.flags.actual
  codec : o.codec = if form.legacyCodec then codecLegacy else codecBatched
  debug : o.flags.bool (literal "debug") = form.debug

/-- The options that the flags come to. -/
theorem serves_mapFlags (darwin : Bool) {form : Form} {g : FlagSet} (haddressed : Addressed form g)
    (hmodified : Modified form g)
    (hlegacy : g.formal (literal "legacy") = commandLine.formal (literal "legacy")) :
    Serves form (mapFlags darwin g) ∧ knownCodec (mapFlags darwin g) := by
  have hcodec : (mapFlags darwin g).codec =
      if form.legacyCodec then codecLegacy else codecBatched := by
    have hl : g.bool (literal "legacy") = false := by
      rw [FlagSet.bool, hlegacy]
      rfl
    show (if g.bool (literal "legacy") then codecLegacy else g.string (literal "codec")) = _
    rw [hl, FlagSet.string, hmodified.codec]
    rfl
  refine ⟨⟨?_, fun huses => ?_, fun huses => ?_, hcodec, ?_⟩, ?_⟩
  · show g.string _ = _
    rw [FlagSet.string, haddressed.transport]
  · obtain ⟨hurl, hmem⟩ := haddressed.url huses
    refine ⟨?_, hmem⟩
    show g.string _ = _
    rw [FlagSet.string, hurl]
  · obtain ⟨htoken, huid, hmem⟩ := haddressed.account huses
    refine ⟨?_, ?_, hmem⟩
    · show g.string _ = _
      rw [FlagSet.string, htoken]
    · show g.string _ = _
      rw [FlagSet.string, huid]
  · show g.bool _ = _
    rw [FlagSet.bool, hmodified.debug]
  · rw [knownCodec, hcodec]
    cases form.legacyCodec
    · exact .inl rfl
    · exact .inr rfl

/-- **What the app starts is what the form asks for**, when none of its values is taken for a
flag. -/
theorem launch (darwin : Bool) {form : Form} {payload : List Bytes} (h : build form = some payload)
    (hvalues : ∀ v ∈ form.values, Carried v) {socksAddress : Bytes} {keyFile : Option Bytes}
    (hsocks : expandShortFlag socksAddress = socksAddress)
    (hkeyFile : ∀ k ∈ keyFile, expandShortFlag k = k) :
    ∃ o, reachSwitch darwin (NativeArgs.build payload socksAddress keyFile) = .ok o ∧
      Faithful socksAddress keyFile o ∧ Serves form o := by
  have hmap : keyFile.map expandShortFlag = keyFile := by
    cases keyFile with
    | none => rfl
    | some k => exact congrArg some (hkeyFile k rfl)
  obtain ⟨g, hparse, haddressed, hmodified, hrest⟩ := parse_form h hvalues hsocks hmap
  have hextends : Extends {name | name ∈ fixed} (withOwn socksAddress keyFile) g := by
    rcases parse_build payload socksAddress keyFile with ⟨code, herror, -⟩ | ⟨g', -, hg', -, -, hg⟩
    · rw [hparse] at herror
      cases herror
    · rw [hparse] at hg'
      obtain rfl := Except.ok.inj hg'
      rw [hsocks, hmap] at hg
      exact hg
  obtain ⟨hrole, hinbound, hsocks5, hkey⟩ := mapFlags_of_extends darwin hextends
  simp only [deprecatedFlags, List.forall_mem_cons, List.not_mem_nil, false_implies, implies_true,
    and_true] at hrest
  obtain ⟨hlegacy, hsend, hsink⟩ := hrest
  obtain ⟨hserves, hknown⟩ := serves_mapFlags darwin haddressed hmodified hlegacy
  refine ⟨mapFlags darwin g, ?_, ⟨hrole.mpr ⟨?_, ?_⟩, hinbound, hsocks5, hkey⟩, hserves⟩
  · rw [reachSwitch, hparse]
    exact if_pos hknown
  · rw [FlagSet.int, hsend]
    exact le_refl _
  · rw [FlagSet.bool, hsink]
    rfl

end TunnelPayload

/-! ### From the key to the exit -/

section Keys

open Transport Transport.Encrypted

variable {L : Control.Libs} {K : Libs}

/-- An address that starts with `https://` is no flag. -/
theorem carried_https {url : Bytes} (h : Kotlin.startsWith url (literal "https://") = true) :
    Carried url ∧ url ≠ [] := by
  obtain ⟨rest, rfl⟩ := List.isPrefixOf_iff_prefix.mp h
  exact ⟨carried_of_head (c := 0x68) (by decide), List.cons_ne_nil _ _⟩

/-- A client and an exit with one transport of documents, one address and one secret. -/
theorem peers_of_document {transport : App.TransportType} {url : Bytes}
    (hdocument : transport = .yandex ∨ transport = .vyandex ∨ transport = .mailru) (hurl : url ≠ [])
    {client exit : Settings} (hclient : client.role = .client) (hexit : exit.role = .exit)
    (htransport : client.transportType.name = transport.cliName)
    (htransport' : exit.transportType.name = transport.cliName) (hclientUrl : client.url = some url)
    (hexitUrl : exit.url = some url)
    (hsecret : trimSpace client.encryptionKey = trimSpace exit.encryptionKey) :
    Main.Peers client exit := by
  have hname : ∀ t t' : Main.TransportType, t.name = t'.name → t = t' := by
    intro t t' h
    cases t <;> cases t' <;> first | rfl | exact absurd h (by decide +kernel)
  have hsame : ∀ t : Main.TransportType, t.name = transport.cliName →
      client.transportType = t ∧ exit.transportType = t := fun t ht =>
    ⟨hname _ _ (htransport.trans ht.symm), hname _ _ (htransport'.trans ht.symm)⟩
  refine ⟨hclient, hexit, hsecret, ?_⟩
  rcases hdocument with rfl | rfl | rfl
  · obtain ⟨ht, ht'⟩ := hsame .yandex rfl
    exact .yandex url (.inr (.inl ht)) (.inr (.inl ht')) (fun h => absurd h hurl) hclientUrl
      hexitUrl
  · obtain ⟨ht, ht'⟩ := hsame .vyandex rfl
    exact .yandex url (.inr (.inr ht)) (.inr (.inr ht')) (fun h => absurd h hurl) hclientUrl
      hexitUrl
  · obtain ⟨ht, ht'⟩ := hsame .mailru rfl
    refine .mailru ht ht' ?_
    rw [Settings.globalDocUrl, Settings.globalDocUrl, hclientUrl, hexitUrl]

/-- The settings of a client that runs what a form asks for. -/
theorem settings_of_serves {form : TunnelPayload.Form} {o : Options} (hrole : o.role = roleClient)
    (h : TunnelPayload.Serves form o) (huses : form.transport.usesUrl = true) (keyText : Bytes) :
    ∃ client, o.settings keyText = some client ∧ client.role = .client ∧
      client.transportType.name = form.transport.cliName ∧ client.url = some form.url ∧
      client.encryptionKey = keyText := by
  obtain ⟨hurl, hmem⟩ := h.url huses
  have hclient : Role.entries.find? (·.name = o.role) = some .client := by
    rw [hrole]
    decide +kernel
  have hfound : ∀ t : App.TransportType, ∃ t' : Main.TransportType,
      Main.TransportType.entries.find? (·.name = t.cliName) = some t' ∧ t'.name = t.cliName := by
    intro t
    cases t
    · exact ⟨.yandex, by decide +kernel, rfl⟩
    · exact ⟨.vyandex, by decide +kernel, rfl⟩
    · exact ⟨.oneme, by decide +kernel, rfl⟩
    · exact ⟨.cupsonline, by decide +kernel, rfl⟩
    · exact ⟨.mailru, by decide +kernel, rfl⟩
  obtain ⟨transportType, hfind, hname⟩ := hfound form.transport
  refine ⟨⟨.client, transportType, some form.url, keyText⟩, ?_, rfl, hname, rfl, rfl⟩
  rw [Options.settings, hclient, h.transport, hfind, if_pos hmem, hurl]
  rfl

/-- **From the key to the exit**: whoever imports the key that the server makes of its document is
put on the server's channel.  The tunnel's payload starts a client with the transport and the
modifiers of the server's tunnel and the address of its document, and what either of this client and
the server's exit seals the other opens. -/
theorem client_of_key (hlaw : Lawful L K) {c : Crypto} (hc : c.Lawful) {server : Tunnel}
    {includeHysteria : Bool} {raw : Bytes} {profiles : List ManagedProfile}
    (hbuild : ManagedUserProfiles.build K server true includeHysteria (some raw) = .ok profiles)
    {transport : App.TransportType}
    (htransport : TransportType.ofString server.transportType = transport)
    (hdocument : transport = .yandex ∨ transport = .vyandex ∨ transport = .mailru)
    (hhysteria : includeHysteria = true → ∀ uri, server.hysteriaUri = some uri →
      literal "hysteria2://" <+: uri)
    (hserver : server.Valid) (hraw : validUTF8 raw = true)
    (s : Control.Store) (userAlias : Bytes) (trafficCap timeCap : Int64) (idBytes : Bytes)
    (now : Time) (save : Control.SaveResult) (id : Int64) (darwin : Bool) {socksAddress : Bytes}
    {keyFile : Option Bytes} (hsocks : expandShortFlag socksAddress = socksAddress)
    (hkeyFile : ∀ k ∈ keyFile, expandShortFlag k = k) (keyText : Bytes) {exit : Settings}
    (hexit : exit.role = .exit) (hexitTransport : exit.transportType.name = transport.cliName)
    (hexitUrl : exit.url = some (Kotlin.trim raw))
    (hsecret : trimSpace keyText = trimSpace exit.encryptionKey) :
    ∃ t o client,
      TunnelBundleParser.parse K (s.create L userAlias trafficCap timeCap
          (some (profiles.map fun p => ⟨p.name, p.uri⟩)) (.ok idBytes) now save).2.1.bundle id =
        .ok t ∧
      t.encryptionKey = server.encryptionKey ∧
      reachSwitch darwin (NativeArgs.build t.transportConnPayload socksAddress keyFile) = .ok o ∧
      Faithful socksAddress keyFile o ∧
      TunnelPayload.Serves { TunnelPayload.parse server.transportType
        server.transportConnPayload with url := Kotlin.trim raw } o ∧
      o.settings keyText = some client ∧ Main.Peers client exit ∧ SharesKeys c client exit := by
  obtain ⟨hysteria, document, rfl, hhys, p, hp, hprofile⟩ := build_eq_ok hbuild
  subst hp
  obtain ⟨-, t, huri, ht⟩ := documentProfile_eq_ok hprofile
  obtain ⟨_, ⟨⟩, hstart, hpayload⟩ := ht.document
  obtain ⟨hcarried, hne⟩ := carried_https hstart
  have huses : transport.usesUrl = true := by
    rcases hdocument with rfl | rfl | rfl <;> rfl
  have husesServer : (TransportType.ofString server.transportType).usesUrl = true :=
    htransport ▸ huses
  have hrawUrl : ∀ url ∈ some raw, validUTF8 url = true := by
    rintro url ⟨⟩
    exact hraw
  have htvalid : ∀ t' ∈ some t, t'.Valid := by
    rintro t' ⟨⟩
    exact ht.valid_of_server husesServer hserver hrawUrl
  -- the key comes back as the profiles
  have hlinks : ∀ uri ∈ hysteria.map (·.uri), literal "hysteria2://" <+: uri := by
    intro uri hmem
    cases includeHysteria with
    | false =>
      obtain rfl : hysteria = none := hhys
      cases hmem
    | true =>
      obtain ⟨q, rfl, hq⟩ := hhys
      obtain rfl := Option.some.inj hmem
      exact hhysteria rfl _ (hysteriaProfile_eq_ok hq).1
  have huris : ((hysteria.toList ++ [p]).map fun p => (⟨p.name, p.uri⟩ : TunnelBundleProfile)).map
      (·.uri) = (hysteria.map (·.uri)).toList ++
        (some t).toList.map fun t => K.encodeToString t.encode := by
    rw [List.map_map, List.map_append, ← Option.toList_map]
    show _ ++ [p.uri] = _ ++ [K.encodeToString t.encode]
    rw [huri]
    rfl
  have hparse : TunnelBundleParser.parse K (s.create L userAlias trafficCap timeCap
      (some ((hysteria.toList ++ [p]).map fun p => ⟨p.name, p.uri⟩)) (.ok idBytes) now
        save).2.1.bundle id =
      .ok (TunnelBundleParser.imported t (hysteria.map (·.uri)) id) := by
    have hprofiles : ∀ q ∈ (hysteria.toList ++ [p]).map fun p : ManagedProfile =>
        (⟨p.name, p.uri⟩ : Control.Profile), validUTF8 q.name = true ∧ validUTF8 q.uri = true :=
      List.forall_mem_map.mpr (valid_of_build hlaw hbuild husesServer hserver hrawUrl)
    have hvalid := valid_bundle (validUTF8_of_ascii (Control.hexEncode_ascii idBytes)) hprofiles
    refine (parse_bundleToken hlaw s.secret hvalid id).trans ?_
    rw [decode_bundle_json, List.map_map]
    exact ofBundle_eq_ok hlaw hlinks htvalid rfl huris (.inl (Option.some_ne_none t)) id
  -- its payload starts the client
  set form : TunnelPayload.Form :=
    { TunnelPayload.parse server.transportType server.transportConnPayload with
      url := Kotlin.trim raw } with hform
  have hformTransport : form.transport = transport := htransport
  have hvalues : ∀ v ∈ form.values, Carried v := by
    intro v hv
    rw [TunnelPayload.Form.values, hformTransport, if_pos huses, List.mem_singleton] at hv
    exact hv ▸ hcarried
  obtain ⟨o, hreach, hfaithful, hserves⟩ :=
    TunnelPayload.launch darwin hpayload hvalues hsocks hkeyFile
  obtain ⟨client, hsettings, hrole, hname, hurl, hsecret'⟩ :=
    settings_of_serves hfaithful.role hserves (hformTransport ▸ huses) keyText
  -- which is a peer of the exit
  have hpeers : Main.Peers client exit := peers_of_document hdocument hne hrole hexit
    (hformTransport ▸ hname) hexitTransport hurl hexitUrl (hsecret' ▸ hsecret)
  have hcontext : client.context = exit.context := by
    rw [context_of_url hurl, context_of_url hexitUrl]
    exact (if_pos hne).trans (if_pos hne).symm
  exact ⟨_, o, client, hparse, ht.encryptionKey, hreach, hfaithful, hserves, hsettings, hpeers,
    sharesKeys_of_context_eq hc hpeers hcontext⟩

/-- The exit of the sample server. -/
def sampleExit : Settings where
  role := .exit
  transportType := .yandex
  url := some (literal "https://disk.yandex.ru/d/x")
  encryptionKey := literal "correct horse battery\n"

theorem client_of_key_sample : ∃ profiles,
    ManagedUserProfiles.build sampleAppLibs sampleServer true true
      (some (literal " https://disk.yandex.ru/d/x\n")) = .ok profiles ∧
    ∃ t o client,
      TunnelBundleParser.parse sampleAppLibs
        (Control.Store.create sampleControlLibs { secret := List.replicate 32 0 } (literal "anna") 0
          0 (some (profiles.map fun p => ⟨p.name, p.uri⟩)) (.ok (List.replicate 10 0))
          ⟨2026, 1, 1, 0, 0, 0, 0⟩ .saved).2.1.bundle 99 = .ok t ∧
      reachSwitch false (NativeArgs.build t.transportConnPayload (literal "127.0.0.1:40001")
        (some (literal "/data/key"))) = .ok o ∧
      o.settings (literal "correct horse battery") = some client ∧
      SharesKeys keyedCrypto client sampleExit := by
  have hhysteria : true = true → ∀ uri, sampleServer.hysteriaUri = some uri →
      literal "hysteria2://" <+: uri := by
    rintro - uri huri
    rw [← Option.some.inj huri]
    decide
  obtain ⟨profiles, hbuild⟩ : ∃ profiles,
      ManagedUserProfiles.build sampleAppLibs sampleServer true true
        (some (literal " https://disk.yandex.ru/d/x\n")) = .ok profiles := ⟨_, rfl⟩
  have hsocks : expandShortFlag (literal "127.0.0.1:40001") = literal "127.0.0.1:40001" := by
    decide +kernel
  have hexit : sampleExit.role = .exit := rfl
  have hurl : sampleExit.url = some (Kotlin.trim (literal " https://disk.yandex.ru/d/x\n")) := by
    decide +kernel
  have hkeyFile : ∀ k ∈ some (literal "/data/key"), expandShortFlag k = k := by
    rintro k ⟨⟩
    decide +kernel
  obtain ⟨t, o, client, hparse, -, hreach, -, -, hsettings, -, hshares⟩ :=
    client_of_key sample_lawful keyedCrypto_lawful hbuild (by decide) (.inl rfl) hhysteria
      sampleServer_valid (sampleUrl_valid _ rfl) { secret := List.replicate 32 0 } (literal "anna")
      0 0 (List.replicate 10 0) ⟨2026, 1, 1, 0, 0, 0, 0⟩ .saved 99 false hsocks hkeyFile
      (literal "correct horse battery") hexit rfl hurl (by decide)
  exact ⟨profiles, hbuild, t, o, client, hparse, hreach, hsettings, hshares⟩

end Keys

end OpenFlux.App
