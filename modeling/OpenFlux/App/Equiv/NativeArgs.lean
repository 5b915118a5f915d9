import OpenFlux.App.NativeArgs
import OpenFlux.Main.Flags

/-!
# What a payload can do to the client

The filter and the parser read an argument the same way: what the parser takes for a flag's name is
what the filter compares (`flagName_of_classify`), also after the aliases are expanded
(`not_fixed_of_kept`).  So no argument that is kept names one of the flags the app owns, wherever it
stands, and the parse leaves these as the app has set them (`parse_build`).  The role is decided by
two more flags: `bench-send` and `bench-sink` are not among those the filter drops, and rewrite it
(`build_faithful_iff`).
-/

namespace OpenFlux.App.NativeArgs

open OpenFlux.Flag OpenFlux.Main

/-- The flags of `main` that the app owns. -/
def fixed : List Bytes :=
  [literal "role", literal "inbound", literal "socks5", literal "encryption-key-file",
    literal "client", literal "exit-node", literal "tun", literal "socks5-mode"]

/-! ### Names -/

/-- A name as it stands behind the dashes, with what follows it. -/
structure Spelled (name rest : Bytes) : Prop where
  head : ∃ c t, name = c :: t ∧ c ≠ 0x2D
  noEquals : 0x3D ∉ name
  rest : rest = [] ∨ ∃ value, rest = 0x3D :: value

theorem takeWhile_spelled {name rest : Bytes} (h : Spelled name rest) :
    (name ++ rest).takeWhile (· != 0x3D) = name := by
  have hall : ∀ c ∈ name, (c != 0x3D) = true := by
    intro c hc
    rw [bne_iff_ne]
    rintro rfl
    exact h.noEquals hc
  rw [List.takeWhile_append_of_pos hall]
  rcases h.rest with rfl | ⟨value, rfl⟩ <;> simp

theorem flagName_spelled {name rest : Bytes} (h : Spelled name rest) :
    flagName (0x2D :: (name ++ rest)) = some name ∧
      flagName (0x2D :: 0x2D :: (name ++ rest)) = some name := by
  have hname := takeWhile_spelled h
  obtain ⟨c, t, rfl, hc⟩ := h.head
  constructor <;>
    simpa [flagName, Kotlin.startsWith, Kotlin.trimStart, Kotlin.substringBefore, hc] using hname

/-- What `splitFlag` takes for a name. -/
theorem spelled_of_splitFlag {s name : Bytes} {value : Option Bytes}
    (h : splitFlag s = .flag name value) : ∃ rest, s = name ++ rest ∧ Spelled name rest := by
  cases s with
  | nil => cases h
  | cons c s =>
    rw [splitFlag] at h
    split_ifs at h with hbad hvalue
    · obtain ⟨rfl, -⟩ := Arg.flag.inj h
      refine ⟨s.dropWhile (· != 0x3D), ?_, ⟨c, _, rfl, fun hc => hbad (.inl hc)⟩, ?_, ?_⟩
      · rw [List.cons_append, List.takeWhile_append_dropWhile]
      · rw [List.mem_cons]
        rintro (hc | hmem)
        · exact hbad (.inr hc.symm)
        · simpa using List.mem_takeWhile_imp hmem
      · right
        have hne : s.dropWhile (· != 0x3D) ≠ [] := by
          rw [Ne, List.dropWhile_eq_nil_iff]
          intro hall
          simpa using hall _ hvalue
        obtain ⟨d, t, hd⟩ := List.exists_cons_of_ne_nil hne
        have hhead := List.head_dropWhile_not (· != 0x3D) hne
        simp only [hd, List.head_cons] at hhead
        exact ⟨t, by rw [hd]; simpa using hhead⟩
    · obtain ⟨rfl, -⟩ := Arg.flag.inj h
      refine ⟨[], by simp, ⟨c, s, rfl, fun hc => hbad (.inl hc)⟩, ?_, .inl rfl⟩
      rw [List.mem_cons]
      rintro (hc | hmem)
      · exact hbad (.inr hc.symm)
      · exact hvalue hmem

/-- **One grammar**: what the parser takes for the name of a flag is what the filter compares. -/
theorem flagName_of_classify {a name : Bytes} {value : Option Bytes}
    (h : classify a = .flag name value) : flagName a = some name := by
  unfold classify at h
  split at h
  · cases h
  · next s _ =>
    obtain ⟨rest, rfl, hspelled⟩ := spelled_of_splitFlag h
    exact (flagName_spelled hspelled).2
  · next c s _ =>
    obtain ⟨rest, hs, hspelled⟩ := spelled_of_splitFlag h
    rw [hs]
    exact (flagName_spelled hspelled).1
  · cases h

/-! ### The filter and the aliases -/

/-- What the filter keeps. -/
theorem not_named_of_mem_keep : ∀ {payload : List Bytes} {a : Bytes}, a ∈ keep payload →
    named a ownedBoolean = false ∧ named a ownedWithValue = false := by
  intro payload
  induction payload using keep.induct with
  | case1 => intro a h; cases h
  | case2 arg payload hbool ih =>
    intro a h
    unfold keep at h
    rw [if_pos hbool] at h
    exact ih h
  | case3 arg payload hbool hvalue heq ih =>
    intro a h
    unfold keep at h
    rw [if_neg hbool, if_pos hvalue, if_pos heq] at h
    exact ih h
  | case4 arg hbool hvalue heq next payload ih =>
    intro a h
    unfold keep at h
    rw [if_neg hbool, if_pos hvalue, if_neg heq] at h
    exact ih h
  | case5 arg hbool hvalue heq =>
    intro a h
    unfold keep at h
    rw [if_neg hbool, if_pos hvalue, if_neg heq] at h
    cases h
  | case6 arg payload hbool hvalue ih =>
    intro a h
    unfold keep at h
    rw [if_neg hbool, if_neg hvalue] at h
    rcases List.mem_cons.mp h with rfl | h
    · exact ⟨by simpa using hbool, by simpa using hvalue⟩
    · exact ih h

/-- An argument that uses an alias, and what becomes of it. -/
theorem expandShortFlag_cases (a : Bytes) : expandShortFlag a = a ∨
    ∃ entry ∈ aliases, ∃ rest, a = entry.1 ++ rest ∧ expandShortFlag a = entry.2 ++ rest ∧
      (rest = [] ∨ ∃ value, rest = 0x3D :: value) := by
  unfold expandShortFlag
  cases hfind : aliases.find? fun entry => usesAlias a entry.1 with
  | none => exact .inl rfl
  | some entry =>
    have huses := List.find?_some hfind
    refine .inr ⟨entry, List.mem_of_find?_eq_some hfind, a.drop entry.1.length, ?_, rfl, ?_⟩
    · simp only [usesAlias, Bool.or_eq_true, beq_iff_eq, List.isPrefixOf_iff_prefix] at huses
      rcases huses with rfl | ⟨value, hvalue⟩
      · simp
      · rw [← hvalue]
        simp
    · simp only [usesAlias, Bool.or_eq_true, beq_iff_eq, List.isPrefixOf_iff_prefix] at huses
      rcases huses with rfl | ⟨value, hvalue⟩
      · exact .inl (List.drop_length ..)
      · refine .inr ⟨value, ?_⟩
        rw [← hvalue]
        simp

/-- The aliases are spelled as flags, and those that the filter lets pass stand for none of the
flags the app owns. -/
theorem aliases_spelled : ∀ entry ∈ aliases, ∃ short long,
    entry = (0x2D :: short, 0x2D :: 0x2D :: long) ∧
    (∀ rest, (rest = [] ∨ ∃ value, rest = 0x3D :: value) → Spelled short rest ∧ Spelled long rest) ∧
    (short ∉ ownedWithValue → long ∉ fixed) := by
  intro entry hentry
  have hspelled : ∀ name : Bytes, (∃ c t, name = c :: t ∧ c ≠ 0x2D) → 0x3D ∉ name →
      ∀ rest, (rest = [] ∨ ∃ value, rest = 0x3D :: value) → Spelled name rest :=
    fun _ hhead hnone _ hrest => ⟨hhead, hnone, hrest⟩
  have hall : ∀ entry ∈ aliases, entry.1.take 1 = [0x2D] ∧ entry.2.take 2 = [0x2D, 0x2D] ∧
      (entry.1.drop 1).head?.any (· ≠ 0x2D) ∧ 0x3D ∉ entry.1.drop 1 ∧
      (entry.2.drop 2).head?.any (· ≠ 0x2D) ∧ 0x3D ∉ entry.2.drop 2 ∧
      (entry.1.drop 1 ∉ ownedWithValue → entry.2.drop 2 ∉ fixed) := by
    decide +kernel
  obtain ⟨hshort, hlong, hs, hsnone, hl, hlnone, hfixed⟩ := hall entry hentry
  have hhead : ∀ name : Bytes, name.head?.any (· ≠ 0x2D) = true →
      ∃ c t, name = c :: t ∧ c ≠ 0x2D := by
    intro name hname
    cases name with
    | nil => cases hname
    | cons c t => exact ⟨c, t, rfl, by simpa using hname⟩
  refine ⟨entry.1.drop 1, entry.2.drop 2, ?_, fun rest hrest =>
    ⟨hspelled _ (hhead _ hs) hsnone rest hrest, hspelled _ (hhead _ hl) hlnone rest hrest⟩, hfixed⟩
  apply Prod.ext
  · show entry.1 = [0x2D] ++ entry.1.drop 1
    rw [← hshort, List.take_append_drop]
  · show entry.2 = [0x2D, 0x2D] ++ entry.2.drop 2
    rw [← hlong, List.take_append_drop]

/-- What is kept names none of the flags the app owns, with its aliases expanded. -/
theorem not_fixed_of_kept {a name : Bytes} {value : Option Bytes}
    (hbool : named a ownedBoolean = false) (hvalue : named a ownedWithValue = false)
    (h : classify (expandShortFlag a) = .flag name value) : name ∉ fixed := by
  have hname := flagName_of_classify h
  rcases expandShortFlag_cases a with hsame | ⟨entry, hentry, rest, rfl, hexpand, hrest⟩
  · rw [hsame] at hname
    simp only [named, hname, Option.any_some, decide_eq_false_iff_not] at hbool hvalue
    have hsub : ∀ n ∈ fixed, n ∈ ownedBoolean ∨ n ∈ ownedWithValue := by decide +kernel
    intro hmem
    exact (hsub name hmem).elim hbool hvalue
  · obtain ⟨short, long, rfl, hspelled, hfixed⟩ := aliases_spelled entry hentry
    obtain ⟨hshort, hlong⟩ := hspelled rest hrest
    rw [hexpand] at hname
    have hlongname : flagName (0x2D :: 0x2D :: (long ++ rest)) = some name := hname
    rw [(flagName_spelled hlong).2, Option.some.injEq] at hlongname
    subst hlongname
    apply hfixed
    have hshortname : flagName (0x2D :: (short ++ rest)) = some short := (flagName_spelled hshort).1
    simpa [named, hshortname] using hvalue

/-! ### The app's own flags -/

/-- The flags after the app's own have been parsed. -/
def withOwn (socksAddress : Bytes) (keyFile : Option Bytes) : FlagSet :=
  let f := ((commandLine.setString (literal "role") roleClient).setString (literal "inbound")
    inboundSOCKS5).setString (literal "socks5") socksAddress
  match keyFile with
  | some keyFile => f.setString (literal "encryption-key-file") keyFile
  | none => f

theorem parse_own (socksAddress : Bytes) (keyFile : Option Bytes) (args : List Bytes) :
    parse commandLine (expandShortFlags (own socksAddress keyFile) ++ args) =
      parse (withOwn (expandShortFlag socksAddress) (keyFile.map expandShortFlag)) args := by
  have hrole : classify (expandShortFlag (literal "--role")) = .flag (literal "role") none := by
    decide +kernel
  have hinbound : classify (expandShortFlag (literal "--inbound")) =
      .flag (literal "inbound") none := by
    decide +kernel
  have hsocks5 : classify (expandShortFlag (literal "--socks5")) =
      .flag (literal "socks5") none := by
    decide +kernel
  have hkey : classify (expandShortFlag (literal "--encryption-key-file")) =
      .flag (literal "encryption-key-file") none := by
    decide +kernel
  have hthree : ∀ args, parse commandLine (expandShortFlag (literal "--role") ::
      expandShortFlag (literal "client") :: expandShortFlag (literal "--inbound") ::
      expandShortFlag (literal "socks5") :: expandShortFlag (literal "--socks5") ::
      expandShortFlag socksAddress :: args) =
      parse (withOwn (expandShortFlag socksAddress) none) args := by
    intro args
    rw [parse_string hrole (v := roleClient) rfl, parse_string hinbound (v := []) rfl,
      parse_string hsocks5 (v := literal ":1080") rfl]
    rfl
  cases keyFile with
  | none => exact hthree args
  | some keyFile =>
    refine (hthree (expandShortFlag (literal "--encryption-key-file") ::
      expandShortFlag keyFile :: args)).trans ?_
    rw [parse_string hkey (v := []) rfl]
    rfl

/-- What the app's own flags set, and that they set no other. -/
theorem withOwn_spec (socksAddress : Bytes) (keyFile : Option Bytes) :
    (withOwn socksAddress keyFile).formal (literal "role") = some (.string roleClient) ∧
      (withOwn socksAddress keyFile).formal (literal "inbound") = some (.string inboundSOCKS5) ∧
      (withOwn socksAddress keyFile).formal (literal "socks5") = some (.string socksAddress) ∧
      (withOwn socksAddress keyFile).formal (literal "encryption-key-file") =
        some (.string (keyFile.getD [])) ∧
      (withOwn socksAddress keyFile).formal (literal "tun") = some (.bool false) ∧
      (withOwn socksAddress keyFile).formal (literal "socks5-mode") = some (.bool false) ∧
      literal "role" ∈ (withOwn socksAddress keyFile).actual ∧
      Agree {name | name ∈ fixed} (withOwn socksAddress keyFile) commandLine := by
  have hupdate : ∀ (f : FlagSet) (name text : Bytes), name ∈ fixed →
      Agree {name | name ∈ fixed} f commandLine →
      Agree {name | name ∈ fixed} (f.setString name text) commandLine := by
    intro f name text hname hagree other hother
    show Function.update f.formal name _ other = _
    rw [Function.update_of_ne]
    · exact hagree other hother
    · rintro rfl
      exact hother hname
  have hthree : Agree {name | name ∈ fixed} (withOwn socksAddress none) commandLine :=
    hupdate _ _ _ (by decide +kernel) (hupdate _ _ _ (by decide +kernel)
      (hupdate _ _ _ (by decide +kernel) fun _ _ => rfl))
  cases keyFile with
  | none => exact ⟨rfl, rfl, rfl, rfl, rfl, rfl, List.mem_cons_self .., hthree⟩
  | some keyFile =>
    refine ⟨rfl, rfl, rfl, rfl, rfl, rfl, ?_, hupdate _ _ _ (by decide +kernel) hthree⟩
    exact List.mem_cons_self ..

/-! ### The whole command line -/

/-- What the app asks of the process. -/
structure Faithful (socksAddress : Bytes) (keyFile : Option Bytes) (o : Options) : Prop where
  role : o.role = roleClient
  inbound : o.inbound = inboundSOCKS5
  socks5 : o.flags.string (literal "socks5") = socksAddress
  encryptionKeyFile : o.flags.string (literal "encryption-key-file") = keyFile.getD []

/-- The flags of the payload leave the role alone, and no alias is expanded in the app's values. -/
structure Harmless (socksAddress : Bytes) (keyFile : Option Bytes) (o : Options) : Prop where
  benchSend : o.flags.int (literal "bench-send") ≤ 0
  benchSink : o.flags.bool (literal "bench-sink") = false
  socks5 : expandShortFlag socksAddress = socksAddress
  keyFile : ∀ k ∈ keyFile, expandShortFlag k = k

theorem avoid_keep (payload : List Bytes) :
    Avoid {name | name ∈ fixed} (expandShortFlags (keep payload)) := by
  intro a ha name value hclassify
  obtain ⟨b, hb, rfl⟩ := List.mem_map.mp ha
  obtain ⟨hbool, hvalue⟩ := not_named_of_mem_keep hb
  exact not_fixed_of_kept hbool hvalue hclassify

/-- **The parse of `build`** is that of what is kept of the payload, but for the flags the app owns,
which are as the app has set them. -/
theorem parse_build (payload : List Bytes) (socksAddress : Bytes) (keyFile : Option Bytes) :
    (∃ code, parse commandLine (expandShortFlags (build payload socksAddress keyFile)) = .error code ∧
        parse commandLine (expandShortFlags (keep payload)) = .error code) ∨
      ∃ f g, parse commandLine (expandShortFlags (build payload socksAddress keyFile)) = .ok f ∧
        parse commandLine (expandShortFlags (keep payload)) = .ok g ∧
        Agree {name | name ∈ fixed} f g ∧
        Extends {name | name ∈ fixed}
          (withOwn (expandShortFlag socksAddress) (keyFile.map expandShortFlag)) f := by
  have hown : parse commandLine (expandShortFlags (build payload socksAddress keyFile)) =
      parse (withOwn (expandShortFlag socksAddress) (keyFile.map expandShortFlag))
        (expandShortFlags (keep payload)) := by
    rw [build, expandShortFlags, List.map_append]
    exact parse_own socksAddress keyFile _
  obtain ⟨-, -, -, -, -, -, -, hagree⟩ :=
    withOwn_spec (expandShortFlag socksAddress) (keyFile.map expandShortFlag)
  rw [hown]
  rcases parse_congr hagree (avoid_keep payload) with herror | ⟨f, g, hf, hg, h, hextends, -⟩
  · exact .inl herror
  · exact .inr ⟨f, g, hf, hg, h, hextends⟩

/-- What `main` makes of the flags. -/
theorem mapFlags_of_extends (darwin : Bool) {socksAddress : Bytes} {keyFile : Option Bytes}
    {f : FlagSet} (h : Extends {name | name ∈ fixed} (withOwn socksAddress keyFile) f) :
    ((mapFlags darwin f).role = roleClient ↔
        f.int (literal "bench-send") ≤ 0 ∧ f.bool (literal "bench-sink") = false) ∧
      (mapFlags darwin f).inbound = inboundSOCKS5 ∧
      f.string (literal "socks5") = socksAddress ∧
      f.string (literal "encryption-key-file") = keyFile.getD [] := by
  obtain ⟨hrole, hinbound, hsocks5, hkey, htun, hmode, hset, -⟩ := withOwn_spec socksAddress keyFile
  have hformal : ∀ name ∈ fixed, f.formal name = (withOwn socksAddress keyFile).formal name :=
    h.formal
  have hmem : ∀ name ∈ [literal "role", literal "inbound", literal "socks5",
      literal "encryption-key-file", literal "tun", literal "socks5-mode"], name ∈ fixed := by
    decide +kernel
  simp only [List.forall_mem_cons, List.not_mem_nil, false_implies, implies_true, and_true] at hmem
  obtain ⟨mrole, minbound, msocks5, mkey, mtun, mmode⟩ := hmem
  refine ⟨?_, ?_, ?_, ?_⟩
  · have hr : f.string (literal "role") = roleClient := by
      rw [FlagSet.string, hformal _ mrole, hrole]
    show mapRole f = roleClient ↔ _
    dsimp only [mapRole]
    rw [if_pos (h.actual hset), hr]
    have hsend : roleBenchSend ≠ roleClient := by decide
    have hsink : roleBenchSink ≠ roleClient := by decide
    rw [← not_lt]
    by_cases hpos : 0 < f.int (literal "bench-send") <;>
      cases f.bool (literal "bench-sink") <;> simp [hpos, hsend, hsink]
  · show mapInbound darwin f = _
    have hi : f.string (literal "inbound") = inboundSOCKS5 := by
      rw [FlagSet.string, hformal _ minbound, hinbound]
    have ht : f.bool (literal "tun") = false := by
      rw [FlagSet.bool, hformal _ mtun, htun]
    have hm : f.bool (literal "socks5-mode") = false := by
      rw [FlagSet.bool, hformal _ mmode, hmode]
    dsimp only [mapInbound]
    rw [hi, ht, hm]
    exact if_neg (by decide)
  · rw [FlagSet.string, hformal _ msocks5, hsocks5]
  · rw [FlagSet.string, hformal _ mkey, hkey]

/-- What `main` checks before the switch depends on flags that the app does not own. -/
theorem knownCodec_congr (darwin : Bool) {f g : FlagSet} (h : Agree {name | name ∈ fixed} f g) :
    knownCodec (mapFlags darwin f) ↔ knownCodec (mapFlags darwin g) := by
  have hlegacy : f.bool (literal "legacy") = g.bool (literal "legacy") := by
    rw [FlagSet.bool, FlagSet.bool, h (literal "legacy") (by decide +kernel)]
  have hcodec : f.string (literal "codec") = g.string (literal "codec") := by
    rw [FlagSet.string, FlagSet.string, h (literal "codec") (by decide +kernel)]
  have hsame : (mapFlags darwin f).codec = (mapFlags darwin g).codec := by
    show (if f.bool (literal "legacy") then codecLegacy else f.string (literal "codec")) = _
    rw [hlegacy, hcodec]
    rfl
  unfold knownCodec
  rw [hsame]

/-- **What a payload can change**: the process that the app starts is the client it asks for, if it
gets to the role switch at all, for exactly those payloads whose kept flags, parsed by themselves,
do not get there or leave the two benchmark flags alone, with an address and a key file that are no
aliases of flags. -/
theorem build_faithful_iff (darwin : Bool) (payload : List Bytes) (socksAddress : Bytes)
    (keyFile : Option Bytes) :
    (∀ o, reachSwitch darwin (build payload socksAddress keyFile) = .ok o →
        Faithful socksAddress keyFile o) ↔
      ∀ o, reachSwitch darwin (keep payload) = .ok o → Harmless socksAddress keyFile o := by
  unfold reachSwitch
  rcases parse_build payload socksAddress keyFile with
    ⟨code, herror, hkeep⟩ | ⟨f, g, hf, hg, hagree, hextends⟩
  · rw [herror, hkeep]
    simp
  · rw [hf, hg]
    dsimp only
    obtain ⟨hrole, hinbound, hsocks5, hkey⟩ := mapFlags_of_extends darwin hextends
    have hsend : f.int (literal "bench-send") = g.int (literal "bench-send") := by
      rw [FlagSet.int, FlagSet.int, hagree (literal "bench-send") (by decide +kernel)]
    have hsink : f.bool (literal "bench-sink") = g.bool (literal "bench-sink") := by
      rw [FlagSet.bool, FlagSet.bool, hagree (literal "bench-sink") (by decide +kernel)]
    have hcodec := knownCodec_congr darwin hagree
    by_cases hreach : knownCodec (mapFlags darwin g)
    · rw [if_pos (hcodec.mpr hreach), if_pos hreach]
      simp only [Except.ok.injEq, forall_eq']
      constructor
      · intro h
        obtain ⟨hs, hk⟩ := hrole.mp h.role
        refine ⟨hsend ▸ hs, hsink ▸ hk, hsocks5.symm.trans h.socks5, ?_⟩
        rintro k rfl
        exact hkey.symm.trans h.encryptionKeyFile
      · intro h
        refine ⟨hrole.mpr ⟨hsend.trans_le h.benchSend, hsink.trans h.benchSink⟩, hinbound,
          hsocks5.trans h.socks5, hkey.trans ?_⟩
        cases keyFile with
        | none => rfl
        | some k => exact h.keyFile k rfl
    · rw [if_neg (fun hf => hreach (hcodec.mp hf)), if_neg hreach]
      simp

/-- A payload that turns the client into a benchmark. -/
theorem not_faithful_benchSink : ¬ ∀ o, reachSwitch false
    (build [literal "--bench-sink"] (literal "127.0.0.1:4000") none) = .ok o →
      Faithful (literal "127.0.0.1:4000") none o := by
  intro h
  have hrole :
      (reachSwitch false (build [literal "--bench-sink"] (literal "127.0.0.1:4000") none)).map
        Options.role = .ok roleBenchSink := by
    decide +kernel
  cases hreach : reachSwitch false
      (build [literal "--bench-sink"] (literal "127.0.0.1:4000") none) with
  | error code =>
    rw [hreach] at hrole
    cases hrole
  | ok o =>
    rw [hreach] at hrole
    have hclient := (h o hreach).role
    rw [Except.map, Except.ok.injEq, hclient] at hrole
    exact absurd hrole (by decide)

end OpenFlux.App.NativeArgs
