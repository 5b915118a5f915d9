import OpenFlux.Control.Equiv.Disk
import OpenFlux.Control.Secret

/-!
# When the secret is made anew

Whatever goes wrong with the file of the secret, `loadSecret` writes a new one.  `keeps_iff_leaves`
says which runs of `Open` and `Create` keep the secret that there is, and with it the bundles that
were issued: those in which every `Open` reads the file whole, or fails before it writes.
-/

namespace OpenFlux.Control

variable {L : Libs}

/-- A bundle that was signed with this secret. -/
def VerifiesUnder (L : Libs) (secret token : Bytes) : Prop :=
  ∃ payload, token = literal "terzaet://" ++ encodeRawURL payload ++ literal "." ++
    encodeRawURL (L.hmacSHA256 secret payload)

/-- The step leaves a secret that there is, and the bundles then verify under it. -/
def KeepsSecret (L : Libs) (s : Issuer) (e : IssuerEvent) : Prop :=
  ∀ s', s.step L e = some s' →
    (∀ data, s.secretFile = some data → s'.secretFile = some data) ∧
    ∀ token ∈ s'.issued, ∃ data, s'.secretFile = some data ∧ VerifiesUnder L data token

/-- The file is read whole; or no new secret comes as far as the file, or none that differs. -/
def LeavesSecret (s : Issuer) : IssuerEvent → Prop
  | .openStore env _ => ∀ data, s.secretFile = some data →
      env.readErr = none ∧ 32 ≤ data.length ∨
        (∃ err, env.random = .error err) ∨ env.mkdirErr ≠ none ∨
        (∃ err, env.write = .failed err (some data)) ∨
        ∃ secret, env.random = .ok secret ∧ env.write = .written ∧ secret.1 = data
  | .create _ _ _ => True

/-- The stores and the bundles go by the file. -/
structure Signed (L : Libs) (s : Issuer) : Prop where
  stores : ∀ secret ∈ s.stores, s.secretFile = some secret
  issued : ∀ token ∈ s.issued, ∃ data, s.secretFile = some data ∧ VerifiesUnder L data token

/-! ### `loadSecret` -/

/-- What is loaded is in the file. -/
theorem loadSecret_ok {file : Option Bytes} {env : SecretEnv} {secret : Bytes}
    (h : (loadSecret file env).2 = .ok secret) : (loadSecret file env).1 = some secret := by
  have hgenerate (h : (generateSecret file env).2 = .ok secret) :
      (generateSecret file env).1 = some secret := by
    unfold generateSecret at h ⊢
    split at h
    · cases h
    · split at h
      · cases h
      · split at h
        · cases h
          rfl
        · cases h
  unfold loadSecret readFile at h ⊢
  cases hfails : env.readErr with
  | some err =>
    simp only [hfails] at h ⊢
    exact hgenerate h
  | none =>
    cases file with
    | none =>
      simp only [hfails] at h ⊢
      exact hgenerate h
    | some data =>
      simp only [hfails] at h ⊢
      split_ifs at h ⊢
      · cases h
        rfl
      · exact hgenerate h

theorem generateSecret_eq_iff (data : Bytes) (env : SecretEnv) :
    (generateSecret (some data) env).1 = some data ↔
      (∃ err, env.random = .error err) ∨ env.mkdirErr ≠ none ∨
        (∃ err, env.write = .failed err (some data)) ∨
        ∃ secret, env.random = .ok secret ∧ env.write = .written ∧ secret.1 = data := by
  unfold generateSecret
  cases hrandom : env.random with
  | error err => exact iff_of_true rfl (.inl ⟨err, rfl⟩)
  | ok secret =>
    cases hmkdir : env.mkdirErr with
    | some err => exact iff_of_true rfl (.inr (.inl nofun))
    | none =>
      cases hwrite : env.write with
      | written => simp
      | failed err left => simp

/-- The file is left as it was. -/
theorem loadSecret_eq_iff (data : Bytes) (env : SecretEnv) :
    (loadSecret (some data) env).1 = some data ↔
      env.readErr = none ∧ 32 ≤ data.length ∨
        (∃ err, env.random = .error err) ∨ env.mkdirErr ≠ none ∨
        (∃ err, env.write = .failed err (some data)) ∨
        ∃ secret, env.random = .ok secret ∧ env.write = .written ∧ secret.1 = data := by
  rw [← generateSecret_eq_iff]
  unfold loadSecret readFile
  cases hfails : env.readErr with
  | some err => simp
  | none =>
    by_cases hlen : 32 ≤ data.length
    · simp [hlen]
    · simp [hlen]

/-! ### The model of the store -/

/-- The secret of a store and the file of the secret are those of `loadSecret`. -/
theorem openStore_secret (R : Reader) (disk : Disk) (env : OpenEnv) :
    (openStore R disk env).1.secretFile = (loadSecret disk.secretFile env.secret).1 ∧
      ∀ m, (openStore R disk env).2 = .ok m →
        (loadSecret disk.secretFile env.secret).2 = .ok m.secret := by
  refine ⟨by rw [(openStore_cases R disk env).1], fun m hm => ?_⟩
  unfold openStore at hm
  cases hsecret : (loadSecret disk.secretFile env.secret).2 with
  | error err =>
    simp only [hsecret] at hm
    cases hm
  | ok secret =>
    simp only [hsecret] at hm
    split at hm
    · cases hm
      rfl
    · cases hm
      rfl
    · cases hm

theorem bundleToken_verifies (L : Libs) (secret : Bytes) (bundle : Bundle) :
    VerifiesUnder L secret (bundleToken L secret bundle) := ⟨_, rfl⟩

/-! ### Every run -/

theorem signed_step {s s' : Issuer} {e : IssuerEvent} (h : Signed L s) (hleaves : LeavesSecret s e)
    (hs' : s.step L e = some s') :
    Signed L s' ∧ ∀ data, s.secretFile = some data → s'.secretFile = some data := by
  cases e with
  | create i idBytes profiles =>
    simp only [Issuer.step] at hs'
    split at hs'
    · next secret hi =>
      cases hs'
      refine ⟨⟨h.stores, fun token htoken => ?_⟩, fun _ hdata => hdata⟩
      rcases List.mem_append.mp htoken with htoken | htoken
      · exact h.issued token htoken
      · obtain rfl := List.mem_singleton.mp htoken
        exact ⟨secret, h.stores secret (List.mem_of_getElem? hi), bundleToken_verifies L _ _⟩
    · cases hs'
  | openStore env usersErr =>
    have hkeep : ∀ data, s.secretFile = some data →
        (loadSecret s.secretFile env).1 = some data := by
      intro data hdata
      rw [hdata]
      exact (loadSecret_eq_iff data env).mpr (hleaves data hdata)
    have hstores : ∀ secret ∈ s.stores, (loadSecret s.secretFile env).1 = some secret :=
      fun secret hmem => hkeep secret (h.stores secret hmem)
    have hissued : ∀ token ∈ s.issued, ∃ data, (loadSecret s.secretFile env).1 = some data ∧
        VerifiesUnder L data token := by
      intro token htoken
      obtain ⟨data, hdata, hverifies⟩ := h.issued token htoken
      exact ⟨data, hkeep data hdata, hverifies⟩
    simp only [Issuer.step] at hs'
    split at hs'
    · next secret hloaded =>
      cases hs'
      refine ⟨⟨?_, hissued⟩, hkeep⟩
      intro secret' hmem
      rcases List.mem_append.mp hmem with hmem | hmem
      · exact hstores secret' hmem
      · obtain rfl := List.mem_singleton.mp hmem
        exact loadSecret_ok hloaded
    · cases hs'
      exact ⟨⟨hstores, hissued⟩, hkeep⟩

/-- Every event of a file can happen. -/
theorem exists_step_openStore (L : Libs) (s : Issuer) (env : SecretEnv)
    (usersErr : Option String) :
    ∃ s', s.step L (.openStore env usersErr) = some s' ∧
      s'.secretFile = (loadSecret s.secretFile env).1 := by
  simp only [Issuer.step]
  split
  · exact ⟨_, rfl, rfl⟩
  · exact ⟨_, rfl, rfl⟩

theorem keepsSecret_iff {s : Issuer} (h : Signed L s) (e : IssuerEvent) :
    KeepsSecret L s e ↔ LeavesSecret s e := by
  constructor
  · intro hkeeps
    cases e with
    | create i idBytes profiles => trivial
    | openStore env usersErr =>
      intro data hdata
      obtain ⟨s', hs', hfile⟩ := exists_step_openStore L s env usersErr
      rw [← loadSecret_eq_iff, ← hdata, ← hfile]
      exact ((hkeeps s' hs').1 data hdata).trans hdata.symm
  · intro hleaves s' hs'
    obtain ⟨hsigned, hkeep⟩ := signed_step h hleaves hs'
    exact ⟨hkeep, hsigned.issued⟩

/-- **The secret is created once**, and the bundles verify under it, exactly in the runs in which
no `Open` writes another secret over one that there is: it reads the file whole, or fails to get
random bytes, to make the directory, or to write. -/
theorem keeps_iff_leaves (L : Libs) (secretFile : Option Bytes) (es : List IssuerEvent) :
    (issuer L secretFile).Along (KeepsSecret L) (issuer L secretFile).init es ↔
      (issuer L secretFile).Along LeavesSecret (issuer L secretFile).init es := by
  refine EventSystem.along_congr (I := Signed L) (R := fun _ _ => True) ?_
    (fun s e h _ => keepsSecret_iff h e) ⟨nofun, nofun⟩ (EventSystem.along_true _ es)
  exact fun s e s' h hleaves hs' => (signed_step h hleaves hs').1

/-- The signature of the bundle below under the secret of ones. -/
def firstSignature : Bytes := [
  0xEA, 0xBF, 0xD2, 0x3A, 0xDE, 0xD4, 0x71, 0xA4, 0x76, 0xF4, 0x38, 0x49, 0x96, 0x8C, 0x81, 0xAC,
  0x36, 0x86, 0x50, 0x33, 0xF4, 0x64, 0xF3, 0x92, 0x48, 0xAA, 0xC1, 0x8F, 0x91, 0x3B, 0x3F, 0x31]

/-- And under the secret of twos. -/
def secondSignature : Bytes := [
  0x85, 0xCE, 0x7A, 0xC1, 0xD9, 0x4D, 0xDF, 0xFB, 0x6C, 0xBC, 0x8A, 0x0D, 0x46, 0xE5, 0xA6, 0xF0,
  0xD9, 0x49, 0x75, 0x5F, 0x03, 0xA2, 0x0D, 0x76, 0xC6, 0xE5, 0xE1, 0xA0, 0xD3, 0x67, 0x79, 0x14]

def twoKeyLibs : Libs where
  marshal := JsonText.write
  hmacSHA256 key _ := if key = List.replicate 32 1 then firstSignature else secondSignature

/-- A first secret, and a bundle; at the second `Open` the file cannot be read. -/
def reissue : List IssuerEvent := [
  .openStore { random := .ok ⟨List.replicate 32 1, rfl⟩ } none,
  .create 0 (List.replicate 10 0) none,
  .openStore {
    readErr := some "open secret: permission denied"
    random := .ok ⟨List.replicate 32 2, rfl⟩ } none]

/-- The second secret takes the place of the first, and the bundle does not verify under it. -/
theorem reissue_overwrites :
    ¬ (issuer twoKeyLibs none).Along (KeepsSecret twoKeyLibs) (issuer twoKeyLibs none).init
      reissue ∧
    ∃ s token, (issuer twoKeyLibs none).run (issuer twoKeyLibs none).init reissue = some s ∧
      s.secretFile = some (List.replicate 32 2) ∧ token ∈ s.issued ∧
      ¬ VerifiesUnder twoKeyLibs (List.replicate 32 2) token := by
  constructor
  · intro h
    have hkeeps := ((h.2 _ rfl).2 _ rfl).1 _ rfl
    have hfile := hkeeps.1 (List.replicate 32 1) rfl
    exact absurd (Option.some.inj hfile) (by decide)
  · refine ⟨_, _, rfl, rfl, List.mem_singleton_self _, ?_⟩
    rintro ⟨payload, htoken⟩
    change _ ++ encodeRawURL firstSignature = _ ++ encodeRawURL secondSignature at htoken
    have hsignature := (List.append_inj' htoken (by decide)).2
    exact absurd hsignature (by decide)

end OpenFlux.Control
