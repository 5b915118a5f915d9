import OpenFlux.Algorithm.JsonText
import OpenFlux.App.SavedAdminPassword
import OpenFlux.Go.Base64

/-!
# The passwords of administrators are a dictionary

Seen through `read`, `save` and `forget` the preferences are a dictionary from accounts to passwords
(`refines`): the encryption, the record, the Base64 and the names of the entries do not show, and an
entry that cannot be read is the same as none, be it that its key is lost.  What does show is a
keystore that throws: the password that is read then is forgotten.
-/

namespace OpenFlux.App.SavedAdminPassword

open Kotlin

variable {Key : Type} {A : Android Key}

/-- What is documented of `Base64` and of AES in Galois counter mode, whose tag has 128 bits. -/
structure Android.Lawful (A : Android Key) : Prop where
  decode_encodeToString : ∀ s, A.decode (A.encodeToString s) = some s
  decrypt_encrypt : ∀ (key : Key) (iv : Iv) s,
    A.decrypt key iv.bytes (A.encrypt key iv.bytes s) = some s
  length_encrypt : ∀ (key : Key) (iv : Iv) s, (A.encrypt key iv.bytes s).length = s.length + 16

/-! ### The record -/

theorem unpack_pack (iv : Iv) {ciphertext : Bytes} (h : 0 < ciphertext.length) :
    unpack (pack iv.bytes ciphertext) = some (iv.bytes, ciphertext) := by
  have hlength : (beUint32 0 0 0 12).toInt32 = 12 := rfl
  rw [pack, iv.length_eq]
  show unpack (0 :: 0 :: 0 :: 12 :: (iv.bytes ++ ciphertext)) = _
  simp only [unpack, hlength]
  have hlt : Int32.toInt 12 < ((iv.bytes ++ ciphertext).length : ℤ) := by
    rw [List.length_append, iv.length_eq]
    show (12 : ℤ) < _
    omega
  rw [if_pos ⟨by decide, hlt⟩, List.splitAt_eq]
  show some (List.take 12 _, List.drop 12 _) = _
  rw [List.take_left' iv.length_eq, List.drop_left' iv.length_eq]

/-! ### The names of the entries -/

/-- What the name of an entry tells of the account. -/
def normal (A : Android Key) (a : Account) : Account :=
  ⟨A.lowercase (Utf16.trim a.host), Utf16.trim a.user, a.port⟩

def name (e : Account) : List UInt16 :=
  e.host ++ 0x7C :: (e.user ++ 0x7C :: (decimal e.port.toInt).map UInt8.toUInt16)

theorem identity_eq (a : Account) : identity A a = name (normal A a) := rfl

theorem decimal_injective : Function.Injective decimal := by
  intro m n h
  have hends : JsonText.Ends [] := fun c hc => by cases hc
  have hread (n : ℤ) : JsonText.readInt (decimal n) = some (n, []) := by
    rw [JsonText.decimal_eq, ← List.append_nil (JsonText.writeInt n)]
    exact JsonText.readInt_writeInt n hends
  have hboth := (hread m).symm.trans ((congrArg JsonText.readInt h).trans (hread n))
  cases hboth
  rfl

/-- What comes before the first of these marks, and what comes after it. -/
theorem append_cons_inj {x y s t : List UInt16} {u : UInt16} (hx : u ∉ x) (hy : u ∉ y)
    (h : x ++ u :: s = y ++ u :: t) : x = y ∧ s = t := by
  induction x generalizing y with
  | nil =>
    cases y with
    | nil => exact ⟨rfl, (List.cons.inj h).2⟩
    | cons v y => exact absurd ((List.cons.inj h).1 ▸ List.mem_cons_self) hy
  | cons v x ih =>
    cases y with
    | nil => exact absurd ((List.cons.inj h).1 ▸ List.mem_cons_self) hx
    | cons w y =>
      obtain ⟨rfl, htail⟩ := List.cons.inj h
      obtain ⟨rfl, rfl⟩ := ih (fun hu => hx (List.mem_cons_of_mem v hu))
        (fun hu => hy (List.mem_cons_of_mem v hu)) htail
      exact ⟨rfl, rfl⟩

/-- Accounts of different names have different entries. -/
theorem name_inj {e e' : Account} (he : 0x7C ∉ e.host) (he' : 0x7C ∉ e'.host)
    (h : name e = name e') : e = e' := by
  obtain ⟨hhost, hrest⟩ := append_cons_inj he he' h
  have hport (n : ℤ) : 0x7C ∉ ((decimal n).map UInt8.toUInt16).reverse := by
    rw [List.mem_reverse, List.mem_map]
    rintro ⟨c, hc, hmark⟩
    have hbar : c = 0x7C := UInt8.toUInt16_inj.mp hmark
    rw [hbar, JsonText.decimal_eq] at hc
    exact JsonText.notMem_writeInt (by decide) (by decide) n hc
  -- the port is what comes after the last mark
  have hreverse := congrArg List.reverse hrest
  simp only [List.reverse_append, List.reverse_cons, List.append_assoc,
    List.singleton_append] at hreverse
  obtain ⟨hdecimal, huser⟩ := append_cons_inj (hport _) (hport _) hreverse
  have hinjective : Function.Injective UInt8.toUInt16 := fun c d => UInt8.toUInt16_inj.mp
  have hport := decimal_injective (List.map_injective_iff.mpr hinjective
    (List.reverse_injective hdecimal))
  cases e
  cases e'
  simp only [Account.mk.injEq]
  exact ⟨hhost, List.reverse_injective huser, Int32.toInt_inj.mp hport⟩

/-! ### The dictionary -/

/-- The passwords of the accounts, as they are written in `normal`. -/
abbrev Dictionary := Account → Option (List UInt16)

/-- A call, had it a dictionary to go to.  A password that is asked for while the keystore throws is
forgotten. -/
def Dictionary.call (A : Android Key) (d : Dictionary) : Command Key → Dictionary × Answer
  | .read a none => (Function.update d (normal A a) none, .password none)
  | .read a (some _) => (d, .password (d (normal A a)))
  | .save _ _ none _ => (d, .thrown)
  | .save a password (some _) _ =>
    (Function.update d (normal A a) (some (Utf8.replaceUnpaired password)), .returned)
  | .forget a => (Function.update d (normal A a) none, .returned)

/-- What a key makes of an entry. -/
def password (A : Android Key) (key : Key) (encrypted : List UInt16) : Option (List UInt16) :=
  ((A.decode encrypted).bind unpack).bind fun r =>
    (A.decrypt key r.1 r.2).map Utf8.decode

/-- The dictionary that the preferences stand for. -/
def dictionary (A : Android Key) (s : Store Key) : Dictionary := fun e =>
  s.key.bind fun key => (s.preferences (name e)).bind (password A key)

/-- Where the key is lost, none of these new ones opens an entry that is left of it. -/
def Store.Sealed (A : Android Key) (s : Store Key) (generated : Set Key) : Prop :=
  s.key = none → ∀ key ∈ generated, ∀ n encrypted, s.preferences n = some encrypted →
    password A key encrypted = none

/-- The dictionary is the one of the preferences, as far as hosts go. -/
def Agree (A : Android Key) (generated : Set Key) (s : Store Key) (d : Dictionary) : Prop :=
  s.Sealed A generated ∧ ∀ e, 0x7C ∉ e.host → dictionary A s e = d e

/-- A password that was saved is what the key makes of its entry. -/
theorem password_encodeToString (hlaw : A.Lawful) (key : Key) (iv : Iv) (s : List UInt16) :
    password A key (A.encodeToString (pack iv.bytes
      (A.encrypt key iv.bytes (Utf16.toByteArray s)))) = some (Utf8.replaceUnpaired s) := by
  have hlength : 0 < (A.encrypt key iv.bytes (Utf16.toByteArray s)).length := by
    rw [hlaw.length_encrypt]
    omega
  rw [password, hlaw.decode_encodeToString, Option.bind_some, unpack_pack iv hlength,
    Option.bind_some, hlaw.decrypt_encrypt, Option.map_some, Utf8.decode_toByteArray]

/-- What comes of an entry where the keystore does not throw. -/
theorem reveal_some (s : Store Key) (generated : Key) (encrypted : List UInt16) :
    (reveal A s (some generated) encrypted).2 = password A (s.key.getD generated) encrypted ∧
      ((reveal A s (some generated) encrypted).1 = s ∨
        (reveal A s (some generated) encrypted).1 =
          { s with key := some (s.key.getD generated) }) := by
  unfold reveal password
  cases (A.decode encrypted).bind unpack with
  | none => exact ⟨rfl, .inl rfl⟩
  | some r => exact ⟨rfl, .inr rfl⟩

/-- And where it does. -/
theorem reveal_none (s : Store Key) (encrypted : List UInt16) :
    reveal A s none encrypted = (s, none) := by
  unfold reveal
  cases (A.decode encrypted).bind unpack <;> rfl

/-- The entry of an account and the others. -/
theorem update_name {e : Account} (he : 0x7C ∉ e.host) (p : List UInt16 → Option (List UInt16))
    (v : Option (List UInt16)) {e' : Account} (he' : 0x7C ∉ e'.host) :
    Function.update p (name e) v (name e') = Function.update (fun e => p (name e)) e v e' := by
  by_cases heq : e' = e
  · subst heq
    rw [Function.update_self, Function.update_self]
  · rw [Function.update_of_ne heq, Function.update_of_ne fun h => heq (name_inj he' he h)]

variable {generated : Set Key} {s : Store Key} {d : Dictionary}

/-- An entry is removed. -/
theorem Agree.remove (h : Agree A generated s d) {e : Account} (he : 0x7C ∉ e.host) :
    Agree A generated (s.remove (name e)) (Function.update d e none) := by
  obtain ⟨hsealed, hentries⟩ := h
  refine ⟨fun hkey key hgenerated n encrypted hn => ?_, fun e' he' => ?_⟩
  · have hpreferences : Function.update s.preferences (name e) none n = some encrypted := hn
    by_cases hname : n = name e
    · rw [hname, Function.update_self] at hpreferences
      cases hpreferences
    · rw [Function.update_of_ne hname] at hpreferences
      exact hsealed hkey key hgenerated n encrypted hpreferences
  · show (s.key.bind fun key =>
      (Function.update s.preferences (name e) none (name e')).bind (password A key)) = _
    rw [update_name he _ _ he']
    by_cases heq : e' = e
    · subst heq
      rw [Function.update_self, Function.update_self]
      cases s.key <;> rfl
    · rw [Function.update_of_ne heq, Function.update_of_ne heq]
      exact hentries e' he'

/-- What is not there is not missed. -/
theorem update_none {e : Account} (h : d e = none) : Function.update d e none = d := by
  rw [← h, Function.update_eq_self]

/-- A key that is made up opens nothing that the lost one did not. -/
theorem dictionary_getD (h : s.Sealed A generated) {key : Key} (hkey : key ∈ generated) :
    dictionary A { s with key := some (s.key.getD key) } = dictionary A s := by
  funext e
  cases hold : s.key with
  | some old =>
    rw [dictionary, dictionary, hold]
    rfl
  | none =>
    show ((s.preferences (name e)).bind (password A key)) = dictionary A s e
    rw [dictionary, hold, Option.bind_none, Option.bind_eq_none_iff]
    exact fun encrypted => h hold key hkey (name e) encrypted

/-- `key` does not show. -/
theorem Agree.useKey (h : Agree A generated s d) {key : Key} (hkey : key ∈ generated) :
    Agree A generated { s with key := some (s.key.getD key) } d := by
  refine ⟨fun hnone => (Option.some_ne_none _ hnone).elim, fun e he => ?_⟩
  rw [dictionary_getD h.1 hkey]
  exact h.2 e he

/-- What an entry holds is what any key makes of it that may be used. -/
theorem Agree.entry (h : Agree A generated s d) {e : Account} (he : 0x7C ∉ e.host)
    {encrypted : List UInt16} (hentry : s.preferences (name e) = some encrypted) {key : Key}
    (hkey : key ∈ generated) : password A (s.key.getD key) encrypted = d e := by
  rw [← h.2 e he, ← dictionary_getD h.1 hkey, dictionary, Option.bind_some, hentry,
    Option.bind_some]

/-- The entry that is looked for. -/
theorem Agree.read (h : Agree A generated s d) {a : Account} (ha : 0x7C ∉ (normal A a).host)
    {key : Key} (hkey : key ∈ generated) : Agree A generated (read A s a (some key)).1 d ∧
      (read A s a (some key)).2 = d (normal A a) := by
  unfold SavedAdminPassword.read
  rw [identity_eq]
  cases hentry : s.preferences (name (normal A a)) with
  | none =>
    refine ⟨h, ?_⟩
    rw [← h.2 (normal A a) ha, dictionary, hentry]
    cases s.key <;> rfl
  | some encrypted =>
    obtain ⟨htext, hleft⟩ := reveal_some (A := A) s key encrypted
    rw [h.entry ha hentry hkey] at htext
    have hagree : Agree A generated (reveal A s (some key) encrypted).1 d := by
      rcases hleft with hsame | hused
      · rw [hsame]
        exact h
      · rw [hused]
        exact h.useKey hkey
    rcases hreveal : reveal A s (some key) encrypted with ⟨s', text⟩
    rw [hreveal] at htext hagree
    simp only [hreveal]
    cases text with
    | some text => exact ⟨hagree, htext⟩
    | none =>
      have hremove := hagree.remove ha
      rw [update_none htext.symm] at hremove
      exact ⟨hremove, htext⟩

/-- The entry is looked for, and the keystore throws. -/
theorem Agree.read_throws (h : Agree A generated s d) {a : Account}
    (ha : 0x7C ∉ (normal A a).host) :
    Agree A generated (SavedAdminPassword.read A s a none).1
        (Function.update d (normal A a) none) ∧
      (SavedAdminPassword.read A s a none).2 = none := by
  unfold SavedAdminPassword.read
  rw [identity_eq]
  cases hentry : s.preferences (name (normal A a)) with
  | none =>
    have hnone : d (normal A a) = none := by
      rw [← h.2 (normal A a) ha, dictionary, hentry]
      cases s.key <;> rfl
    refine ⟨?_, rfl⟩
    rw [update_none hnone]
    exact h
  | some encrypted =>
    simp only [reveal_none]
    exact ⟨h.remove ha, trivial⟩

/-- A password is saved. -/
theorem Agree.save (hlaw : A.Lawful) (h : Agree A generated s d) {a : Account}
    (ha : 0x7C ∉ (normal A a).host) (text : List UInt16) {key : Key} (hkey : key ∈ generated)
    (iv : Iv) : ∃ s', save A s a text (some key) iv = some s' ∧
      Agree A generated s'
        (Function.update d (normal A a) (some (Utf8.replaceUnpaired text))) := by
  refine ⟨_, rfl, fun hnone => (Option.some_ne_none _ hnone).elim, fun e he => ?_⟩
  show ((Function.update s.preferences (name (normal A a)) _ (name e)).bind (password A _)) = _
  rw [update_name ha _ _ he]
  by_cases heq : e = normal A a
  · subst heq
    rw [Function.update_self, Function.update_self]
    exact password_encodeToString hlaw _ iv text
  · rw [Function.update_of_ne heq, Function.update_of_ne heq, ← h.2 e he,
      ← dictionary_getD h.1 hkey]
    rfl

/-- A call does to the preferences what it does to the dictionary, and ends in the same way. -/
theorem Agree.call (hlaw : A.Lawful) (h : Agree A generated s d) {c : Command Key}
    (hc : 0x7C ∉ A.lowercase (Utf16.trim c.account.host))
    (hkeystore : ∀ key ∈ c.keystore, key ∈ generated) :
    Agree A generated (call A s c).1 (Dictionary.call A d c).1 ∧
      (call A s c).2 = (Dictionary.call A d c).2 := by
  cases c with
  | read a keystore =>
    cases keystore with
    | none =>
      obtain ⟨hagree, hnone⟩ := h.read_throws hc
      exact ⟨hagree, congrArg Answer.password hnone⟩
    | some key =>
      obtain ⟨hagree, htext⟩ := h.read hc (hkeystore key rfl)
      exact ⟨hagree, congrArg Answer.password htext⟩
  | save a text keystore iv =>
    cases keystore with
    | none => exact ⟨h, rfl⟩
    | some key =>
      obtain ⟨s', hsave, hagree⟩ := h.save (a := a) hlaw hc text (hkeystore key rfl) iv
      rw [SavedAdminPassword.call, hsave]
      exact ⟨hagree, rfl⟩
  | forget a => exact ⟨h.remove (e := normal A a) hc, rfl⟩

/-- The calls end as they would end with a dictionary, and the preferences go on standing for what
is in it.  That a new key opens nothing that is left of a lost one is what the cipher's tag is
for. -/
theorem refines (hlaw : A.Lawful) {commands : List (Command Key)}
    (hsealed : s.Sealed A {key | ∃ c ∈ commands, key ∈ c.keystore})
    (hcommands : ∀ c ∈ commands, 0x7C ∉ A.lowercase (Utf16.trim c.account.host)) :
    let left := Responder.run (SavedAdminPassword.call A) s commands
    let right := Responder.run (Dictionary.call A) (dictionary A s) commands
    left.2 = right.2 ∧ ∀ e, 0x7C ∉ e.host → dictionary A left.1 e = right.1 e := by
  have hstep : ∀ s d, ∀ c ∈ commands, Agree A {key | ∃ c ∈ commands, key ∈ c.keystore} s d →
      Agree A {key | ∃ c ∈ commands, key ∈ c.keystore} (call A s c).1
          (Dictionary.call A d c).1 ∧
        (call A s c).2 = (Dictionary.call A d c).2 :=
    fun s d c hc h => h.call hlaw (hcommands c hc) fun key hkey => ⟨c, hc, hkey⟩
  obtain ⟨hlast, hanswers⟩ := Responder.run_simulates hstep ⟨hsealed, fun e _ => rfl⟩
  exact ⟨hanswers, hlast.2⟩

/-! ### A run -/

/-- A cipher that hides nothing, under keys that are numbers and make up the tag. -/
def sampleAndroid : Android ℕ where
  lowercase s := s.map fun u => if 0x41 ≤ u ∧ u ≤ 0x5A then u + 0x20 else u
  encodeToString s := (Base64.encode stdEncoding s).map UInt8.toUInt16
  decode s := Base64.decode stdEncoding (s.map UInt16.toUInt8)
  encrypt key _ s := s ++ List.replicate 16 (UInt8.ofNat key)
  decrypt key _ s :=
    if s.drop (s.length - 16) = List.replicate 16 (UInt8.ofNat key) then
      some (s.take (s.length - 16))
    else none

theorem sample_lawful : sampleAndroid.Lawful where
  decode_encodeToString s := by
    have hid : UInt16.toUInt8 ∘ UInt8.toUInt16 = id := funext fun c => UInt8.toUInt8_toUInt16 c
    show Base64.decode stdEncoding (((Base64.encode stdEncoding s).map _).map _) = some s
    rw [List.map_map, hid, List.map_id, Base64.decode_encode]
  decrypt_encrypt key iv s := by
    have hlength : (s ++ List.replicate 16 (UInt8.ofNat key)).length - 16 = s.length := by
      rw [List.length_append, List.length_replicate, Nat.add_sub_cancel]
    refine (if_pos ?_).trans (congrArg some ?_)
    · show (s ++ List.replicate 16 (UInt8.ofNat key)).drop
        ((s ++ List.replicate 16 (UInt8.ofNat key)).length - 16) = _
      rw [hlength, List.drop_left]
    · show (s ++ List.replicate 16 (UInt8.ofNat key)).take
        ((s ++ List.replicate 16 (UInt8.ofNat key)).length - 16) = _
      rw [hlength, List.take_left]
  length_encrypt key iv s := by
    show (s ++ List.replicate 16 (UInt8.ofNat key)).length = _
    rw [List.length_append, List.length_replicate]

/-- What the key 5, which is lost, has left. -/
def leftover : List UInt16 :=
  sampleAndroid.encodeToString
    (pack (List.replicate 12 1) (sampleAndroid.encrypt 5 (List.replicate 12 1) [0x61]))

def restored : Store ℕ := ⟨none, fun _ => some leftover⟩

/-- A password is saved for a server and read again with its name in capitals; another one, which is
left over, is not read. -/
def sampleCommands : List (Command ℕ) :=
  [.save ⟨units "vps.example ", units "root", 22⟩ (units "päss|word") (some 7)
      ⟨List.replicate 12 1, rfl⟩,
    .read ⟨units "VPS.example", units "root", 22⟩ (some 8),
    .read ⟨units "VPS.example", units "admin", 22⟩ (some 8),
    .read ⟨units "vps.example", units "root", 22⟩ none]

theorem refines_sample :
    (Responder.run (call sampleAndroid) restored sampleCommands).2 =
      (Responder.run (Dictionary.call sampleAndroid) (dictionary sampleAndroid restored)
        sampleCommands).2 := by
  have hsealed :
      restored.Sealed sampleAndroid {key | ∃ c ∈ sampleCommands, key ∈ c.keystore} := by
    rintro - key ⟨c, hc, hkey⟩ n encrypted hencrypted
    obtain rfl := Option.some.inj hencrypted
    have hall : ∀ c ∈ sampleCommands, ∀ key ∈ c.keystore,
        password sampleAndroid key leftover = none := by
      decide +kernel
    exact hall c hc key hkey
  exact (refines sample_lawful hsealed (List.all_iff_forall_prop.mp rfl)).1

end OpenFlux.App.SavedAdminPassword
