import OpenFlux.App.EncryptionKey
import OpenFlux.Main.Encryption
import OpenFlux.Transport.Equiv.Encrypted

/-!
# The app and the server on encryption keys

The app trims a key as Kotlin does before it writes the key file, the client trims what it reads as
Go does, and a server trims what it is given as Go does.  Kotlin trims the four separators U+001C to
U+001F, which Go does not, and Go trims U+0085, which Kotlin does not.  `agrees_iff` says for which
keys this makes no difference.
-/

namespace OpenFlux.App.EncryptionKey

open Kotlin Strip Transport Transport.Encrypted Main

/-- U+001C to U+001F. -/
def separators : List Char := ['\x1C', '\x1D', '\x1E', '\x1F']

/-- U+0085. -/
def nextLine : Char := '\u0085'

/-! ### What one trim keeps and the other does not -/

/-- If the first character that is no white space to Go is a separator, there is a `nextLine` before
it. -/
def Sheltered (s : List Char) : Prop :=
  ∀ c ∈ (s.dropWhile (· ∈ whiteSpace)).head?, c ∈ separators →
    nextLine ∈ s.takeWhile (· ∈ whiteSpace)

instance (s : List Char) : Decidable (Sheltered s) :=
  Option.decidableForallMem _

theorem mem_whitespaceChars_iff (c : Char) :
    c ∈ Utf16.whitespaceChars ↔ c ∈ separators ∨ c ∈ whiteSpace ∧ c ≠ nextLine := by
  have hmem : ∀ c ∈ Utf16.whitespaceChars, c ∈ separators ∨ c ∈ whiteSpace ∧ c ≠ nextLine :=
    List.all_iff_forall_prop.mp (by decide)
  have hseparator : ∀ c ∈ separators, c ∈ Utf16.whitespaceChars :=
    List.all_iff_forall_prop.mp (by decide)
  have hspace : ∀ c ∈ whiteSpace, c ≠ nextLine → c ∈ Utf16.whitespaceChars :=
    List.all_iff_forall_prop.mp (by decide)
  constructor
  · exact hmem c
  · rintro (h | ⟨h, hne⟩)
    · exact hseparator c h
    · exact hspace c h hne

theorem guarded_iff (s : List Char) :
    Guarded (· ∈ Utf16.whitespaceChars) (· ∈ whiteSpace) s ↔ Sheltered s := by
  have hspace : ∀ c ∈ whiteSpace, (c ∉ Utf16.whitespaceChars ↔ c = nextLine) :=
    List.all_iff_forall_prop.mp (by decide)
  have hleft : ∀ c ∈ (s.dropWhile (· ∈ whiteSpace)).head?,
      (c ∈ Utf16.whitespaceChars ↔ c ∈ separators) := by
    intro c hc
    have hnot : c ∉ whiteSpace := by
      have hhead := List.head?_dropWhile_not (· ∈ whiteSpace) s
      rw [hc] at hhead
      simpa using hhead
    rw [mem_whitespaceChars_iff]
    simp only [hnot, false_and, or_false]
  simp only [Guarded, Sheltered, decide_eq_true_iff, decide_eq_false_iff_not]
  refine forall₂_congr fun c hc => ?_
  rw [hleft c hc]
  refine imp_congr_right fun _ => ⟨?_, fun h => ⟨nextLine, h, by decide⟩⟩
  rintro ⟨d, hd, hnot⟩
  have hmem : d ∈ whiteSpace := by simpa using List.mem_takeWhile_imp hd
  exact (hspace d hmem).mp hnot ▸ hd

/-! ### The key file -/

/-- What the client reads is what the server has. -/
theorem secret_eq_iff (raw : List UInt16) :
    trimSpace (keyFile raw) = trimSpace (Utf16.toByteArray raw) ↔
      Sheltered (Utf16.chars raw) ∧ Sheltered (Utf16.chars raw).reverse := by
  rw [keyFile, normalize, Utf16.toByteArray, Utf16.toByteArray, Utf16.chars_trim, trimSpace_utf8,
    trimSpace_utf8, ← guarded_iff, ← guarded_iff, ← strip_strip_eq_iff]
  constructor
  · exact fun h => utf8_inj h
  · exact fun h => congrArg utf8 h

/-- The characters of a key that the app and the client treat alike.  From the first to the last
character that is no white space to Go it is long enough, or it is too short even with the white
space that a `nextLine` keeps Kotlin from cutting. -/
structure TrimmedAlike (s : List Char) : Prop where
  first : Sheltered s
  last : Sheltered s.reverse
  length : minBytes ≤ (utf8 (strip (· ∈ whiteSpace) s)).length ∨
    (utf8 (strip (fun c => c ∈ whiteSpace ∧ c ≠ nextLine) s)).length < minBytes

theorem chars_normalize {raw : List UInt16} (h : Sheltered (Utf16.chars raw))
    (hreverse : Sheltered (Utf16.chars raw).reverse) :
    Utf16.chars (normalize raw) =
      strip (fun c => c ∈ whiteSpace ∧ c ≠ nextLine) (Utf16.chars raw) := by
  have hseparator : ∀ c ∈ separators, c ∉ whiteSpace :=
    List.all_iff_forall_prop.mp (by decide)
  rw [normalize, Utf16.chars_trim,
    strip_eq_of_guarded ((guarded_iff _).mpr h) ((guarded_iff _).mpr hreverse)]
  congr 1
  funext c
  simp only [both, ← Bool.decide_and, decide_eq_decide, mem_whitespaceChars_iff]
  constructor
  · rintro ⟨hseparate | hkept, hspace⟩
    · exact absurd hspace (hseparator c hseparate)
    · exact hkept
  · exact fun hkept => ⟨.inr hkept, hkept.1⟩

variable {c : Crypto}

/-- The app takes a key that the client takes, and the client has the server's secret. -/
def Agrees (c : Crypto) (s : Settings) (raw : List UInt16) : Prop :=
  (isValid raw = true ↔
      ∃ e, { s with encryptionKey := keyFile raw }.encryptedTransport c = .ok e) ∧
    trimSpace (keyFile raw) = trimSpace (Utf16.toByteArray raw)

theorem agrees_iff (hc : c.Lawful)
    (hscrypt : ∀ password salt, ∃ key, c.scryptKey password salt 32768 8 1 32 = .ok key)
    (s : Settings) (raw : List UInt16) :
    Agrees c s raw ↔ TrimmedAlike (Utf16.chars raw) := by
  have haccept : (∃ e, { s with encryptionKey := keyFile raw }.encryptedTransport c = .ok e) ↔
      minBytes ≤ (trimSpace (keyFile raw)).length :=
    newEncryptedTransport_isOk_iff hc hscrypt ..
  rw [Agrees, haccept, secret_eq_iff, isValid, decide_eq_true_iff]
  constructor
  · rintro ⟨hvalid, hfirst, hlast⟩
    have hsecret := (secret_eq_iff raw).mpr ⟨hfirst, hlast⟩
    rw [hsecret, Utf16.toByteArray, Utf16.toByteArray, trimSpace_utf8, chars_normalize hfirst hlast]
      at hvalid
    refine ⟨hfirst, hlast, ?_⟩
    omega
  · intro h
    refine ⟨?_, h.first, h.last⟩
    have hle : (trimSpace (keyFile raw)).length ≤ (Utf16.toByteArray (normalize raw)).length := by
      rw [keyFile, Utf16.toByteArray, trimSpace_utf8]
      exact length_utf8_le (isInfix_strip ..)
    have hlength := h.length
    rw [← chars_normalize h.first h.last, ← trimSpace_utf8] at hlength
    have hsecret := (secret_eq_iff raw).mpr ⟨h.first, h.last⟩
    rw [hsecret] at hle ⊢
    simp only [Utf16.toByteArray] at hle ⊢
    omega

/-- A key of ASCII characters, as it is typed. -/
def typed (key : String) : List UInt16 := key.toList.map fun c => UInt16.ofNat c.toNat

/-- A client over MAX. -/
def maxClient : Settings where
  role := .client
  transportType := .oneme
  url := none
  encryptionKey := []

theorem checksumCrypto_scrypt (password salt : Bytes) :
    ∃ key, checksumCrypto.scryptKey password salt 32768 8 1 32 = .ok key := ⟨_, rfl⟩

theorem agrees_padded : Agrees checksumCrypto maxClient (typed " 1234567890123456\n") :=
  (agrees_iff checksumCrypto_lawful checksumCrypto_scrypt _ _).mpr
    ⟨by decide, by decide, by decide⟩

/-- Fifteen digits after a `nextLine` are valid to the app, and too short for the client. -/
theorem not_agrees_nextLine :
    ¬ Agrees checksumCrypto maxClient (0x85 :: typed "123456789012345") := by
  rintro ⟨hvalid, -⟩
  have haccept := hvalid.mp (by decide)
  have hlength := (newEncryptedTransport_isOk_iff checksumCrypto_lawful checksumCrypto_scrypt ..).mp
    haccept
  exact absurd hlength (by decide)

end OpenFlux.App.EncryptionKey
