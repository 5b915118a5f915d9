import OpenFlux.App.Utf16

/-!
# The shared secret (`EncryptionKey.kt`)

What the app accepts as an encryption key, and what it writes to the file that it passes to the
client as `--encryption-key-file`.
-/

namespace OpenFlux.App.EncryptionKey

open Kotlin

/-- `MIN_BYTES`. -/
def minBytes : ℕ := 16

def normalize (raw : List UInt16) : List UInt16 := Utf16.trim raw

def isValid (raw : List UInt16) : Bool := minBytes ≤ (Utf16.toByteArray (normalize raw)).length

/-- What `writeKey` leaves in `keyFile`; `writeText` writes UTF-8. -/
def keyFile (key : List UInt16) : Bytes := Utf16.toByteArray (normalize key)

end OpenFlux.App.EncryptionKey
