import Mathlib.Logic.Function.Basic
import OpenFlux.Algorithm.Responder
import OpenFlux.App.Utf8
import OpenFlux.Go.Json

/-!
# The passwords of administrators (`SavedAdminPassword.kt`)

A password is kept in the preferences, encrypted, under what `identity` makes of the account.  What
is kept is the Base64 of a record of the initialization vector and the ciphertext; one that cannot
be read is removed when it is asked for.  The keystore makes up a key where there is none, and may
throw in any call.
-/

namespace OpenFlux.App.SavedAdminPassword

open Kotlin

/-- What the object uses of Android: `lowercase`, `Base64` without line breaks, and AES in Galois
counter mode under a key of the keystore, an initialization vector and what is to be encrypted. -/
structure Android (Key : Type) where
  lowercase : List UInt16 → List UInt16
  encodeToString : Bytes → List UInt16
  decode : List UInt16 → Option Bytes
  encrypt : Key → Bytes → Bytes → Bytes
  decrypt : Key → Bytes → Bytes → Option Bytes

/-- The initialization vector that a cipher makes up. -/
structure Iv where
  bytes : Bytes
  length_eq : bytes.length = 12

structure Account where
  host : List UInt16
  user : List UInt16
  port : Int32
  deriving DecidableEq

/-- The key of `KEY_ALIAS`, and the preferences of `PREFS`. -/
structure Store (Key : Type) where
  key : Option Key
  preferences : List UInt16 → Option (List UInt16)

variable {Key : Type} (A : Android Key)

/-- `identity`. -/
def identity (a : Account) : List UInt16 :=
  A.lowercase (Utf16.trim a.host) ++ 0x7C :: (Utf16.trim a.user ++
    0x7C :: (decimal a.port.toInt).map UInt8.toUInt16)

namespace Store

/-- `edit().remove(…).apply()` -/
def remove (s : Store Key) (name : List UInt16) : Store Key :=
  { s with preferences := Function.update s.preferences name none }

/-- `edit().putString(…).apply()` -/
def putString (s : Store Key) (name value : List UInt16) : Store Key :=
  { s with preferences := Function.update s.preferences name (some value) }

/-- `key`: the key that is there, or the one that is generated.  The keystore may throw. -/
def useKey (s : Store Key) (keystore : Option Key) : Option Key := keystore.map s.key.getD

end Store

/-- The record that `save` encodes. -/
def pack (iv ciphertext : Bytes) : Bytes :=
  putUint32 (UInt32.ofNat iv.length) ++ iv ++ ciphertext

/-- The initialization vector and the ciphertext that `read` takes out of a record. -/
def unpack : Bytes → Option (Bytes × Bytes)
  | b₀ :: b₁ :: b₂ :: b₃ :: rest =>
    let ivLength := (beUint32 b₀ b₁ b₂ b₃).toInt32
    if (12 ≤ ivLength ∧ ivLength ≤ 16) ∧ ivLength.toInt < rest.length then
      some (rest.splitAt ivLength.toInt.toNat)
    else none
  | _ => none

/-- The block of `read` that may throw. -/
def reveal (s : Store Key) (keystore : Option Key) (encrypted : List UInt16) :
    Store Key × Option (List UInt16) :=
  match (A.decode encrypted).bind unpack with
  | none => (s, none)
  | some (iv, ciphertext) =>
    match s.useKey keystore with
    | none => (s, none)
    | some key => ({ s with key }, (A.decrypt key iv ciphertext).map Utf8.decode)

def read (s : Store Key) (a : Account) (keystore : Option Key) :
    Store Key × Option (List UInt16) :=
  match s.preferences (identity A a) with
  | none => (s, none)
  | some encrypted =>
    match reveal A s keystore encrypted with
    | (s, some password) => (s, some password)
    | (s, none) => (s.remove (identity A a), none)

/-- `save`, with `none` for an exception. -/
def save (s : Store Key) (a : Account) (password : List UInt16) (keystore : Option Key) (iv : Iv) :
    Option (Store Key) :=
  (s.useKey keystore).map fun key =>
    let ciphertext := A.encrypt key iv.bytes (Utf16.toByteArray password)
    { s with key }.putString (identity A a) (A.encodeToString (pack iv.bytes ciphertext))

def forget (s : Store Key) (a : Account) : Store Key := s.remove (identity A a)

/-- A call, with the key that the keystore would make up for it, unless it throws. -/
inductive Command (Key : Type)
  | read (a : Account) (keystore : Option Key)
  | save (a : Account) (password : List UInt16) (keystore : Option Key) (iv : Iv)
  | forget (a : Account)

def Command.account : Command Key → Account
  | .read a _ | .save a _ _ _ | .forget a => a

def Command.keystore : Command Key → Option Key
  | .read _ keystore | .save _ _ keystore _ => keystore
  | .forget _ => none

inductive Answer
  | password (text : Option (List UInt16))
  | returned
  | thrown
  deriving DecidableEq

/-- A call and how it ends. -/
def call (s : Store Key) : Command Key → Store Key × Answer
  | .read a keystore =>
    let (s, text) := read A s a keystore
    (s, .password text)
  | .save a password keystore iv =>
    match save A s a password keystore iv with
    | none => (s, .thrown)
    | some s => (s, .returned)
  | .forget a => (forget A s a, .returned)

end OpenFlux.App.SavedAdminPassword
