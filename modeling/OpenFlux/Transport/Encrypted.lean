import Mathlib.Data.Finset.Basic
import OpenFlux.Go.Strings

/-!
# The encryption layer (`transport/encrypted.go`)

`EncryptedTransport` seals each packet with AES-GCM under the key of its direction, with a fresh
random nonce and a five-byte header as additional data, and opens what it receives, keeping a
memory of the last nonces it accepted.

The cryptographic functions are a parameter (`Crypto`).  What the code relies on is
`Crypto.Lawful`: opening inverts sealing, sealing adds the 16-byte tag, the derived keys have 32
bytes.  That nothing else opens is no law of the functions but a condition on what an adversary
presents in a run (`Crypto.Unforged`).

`ReplayWindow` holds the set and the list of `rememberNonce` with what ties them together: the
same nonces, none twice, at most `maxSeenNonces`.
-/

namespace OpenFlux.Transport

/-- The functions of `crypto` and `golang.org/x/crypto` that the layer calls.  `gcmOpen` and
`gcmSeal` take the key, the nonce, the text and the additional data. -/
structure Crypto where
  sha256 : Bytes → Bytes
  hmacSha256 : Bytes → Bytes → Bytes
  -- the password, the salt, the cost parameters `N`, `r`, `p` and the length of the key
  scryptKey : Bytes → Bytes → ℕ → ℕ → ℕ → ℕ → Except String Bytes
  gcmSeal : Bytes → Bytes → Bytes → Bytes → Bytes
  gcmOpen : Bytes → Bytes → Bytes → Bytes → Option Bytes

namespace Encrypted

/-- `encryptedVersion`. -/
def encryptedVersion : UInt8 := 1

/-- `encryptedHeader`, the length of the header. -/
def encryptedHeader : ℕ := 5

/-- `maxSeenNonces`. -/
def maxSeenNonces : ℕ := 4096

/-- `encryptedMagic`, the letters `OFX`. -/
def encryptedMagic : Bytes := [0x4F, 0x46, 0x58]

/-- `NonceSize` of AES-GCM. -/
def nonceSize : ℕ := 12

/-- `Overhead` of AES-GCM, the length of its tag. -/
def overhead : ℕ := 16

/-! ### The replay window -/

/-- `seen` and `seenOrder`. -/
structure ReplayWindow where
  seen : Finset Bytes
  seenOrder : List Bytes
  mem_seen : ∀ nonce, nonce ∈ seen ↔ nonce ∈ seenOrder
  nodup : seenOrder.Nodup
  length_le : seenOrder.length ≤ maxSeenNonces

/-- The window of a new transport. -/
def ReplayWindow.empty : ReplayWindow where
  seen := ∅
  seenOrder := []
  mem_seen := by simp
  nodup := List.nodup_nil
  length_le := Nat.zero_le _

theorem nodup_append_singleton {order : List Bytes} {nonce : Bytes} (hnodup : order.Nodup)
    (h : nonce ∉ order) : (order ++ [nonce]).Nodup := by
  rw [List.nodup_append]
  refine ⟨hnodup, List.nodup_singleton nonce, fun a ha b hb hab => h ?_⟩
  rw [List.mem_singleton] at hb
  rwa [← hb, ← hab]

theorem mem_insert_iff_mem_append {seen : Finset Bytes} {order : List Bytes}
    (h : ∀ a, a ∈ seen ↔ a ∈ order) (nonce a : Bytes) :
    a ∈ insert nonce seen ↔ a ∈ order ++ [nonce] := by
  simp [h, or_comm]

theorem mem_erase_iff_mem_tail {seen : Finset Bytes} {oldest : Bytes} {rest : List Bytes}
    (h : ∀ a, a ∈ seen ↔ a ∈ oldest :: rest) (hnodup : (oldest :: rest).Nodup) (a : Bytes) :
    a ∈ seen.erase oldest ↔ a ∈ rest := by
  have hold : oldest ∉ rest := (List.nodup_cons.mp hnodup).1
  rw [Finset.mem_erase, h, List.mem_cons]
  constructor
  · rintro ⟨hne, heq | hrest⟩
    · exact absurd heq hne
    · exact hrest
  · intro hrest
    exact ⟨fun heq => hold (heq ▸ hrest), .inr hrest⟩

/-- `rememberNonce`: a remembered nonce is refused, another one is remembered, and the oldest one
is forgotten when there are more than `maxSeenNonces`. -/
def ReplayWindow.rememberNonce (w : ReplayWindow) (nonce : Bytes) : ReplayWindow × Bool :=
  if hseen : nonce ∈ w.seen then (w, false)
  else
    have hnodup : (w.seenOrder ++ [nonce]).Nodup :=
      nodup_append_singleton w.nodup fun h => hseen ((w.mem_seen nonce).mpr h)
    have hmem := mem_insert_iff_mem_append w.mem_seen nonce
    if hfull : maxSeenNonces < (w.seenOrder ++ [nonce]).length then
      match horder : w.seenOrder ++ [nonce] with
      | [] => absurd horder (by simp)
      | oldest :: rest =>
        ({ seen := (insert nonce w.seen).erase oldest
           seenOrder := rest
           mem_seen := mem_erase_iff_mem_tail (horder ▸ hmem) (horder ▸ hnodup)
           nodup := (List.nodup_cons.mp (horder ▸ hnodup)).2
           length_le := by
             have hlen := congrArg List.length horder
             have hle := w.length_le
             simp only [List.length_append, List.length_cons, List.length_nil] at hlen
             omega }, true)
    else
      ({ seen := insert nonce w.seen
         seenOrder := w.seenOrder ++ [nonce]
         mem_seen := hmem
         nodup := hnodup
         length_le := Nat.le_of_not_lt hfull }, true)

/-! ### The transport -/

/-- The AEAD `newGCM` builds, with a key of one of the sizes AES has. -/
structure AEAD where
  key : Bytes
  key_size : key.length = 16 ∨ key.length = 24 ∨ key.length = 32

/-- The fields of `EncryptedTransport`, less the embedded `Transport`: `send` returns the packet
that is passed to it. -/
structure EncryptedTransport where
  sendAEAD : AEAD
  receiveAEAD : AEAD
  sendDirection : UInt8
  recvDirection : UInt8
  window : ReplayWindow

/-- `deriveDirectionalKey`. -/
def deriveDirectionalKey (c : Crypto) (master : Bytes) (label : String) : Bytes :=
  c.hmacSha256 master (literal ("OpenFlux direction v1\x00" ++ label))

/-- `newGCM`.  `cipher.NewGCM` accepts every AES block cipher, so only the key can be at fault. -/
def newGCM (key : Bytes) : Except String AEAD :=
  if h : key.length = 16 ∨ key.length = 24 ∨ key.length = 32 then .ok ⟨key, h⟩
  else .error s!"create AES cipher: crypto/aes: invalid key size {key.length}"

/-- `NewEncryptedTransport`. -/
def newEncryptedTransport {τ : Type*} (c : Crypto) (inner : Option τ) (secret context : Bytes)
    (exitNode : Bool) : Except String EncryptedTransport :=
  if inner.isNone then .error "inner transport is nil"
  else if secret.length < 16 then
    .error "encryption secret must contain at least 16 characters"
  else
    let salt := c.sha256 (literal "OpenFlux encrypted transport v1\x00" ++ context)
    match c.scryptKey secret salt 32768 8 1 32 with
    | .error err => .error s!"derive encryption key: {err}"
    | .ok master => do
      let clientToExit := deriveDirectionalKey c master "client-to-exit"
      let exitToClient := deriveDirectionalKey c master "exit-to-client"
      let sendAEAD ← newGCM (if exitNode then exitToClient else clientToExit)
      let receiveAEAD ← newGCM (if exitNode then clientToExit else exitToClient)
      return {
        sendAEAD, receiveAEAD
        sendDirection := if exitNode then 1 else 0
        recvDirection := if exitNode then 0 else 1
        window := .empty }

/-- What `rand.Read` puts into the nonce slice. -/
structure Nonce where
  bytes : Bytes
  length_eq : bytes.length = nonceSize
  deriving DecidableEq

namespace EncryptedTransport

/-- The header of the packets sent. -/
def sendHeader (e : EncryptedTransport) : Bytes :=
  encryptedMagic ++ [encryptedVersion, e.sendDirection]

/-- The header `Receive` asks for. -/
def receiveHeader (e : EncryptedTransport) : Bytes :=
  encryptedMagic ++ [encryptedVersion, e.recvDirection]

/-- The packet `Send` builds. -/
def sealPacket (c : Crypto) (e : EncryptedTransport) (nonce : Nonce) (data : Bytes) : Bytes :=
  e.sendHeader ++ nonce.bytes ++ c.gcmSeal e.sendAEAD.key nonce.bytes data e.sendHeader

/-- `Send`, up to the call of the inner transport's: the packet passed to it.  `rand` is what
`rand.Read` did. -/
def send (c : Crypto) (e : EncryptedTransport) (rand : Except String Nonce) (data : Bytes) :
    Except String Bytes :=
  match rand with
  | .error err => .error s!"create packet nonce: {err}"
  | .ok nonce => .ok (e.sealPacket c nonce data)

/-- The checks of the `Receive` callback before `rememberNonce`: the nonce and the plaintext of a
packet that passes them. -/
def openPacket (c : Crypto) (e : EncryptedTransport) (packet : Bytes) : Option (Bytes × Bytes) :=
  if packet.length < encryptedHeader + nonceSize + overhead then none
  else
    let header := packet.take encryptedHeader
    if header ≠ e.receiveHeader then none
    else
      let nonceEnd := encryptedHeader + nonceSize
      let nonce := (packet.take nonceEnd).drop encryptedHeader
      match c.gcmOpen e.receiveAEAD.key nonce (packet.drop nonceEnd) header with
      | none => none
      | some plaintext => some (nonce, plaintext)

/-- The callback `Receive` registers: the transport after it, and the plaintext if it calls the
user callback. -/
def receive (c : Crypto) (e : EncryptedTransport) (packet : Bytes) :
    EncryptedTransport × Option Bytes :=
  match e.openPacket c packet with
  | none => (e, none)
  | some (nonce, plaintext) =>
    let r := e.window.rememberNonce nonce
    ({ e with window := r.1 }, if r.2 then some plaintext else none)

/-- `Receive` over a sequence of packets: the transport after it, and the packets whose plaintext
was handed to the user callback, with the plaintext. -/
def receiveAll (c : Crypto) : EncryptedTransport → List Bytes →
    EncryptedTransport × List (Bytes × Bytes)
  | e, [] => (e, [])
  | e, packet :: packets =>
    let r := e.receive c packet
    let rest := receiveAll c r.1 packets
    match r.2 with
    | some plaintext => (rest.1, (packet, plaintext) :: rest.2)
    | none => rest

end EncryptedTransport

end Encrypted

/-! ### What is assumed of the library -/

/-- AES-GCM and HMAC-SHA-256 as far as the layer relies on them. -/
structure Crypto.Lawful (c : Crypto) : Prop where
  open_seal : ∀ key nonce plaintext data,
    c.gcmOpen key nonce (c.gcmSeal key nonce plaintext data) data = some plaintext
  length_seal : ∀ key nonce plaintext data,
    (c.gcmSeal key nonce plaintext data).length = plaintext.length + Encrypted.overhead
  length_open : ∀ key nonce ciphertext data plaintext,
    c.gcmOpen key nonce ciphertext data = some plaintext →
      ciphertext.length = plaintext.length + Encrypted.overhead
  length_hmac : ∀ key message, (c.hmacSha256 key message).length = 32

/-- The arguments of a call of `Seal`. -/
structure SealCall where
  key : Bytes
  nonce : Bytes
  plaintext : Bytes
  data : Bytes

/-- The `Seal` call of one `Send`. -/
def Encrypted.EncryptedTransport.sealCall (e : Encrypted.EncryptedTransport)
    (nonce : Encrypted.Nonce) (data : Bytes) : SealCall where
  key := e.sendAEAD.key
  nonce := nonce.bytes
  plaintext := data
  data := e.sendHeader

/-- **Ideal AEAD**, for one packet presented to `Receive`: if its ciphertext opens, it came from a
call of `Seal` with the same key, nonce and additional data. -/
def Crypto.Unforged (c : Crypto) (calls : List SealCall) (e : Encrypted.EncryptedTransport)
    (packet : Bytes) : Prop :=
  ∀ nonce ciphertext plaintext,
    packet = e.receiveHeader ++ nonce ++ ciphertext → nonce.length = Encrypted.nonceSize →
    c.gcmOpen e.receiveAEAD.key nonce ciphertext e.receiveHeader = some plaintext →
    ∃ call ∈ calls, call.key = e.receiveAEAD.key ∧ call.nonce = nonce ∧
      call.data = e.receiveHeader ∧ call.plaintext = plaintext ∧
      ciphertext = c.gcmSeal call.key call.nonce call.plaintext call.data

end OpenFlux.Transport
