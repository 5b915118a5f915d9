import OpenFlux.Algorithm.DuplicateFilter
import OpenFlux.Transport.Encrypted

/-!
# Correctness of the encryption layer

`rememberNonce` is `DuplicateFilter.remember` on the list of nonces
(`ReplayWindow.remember_seenOrder`), two transports of the same secret and context with opposite
roles are `Paired`, and a packet opens exactly when it is the receiver's header, a nonce and a
ciphertext that opens (`openPacket_eq_some_iff`).

Whatever arrives, the nonces of the packets handed over are what the filter lets through of the
nonces of the packets that open (`map_packetNonce_receiveAll`).  So the replay protection holds on
exactly the sequences within the filter's memory (`handed_at_most_once_iff`).
-/

namespace OpenFlux.Transport.Encrypted

/-! ### The replay window -/

/-- `rememberNonce` is the duplicate filter: the flag says whether the nonce was new. -/
theorem ReplayWindow.remember_seenOrder (w : ReplayWindow) (nonce : Bytes) :
    DuplicateFilter.remember maxSeenNonces w.seenOrder nonce =
      if (w.rememberNonce nonce).2 then some (w.rememberNonce nonce).1.seenOrder else none := by
  unfold DuplicateFilter.remember ReplayWindow.rememberNonce
  by_cases hseen : nonce ∈ w.seen
  · rw [if_pos ((w.mem_seen nonce).mp hseen), dif_pos hseen]
    rfl
  · rw [if_neg fun h => hseen ((w.mem_seen nonce).mpr h), dif_neg hseen]
    by_cases hfull : maxSeenNonces < (w.seenOrder ++ [nonce]).length
    · simp only [if_pos hfull, dif_pos hfull]
      split
      · rename_i horder
        simp at horder
      · rename_i oldest rest horder
        show some (w.seenOrder ++ [nonce]).tail = some rest
        rw [horder, List.tail_cons]
    · simp only [if_neg hfull, dif_neg hfull]
      rfl

theorem ReplayWindow.rememberNonce_new {w : ReplayWindow} {nonce : Bytes} :
    (w.rememberNonce nonce).2 = true ↔ nonce ∉ w.seenOrder := by
  have hnone : DuplicateFilter.remember maxSeenNonces w.seenOrder nonce = none ↔ _ :=
    DuplicateFilter.remember_eq_none_iff
  rw [← hnone, w.remember_seenOrder]
  cases (w.rememberNonce nonce).2 <;> simp

/-- A refused nonce leaves the window as it is. -/
theorem ReplayWindow.rememberNonce_of_mem {w : ReplayWindow} {nonce : Bytes}
    (h : nonce ∈ w.seenOrder) : w.rememberNonce nonce = (w, false) := by
  unfold ReplayWindow.rememberNonce
  rw [dif_pos ((w.mem_seen nonce).mpr h)]

/-- A nonce in the window was there before or is the one remembered. -/
theorem ReplayWindow.mem_rememberNonce {w : ReplayWindow} {nonce a : Bytes}
    (h : a ∈ (w.rememberNonce nonce).1.seenOrder) : a ∈ w.seenOrder ∨ a = nonce := by
  have hremember := w.remember_seenOrder nonce
  cases hnew : (w.rememberNonce nonce).2 with
  | false =>
    have hold : nonce ∈ w.seenOrder := by
      by_contra hnot
      rw [ReplayWindow.rememberNonce_new.mpr hnot] at hnew
      cases hnew
    rw [ReplayWindow.rememberNonce_of_mem hold] at h
    exact .inl h
  | true =>
    rw [hnew, if_pos rfl] at hremember
    have hmem := DuplicateFilter.mem_of_mem_remember hremember h
    rwa [List.mem_append, List.mem_singleton] at hmem

/-! ### The constructor -/

theorem newGCM_eq_ok {key : Bytes} {a : AEAD} (h : newGCM key = .ok a) : a.key = key := by
  unfold newGCM at h
  split_ifs at h
  rw [← Except.ok.inj h]

/-- What `NewEncryptedTransport` builds. -/
theorem newEncryptedTransport_eq_ok {τ : Type*} {c : Crypto} {inner : Option τ}
    {secret context : Bytes} {exitNode : Bool} {e : EncryptedTransport}
    (h : newEncryptedTransport c inner secret context exitNode = .ok e) :
    ∃ master,
      c.scryptKey secret (c.sha256 (literal "OpenFlux encrypted transport v1\x00" ++ context))
        32768 8 1 32 = .ok master ∧
      e.sendAEAD.key =
        deriveDirectionalKey c master (if exitNode then "exit-to-client" else "client-to-exit") ∧
      e.receiveAEAD.key =
        deriveDirectionalKey c master (if exitNode then "client-to-exit" else "exit-to-client") ∧
      e.sendDirection = (if exitNode then 1 else 0) ∧
      e.recvDirection = (if exitNode then 0 else 1) ∧ e.window = .empty := by
  unfold newEncryptedTransport at h
  by_cases hinner : inner.isNone = true
  · rw [if_pos hinner] at h
    cases h
  by_cases hsecret : secret.length < 16
  · rw [if_neg hinner, if_pos hsecret] at h
    cases h
  rw [if_neg hinner, if_neg hsecret] at h
  cases hmaster : c.scryptKey secret
      (c.sha256 (literal "OpenFlux encrypted transport v1\x00" ++ context)) 32768 8 1 32 with
  | error err => simp [hmaster] at h
  | ok master =>
    simp only [hmaster] at h
    cases hsend : newGCM (if exitNode then deriveDirectionalKey c master "exit-to-client"
        else deriveDirectionalKey c master "client-to-exit") with
    | error err => simp [hsend, bind, Except.bind] at h
    | ok sendAEAD =>
      cases hreceive : newGCM (if exitNode then deriveDirectionalKey c master "client-to-exit"
          else deriveDirectionalKey c master "exit-to-client") with
      | error err => simp [hsend, hreceive, bind, Except.bind] at h
      | ok receiveAEAD =>
        simp only [hsend, hreceive, bind, Except.bind, pure, Except.pure, Except.ok.injEq] at h
        refine ⟨master, rfl, ?_, ?_, ?_⟩
        · rw [← h, newGCM_eq_ok hsend]; split_ifs <;> rfl
        · rw [← h, newGCM_eq_ok hreceive]; split_ifs <;> rfl
        · rw [← h]; exact ⟨rfl, rfl, rfl⟩

/-- The secret is all that `NewEncryptedTransport` looks at, if the derivation of the key does not
fail. -/
theorem newEncryptedTransport_isOk_iff {c : Crypto} (hc : c.Lawful)
    (hscrypt : ∀ password salt, ∃ key, c.scryptKey password salt 32768 8 1 32 = .ok key)
    (secret context : Bytes) (exitNode : Bool) :
    (∃ e, newEncryptedTransport c (some ()) secret context exitNode = .ok e) ↔
      16 ≤ secret.length := by
  have hgcm : ∀ master label, ∃ a, newGCM (deriveDirectionalKey c master label) = .ok a :=
    fun master label => ⟨_, dif_pos (.inr (.inr (hc.length_hmac ..)))⟩
  unfold newEncryptedTransport
  rw [if_neg (by simp)]
  by_cases hsecret : secret.length < 16
  · rw [if_pos hsecret]
    exact iff_of_false (fun ⟨_, he⟩ => by cases he) (Nat.not_le.mpr hsecret)
  · rw [if_neg hsecret]
    refine iff_of_true ?_ (Nat.le_of_not_lt hsecret)
    obtain ⟨master, hmaster⟩ := hscrypt secret
      (c.sha256 (literal "OpenFlux encrypted transport v1\x00" ++ context))
    obtain ⟨client, hclient⟩ := hgcm master "client-to-exit"
    obtain ⟨exit, hexit⟩ := hgcm master "exit-to-client"
    dsimp only
    rw [hmaster]
    cases exitNode <;> simp [hclient, hexit, bind, Except.bind, pure, Except.pure]

/-- The packets of `sender` are those `receiver` is keyed for. -/
structure Paired (sender receiver : EncryptedTransport) : Prop where
  key_eq : receiver.receiveAEAD.key = sender.sendAEAD.key
  direction_eq : receiver.recvDirection = sender.sendDirection

/-- Equal secrets and contexts and opposite roles pair two transports. -/
theorem paired_of_new {τ υ : Type*} {c : Crypto} {inner : Option τ} {inner' : Option υ}
    {secret context : Bytes} {exitNode : Bool} {sender receiver : EncryptedTransport}
    (hsender : newEncryptedTransport c inner secret context exitNode = .ok sender)
    (hreceiver : newEncryptedTransport c inner' secret context (!exitNode) = .ok receiver) :
    Paired sender receiver := by
  obtain ⟨master, hmaster, hkey, -, hdir, -, -⟩ := newEncryptedTransport_eq_ok hsender
  obtain ⟨master', hmaster', -, hkey', -, hdir', -⟩ := newEncryptedTransport_eq_ok hreceiver
  have heq : master' = master := Except.ok.inj (hmaster'.symm.trans hmaster)
  constructor
  · rw [hkey, hkey', heq]
    cases exitNode <;> rfl
  · rw [hdir, hdir']
    cases exitNode <;> rfl

/-- A transport never asks for packets of its own direction. -/
theorem recvDirection_ne_sendDirection {τ : Type*} {c : Crypto} {inner : Option τ}
    {secret context : Bytes} {exitNode : Bool} {e : EncryptedTransport}
    (h : newEncryptedTransport c inner secret context exitNode = .ok e) :
    e.recvDirection ≠ e.sendDirection := by
  obtain ⟨master, -, -, -, hsend, hreceive, -⟩ := newEncryptedTransport_eq_ok h
  rw [hsend, hreceive]
  cases exitNode <;> decide

/-! ### Packets -/

theorem Nonce.ext_bytes {n n' : Nonce} (h : n.bytes = n'.bytes) : n = n' := by
  cases n
  cases n'
  cases h
  rfl

theorem length_sendHeader (e : EncryptedTransport) : e.sendHeader.length = encryptedHeader := rfl

theorem length_receiveHeader (e : EncryptedTransport) :
    e.receiveHeader.length = encryptedHeader := rfl

theorem Paired.header_eq {sender receiver : EncryptedTransport} (h : Paired sender receiver) :
    receiver.receiveHeader = sender.sendHeader := by
  rw [EncryptedTransport.receiveHeader, h.direction_eq, EncryptedTransport.sendHeader]

/-- The nonce of a packet. -/
def packetNonce (packet : Bytes) : Bytes :=
  (packet.take (encryptedHeader + nonceSize)).drop encryptedHeader

/-- The three parts of a packet. -/
theorem packetNonce_append {header nonce : Bytes} (hheader : header.length = encryptedHeader)
    (hnonce : nonce.length = nonceSize) (ciphertext : Bytes) :
    (header ++ nonce ++ ciphertext).take encryptedHeader = header ∧
      packetNonce (header ++ nonce ++ ciphertext) = nonce ∧
      (header ++ nonce ++ ciphertext).drop (encryptedHeader + nonceSize) = ciphertext := by
  have hlen : (header ++ nonce).length = encryptedHeader + nonceSize := by
    rw [List.length_append, hheader, hnonce]
  refine ⟨?_, ?_, ?_⟩
  · rw [List.append_assoc, ← hheader, List.take_left]
  · rw [packetNonce, ← hlen, List.take_left, ← hheader, List.drop_left]
  · rw [← hlen, List.drop_left]

/-- **What opens**: the receiver's header, a nonce and a ciphertext that opens. -/
theorem openPacket_eq_some_iff {c : Crypto} {e : EncryptedTransport} {packet nonce p : Bytes} :
    e.openPacket c packet = some (nonce, p) ↔
      ∃ ciphertext, packet = e.receiveHeader ++ nonce ++ ciphertext ∧ nonce.length = nonceSize ∧
        overhead ≤ ciphertext.length ∧
        c.gcmOpen e.receiveAEAD.key nonce ciphertext e.receiveHeader = some p := by
  constructor
  · intro h
    unfold EncryptedTransport.openPacket at h
    dsimp only at h
    split_ifs at h with hlen hheader
    rw [not_not] at hheader
    cases hopen : c.gcmOpen e.receiveAEAD.key
        ((packet.take (encryptedHeader + nonceSize)).drop encryptedHeader)
        (packet.drop (encryptedHeader + nonceSize)) (packet.take encryptedHeader) with
    | none => simp [hopen] at h
    | some plaintext =>
      simp only [hopen, Option.some.injEq, Prod.mk.injEq] at h
      obtain ⟨rfl, rfl⟩ := h
      refine ⟨packet.drop (encryptedHeader + nonceSize), ?_, ?_, ?_, hheader ▸ hopen⟩
      · have htake : packet.take encryptedHeader =
            (packet.take (encryptedHeader + nonceSize)).take encryptedHeader := by
          rw [List.take_take, Nat.min_eq_left (Nat.le_add_right _ _)]
        rw [← hheader, htake, List.take_append_drop, List.take_append_drop]
      · rw [List.length_drop, List.length_take]
        omega
      · rw [List.length_drop]
        omega
  · rintro ⟨ciphertext, rfl, hnonce, hcipher, hopen⟩
    have hheader := length_receiveHeader e
    obtain ⟨htake, hmid, hdrop⟩ := packetNonce_append hheader hnonce ciphertext
    have hlen : ¬ (e.receiveHeader ++ nonce ++ ciphertext).length <
        encryptedHeader + nonceSize + overhead := by
      rw [List.length_append, List.length_append, hheader, hnonce]
      omega
    unfold packetNonce at hmid
    unfold EncryptedTransport.openPacket
    simp only [if_neg hlen, htake, hmid, hdrop, hopen, ne_eq, not_true_eq_false, if_false]

/-- What opens carries its own nonce. -/
theorem packetNonce_of_openPacket {c : Crypto} {e : EncryptedTransport} {packet nonce p : Bytes}
    (h : e.openPacket c packet = some (nonce, p)) : packetNonce packet = nonce := by
  obtain ⟨ciphertext, rfl, hnonce, -, -⟩ := openPacket_eq_some_iff.mp h
  exact (packetNonce_append (length_receiveHeader e) hnonce ciphertext).2.1

theorem take_header_sealPacket (c : Crypto) (e : EncryptedTransport) (nonce : Nonce)
    (data : Bytes) : (e.sealPacket c nonce data).take encryptedHeader = e.sendHeader :=
  (packetNonce_append (length_sendHeader e) nonce.length_eq _).1

theorem packetNonce_sealPacket (c : Crypto) (e : EncryptedTransport) (nonce : Nonce)
    (data : Bytes) : packetNonce (e.sealPacket c nonce data) = nonce.bytes :=
  (packetNonce_append (length_sendHeader e) nonce.length_eq _).2.1

/-- The packets of a transport open at the receiver it is paired with. -/
theorem openPacket_sealPacket {c : Crypto} (hc : c.Lawful) {sender receiver : EncryptedTransport}
    (hpaired : Paired sender receiver) (nonce : Nonce) (data : Bytes) :
    receiver.openPacket c (sender.sealPacket c nonce data) = some (nonce.bytes, data) := by
  refine openPacket_eq_some_iff.mpr
    ⟨c.gcmSeal sender.sendAEAD.key nonce.bytes data sender.sendHeader, ?_, nonce.length_eq, ?_, ?_⟩
  · rw [hpaired.header_eq]
    rfl
  · rw [hc.length_seal]
    exact Nat.le_add_left _ _
  · rw [hpaired.header_eq, hpaired.key_eq, hc.open_seal]

/-- The length of a packet: header, nonce and tag come to the plaintext's length. -/
theorem length_sealPacket {c : Crypto} (hc : c.Lawful) (e : EncryptedTransport) (nonce : Nonce)
    (data : Bytes) : (e.sealPacket c nonce data).length = data.length + 33 := by
  rw [EncryptedTransport.sealPacket, List.length_append, List.length_append, length_sendHeader,
    nonce.length_eq, hc.length_seal, encryptedHeader, nonceSize, overhead]
  omega

theorem length_of_openPacket {c : Crypto} (hc : c.Lawful) {e : EncryptedTransport}
    {packet nonce p : Bytes} (h : e.openPacket c packet = some (nonce, p)) :
    packet.length = p.length + 33 := by
  obtain ⟨ciphertext, rfl, hnonce, -, hopen⟩ := openPacket_eq_some_iff.mp h
  have hcipher := hc.length_open _ _ _ _ _ hopen
  rw [List.length_append, List.length_append, length_receiveHeader, hnonce, hcipher,
    encryptedHeader, nonceSize, overhead]
  omega

/-- Under ideal AEAD whatever opens is one of the packets sealed. -/
theorem eq_sealPacket_of_unforged {c : Crypto} {sender receiver : EncryptedTransport}
    {calls : List (Nonce × Bytes)} {packet nonce p : Bytes}
    (hideal : c.Unforged (calls.map fun call => sender.sealCall call.1 call.2) receiver packet)
    (h : receiver.openPacket c packet = some (nonce, p)) :
    ∃ call ∈ calls, call.2 = p ∧ call.1.bytes = nonce ∧
      packet = sender.sealPacket c call.1 call.2 := by
  obtain ⟨ciphertext, rfl, hnonce, -, hopen⟩ := openPacket_eq_some_iff.mp h
  obtain ⟨call, hmem, -, hcallNonce, hdata, hplain, hcipher⟩ :=
    hideal nonce ciphertext p rfl hnonce hopen
  obtain ⟨call, hcall, rfl⟩ := List.mem_map.mp hmem
  refine ⟨call, hcall, hplain, hcallNonce, ?_⟩
  rw [hcipher, ← hcallNonce, ← hdata]
  rfl

/-- A packet the peer sealed meets the ideal-AEAD condition. -/
theorem unforged_sealPacket {c : Crypto} (hc : c.Lawful) {sender receiver : EncryptedTransport}
    (hpaired : Paired sender receiver) {calls : List (Nonce × Bytes)} {call : Nonce × Bytes}
    (hcall : call ∈ calls) :
    c.Unforged (calls.map fun call => sender.sealCall call.1 call.2) receiver
      (sender.sealPacket c call.1 call.2) := by
  intro nonce ciphertext p hpacket hnonce hopen
  have hopened : receiver.openPacket c (sender.sealPacket c call.1 call.2) = some (nonce, p) := by
    refine openPacket_eq_some_iff.mpr ⟨ciphertext, hpacket, hnonce, ?_, hopen⟩
    rw [hc.length_open _ _ _ _ _ hopen]
    exact Nat.le_add_left _ _
  rw [openPacket_sealPacket hc hpaired, Option.some.injEq, Prod.mk.injEq] at hopened
  obtain ⟨rfl, rfl⟩ := hopened
  refine ⟨sender.sealCall call.1 call.2, List.mem_map.mpr ⟨call, hcall, rfl⟩, hpaired.key_eq.symm,
    rfl, hpaired.header_eq.symm, rfl, ?_⟩
  rw [EncryptedTransport.sealPacket, hpaired.header_eq] at hpacket
  exact (List.append_cancel_left hpacket).symm

/-! ### A sample instance -/

/-- The tag of `checksumCrypto`. -/
def checksumTag (key nonce plaintext data : Bytes) : Bytes :=
  List.replicate 12 0 ++ [key.sum, nonce.sum, plaintext.sum, data.sum]

/-- A library whose ciphertext is the plaintext with a checksum of everything for a tag, and whose
derived keys keep one letter of the label. -/
def checksumCrypto : Crypto where
  sha256 _ := List.replicate 32 0
  hmacSha256 _ message := List.replicate 31 0 ++ [message.getD 22 0]
  scryptKey _ _ _ _ _ keyLen := .ok (List.replicate keyLen 0)
  gcmSeal key nonce plaintext data := plaintext ++ checksumTag key nonce plaintext data
  gcmOpen key nonce ciphertext data :=
    let plaintext := ciphertext.take (ciphertext.length - overhead)
    if ciphertext = plaintext ++ checksumTag key nonce plaintext data then some plaintext else none

theorem checksumCrypto_lawful : checksumCrypto.Lawful where
  open_seal key nonce plaintext data := by
    have hlen : (plaintext ++ checksumTag key nonce plaintext data).length - overhead =
        plaintext.length := by
      rw [List.length_append]
      exact Nat.add_sub_cancel ..
    simp only [checksumCrypto, hlen, List.take_left, if_true]
  length_seal _ _ _ _ := List.length_append
  length_open key nonce ciphertext data plaintext h := by
    simp only [checksumCrypto, Option.ite_none_right_eq_some, Option.some.injEq] at h
    obtain ⟨hcipher, hplain⟩ := h
    rw [hplain] at hcipher
    rw [hcipher, List.length_append]
    rfl
  length_hmac _ _ := rfl

/-- A client (`false`) and an exit (`true`) over `checksumCrypto`. -/
def sampleTransport (exitNode : Bool) : EncryptedTransport where
  sendAEAD := ⟨List.replicate 31 0 ++ [if exitNode then 0x65 else 0x63], .inr (.inr rfl)⟩
  receiveAEAD := ⟨List.replicate 31 0 ++ [if exitNode then 0x63 else 0x65], .inr (.inr rfl)⟩
  sendDirection := if exitNode then 1 else 0
  recvDirection := if exitNode then 0 else 1
  window := .empty

theorem paired_sample (exitNode : Bool) :
    Paired (sampleTransport exitNode) (sampleTransport (!exitNode)) where
  key_eq := by cases exitNode <;> rfl
  direction_eq := by cases exitNode <;> rfl

theorem newEncryptedTransport_sample (exitNode : Bool) :
    newEncryptedTransport checksumCrypto (some ()) (literal "correct horse battery")
      (literal "oneme") exitNode = .ok (sampleTransport exitNode) := by
  cases exitNode <;> rfl

end OpenFlux.Transport.Encrypted
