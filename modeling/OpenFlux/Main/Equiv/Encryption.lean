import OpenFlux.Main.Encryption
import OpenFlux.Transport.Cupsonline
import OpenFlux.Transport.Mailru
import OpenFlux.Transport.Equiv.Encrypted

/-!
# Which peers share keys

`SameChannel` lists the settings that bring a client and an exit together, for each transport.  The
context of the key derivation is the URL as it is written, whatever the transport makes of it.  So
over Yandex and MAX two such peers share keys, over Mail.ru when both write the address of the
document alike, and over Cups.online never: the exit is given no URL (`sharesKeys_iff`).
-/

namespace OpenFlux.Main

open Transport Transport.Encrypted

/-- The transports of a Yandex document. -/
def TransportType.IsYandex (t : TransportType) : Prop := t = .auto ∨ t = .yandex ∨ t = .vyandex

/-- The settings that bring a client and an exit onto one channel. -/
inductive SameChannel (client exit : Settings) : Prop
  -- one document URL; an empty one, which `auto` cannot open, makes two modes two channels
  | yandex (url : Bytes) (hclient : client.transportType.IsYandex)
      (hexit : exit.transportType.IsYandex)
      (hempty : url = [] → client.transportType = exit.transportType)
      (hurl : client.url = some url) (hurl' : exit.url = some url)
  -- two spellings of one document
  | mailru (hclient : client.transportType = .mailru) (hexit : exit.transportType = .mailru)
      (hweblink : Mailru.normalizeWeblink client.globalDocUrl =
        Mailru.normalizeWeblink exit.globalDocUrl)
  -- the exit makes the rooms, the client is given the list that it prints
  | cupsonline (rooms : List Cupsonline.RoomUUID) (hclient : client.transportType = .cupsonline)
      (hexit : exit.transportType = .cupsonline)
      (hurl : client.url = some (Cupsonline.packRooms rooms)) (hurl' : exit.url = none)
  -- a call between two accounts
  | oneme (hclient : client.transportType = .oneme) (hexit : exit.transportType = .oneme)
      (hurl : client.url = none) (hurl' : exit.url = none)

/-- A client and an exit with one secret on one channel. -/
structure Peers (client exit : Settings) : Prop where
  client_role : client.role = .client
  exit_role : exit.role = .exit
  secret_eq : trimSpace client.encryptionKey = trimSpace exit.encryptionKey
  sameChannel : SameChannel client exit

/-- The two sides pass the same context, and so derive the same keys: what either seals the other
opens. -/
structure SharesKeys (c : Crypto) (client exit : Settings) : Prop where
  context_eq : client.context = exit.context
  opens : ∀ e e', client.encryptedTransport c = .ok e → exit.encryptedTransport c = .ok e' →
    Paired e e' ∧ Paired e' e ∧ ∀ nonce data,
      e'.openPacket c (e.sealPacket c nonce data) = some (nonce.bytes, data) ∧
        e.openPacket c (e'.sealPacket c nonce data) = some (nonce.bytes, data)

/-- Equal contexts are enough. -/
theorem sharesKeys_of_context_eq {c : Crypto} (hc : c.Lawful) {client exit : Settings}
    (h : Peers client exit) (hcontext : client.context = exit.context) :
    SharesKeys c client exit := by
  refine ⟨hcontext, fun e e' hclient hexit => ?_⟩
  unfold Settings.encryptedTransport at hclient hexit
  rw [h.client_role, h.secret_eq, hcontext] at hclient
  rw [h.exit_role] at hexit
  have hpaired : Paired e e' := paired_of_new hclient hexit
  have hpaired' : Paired e' e := paired_of_new hexit hclient
  exact ⟨hpaired, hpaired', fun nonce data =>
    ⟨openPacket_sealPacket hc hpaired nonce data, openPacket_sealPacket hc hpaired' nonce data⟩⟩

/-! ### The contexts, by transport -/

theorem context_of_url {s : Settings} {url : Bytes} (h : s.url = some url) :
    s.context = if url ≠ [] then url else s.transportType.name := by
  have hdoc : s.globalDocUrl = url := by rw [Settings.globalDocUrl, h, Option.getD_some]
  rw [Settings.context, hdoc]

theorem context_of_none {s : Settings} (h : s.url = none) : s.context = defaultDocUrl := by
  have hdoc : s.globalDocUrl = defaultDocUrl := by rw [Settings.globalDocUrl, h, Option.getD_none]
  have hne : defaultDocUrl ≠ [] := by decide
  rw [Settings.context, hdoc, if_pos hne]

/-- Over Mail.ru two spellings of one document make one context only when they are one. -/
theorem context_eq_iff_of_mailru {client exit : Settings} (hclient : client.transportType = .mailru)
    (hexit : exit.transportType = .mailru)
    (hweblink : Mailru.normalizeWeblink client.globalDocUrl =
      Mailru.normalizeWeblink exit.globalDocUrl) :
    client.context = exit.context ↔ client.globalDocUrl = exit.globalDocUrl := by
  have hname : TransportType.mailru.name ≠ [] := by decide
  -- the name of the transport is no spelling of the empty link
  have hnormal : Mailru.normalizeWeblink [] ≠
      Mailru.normalizeWeblink TransportType.mailru.name := by decide
  unfold Settings.context
  rw [hclient, hexit]
  by_cases h : client.globalDocUrl = [] <;> by_cases h' : exit.globalDocUrl = []
  · simp [h, h']
  · rw [h, if_neg (not_not.mpr rfl), if_pos h']
    refine ⟨fun heq => ?_, fun heq => absurd heq.symm h'⟩
    rw [h, ← heq] at hweblink
    exact absurd hweblink hnormal
  · rw [h', if_neg (not_not.mpr rfl), if_pos h]
    refine ⟨fun heq => ?_, fun heq => absurd heq h⟩
    rw [h', heq] at hweblink
    exact absurd hweblink.symm hnormal
  · rw [if_pos h, if_pos h']

/-- The default URL is no list of rooms, and no name of a transport. -/
theorem defaultDocUrl_ne_packRooms (rooms : List Cupsonline.RoomUUID) :
    Cupsonline.packRooms rooms ≠ defaultDocUrl := by
  intro h
  have hcolon : (0x3A : UInt8) ∈ Cupsonline.packRooms rooms := by
    rw [h]
    decide
  exact absurd (urlAlphabet_range _ (encodeRawURL_subset _ _ hcolon)) (by decide)

/-- Over Cups.online the contexts differ. -/
theorem context_ne_of_cupsonline {client exit : Settings} {rooms : List Cupsonline.RoomUUID}
    (hclient : client.transportType = .cupsonline)
    (hurl : client.url = some (Cupsonline.packRooms rooms)) (hurl' : exit.url = none) :
    client.context ≠ exit.context := by
  rw [context_of_none hurl', context_of_url hurl]
  split_ifs with hempty
  · exact defaultDocUrl_ne_packRooms rooms
  · rw [hclient]
    decide

/-- **Which peers share keys**: all but those over Cups.online and those that write the address of a
Mail.ru document in two ways. -/
theorem sharesKeys_iff {c : Crypto} (hc : c.Lawful) {client exit : Settings}
    (h : Peers client exit) :
    SharesKeys c client exit ↔ client.transportType ≠ .cupsonline ∧
      (client.transportType = .mailru → client.globalDocUrl = exit.globalDocUrl) := by
  have hiff : SharesKeys c client exit ↔ client.context = exit.context :=
    ⟨SharesKeys.context_eq, sharesKeys_of_context_eq hc h⟩
  rw [hiff]
  cases h.sameChannel with
  | yandex url hclient hexit hempty hurl hurl' =>
    have hcontext : client.context = exit.context := by
      rw [context_of_url hurl, context_of_url hurl']
      by_cases hurlEmpty : url = []
      · rw [hempty hurlEmpty]
      · rw [if_pos hurlEmpty, if_pos hurlEmpty]
    have hother : client.transportType ≠ .cupsonline ∧ client.transportType ≠ .mailru := by
      rcases hclient with hauto | hyandex | hvyandex
      · rw [hauto]
        decide
      · rw [hyandex]
        decide
      · rw [hvyandex]
        decide
    exact iff_of_true hcontext ⟨hother.1, fun hmailru => absurd hmailru hother.2⟩
  | mailru hclient hexit hweblink =>
    rw [context_eq_iff_of_mailru hclient hexit hweblink, hclient]
    exact ⟨fun heq => ⟨by decide, fun _ => heq⟩, fun heq => heq.2 rfl⟩
  | cupsonline rooms hclient hexit hurl hurl' =>
    exact iff_of_false (context_ne_of_cupsonline hclient hurl hurl') fun hne => hne.1 hclient
  | oneme hclient hexit hurl hurl' =>
    have hcontext : client.context = exit.context := by
      rw [context_of_none hurl, context_of_none hurl']
    rw [hclient]
    exact iff_of_true hcontext ⟨by decide, fun hmailru => by cases hmailru⟩

/-- A process over Mail.ru with the secret of `newEncryptedTransport_sample`. -/
def mailruSettings (role : Role) (url : String) : Settings where
  role := role
  transportType := .mailru
  url := some (literal url)
  encryptionKey := literal "correct horse battery\n"

theorem peers_mailru {url url' : String}
    (h : Mailru.normalizeWeblink (literal url) = Mailru.normalizeWeblink (literal url')) :
    Peers (mailruSettings .client url) (mailruSettings .exit url') :=
  ⟨rfl, rfl, rfl, .mailru rfl rfl h⟩

theorem sharesKeys_mailru_sample :
    SharesKeys checksumCrypto (mailruSettings .client "AbCdEfGh1/IjKlMnOp2")
      (mailruSettings .exit "AbCdEfGh1/IjKlMnOp2") :=
  (sharesKeys_iff checksumCrypto_lawful (peers_mailru rfl)).mpr ⟨by decide, fun _ => rfl⟩

/-- `checksumCrypto` with keys that depend on the context. -/
def keyedCrypto : Crypto :=
  { checksumCrypto with
    sha256 := fun message => List.replicate 31 0 ++ [message.sum]
    scryptKey := fun _ salt _ _ _ _ => .ok salt
    hmacSha256 := fun key message => List.replicate 30 0 ++ [message.getD 22 0, key.sum] }

theorem keyedCrypto_lawful : keyedCrypto.Lawful :=
  { checksumCrypto_lawful with length_hmac := fun _ _ => rfl }

/-- A room whose id is 36 times the letter `a`. -/
def sampleRoom : Cupsonline.RoomUUID where
  bytes := List.replicate 36 0x61
  length_eq := List.length_replicate
  chars b hb := by
    rw [List.eq_of_mem_replicate hb]
    rfl

/-- A client that was given the list of this room. -/
def cupsClient : Settings where
  role := .client
  transportType := .cupsonline
  url := some (Cupsonline.packRooms [sampleRoom])
  encryptionKey := literal "correct horse battery"

/-- The exit that printed it. -/
def cupsExit : Settings where
  role := .exit
  transportType := .cupsonline
  url := none
  encryptionKey := literal "correct horse battery"

/-- They pass different contexts, and the exit opens no packet of the client where the keys tell
the contexts apart. -/
theorem cupsonline_packet_dropped :
    Peers cupsClient cupsExit ∧ cupsClient.context ≠ cupsExit.context ∧ keyedCrypto.Lawful ∧
      (do
        let e ← cupsClient.encryptedTransport keyedCrypto
        let e' ← cupsExit.encryptedTransport keyedCrypto
        return e'.openPacket keyedCrypto
          (e.sealPacket keyedCrypto ⟨List.replicate nonceSize 0, by decide⟩ (literal "packet"))) =
        .ok none := by
  refine ⟨⟨rfl, rfl, rfl, .cupsonline _ rfl rfl rfl rfl⟩, ?_, keyedCrypto_lawful, ?_⟩
  · exact context_ne_of_cupsonline rfl rfl rfl
  · decide +kernel

end OpenFlux.Main
