import OpenFlux.Transport.Equiv.Replay
import OpenFlux.Transport.Peers

/-!
# Agreement of two encrypted peers

Each peer's packets carry its own direction byte, and a peer opens packets of the other direction
only.  So under ideal AEAD what opens at a peer was sealed by the other one, whatever the network
does: `Inv` says so of everything handed over, and `delivered_from_other` reads off the agreement.
-/

namespace OpenFlux.Transport.Encrypted

variable {c : Crypto}

/-- Two peers built with one secret and context, each in its role. -/
def Built (c : Crypto) {τ : Type*} (inner : Role → Option τ) (secret context : Bytes)
    (enc : Role → EncryptedTransport) : Prop :=
  ∀ r, newEncryptedTransport c (inner r) secret context r.exitNode = .ok (enc r)

theorem Role.exitNode_other (r : Role) : r.other.exitNode = !r.exitNode := by
  cases r <;> rfl

theorem Role.eq_or_eq_other (r r' : Role) : r' = r ∨ r' = r.other := by
  cases r <;> cases r' <;> simp [Role.other]

theorem Built.paired {τ : Type*} {inner : Role → Option τ} {secret context : Bytes}
    {enc : Role → EncryptedTransport} (h : Built c inner secret context enc) (r : Role) :
    Paired (enc r.other) (enc r) := by
  have hother := h r.other
  have hr := h r
  rw [Role.exitNode_other] at hother
  rw [← Bool.not_not r.exitNode] at hr
  exact paired_of_new hother hr

/-- The headers of the two directions differ. -/
theorem Built.receiveHeader_ne {τ : Type*} {inner : Role → Option τ} {secret context : Bytes}
    {enc : Role → EncryptedTransport} (h : Built c inner secret context enc) (r : Role) :
    (enc r).receiveHeader ≠ (enc r).sendHeader := by
  intro heq
  have hlast := List.append_cancel_left heq
  simp only [List.cons.injEq, and_true, true_and] at hlast
  exact recvDirection_ne_sendDirection (h r) hlast

/-! ### The invariant -/

/-- The transport of a peer is the one it was built with, but for the window. -/
def SameKeys (e e' : EncryptedTransport) : Prop := ∃ w, e' = { e with window := w }

theorem sameKeys_receive {e e' : EncryptedTransport} (h : SameKeys e e') (packet : Bytes) :
    SameKeys e (e'.receive c packet).1 := by
  obtain ⟨w, rfl⟩ := h
  cases hopen : ({ e with window := w } : EncryptedTransport).openPacket c packet with
  | none => exact ⟨w, by rw [receive_of_none hopen]⟩
  | some r => exact ⟨_, by rw [receive_of_some hopen]⟩

/-- The `Send` calls are what they say, and what a peer handed over is a packet of the other's
with its plaintext. -/
structure Inv (c : Crypto) (enc : Role → EncryptedTransport) (net : Net) : Prop where
  keys : ∀ r, SameKeys (enc r) (net r).enc
  packet : ∀ r, ∀ call ∈ (net r).sent, call.packet = (enc r).sealPacket c call.nonce call.plaintext
  delivered : ∀ r, ∀ d ∈ (net r).delivered, ∃ call ∈ (net r.other).sent,
    d = (call.packet, call.plaintext)

theorem inv_init (enc : Role → EncryptedTransport) : Inv c enc (network c enc).init where
  keys r := ⟨_, rfl⟩
  packet r call h := by cases h
  delivered r d h := by cases h

theorem send_spec (p : Peer) (rand : Except String Nonce) (data : Bytes) :
    (p.send c rand data).enc = p.enc ∧ (p.send c rand data).delivered = p.delivered ∧
      ((p.send c rand data).sent = p.sent ∨ ∃ nonce, (p.send c rand data).sent =
        p.sent ++ [⟨nonce, data, p.enc.sealPacket c nonce data⟩]) := by
  cases rand with
  | error err => exact ⟨rfl, rfl, .inl rfl⟩
  | ok nonce => exact ⟨rfl, rfl, .inr ⟨nonce, rfl⟩⟩

theorem inv_send {enc : Role → EncryptedTransport} {net : Net} (h : Inv c enc net) (r : Role)
    (rand : Except String Nonce) (data : Bytes) :
    Inv c enc (Function.update net r ((net r).send c rand data)) := by
  obtain ⟨henc, hdelivered, hsent⟩ := send_spec (c := c) (net r) rand data
  have hmono : ∀ r', ∀ call ∈ (net r').sent,
      call ∈ (Function.update net r ((net r).send c rand data) r').sent := by
    rw [Function.forall_update_iff net fun r' p => ∀ call ∈ (net r').sent, call ∈ p.sent]
    refine ⟨fun call hcall => ?_, fun r' _ call hcall => hcall⟩
    rcases hsent with heq | ⟨nonce, heq⟩ <;> simp [heq, hcall]
  constructor
  · rw [Function.forall_update_iff net fun r' p => SameKeys (enc r') p.enc]
    exact ⟨henc ▸ h.keys r, fun r' _ => h.keys r'⟩
  · rw [Function.forall_update_iff net fun r' p =>
      ∀ call ∈ p.sent, call.packet = (enc r').sealPacket c call.nonce call.plaintext]
    refine ⟨fun call hcall => ?_, fun r' _ => h.packet r'⟩
    rcases hsent with heq | ⟨nonce, heq⟩
    · exact h.packet r call (heq ▸ hcall)
    · rw [heq, List.mem_append, List.mem_singleton] at hcall
      rcases hcall with hold | rfl
      · exact h.packet r call hold
      · obtain ⟨w, hw⟩ := h.keys r
        rw [hw]
        rfl
  · intro r' d hd
    have hold : d ∈ (net r').delivered := by
      revert hd
      refine (Function.forall_update_iff net fun r' p =>
        d ∈ p.delivered → d ∈ (net r').delivered).mpr ⟨?_, fun r' _ hd => hd⟩ r'
      exact fun hd => hdelivered ▸ hd
    obtain ⟨call, hcall, rfl⟩ := h.delivered r' d hold
    exact ⟨call, hmono _ call hcall, rfl⟩

/-- What opens at a peer is a packet of the other's: its own carry the other direction. -/
theorem exists_sent_of_openPacket {τ : Type*} {inner : Role → Option τ} {secret context : Bytes}
    {enc : Role → EncryptedTransport} (hbuilt : Built c inner secret context enc) {net : Net}
    (h : Inv c enc net) {r : Role} {packet nonce p : Bytes}
    (hideal : NoForgery c net (.arrive r packet))
    (hopen : (net r).enc.openPacket c packet = some (nonce, p)) :
    ∃ call ∈ (net r.other).sent, (packet, p) = (call.packet, call.plaintext) := by
  obtain ⟨w, hw⟩ := h.keys r
  obtain ⟨ciphertext, hpacket, hnonce, -, hgcm⟩ := openPacket_eq_some_iff.mp hopen
  obtain ⟨call, hmem, -, hcallNonce, hdata, hplain, hcipher⟩ :=
    hideal nonce ciphertext p hpacket hnonce hgcm
  -- the peer that sealed it
  obtain ⟨r', hr'⟩ : ∃ r', call ∈ (net r').sealCalls := by
    rcases List.mem_append.mp hmem with hclient | hexit
    · exact ⟨_, hclient⟩
    · exact ⟨_, hexit⟩
  obtain ⟨sent, hsent, rfl⟩ := List.mem_map.mp hr'
  obtain ⟨w', hw'⟩ := h.keys r'
  have hheader : (enc r).receiveHeader = (enc r').sendHeader := by
    rw [hw, hw'] at hdata
    exact hdata.symm
  rcases Role.eq_or_eq_other r r' with rfl | rfl
  · exact absurd hheader (hbuilt.receiveHeader_ne r')
  · refine ⟨sent, hsent, ?_⟩
    rw [h.packet _ sent hsent, ← hplain, hpacket, hcipher, hw, hw', ← hcallNonce]
    show ((enc r).receiveHeader ++ _ ++ _, _) = _
    rw [hheader]
    rfl

theorem inv_arrive {τ : Type*} {inner : Role → Option τ} {secret context : Bytes}
    {enc : Role → EncryptedTransport} (hbuilt : Built c inner secret context enc) {net : Net}
    (h : Inv c enc net) {r : Role} {packet : Bytes}
    (hideal : NoForgery c net (.arrive r packet)) :
    Inv c enc (Function.update net r ((net r).receive c packet)) := by
  have hsent : ∀ r', (Function.update net r ((net r).receive c packet) r').sent =
      (net r').sent := by
    rw [Function.forall_update_iff net fun r' p => p.sent = (net r').sent]
    exact ⟨rfl, fun r' _ => rfl⟩
  constructor
  · rw [Function.forall_update_iff net fun r' p => SameKeys (enc r') p.enc]
    exact ⟨sameKeys_receive (h.keys r) packet, fun r' _ => h.keys r'⟩
  · intro r' call hcall
    rw [hsent] at hcall
    exact h.packet r' call hcall
  · simp only [hsent]
    rw [Function.forall_update_iff net fun r' p => ∀ d ∈ p.delivered,
      ∃ call ∈ (net r'.other).sent, d = (call.packet, call.plaintext)]
    refine ⟨fun d hd => ?_, fun r' _ => h.delivered r'⟩
    rcases List.mem_append.mp hd with hold | hnew
    · exact h.delivered r d hold
    · rw [Option.mem_toList, Option.map_eq_some_iff] at hnew
      obtain ⟨p, hp, rfl⟩ := hnew
      obtain ⟨nonce, hopen, -⟩ := receive_snd_eq_some_iff.mp hp
      exact exists_sent_of_openPacket hbuilt h hideal hopen

/-- **The invariant holds at the end of every run without forgeries.** -/
theorem inv_of_run {τ : Type*} {inner : Role → Option τ} {secret context : Bytes}
    {enc : Role → EncryptedTransport} (hbuilt : Built c inner secret context enc)
    {es : List NetEvent} {net : Net} (hrun : (network c enc).run (network c enc).init es = some net)
    (hideal : (network c enc).Along (NoForgery c) (network c enc).init es) : Inv c enc net := by
  refine EventSystem.run_invariant ?_ (inv_init enc) hideal hrun
  intro net e net' h hP hstep
  cases e with
  | send r rand data => exact Option.some.inj hstep ▸ inv_send h r rand data
  | arrive r packet => exact Option.some.inj hstep ▸ inv_arrive hbuilt h hP

/-! ### Agreement -/

/-- **Agreement against any network**: every plaintext a peer hands to its callback was passed to
the other's `Send`, and no peer hands over a packet that it sent itself. -/
theorem delivered_from_other {τ : Type*} {inner : Role → Option τ} {secret context : Bytes}
    {enc : Role → EncryptedTransport} (hbuilt : Built c inner secret context enc)
    {es : List NetEvent} {net : Net} (hrun : (network c enc).run (network c enc).init es = some net)
    (hideal : (network c enc).Along (NoForgery c) (network c enc).init es) (r : Role)
    {packet plaintext : Bytes} (hmem : (packet, plaintext) ∈ (net r).delivered) :
    (∃ call ∈ (net r.other).sent, call.packet = packet ∧ call.plaintext = plaintext) ∧
      ∀ call ∈ (net r).sent, call.packet ≠ packet := by
  have hinv := inv_of_run hbuilt hrun hideal
  obtain ⟨call, hcall, heq⟩ := hinv.delivered r _ hmem
  obtain ⟨rfl, rfl⟩ := Prod.mk.inj heq
  refine ⟨⟨call, hcall, rfl, rfl⟩, fun own hown heq => ?_⟩
  -- the two packets differ in the direction byte
  have htake := congrArg (List.take encryptedHeader) heq
  rw [hinv.packet r own hown, hinv.packet r.other call hcall, take_header_sealPacket,
    take_header_sealPacket, ← (hbuilt.paired r).header_eq] at htake
  exact hbuilt.receiveHeader_ne r htake.symm

/-- The sample peers. -/
def samplePeers (r : Role) : EncryptedTransport := sampleTransport r.exitNode

theorem built_samplePeers : Built checksumCrypto (fun _ => some ())
    (literal "correct horse battery") (literal "oneme") samplePeers :=
  fun r => newEncryptedTransport_sample r.exitNode

/-- A packet of the client's. -/
def samplePacket : Bytes := (samplePeers .client).sealPacket checksumCrypto (countingNonce 0) [1]

/-- The client sends it, and it arrives at the exit. -/
def sampleEvents : List NetEvent :=
  [.send .client (.ok (countingNonce 0)) [1], .arrive .exit samplePacket]

theorem noForgery_sampleEvents : (network checksumCrypto samplePeers).Along
    (NoForgery checksumCrypto) (network checksumCrypto samplePeers).init sampleEvents := by
  refine ⟨trivial, fun net hnet => ⟨?_, fun _ _ => trivial⟩⟩
  rw [← Option.some.inj hnet]
  have hmem : (countingNonce 0, [1]) ∈ [(countingNonce 0, ([1] : Bytes))] :=
    List.mem_singleton_self _
  exact unforged_sealPacket checksumCrypto_lawful (paired_sample false) hmem

theorem delivered_from_other_sample : ∃ net,
    (network checksumCrypto samplePeers).run (network checksumCrypto samplePeers).init
        sampleEvents = some net ∧
      (∃ call ∈ (net .client).sent, call.packet = samplePacket ∧ call.plaintext = [1]) ∧
      ∀ call ∈ (net .exit).sent, call.packet ≠ samplePacket := by
  have hrun : ∃ net, (network checksumCrypto samplePeers).run
      (network checksumCrypto samplePeers).init sampleEvents = some net ∧
      (samplePacket, [1]) ∈ (net .exit).delivered := ⟨_, rfl, List.mem_singleton_self _⟩
  obtain ⟨net, hnet, hmem⟩ := hrun
  exact ⟨net, hnet, delivered_from_other built_samplePeers hnet noForgery_sampleEvents .exit hmem⟩

end OpenFlux.Transport.Encrypted
