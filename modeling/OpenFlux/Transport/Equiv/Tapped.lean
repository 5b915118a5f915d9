import OpenFlux.Transport.Equiv.Stack

/-!
# The stack of `main` against its provider

The provider hands the receiving stack whatever messages it likes.  `main` says that a message is
encrypted as a whole, so that an altered one could have no effect; the stack it builds seals each
packet by itself and leaves the batch frame in the open.  So under ideal AEAD a message that is
none of the peer's has an effect exactly when it carries a packet of the peer's whose nonce the
receiver does not remember, and every message is parsed (`whole_messages_iff`).
-/

namespace OpenFlux.Transport.Stack

open Encrypted

variable {z : Zstd} {c : Crypto} {cfg : Batched.Config} {sender receiver : EncryptedTransport}

variable (z c) in
/-- A message out of which a packet reaches the user callback is one that the peer's stack passed
to the raw transport. -/
def WholeMessages (t : Tapped) : TappedEvent → Prop
  | .provide m =>
    (t.provide z c m).stack.delivered ≠ t.stack.delivered → m ∈ t.stack.batched.wire
  | _ => True

variable (z c) in
/-- A message that is parsed is one that the peer's stack passed to the raw transport. -/
def ParsedGenuine (t : Tapped) : TappedEvent → Prop
  | .provide m => ∀ new, (t.provide z c m).parsed = t.parsed ++ new →
      ∀ m' ∈ new, m' ∈ t.stack.batched.wire
  | _ => True

/-- The provider hands over a message of the peer's. -/
def Genuine (t : Tapped) : TappedEvent → Prop
  | .provide m => m ∈ t.stack.batched.wire
  | _ => True

variable (z c) in
/-- The provider hands over a message of the peer's, or one that carries no packet of the peer's
but those whose nonce the receiver remembers. -/
def NothingLive (sender : EncryptedTransport) (t : Tapped) : TappedEvent → Prop
  | .provide m => m ∈ t.stack.batched.wire ∨
      ∀ packets, decodeBatch z m = .ok packets → ∀ packet ∈ packets,
        packet ∈ packetsOf c sender (sealed t.stack.calls) →
          packetNonce packet ∈ t.stack.receiver.window.seenOrder
  | _ => True

/-! ### One message -/

theorem parsed_provide (t : Tapped) (m : Bytes) :
    (t.provide z c m).parsed = t.parsed ++ [m] := by
  unfold Tapped.provide
  cases decodeBatch z m <;> rfl

/-- A message has no effect exactly when the packets it carries hand nothing over. -/
theorem delivered_provide_eq_iff (t : Tapped) (m : Bytes) :
    (t.provide z c m).stack.delivered = t.stack.delivered ↔
      ∀ packets, decodeBatch z m = .ok packets →
        (t.stack.receiver.receiveAll c packets).2 = [] := by
  cases hdecode : decodeBatch z m with
  | error err => simp [Tapped.provide, hdecode]
  | ok packets => simp [Tapped.provide, hdecode]

/-- Under ideal AEAD a sequence of packets hands nothing over exactly when those of the peer's have
remembered nonces. -/
theorem receiveAll_eq_nil_iff_remembered (hc : c.Lawful) (hpaired : Paired sender receiver)
    {calls : List (Nonce × Bytes)} {packets : List Bytes}
    (hideal : ∀ packet ∈ packets,
      c.Unforged (calls.map fun call => sender.sealCall call.1 call.2) receiver packet) :
    (receiver.receiveAll c packets).2 = [] ↔ ∀ packet ∈ packets,
      packet ∈ packetsOf c sender calls → packetNonce packet ∈ receiver.window.seenOrder := by
  rw [receiveAll_eq_nil_iff]
  constructor
  · intro h packet hmem hpeer
    obtain ⟨call, -, rfl⟩ := List.mem_map.mp hpeer
    rw [packetNonce_sealPacket]
    exact h _ hmem _ _ (openPacket_sealPacket hc hpaired call.1 call.2)
  · intro h packet hmem nonce p hopen
    obtain ⟨call, hcall, -, -, hpacket⟩ := eq_sealPacket_of_unforged (hideal packet hmem) hopen
    rw [← packetNonce_of_openPacket hopen]
    exact h packet hmem (List.mem_map.mpr ⟨call, hcall, hpacket.symm⟩)

theorem wholeMessages_iff_nothingLive (hc : c.Lawful) {t : Tapped} {e : TappedEvent}
    (hpaired : Paired sender t.stack.receiver) (hideal : NoForgery z c sender t e) :
    WholeMessages z c t e ↔ NothingLive z c sender t e := by
  cases e with
  | send rand data => exact Iff.rfl
  | flush timer => exact Iff.rfl
  | provide m =>
    show (¬ _ → _) ↔ (_ ∨ _)
    rw [delivered_provide_eq_iff, ← or_iff_not_imp_left, or_comm]
    refine or_congr_right (forall₂_congr fun packets hdecode => ?_)
    exact receiveAll_eq_nil_iff_remembered hc hpaired (hideal packets hdecode)

theorem parsedGenuine_iff_genuine {t : Tapped} {e : TappedEvent} :
    ParsedGenuine z c t e ↔ Genuine t e := by
  cases e with
  | send rand data => exact Iff.rfl
  | flush timer => exact Iff.rfl
  | provide m =>
    constructor
    · intro h
      exact h [m] (parsed_provide t m) m (List.mem_singleton_self m)
    · intro h new hnew m' hmem
      rw [parsed_provide] at hnew
      rw [← List.append_cancel_left hnew, List.mem_singleton] at hmem
      exact hmem ▸ h

/-! ### Runs -/

/-- The receiver keeps its keys. -/
theorem paired_receiveAll (h : Paired sender receiver) (packets : List Bytes) :
    Paired sender (receiver.receiveAll c packets).1 := by
  induction packets generalizing receiver with
  | nil => exact h
  | cons packet packets ih =>
    have hone : Paired sender (receiver.receive c packet).1 := by
      cases hopen : receiver.openPacket c packet with
      | none => rwa [receive_of_none hopen]
      | some r =>
        rw [receive_of_some hopen]
        exact ⟨h.key_eq, h.direction_eq⟩
    rw [EncryptedTransport.receiveAll]
    cases (receiver.receive c packet).2 <;> exact ih hone

theorem paired_step {t t' : Tapped} {e : TappedEvent} (h : Paired sender t.stack.receiver)
    (hstep : (tapped z c cfg sender receiver).step t e = some t') :
    Paired sender t'.stack.receiver := by
  cases e with
  | send rand data =>
    rw [← Option.some.inj hstep]
    show Paired sender (t.stack.send c sender rand data).receiver
    rwa [(State.send_spec c sender t.stack rand data).1]
  | flush timer =>
    obtain ⟨batched, -, rfl⟩ := Option.map_eq_some_iff.mp hstep
    exact h
  | provide m =>
    rw [← Option.some.inj hstep]
    unfold Tapped.provide
    cases decodeBatch z m with
    | error err => exact h
    | ok packets => exact paired_receiveAll h packets

/-! ### Sample runs -/

/-- The sealed form of the one-byte packet `b`, the `i`-th packet of the sample client. -/
def sampleRecord (i : ℕ) (b : UInt8) : Bytes :=
  (sampleTransport false).sealPacket checksumCrypto (countingNonce i) [b]

/-- The sample client behind a provider. -/
def sampleTapped : EventSystem Tapped TappedEvent :=
  tapped storeZstd checksumCrypto .default (sampleTransport false) (sampleTransport true)

/-- Two packets are sent in one message. -/
def sampleSends : List TappedEvent :=
  [.send (.ok (countingNonce 0)) [1], .flush false, .flush false,
    .send (.ok (countingNonce 1)) [2], .flush false, .flush false, .flush true, .flush false]

theorem run_sampleSends : ∃ t, sampleTapped.run sampleTapped.init sampleSends = some t ∧
    sealed t.stack.calls = [(countingNonce 0, [1]), (countingNonce 1, [2])] ∧
    t.stack.batched.wire = [encodeBatch storeZstd [sampleRecord 0 1, sampleRecord 1 2]] ∧
    t.stack.receiver = sampleTransport true :=
  ⟨_, rfl, rfl, rfl, rfl⟩

theorem decodeBatch_encodeBatch_store {packets : List Bytes}
    (hlen : ∀ p ∈ packets, p.length ≤ 65535) :
    decodeBatch storeZstd (encodeBatch storeZstd packets) = .ok packets :=
  decodeBatch_encodeBatch (storeZstd_inverts _) hlen (Nat.le_refl _)

/-- A condition on messages of the provider holds along the sends. -/
theorem along_sampleSends {P : Tapped → TappedEvent → Prop}
    (hsend : ∀ t rand data, P t (.send rand data)) (hflush : ∀ t timer, P t (.flush timer)) :
    sampleTapped.Along P sampleTapped.init sampleSends := by
  refine EventSystem.along_of_forall (fun t e he => ?_) _
  simp only [sampleSends, List.mem_cons, List.not_mem_nil, or_false] at he
  rcases he with rfl | rfl | rfl | rfl | rfl | rfl | rfl | rfl
  all_goals first | exact hsend _ _ _ | exact hflush _ _

/-- What the provider makes of records of the client is no forgery. -/
theorem noForgery_sampleSends {packets : List Bytes} (hlen : ∀ p ∈ packets, p.length ≤ 65535)
    (hmem : ∀ p ∈ packets, p ∈ [sampleRecord 0 1, sampleRecord 1 2]) :
    sampleTapped.Along (NoForgery storeZstd checksumCrypto (sampleTransport false))
      sampleTapped.init (sampleSends ++ [.provide (encodeBatch storeZstd packets)]) := by
  refine EventSystem.along_append.mpr
    ⟨along_sampleSends (fun _ _ _ => trivial) (fun _ _ => trivial), fun t ht => ?_⟩
  obtain ⟨t', ht', hsealed, -, hreceiver⟩ := run_sampleSends
  cases ht.symm.trans ht'
  refine ⟨?_, fun _ _ => trivial⟩
  intro packets' hdecode packet hpacket
  rw [decodeBatch_encodeBatch_store hlen] at hdecode
  cases hdecode
  rw [hsealed, hreceiver]
  have hpaired : Paired (sampleTransport false) (sampleTransport true) := paired_sample false
  have hcalls := hmem packet hpacket
  simp only [List.mem_cons, List.not_mem_nil, or_false] at hcalls
  rcases hcalls with rfl | rfl
  · exact unforged_sealPacket checksumCrypto_lawful hpaired (List.mem_cons_self ..)
  · exact unforged_sealPacket checksumCrypto_lawful hpaired
      (List.mem_cons_of_mem _ (List.mem_singleton_self _))

/-! ### The provider's power -/

/-- **When the provider cannot alter messages**: no packet gets out of an altered message in
exactly the runs in which every message handed over is one of the peer's or carries no packet of
the peer's but those with a remembered nonce; and the parser sees the peer's messages only in
exactly the runs in which no other message is handed over. -/
theorem whole_messages_iff (hc : c.Lawful) {τ υ : Type*} {raw : Option τ} {raw' : Option υ}
    {secret context : Bytes} {exitNode : Bool}
    (hsender : newEncryptedTransport c raw secret context exitNode = .ok sender)
    (hreceiver : newEncryptedTransport c raw' secret context (!exitNode) = .ok receiver)
    (es : List TappedEvent)
    (hideal : (tapped z c cfg sender receiver).Along (NoForgery z c sender)
      (tapped z c cfg sender receiver).init es) :
    ((tapped z c cfg sender receiver).Along (WholeMessages z c)
          (tapped z c cfg sender receiver).init es ↔
        (tapped z c cfg sender receiver).Along (NothingLive z c sender)
          (tapped z c cfg sender receiver).init es) ∧
      ((tapped z c cfg sender receiver).Along (ParsedGenuine z c)
          (tapped z c cfg sender receiver).init es ↔
        (tapped z c cfg sender receiver).Along Genuine
          (tapped z c cfg sender receiver).init es) := by
  have hpaired := paired_of_new hsender hreceiver
  refine ⟨?_, ?_⟩
  · exact EventSystem.along_congr (I := fun t => Paired sender t.stack.receiver)
      (fun _ _ _ h _ hstep => paired_step h hstep)
      (fun _ _ h hforge => wholeMessages_iff_nothingLive hc h hforge) hpaired hideal
  · exact EventSystem.along_congr (I := fun t => Paired sender t.stack.receiver)
      (fun _ _ _ h _ hstep => paired_step h hstep)
      (fun _ _ _ _ => parsedGenuine_iff_genuine) hpaired hideal

/-- The provider passes the message on as it is. -/
theorem whole_messages_passed_on :
    sampleTapped.Along (WholeMessages storeZstd checksumCrypto) sampleTapped.init (sampleSends ++
        [.provide (encodeBatch storeZstd [sampleRecord 0 1, sampleRecord 1 2])]) ∧
      sampleTapped.Along (ParsedGenuine storeZstd checksumCrypto) sampleTapped.init (sampleSends ++
        [.provide (encodeBatch storeZstd [sampleRecord 0 1, sampleRecord 1 2])]) := by
  have hgenuine : sampleTapped.Along Genuine sampleTapped.init (sampleSends ++
      [.provide (encodeBatch storeZstd [sampleRecord 0 1, sampleRecord 1 2])]) := by
    refine EventSystem.along_append.mpr
      ⟨along_sampleSends (fun _ _ _ => trivial) (fun _ _ => trivial), fun t ht => ?_⟩
    obtain ⟨t', ht', -, hwire, -⟩ := run_sampleSends
    cases ht.symm.trans ht'
    refine ⟨?_, fun _ _ => trivial⟩
    show _ ∈ t.stack.batched.wire
    rw [hwire]
    exact List.mem_singleton_self _
  have h := whole_messages_iff (z := storeZstd) checksumCrypto_lawful
    (newEncryptedTransport_sample false) (newEncryptedTransport_sample true) _
    (noForgery_sampleSends (by decide) (fun _ h => h))
  refine ⟨h.1.mpr ?_, h.2.mpr hgenuine⟩
  refine (EventSystem.along_congr (I := fun _ => True) (R := Genuine)
    (fun _ _ _ _ _ _ => trivial) ?_ trivial hgenuine).mpr hgenuine
  intro t e _ he
  cases e with
  | send rand data => exact Iff.rfl
  | flush timer => exact Iff.rfl
  | provide m => exact ⟨fun _ => he, fun _ => .inl he⟩

/-- The provider drops the first record of a message: the second packet is delivered out of a
message that the client never sent. -/
theorem dropped_record_delivered :
    sampleTapped.Along (NoForgery storeZstd checksumCrypto (sampleTransport false))
        sampleTapped.init (sampleSends ++ [.provide (encodeBatch storeZstd [sampleRecord 1 2])]) ∧
      ¬ sampleTapped.Along (WholeMessages storeZstd checksumCrypto) sampleTapped.init
        (sampleSends ++ [.provide (encodeBatch storeZstd [sampleRecord 1 2])]) ∧
      ¬ sampleTapped.Along (ParsedGenuine storeZstd checksumCrypto) sampleTapped.init
        (sampleSends ++ [.provide (encodeBatch storeZstd [sampleRecord 1 2])]) := by
  have hshort : ∀ p ∈ [sampleRecord 1 2], p.length ≤ 65535 := by decide
  have hforge := noForgery_sampleSends hshort fun p hp => List.mem_cons_of_mem _ hp
  obtain ⟨t, ht, hsealed, hwire, hreceiver⟩ := run_sampleSends
  have haltered : encodeBatch storeZstd [sampleRecord 1 2] ∉ t.stack.batched.wire := by
    rw [hwire, List.mem_singleton]
    intro heq
    have hdecode := congrArg (decodeBatch storeZstd) heq
    rw [decodeBatch_encodeBatch_store (by decide), decodeBatch_encodeBatch_store (by decide)]
      at hdecode
    cases hdecode
  refine ⟨hforge, fun hwhole => ?_, fun hparsed => ?_⟩
  · have hstep := ((EventSystem.along_append.mp hwhole).2 t ht).1
    have hideal := ((EventSystem.along_append.mp hforge).2 t ht).1
    have hpaired : Paired (sampleTransport false) t.stack.receiver := hreceiver ▸ paired_sample false
    rcases (wholeMessages_iff_nothingLive checksumCrypto_lawful hpaired hideal).mp hstep
      with hmem | hold
    · exact haltered hmem
    · have hpeer : sampleRecord 1 2 ∈
          packetsOf checksumCrypto (sampleTransport false) (sealed t.stack.calls) := by
        rw [hsealed]
        exact List.mem_cons_of_mem _ (List.mem_singleton_self _)
      have hlive := hold _ (decodeBatch_encodeBatch_store hshort) _ (List.mem_singleton_self _) hpeer
      rw [hreceiver] at hlive
      cases hlive
  · have hstep := ((EventSystem.along_append.mp hparsed).2 t ht).1
    exact haltered (parsedGenuine_iff_genuine.mp hstep)

end OpenFlux.Transport.Stack
