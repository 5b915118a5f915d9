import OpenFlux.L3.Equiv.Run
import OpenFlux.L3.Secured
import OpenFlux.Transport.Equiv.Peers

/-!
# End to end through the encrypted tunnel

Whoever runs the channel, and whatever the hosts of the internet send, the exit puts nothing on the
internet but translated packets of the client (`Outbound`), and the client gets nothing but answers
to them.  `Inv` ties the three histories together: the table holds only flows of emitted packets,
and what the exit seals is a translated packet of the internet that answers one of these.
-/

namespace OpenFlux.L3

open Transport Transport.Encrypted EventSystem

/-- `q` is the packet of the internet that the exit makes out of `p`. -/
def Outbound (egress : Addr) (p q : Bytes) : Prop :=
  ∃ pkt, sliceIPv4 p = some pkt ∧ isTCPRST pkt = false ∧ TCPPacket pkt ∧
    q = translate .outbound egress pkt

/-- `data` is the packet for the client that the exit makes out of `p`, which answers one of
`emitted`. -/
def Answer (egress : Addr) (emitted : List Bytes) (p data : Bytes) : Prop :=
  ∃ pkt k, sliceIPv4 p = some pkt ∧ addrAt pkt 16 = egress ∧ extractFlowKey pkt = some k ∧
    data = translate .inbound egress pkt ∧ ∃ q ∈ emitted, extractFlowKey q = some (reverseKey k)

theorem Answer.mono {egress : Addr} {emitted emitted' : List Bytes} {p data : Bytes}
    (h : Answer egress emitted p data) (hsub : emitted ⊆ emitted') :
    Answer egress emitted' p data := by
  obtain ⟨pkt, k, hslice, haddr, hkey, hdata, q, hq, hrev⟩ := h
  exact ⟨pkt, k, hslice, haddr, hkey, hdata, q, hsub hq, hrev⟩

theorem Verdict.sent_eq_some_iff {v : Verdict} {q : Bytes} : v.sent = some q ↔ v = .send q := by
  cases v <;> simp [Verdict.sent]

/-- What the entry of `handleFromTransport` passes on. -/
theorem outbound_of_enter {egress : Addr} {now : ℕ} {ct : Conntrack} {p q : Bytes}
    (h : (enterFromTransport egress now ct p).2.2.sent = some q) : Outbound egress p q := by
  have hsend : (handleFromTransport egress now ct p).2 = .send q := by
    rw [handleFromTransport_eq_enter]
    exact Verdict.sent_eq_some_iff.mp h
  exact handleFromTransport_eq_send_iff.mp hsend

namespace Secured

variable {c : Crypto} {enc : Role → EncryptedTransport} {egress : Addr} {s s' : Secured}

/-! ### The invariant -/

/-- The histories of the peers, of the exit and of its table. -/
structure Inv (c : Crypto) (enc : Role → EncryptedTransport) (egress : Addr) (s : Secured) :
    Prop where
  peers : Encrypted.Inv c enc s.net
  emitted : ∀ q ∈ s.emitted, ∃ call ∈ (s.net .client).sent, Outbound egress call.plaintext q
  opened : ∀ k, s.exit.ct.existsEntry k = true → ∃ q ∈ s.emitted, extractFlowKey q = some k
  answers : ∀ call ∈ (s.net .exit).sent, ∃ p ∈ s.received,
    Answer egress s.emitted p call.plaintext

theorem inv_init : Inv c enc egress (system c enc egress).init where
  peers := Encrypted.inv_init enc
  emitted q h := by cases h
  opened k h := absurd h Bool.false_ne_true
  answers call h := by cases h

/-- A call of `Send` adds to the packets of its peer. -/
theorem sent_subset (p : Peer) (rand : Except String Nonce) (data : Bytes) :
    p.sent ⊆ (p.send c rand data).sent := by
  rcases (Encrypted.send_spec (c := c) p rand data).2.2 with hsame | ⟨nonce, hnew⟩
  · rw [hsame]
    exact List.Subset.refl _
  · rw [hnew]
    exact List.subset_append_left _ _

/-- A step of the exit that is no packet of the transport opens no flow. -/
theorem existsEntry_of_step {x x' : Exit} {e : Exit.Event}
    (hstep : (L3.exit egress).step x e = some x') (he : ∀ pkt now, e ≠ .fromTransport pkt now)
    {k : FlowKey} (h : x'.ct.existsEntry k = true) : x.ct.existsEntry k = true := by
  rcases step_existsEntry hstep h with ⟨pkt, now, q, heq, -, -⟩ | ⟨hbefore, -⟩
  · exact absurd heq (he pkt now)
  · exact hbefore

theorem inv_send (h : Inv c enc egress s) (rand : Except String Nonce) (data : Bytes) :
    Inv c enc egress
      { s with net := Function.update s.net .client ((s.net .client).send c rand data) } where
  peers := Encrypted.inv_send h.peers .client rand data
  emitted q hq := by
    obtain ⟨call, hcall, hout⟩ := h.emitted q hq
    refine ⟨call, ?_, hout⟩
    simp only [Function.update_self]
    exact sent_subset _ rand data hcall
  opened := h.opened
  answers := h.answers

theorem inv_arriveClient {τ : Type*} {inner : Role → Option τ} {secret context : Bytes}
    (hbuilt : Built c inner secret context enc) (h : Inv c enc egress s) {packet : Bytes}
    (hideal : Encrypted.NoForgery c s.net (.arrive .client packet)) :
    Inv c enc egress
      { s with net := Function.update s.net .client ((s.net .client).receive c packet) } where
  peers := Encrypted.inv_arrive hbuilt h.peers hideal
  emitted q hq := by
    obtain ⟨call, hcall, hout⟩ := h.emitted q hq
    refine ⟨call, ?_, hout⟩
    simp only [Function.update_self]
    exact hcall
  opened := h.opened
  answers := h.answers

/-- A packet that the exit opens is one of the client's, and so is the flow it opens. -/
theorem inv_arriveExit {τ : Type*} {inner : Role → Option τ} {secret context : Bytes}
    (hbuilt : Built c inner secret context enc) (h : Inv c enc egress s) {packet : Bytes} {now : ℕ}
    (hideal : Encrypted.NoForgery c s.net (.arrive .exit packet))
    (hstep : step c egress s (.arriveExit packet now) = some s') : Inv c enc egress s' := by
  have hpeers := Encrypted.inv_arrive hbuilt h.peers hideal
  simp only [step] at hstep
  split at hstep
  · rw [← Option.some.inj hstep]
    exact ⟨hpeers, h.emitted, h.opened, h.answers⟩
  · next pkt hpkt =>
    obtain ⟨exit, hexit, rfl⟩ := Option.map_eq_some_iff.mp hstep
    -- the client sent it
    obtain ⟨nonce, hopen, -⟩ := receive_snd_eq_some_iff.mp hpkt
    obtain ⟨call, hcall, heq⟩ :=
      Encrypted.exists_sent_of_openPacket hbuilt h.peers hideal hopen
    obtain ⟨rfl, rfl⟩ := Prod.mk.inj heq
    refine ⟨hpeers, ?_, ?_, ?_⟩
    · intro q hq
      rcases List.mem_append.mp hq with hold | hnew
      · exact h.emitted q hold
      · rw [Option.mem_toList] at hnew
        exact ⟨call, hcall, outbound_of_enter hnew⟩
    · intro k hk
      rcases step_existsEntry hexit hk with ⟨_, _, q, heq, hsend, hkey⟩ | ⟨hbefore, -⟩
      · cases heq
        rw [handleFromTransport_eq_enter] at hsend
        have hmem := Option.mem_toList.mpr (Verdict.sent_eq_some_iff.mpr hsend)
        exact ⟨q, List.mem_append_right _ hmem, hkey⟩
      · obtain ⟨q, hq, hkey⟩ := h.opened k hbefore
        exact ⟨q, List.mem_append_left _ hq, hkey⟩
    · intro call' hcall'
      obtain ⟨p, hp, hanswer⟩ := h.answers call' hcall'
      exact ⟨p, hp, hanswer.mono (List.subset_append_left _ _)⟩

/-- What the exit seals answers a flow in its table. -/
theorem inv_fromInternet (h : Inv c enc egress s) {pkt : Bytes} {now : ℕ}
    {rand : Except String Nonce}
    (hstep : step c egress s (.fromInternet pkt now rand) = some s') : Inv c enc egress s' := by
  obtain ⟨exit, hexit, rfl⟩ := Option.map_eq_some_iff.mp hstep
  have hopened : ∀ k, exit.ct.existsEntry k = true →
      ∃ q ∈ s.emitted, extractFlowKey q = some k := fun k hk =>
    h.opened k (existsEntry_of_step hexit (fun _ _ heq => Exit.Event.noConfusion heq) hk)
  have hold : ∀ call ∈ (s.net .exit).sent, ∃ p ∈ s.received ++ [pkt],
      Answer egress s.emitted p call.plaintext := fun call hcall => by
    obtain ⟨p, hp, hanswer⟩ := h.answers call hcall
    exact ⟨p, List.mem_append_left _ hp, hanswer⟩
  cases hsent : (enterFromInternet egress s.exit.ct pkt).2.sent with
  | none => exact ⟨h.peers, h.emitted, hopened, hold⟩
  | some q =>
    refine ⟨Encrypted.inv_send h.peers .exit rand q, h.emitted, hopened, ?_⟩
    intro call hcall
    simp only [Function.update_self] at hcall
    rcases (Encrypted.send_spec (c := c) (s.net .exit) rand q).2.2 with hsame | ⟨nonce, hnew⟩
    · exact hold call (hsame ▸ hcall)
    · rw [hnew, List.mem_append, List.mem_singleton] at hcall
      rcases hcall with hbefore | rfl
      · exact hold call hbefore
      · have hsend : (handleFromInternet egress now s.exit.ct pkt).2 = .send q := by
          rw [handleFromInternet_eq_enter]
          exact Verdict.sent_eq_some_iff.mp hsent
        obtain ⟨sliced, hslice, haddr, htcp, hlive, hdata⟩ :=
          handleFromInternet_eq_send_iff.mp hsend
        refine ⟨pkt, List.mem_append_right _ (List.mem_singleton_self _), sliced, keyAt sliced,
          hslice, haddr, extractFlowKey_eq_some_iff.mpr ⟨htcp, rfl⟩, hdata, ?_⟩
        exact h.opened _ hlive

/-- **One step keeps the invariant**, if it is no forgery. -/
theorem inv_step {τ : Type*} {inner : Role → Option τ} {secret context : Bytes}
    (hbuilt : Built c inner secret context enc) {e : Event} (h : Inv c enc egress s)
    (hideal : NoForgery c s e) (hstep : step c egress s e = some s') : Inv c enc egress s' := by
  cases e with
  | send rand data => exact Option.some.inj hstep ▸ inv_send h rand data
  | arriveClient packet => exact Option.some.inj hstep ▸ inv_arriveClient hbuilt h hideal
  | arriveExit packet now => exact inv_arriveExit hbuilt h hideal hstep
  | fromInternet pkt now rand => exact inv_fromInternet h hstep
  | touch i now =>
    obtain ⟨exit, hexit, rfl⟩ := Option.map_eq_some_iff.mp hstep
    refine ⟨h.peers, h.emitted, fun k hk => h.opened k ?_, h.answers⟩
    exact existsEntry_of_step hexit (fun _ _ heq => Exit.Event.noConfusion heq) hk
  | sweep now =>
    obtain ⟨exit, hexit, rfl⟩ := Option.map_eq_some_iff.mp hstep
    refine ⟨h.peers, h.emitted, fun k hk => h.opened k ?_, h.answers⟩
    exact existsEntry_of_step hexit (fun _ _ heq => Exit.Event.noConfusion heq) hk

/-- A packet of the client that the exit opens is emitted. -/
theorem exists_step_arriveExit {packet p q : Bytes} {now : ℕ}
    (hopen : ((s.net .exit).enc.receive c packet).2 = some p) (hclock : s.exit.clock ≤ now)
    (hout : Outbound egress p q) :
    ∃ s', (system c enc egress).step s (.arriveExit packet now) = some s' ∧ q ∈ s'.emitted := by
  have hsend : (handleFromTransport egress now s.exit.ct p).2 = .send q :=
    handleFromTransport_eq_send_iff.mpr hout
  rw [handleFromTransport_eq_enter] at hsend
  obtain ⟨exit, hexit⟩ : ∃ exit, (L3.exit egress).step s.exit (.fromTransport p now) = some exit :=
    ⟨_, step_eq_some_iff.mpr ⟨hclock, _, rfl, rfl⟩⟩
  simp only [system, step, hopen, hexit, Option.map_some, Option.some.injEq, exists_eq_left']
  exact List.mem_append_right _ (Option.mem_toList.mpr (Verdict.sent_eq_some_iff.mpr hsend))

/-! ### End to end -/

/-- **The tunnel carries the client's packets and the answers to them, and nothing else**: for
every channel and every internet, what the exit emits are translated packets of the client, and
what the client's callback is given are translated packets of the internet, sent to the exit on the
reverse of the flow of a packet emitted before. -/
theorem end_to_end {τ : Type*} {inner : Role → Option τ} {secret context : Bytes}
    (hbuilt : Built c inner secret context enc) {es : List Event}
    (hrun : (system c enc egress).run (system c enc egress).init es = some s)
    (hideal : (system c enc egress).Along (NoForgery c) (system c enc egress).init es) :
    (∀ q ∈ s.emitted, ∃ call ∈ (s.net .client).sent, Outbound egress call.plaintext q) ∧
      ∀ d ∈ (s.net .client).delivered, ∃ p ∈ s.received, Answer egress s.emitted p d.2 := by
  have hinv : Inv c enc egress s :=
    run_invariant (P := NoForgery c) (fun _ _ _ h hP hstep => inv_step hbuilt h hP hstep) inv_init
      hideal hrun
  refine ⟨hinv.emitted, fun d hd => ?_⟩
  obtain ⟨call, hcall, rfl⟩ := hinv.peers.delivered .client d hd
  exact hinv.answers call hcall

/-- The client's SYN, sealed. -/
def synPacket : Bytes := (samplePeers .client).sealPacket checksumCrypto (countingNonce 0) syn

/-- The client sends it, and the channel takes it to the exit. -/
def synEvents : List Event := [.send (.ok (countingNonce 0)) syn, .arriveExit synPacket 0]

theorem receive_synPacket :
    ((samplePeers .exit).receive checksumCrypto synPacket).2 = some syn :=
  receive_snd_eq_some_iff.mpr ⟨_, openPacket_sealPacket checksumCrypto_lawful (paired_sample false)
    (countingNonce 0) syn, List.not_mem_nil⟩

theorem noForgery_synEvents : (system checksumCrypto samplePeers sampleEgress).Along
    (NoForgery checksumCrypto) (system checksumCrypto samplePeers sampleEgress).init synEvents := by
  refine ⟨trivial, fun s hs => ⟨?_, fun _ _ => trivial⟩⟩
  rw [← Option.some.inj hs]
  have hmem : (countingNonce 0, syn) ∈ [(countingNonce 0, syn)] := List.mem_singleton_self _
  exact unforged_sealPacket checksumCrypto_lawful (paired_sample false) hmem

theorem end_to_end_syn : ∃ s, (system checksumCrypto samplePeers sampleEgress).run
    (system checksumCrypto samplePeers sampleEgress).init synEvents = some s ∧
      ∃ call ∈ (s.net .client).sent,
        Outbound sampleEgress call.plaintext (translate .outbound sampleEgress syn) := by
  have hout : Outbound sampleEgress syn (translate .outbound sampleEgress syn) :=
    ⟨syn, by decide, by decide, tcpPacket_syn, rfl⟩
  -- the exit after the client's `Send`
  let net := (network checksumCrypto samplePeers).init
  let sealed := Function.update net .client
    ((net .client).send checksumCrypto (.ok (countingNonce 0)) syn)
  have hfirst : (system checksumCrypto samplePeers sampleEgress).step
      (system checksumCrypto samplePeers sampleEgress).init (.send (.ok (countingNonce 0)) syn) =
      some { net := sealed, exit := (L3.exit sampleEgress).init } := rfl
  have hexit : sealed .exit = net .exit := Function.update_of_ne (by decide) _ _
  obtain ⟨s, hstep, hq⟩ : ∃ s', (system checksumCrypto samplePeers sampleEgress).step
      { net := sealed, exit := (L3.exit sampleEgress).init } (.arriveExit synPacket 0) = some s' ∧
        translate .outbound sampleEgress syn ∈ s'.emitted := by
    refine exists_step_arriveExit ?_ (Nat.zero_le _) hout
    rw [show (sealed .exit).enc = samplePeers .exit by rw [hexit]; rfl]
    exact receive_synPacket
  have hrun : (system checksumCrypto samplePeers sampleEgress).run
      (system checksumCrypto samplePeers sampleEgress).init synEvents = some s :=
    run_cons_eq_some.mpr ⟨_, hfirst, run_cons_eq_some.mpr ⟨s, hstep, run_nil s⟩⟩
  exact ⟨s, hrun, (end_to_end built_samplePeers hrun noForgery_synEvents).1 _ hq⟩

end Secured

end OpenFlux.L3
