import OpenFlux.Transport.Equiv.Batched
import OpenFlux.Transport.Equiv.Replay
import OpenFlux.Transport.Stack

/-!
# What the stack of `main` delivers

The stack runs its batching layers on sealed packets (`reachable_batched`), and its peer has
opened what these layers handed over (`Inv`).  A sealed packet is 33 bytes longer than the packet
(`length_sealPacket`), and the batching layer is lossless for packets of at most 65535 bytes; so
the stack is lossless when every accepted packet has at most `maxPlaintext` = 65502 bytes.  It is
not otherwise: what the batching layer hands over has at most 65535 bytes, so no longer packet
ever comes out (`delivered_eq_accepted_iff`).
-/

namespace OpenFlux.Transport.Stack

open Encrypted

/-- The longest packet that is sealed within a 16-bit length. -/
def maxPlaintext : ℕ := 65502

/-! ### The history of `Send` -/

theorem acceptedCalls_append (cs ds : List Call) :
    acceptedCalls (cs ++ ds) = acceptedCalls cs ++ acceptedCalls ds := by
  simp [acceptedCalls]

theorem acceptedCalls_sublist_sealed (cs : List Call) :
    (acceptedCalls cs).Sublist (sealed cs) := by
  induction cs with
  | nil => exact .slnil
  | cons call cs ih =>
    obtain ⟨rand, data, result⟩ := call
    match rand, result with
    | .ok _, .ok () => exact ih.cons_cons _
    | .ok _, .error _ => exact ih.cons _
    | .error _, _ => exact ih

variable {z : Zstd} {c : Crypto} {cfg : Batched.Config} {inner : Batched.InnerSend}
  {sender receiver : EncryptedTransport} {limit : ℕ}

/-! ### Steps -/

variable (c sender) in
/-- What a `Send` does: nothing but a line in the history when `rand.Read` fails, else a `Send` of
the sealed packet on the batching layer. -/
theorem State.send_spec (s : State) (rand : Except String Nonce) (data : Bytes) :
    (s.send c sender rand data).receiver = s.receiver ∧
      (s.send c sender rand data).delivered = s.delivered ∧
      (((s.send c sender rand data).batched = s.batched ∧
          acceptedCalls (s.send c sender rand data).calls = acceptedCalls s.calls) ∨
        ∃ nonce result,
          (s.send c sender rand data).batched = s.batched.send (sender.sealPacket c nonce data) ∧
            (s.send c sender rand data).calls = s.calls ++ [⟨.ok nonce, data, result⟩] ∧
            (s.batched.send (sender.sealPacket c nonce data)).calls =
              s.batched.calls ++ [(sender.sealPacket c nonce data, result)]) := by
  cases rand with
  | error err =>
    refine ⟨rfl, rfl, .inl ⟨rfl, ?_⟩⟩
    show acceptedCalls (s.calls ++ [_]) = _
    rw [acceptedCalls_append]
    exact List.append_nil _
  | ok nonce => exact ⟨rfl, rfl, .inr ⟨nonce, _, rfl, rfl, rfl⟩⟩

/-- What a call of the batching layer's callback does: the peer's encryption layer receives the
packet. -/
theorem State.hand_spec {s s' : State} (h : s.hand c = some s') :
    ∃ packet batched, s.batched.hand = some batched ∧
      batched.delivered = s.batched.delivered ++ [packet] ∧ batched.calls = s.batched.calls ∧
      s' = { s with
        batched
        receiver := (s.receiver.receive c packet).1
        delivered := s.delivered ++ (s.receiver.receive c packet).2.toList } := by
  cases hhanding : s.batched.handing with
  | nil => simp [State.hand, hhanding] at h
  | cons packet handing =>
    have hstep : s.batched.hand = some { s.batched with
        handing, delivered := s.batched.delivered ++ [packet] } := by
      simp only [Batched.State.hand, hhanding]
    simp only [State.hand, hhanding, hstep, Option.some.injEq] at h
    exact ⟨packet, _, hstep, rfl, rfl, h.symm⟩

theorem delivered_of_flush {s s' : Batched.State} {timer : Bool}
    (h : s.flush z cfg inner timer = some s') :
    s'.delivered = s.delivered ∧ s'.calls = s.calls := by
  unfold Batched.State.flush at h
  split_ifs at h
  cases hstep : Batched.flushStep z cfg true timer s.queue s.pc with
  | none => simp [hstep] at h
  | some r =>
    obtain ⟨pc, queue, msg⟩ := r
    cases msg with
    | none =>
      simp only [hstep, Option.some.injEq] at h
      exact h ▸ ⟨rfl, rfl⟩
    | some m =>
      simp only [hstep, Option.some.injEq] at h
      exact h ▸ ⟨rfl, rfl⟩

theorem delivered_of_receive {s s' : Batched.State} (h : s.receive z = some s') :
    s'.delivered = s.delivered ∧ s'.calls = s.calls := by
  obtain ⟨-, m, wire, -, ⟨pkts, -, rfl⟩ | ⟨-, rfl⟩⟩ := Batched.State.receive_spec h
  · exact ⟨rfl, rfl⟩
  · exact ⟨rfl, rfl⟩

/-! ### The invariant -/

/-- The batching layers of a stack run as they do alone, on the sealed packets. -/
theorem reachable_batched {s : State}
    (h : (system z c cfg inner sender receiver).Reachable s) :
    (Batched.system z cfg inner).Reachable s.batched := by
  refine EventSystem.Reachable.map State.batched .init ?_ h
  intro s e s' hstep
  cases e with
  | send rand data =>
    obtain ⟨-, -, ⟨hsame, -⟩ | ⟨nonce, result, hsend, -⟩⟩ :=
      State.send_spec c sender s rand data
    · exact ⟨[], by rw [← Option.some.inj hstep, hsame]; rfl⟩
    · exact ⟨[.send (sender.sealPacket c nonce data)],
        by rw [← Option.some.inj hstep, hsend]; rfl⟩
  | flush timer =>
    obtain ⟨batched, hflush, rfl⟩ := Option.map_eq_some_iff.mp hstep
    exact ⟨[.flush timer], EventSystem.run_cons_eq_some.mpr ⟨_, hflush, rfl⟩⟩
  | receive =>
    obtain ⟨batched, hreceive, rfl⟩ := Option.map_eq_some_iff.mp hstep
    exact ⟨[.receive], EventSystem.run_cons_eq_some.mpr ⟨_, hreceive, rfl⟩⟩
  | hand =>
    obtain ⟨packet, batched, hhand, -, -, rfl⟩ := State.hand_spec hstep
    exact ⟨[.hand], EventSystem.run_cons_eq_some.mpr ⟨_, hhand, rfl⟩⟩

/-- What the encryption layers add: the batching layer has accepted the sealed packets, and the
peer has received what it handed over. -/
structure Inv (c : Crypto) (sender receiver : EncryptedTransport) (s : State) : Prop where
  accepted : Batched.accepted s.batched.calls = packetsOf c sender (acceptedCalls s.calls)
  received : s.receiver = (receiver.receiveAll c s.batched.delivered).1
  opened : s.delivered = (receiver.receiveAll c s.batched.delivered).2.map Prod.snd

theorem inv_send {s : State} (h : Inv c sender receiver s) (rand : Except String Nonce)
    (data : Bytes) : Inv c sender receiver (s.send c sender rand data) := by
  obtain ⟨hreceiver, hdelivered, ⟨hsame, hcalls⟩ | ⟨nonce, result, hsend, hcalls, hbcalls⟩⟩ :=
    State.send_spec c sender s rand data
  · exact ⟨by rw [hsame, hcalls, h.accepted], by rw [hreceiver, hsame, h.received],
      by rw [hdelivered, hsame, h.opened]⟩
  · refine ⟨?_, by rw [hreceiver, hsend, h.received]; rfl, by rw [hdelivered, hsend, h.opened]; rfl⟩
    rw [hsend, hbcalls, hcalls, Batched.accepted_append, h.accepted, acceptedCalls_append]
    match result with
    | .ok () => simp [packetsOf, acceptedCalls]
    | .error err => simp [packetsOf, acceptedCalls]

theorem inv_hand {s s' : State} (h : Inv c sender receiver s) (hstep : s.hand c = some s') :
    Inv c sender receiver s' := by
  obtain ⟨packet, batched, -, hbdelivered, hbcalls, rfl⟩ := State.hand_spec hstep
  have hone : ∀ e : EncryptedTransport, e.receiveAll c [packet] = ((e.receive c packet).1,
      ((e.receive c packet).2.map fun p => (packet, p)).toList) := by
    intro e
    rw [EncryptedTransport.receiveAll]
    cases (e.receive c packet).2 <;> rfl
  have hall := receiveAll_append (c := c) receiver s.batched.delivered [packet]
  rw [← h.received, hone] at hall
  refine ⟨?_, ?_, ?_⟩
  · show Batched.accepted batched.calls = _
    rw [hbcalls, h.accepted]
  · show (s.receiver.receive c packet).1 = (receiver.receiveAll c batched.delivered).1
    rw [hbdelivered, hall]
  · show s.delivered ++ (s.receiver.receive c packet).2.toList =
      (receiver.receiveAll c batched.delivered).2.map Prod.snd
    rw [hbdelivered, hall, List.map_append, ← h.opened]
    cases (s.receiver.receive c packet).2 <;> rfl

theorem inv_reachable {s : State} (h : (system z c cfg inner sender receiver).Reachable s) :
    Inv c sender receiver s := by
  refine EventSystem.Reachable.invariant (I := Inv c sender receiver) ⟨rfl, rfl, rfl⟩ ?_ h
  intro s e s' hs hstep
  cases e with
  | send rand data => exact Option.some.inj hstep ▸ inv_send hs rand data
  | flush timer =>
    obtain ⟨batched, hflush, rfl⟩ := Option.map_eq_some_iff.mp hstep
    obtain ⟨hdelivered, hcalls⟩ := delivered_of_flush hflush
    exact ⟨hcalls ▸ hs.accepted, hdelivered ▸ hs.received, hdelivered ▸ hs.opened⟩
  | receive =>
    obtain ⟨batched, hreceive, rfl⟩ := Option.map_eq_some_iff.mp hstep
    obtain ⟨hdelivered, hcalls⟩ := delivered_of_receive hreceive
    exact ⟨hcalls ▸ hs.accepted, hdelivered ▸ hs.received, hdelivered ▸ hs.opened⟩
  | hand => exact inv_hand hs hstep

/-! ### Short packets -/

/-- Short packets are sealed within the batch format, and the batches fit the decoder. -/
theorem bounded_of_short (hc : c.Lawful) (hcfg : cfg.maxBatchBytes + 65537 ≤ limit) {s : State}
    (hinv : Inv c sender receiver s) (hbatched : Batched.Inv z cfg inner limit s.batched)
    (hshort : ∀ p ∈ accepted s.calls, p.length ≤ maxPlaintext) :
    Batched.Bounded limit s.batched := by
  intro b hb
  have hlen : ∀ p ∈ b, p.length ≤ 65535 := by
    intro p hp
    have hmem := hbatched.mem_accepted hb hp
    rw [hinv.accepted] at hmem
    obtain ⟨call, hcall, rfl⟩ := List.mem_map.mp hmem
    rw [length_sealPacket hc]
    have hcallShort : call.2.length ≤ maxPlaintext :=
      hshort call.2 (List.mem_map.mpr ⟨call, hcall, rfl⟩)
    unfold maxPlaintext at hcallShort
    omega
  have hsize := (hbatched.emitted b hb).framedSize_lt hlen
  exact ⟨hlen, by omega⟩

/-- While every accepted packet is short, the peer's callback has been handed a prefix of them,
and all of them once nothing is in flight. -/
theorem delivered_of_short (hc : c.Lawful) (hz : z.Inverts limit)
    (hcfg : cfg.maxBatchBytes + 65537 ≤ limit) (hpaired : Paired sender receiver)
    (hwindow : receiver.window = .empty) {s : State}
    (h : (system z c cfg inner sender receiver).Reachable s)
    (hfresh : ((sealed s.calls).map Prod.fst).Nodup)
    (hshort : ∀ p ∈ accepted s.calls, p.length ≤ maxPlaintext) :
    s.delivered <+: accepted s.calls ∧
      (Batched.Quiescent s.batched → s.delivered = accepted s.calls) := by
  have hinv := inv_reachable h
  have hbatched := Batched.inv_reachable hz (reachable_batched h)
  have hbound := bounded_of_short hc hcfg hinv hbatched hshort
  -- the batching layer hands over the packets of the first accepted calls
  obtain ⟨bs, -, hline⟩ := hbatched.exists_line hbound
  have hpre : s.batched.delivered <+: packetsOf c sender (acceptedCalls s.calls) := by
    rw [← hinv.accepted, hline]
    exact List.prefix_append _ _
  obtain ⟨calls, hcalls, hpackets⟩ := List.prefix_map_iff.mp hpre
  -- and these are opened
  have hcallsFresh : (calls.map Prod.fst).Nodup :=
    hfresh.sublist (((hcalls.sublist).trans (acceptedCalls_sublist_sealed _)).map _)
  have hopened := receiveAll_packetsOf hc hcallsFresh hpaired fun call _ hmem => by
    rw [hwindow] at hmem
    cases hmem
  have hdelivered : s.delivered = calls.map Prod.snd := by
    rw [hinv.opened, hpackets]
    exact hopened
  refine ⟨hdelivered ▸ hcalls.map _, fun hquiet => ?_⟩
  have hall := hbatched.delivered_eq hbound hquiet
  rw [hinv.accepted, hpackets] at hall
  have hlength := congrArg List.length hall
  rw [packetsOf, List.length_map, List.length_map] at hlength
  rw [hdelivered, hcalls.eq_of_length hlength]
  rfl

/-- Nothing longer than `maxPlaintext` is ever handed over. -/
theorem length_le_of_mem_delivered (hc : c.Lawful) (hz : z.Inverts limit) {s : State}
    (h : (system z c cfg inner sender receiver).Reachable s) {p : Bytes} (hp : p ∈ s.delivered) :
    p.length ≤ maxPlaintext := by
  have hbatched := Batched.inv_reachable hz (reachable_batched h)
  rw [(inv_reachable h).opened] at hp
  obtain ⟨d, hd, rfl⟩ := List.mem_map.mp hp
  obtain ⟨hmem, nonce, hopen⟩ := openPacket_of_mem_receiveAll hd
  have hpacket := hbatched.short _ (List.mem_append_left _ hmem)
  have hlength := length_of_openPacket hc hopen
  unfold maxPlaintext
  omega

/-! ### Progress -/

/-- A call of the batching layer's callback is a step of the stack. -/
theorem exists_hand {s : State} {b : Batched.State} (h : s.batched.hand = some b) :
    ∃ s', s.hand c = some s' ∧ s'.batched = b ∧ s'.calls = s.calls := by
  obtain ⟨packet, handing, hhanding, -⟩ := Batched.State.hand_spec h
  refine ⟨{ s with
    batched := b
    receiver := (s.receiver.receive c packet).1
    delivered := s.delivered ++ (s.receiver.receive c packet).2.toList }, ?_, rfl, rfl⟩
  simp only [State.hand, hhanding, h]

/-- What the batching layers do without `Send`s the stack can do. -/
theorem exists_run_of_drains {s : State} {b : Batched.State}
    (h : Batched.Drains z cfg inner s.batched b) :
    ∃ es s', (system z c cfg inner sender receiver).run s es = some s' ∧ s'.batched = b ∧
      s'.calls = s.calls := by
  induction h with
  | refl => exact ⟨[], s, rfl, rfl, rfl⟩
  | tail _ hstep ih =>
    obtain ⟨es, t, hrun, rfl, hcalls⟩ := ih
    obtain ⟨e, u, hu, hb, hc⟩ : ∃ e u, (system z c cfg inner sender receiver).step t e = some u ∧
        u.batched = _ ∧ u.calls = t.calls := by
      rcases hstep with ⟨timer, hflush⟩ | hreceive | hhand
      · exact ⟨.flush timer, _, Option.map_eq_some_iff.mpr ⟨_, hflush, rfl⟩, rfl, rfl⟩
      · exact ⟨.receive, _, Option.map_eq_some_iff.mpr ⟨_, hreceive, rfl⟩, rfl, rfl⟩
      · obtain ⟨u, hu, hb, hc⟩ := exists_hand (c := c) hhand
        exact ⟨.hand, u, hu, hb, hc⟩
    refine ⟨es ++ [e], u, ?_, hb, hc.trans hcalls⟩
    exact EventSystem.run_append_eq_some.mpr
      ⟨t, hrun, EventSystem.run_cons_eq_some.mpr ⟨u, hu, rfl⟩⟩

/-- **Progress**: without further `Send`s, the stack can run to a state in which nothing is queued,
held or in flight. -/
theorem exists_quiescent (hz : z.Inverts limit) {s : State}
    (h : (system z c cfg inner sender receiver).Reachable s) :
    ∃ s', (system z c cfg inner sender receiver).Reachable s' ∧ Batched.Quiescent s'.batched ∧
      s'.calls = s.calls := by
  obtain ⟨b, hdrains, hquiet, -⟩ := Batched.exists_quiescent hz (reachable_batched h)
  obtain ⟨es, s', hrun, rfl, hcalls⟩ := exists_run_of_drains hdrains
  exact ⟨s', h.run hrun, hquiet, hcalls⟩

/-! ### The sequence of packets -/

/-- **When the stack is lossless**: while every accepted packet has at most 65502 bytes, the peer's
callback has been handed a prefix of the accepted packets; and once nothing is queued or in flight
it has been handed exactly these packets if and only if none of them is longer. -/
theorem delivered_eq_accepted_iff (hc : c.Lawful) (hz : z.Inverts limit)
    (hcfg : cfg.maxBatchBytes + 65537 ≤ limit) {τ υ : Type*} {raw : Option τ} {raw' : Option υ}
    {secret context : Bytes} {exitNode : Bool}
    (hsender : newEncryptedTransport c raw secret context exitNode = .ok sender)
    (hreceiver : newEncryptedTransport c raw' secret context (!exitNode) = .ok receiver) {s : State}
    (h : (system z c cfg inner sender receiver).Reachable s)
    (hfresh : ((sealed s.calls).map Prod.fst).Nodup) :
    ((∀ p ∈ accepted s.calls, p.length ≤ maxPlaintext) → s.delivered <+: accepted s.calls) ∧
      (Batched.Quiescent s.batched →
        (s.delivered = accepted s.calls ↔ ∀ p ∈ accepted s.calls, p.length ≤ maxPlaintext)) := by
  obtain ⟨-, -, -, -, -, -, hwindow⟩ := newEncryptedTransport_eq_ok hreceiver
  have hpaired := paired_of_new hsender hreceiver
  refine ⟨fun hshort => (delivered_of_short hc hz hcfg hpaired hwindow h hfresh hshort).1,
    fun hquiet => ⟨fun heq p hp => ?_, fun hshort => ?_⟩⟩
  · rw [← heq] at hp
    exact length_le_of_mem_delivered hc hz h hp
  · exact (delivered_of_short hc hz hcfg hpaired hwindow h hfresh hshort).2 hquiet

/-- An IPv4/UDP packet of the client with an empty payload. -/
def smallPacket : Bytes :=
  [0x45, 0, 0, 28, 0, 0, 0, 0, 64, 17, 0, 0, 10, 10, 10, 2, 1, 1, 1, 1, 0, 53, 0, 53, 0, 8, 0, 0]

/-- An IPv4/UDP packet of the client with the largest total length there is. -/
def largestPacket : Bytes :=
  [0x45, 0, 0xFF, 0xFF, 0, 0, 0, 0, 64, 17, 0, 0, 10, 10, 10, 2, 1, 1, 1, 1, 0, 53, 0, 53,
    0xFF, 0xEB, 0, 0] ++ List.replicate 65507 0

/-- The connection of a sample client to its exit. -/
def sampleSystem : EventSystem State Event :=
  system storeZstd checksumCrypto .default .onSend (sampleTransport false) (sampleTransport true)

theorem exists_sample_run (data : Bytes) : ∃ s, sampleSystem.Reachable s ∧
    Batched.Quiescent s.batched ∧ s.calls = [⟨.ok (countingNonce 0), data, .ok ()⟩] :=
  exists_quiescent (storeZstd_inverts decoderMaxMemory)
    (EventSystem.Reachable.init.step (e := .send (.ok (countingNonce 0)) data) rfl)

theorem delivered_smallPacket : ∃ s, sampleSystem.Reachable s ∧
    Batched.Quiescent s.batched ∧ s.delivered = [smallPacket] := by
  obtain ⟨s, hs, hquiet, hcalls⟩ := exists_sample_run smallPacket
  have haccepted : accepted s.calls = [smallPacket] := by rw [hcalls]; rfl
  have h := delivered_eq_accepted_iff checksumCrypto_lawful (storeZstd_inverts decoderMaxMemory)
    (by decide) (newEncryptedTransport_sample false) (newEncryptedTransport_sample true) hs
    (by rw [hcalls]; exact List.nodup_singleton _)
  refine ⟨s, hs, hquiet, haccepted ▸ (h.2 hquiet).mpr ?_⟩
  rw [haccepted]
  decide

/-- The largest packet is accepted and never comes out. -/
theorem largestPacket_lost : largestPacket.length = 65535 ∧ ∃ s, sampleSystem.Reachable s ∧
    Batched.Quiescent s.batched ∧ accepted s.calls = [largestPacket] ∧
      s.delivered ≠ [largestPacket] := by
  have hlength : largestPacket.length = 65535 := by
    rw [largestPacket, List.length_append, List.length_replicate]
    rfl
  obtain ⟨s, hs, hquiet, hcalls⟩ := exists_sample_run largestPacket
  refine ⟨hlength, s, hs, hquiet, by rw [hcalls]; rfl, fun hdelivered => ?_⟩
  have hle := length_le_of_mem_delivered checksumCrypto_lawful
    (storeZstd_inverts decoderMaxMemory) hs (hdelivered ▸ List.mem_singleton_self largestPacket)
  rw [hlength] at hle
  exact absurd hle (by decide)

end OpenFlux.Transport.Stack
