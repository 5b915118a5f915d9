import OpenFlux.Transport.Cupsonline.Stack
import OpenFlux.Transport.Equiv.Framing

/-!
# Where a packet of the Cups.online stack is queued

`CupsonlineTransport.Send` puts every byte string it is given on the room of the hash of the flow
key it reads there (`Routed`).  But what it is given in `main`'s stack is a frame of the codec, and
no such frame starts like an IPv4 packet: its flow key is the zero key (`extractFlowKey_codec`).
So all frames go to the room of the zero key, whatever the flows of the packets in them
(`room_eq_flowHash_iff`), and all packets share that one room.
-/

namespace OpenFlux.Transport.Cupsonline

open L3 (byteAt ihl)

variable {n : ℕ}

/-! ### Flow keys -/

/-- An IPv4 packet with the ports of a TCP or UDP header. -/
structure FlowPacket (pkt : Bytes) : Prop where
  version : byteAt pkt 0 >>> 4 = 4
  ihl_ge : 20 ≤ ihl pkt
  length_ge : ihl pkt + 4 ≤ pkt.length
  proto : byteAt pkt 9 = 6 ∨ byteAt pkt 9 = 17

/-- The addresses, the ports and the protocol of a packet. -/
def fiveTuple (pkt : Bytes) : FlowKey where
  srcIP := beUint32 (byteAt pkt 12) (byteAt pkt 13) (byteAt pkt 14) (byteAt pkt 15)
  dstIP := beUint32 (byteAt pkt 16) (byteAt pkt 17) (byteAt pkt 18) (byteAt pkt 19)
  srcPort := beUint16 (byteAt pkt (ihl pkt)) (byteAt pkt (ihl pkt + 1))
  dstPort := beUint16 (byteAt pkt (ihl pkt + 2)) (byteAt pkt (ihl pkt + 3))
  proto := byteAt pkt 9

/-- This is what `extractFlowKey` reads of a TCP or UDP packet. -/
theorem extractFlowKey_of_flowPacket {pkt : Bytes} (h : FlowPacket pkt) :
    extractFlowKey pkt = fiveTuple pkt := by
  have hihl := h.ihl_ge
  have hlen := h.length_ge
  rw [extractFlowKey, if_neg (by omega), if_neg (not_not.mpr h.version), if_neg (by omega),
    if_pos h.proto]
  rfl

theorem extractFlowKey_of_version {b : UInt8} {rest : Bytes} (h : b >>> 4 ≠ 4) :
    extractFlowKey (b :: rest) = zeroKey := by
  rw [extractFlowKey, if_pos (show byteAt (b :: rest) 0 >>> 4 ≠ 4 from h), ite_self]

/-! ### The transport -/

/-- Every entry of the table and every queued byte string is at the room of its key's hash. -/
structure Routed (t : CupsonlineTransport n) : Prop where
  flows : ∀ key i, t.flows key = some i → i.val = (flowHash key).toNat % n
  queues : ∀ i, ∀ data ∈ t.queues i, i.val = (flowHash (extractFlowKey data)).toNat % n

theorem routed_start : Routed (.start : CupsonlineTransport n) where
  flows _ _ h := nomatch h
  queues _ _ h := nomatch h

theorem Routed.room_eq {t : CupsonlineTransport n} (h : Routed t) (hn : 0 < n) (key : FlowKey) :
    (t.room hn key).val = (flowHash key).toNat % n := by
  unfold CupsonlineTransport.room
  split
  · next i hi => exact h.flows key i hi
  · rfl

/-- What is on a queue after `cupsWS.Send` was there before or is what was sent. -/
theorem mem_of_mem_sendWS {cfg : Config} {queue queue' : List Bytes} {data x : Bytes}
    {result : Except String Unit}
    (h : CupsonlineTransport.sendWS cfg queue data = some (queue', result)) (hx : x ∈ queue') :
    x ∈ queue ∨ x = data ∧ result = .ok () := by
  unfold CupsonlineTransport.sendWS at h
  split_ifs at h
  · rw [Option.some.injEq, Prod.mk.injEq] at h
    exact .inl (h.1 ▸ hx)
  · rw [Option.some.injEq, Prod.mk.injEq] at h
    obtain ⟨rfl, rfl⟩ := h
    rcases List.mem_append.mp hx with hold | hnew
    · exact .inl hold
    · exact .inr ⟨List.mem_singleton.mp hnew, rfl⟩

/-- `Send` with rooms: the queue of the key's room is sent to, and the table has the room. -/
theorem send_of_pos {cfg : Config} (t : CupsonlineTransport n) (hn : 0 < n) (data : Bytes) :
    t.send cfg data =
      (CupsonlineTransport.sendWS cfg (t.queues (t.room hn (extractFlowKey data))) data).map fun r =>
        ({ flows := Function.update t.flows (extractFlowKey data)
            (some (t.room hn (extractFlowKey data)))
           queues := Function.update t.queues (t.room hn (extractFlowKey data)) r.1 }, r.2) := by
  rw [CupsonlineTransport.send, dif_pos hn]
  dsimp only
  split
  · next hqueue => rw [hqueue, Option.map_some]
  · next hqueue => rw [hqueue, Option.map_none]

/-- What is on the queue of a room after `Send` was there before, or is what was sent and the room
that of its key. -/
theorem mem_of_mem_send {cfg : Config} {t t' : CupsonlineTransport n} {data x : Bytes}
    {result : Except String Unit} (hsend : t.send cfg data = some (t', result)) {i : Fin n}
    (hx : x ∈ t'.queues i) : x ∈ t.queues i ∨
      (x = data ∧ ∃ hn, i = t.room hn (extractFlowKey data)) ∧ result = .ok () := by
  by_cases hn : 0 < n
  · rw [send_of_pos t hn] at hsend
    obtain ⟨⟨queue, result'⟩, hqueue, heq⟩ := Option.map_eq_some_iff.mp hsend
    obtain ⟨rfl, rfl⟩ := Prod.mk.inj heq
    dsimp only at hx
    by_cases hi : i = t.room hn (extractFlowKey data)
    · rw [hi, Function.update_self] at hx
      rcases mem_of_mem_sendWS hqueue hx with hold | ⟨rfl, hok⟩
      · exact .inl (hi ▸ hold)
      · exact .inr ⟨⟨rfl, hn, hi⟩, hok⟩
    · rw [Function.update_of_ne hi] at hx
      exact .inl hx
  · rw [CupsonlineTransport.send, dif_neg hn, Option.some.injEq, Prod.mk.injEq] at hsend
    exact .inl (hsend.1 ▸ hx)

theorem flows_of_send {cfg : Config} {t t' : CupsonlineTransport n} {data : Bytes}
    {result : Except String Unit} (hsend : t.send cfg data = some (t', result)) {key : FlowKey}
    {i : Fin n} (hi : t'.flows key = some i) : t.flows key = some i ∨
      key = extractFlowKey data ∧ ∃ hn, i = t.room hn key := by
  by_cases hn : 0 < n
  · rw [send_of_pos t hn] at hsend
    obtain ⟨⟨queue, result'⟩, -, heq⟩ := Option.map_eq_some_iff.mp hsend
    obtain ⟨rfl, -⟩ := Prod.mk.inj heq
    dsimp only at hi
    by_cases hkey : key = extractFlowKey data
    · subst hkey
      rw [Function.update_self, Option.some.injEq] at hi
      exact .inr ⟨rfl, hn, hi.symm⟩
    · rw [Function.update_of_ne hkey] at hi
      exact .inl hi
  · rw [CupsonlineTransport.send, dif_neg hn, Option.some.injEq, Prod.mk.injEq] at hsend
    exact .inl (hsend.1 ▸ hi)

theorem Routed.send {cfg : Config} {t t' : CupsonlineTransport n} {data : Bytes}
    {result : Except String Unit} (h : Routed t) (hsend : t.send cfg data = some (t', result)) :
    Routed t' := by
  refine ⟨fun key i hi => ?_, fun i x hx => ?_⟩
  · rcases flows_of_send hsend hi with hold | ⟨-, hn, rfl⟩
    · exact h.flows key i hold
    · exact h.room_eq hn key
  · rcases mem_of_mem_send hsend hx with hold | ⟨⟨rfl, hn, rfl⟩, -⟩
    · exact h.queues i x hold
    · exact h.room_eq hn _

/-- A room's `sendLoop` takes only from its own queue. -/
theorem mem_of_mem_take {t : CupsonlineTransport n} {i j : Fin n} {x : Bytes}
    (hx : x ∈ (t.take i).queues j) : x ∈ t.queues j := by
  dsimp only [CupsonlineTransport.take] at hx
  by_cases hj : j = i
  · rw [hj, Function.update_self] at hx
    exact hj ▸ List.mem_of_mem_tail hx
  · rwa [Function.update_of_ne hj] at hx

theorem Routed.take {t : CupsonlineTransport n} (h : Routed t) (i : Fin n) : Routed (t.take i) where
  flows := h.flows
  queues j data hdata := h.queues j data (mem_of_mem_take hdata)

/-! ### The stack -/

/-- Every step of the stack leaves the transport below as it is, or sends to it, or lets a room take
from its queue. -/
theorem stack_step_cups {o : Options} {s s' : Stack n} {e : Stack.Event n}
    (h : (stack o n).step s e = some s') :
    s'.cups = s.cups ∨ (∃ frame result, s.cups.send o.cups frame = some (s'.cups, result)) ∨
      ∃ i, s'.cups = s.cups.take i := by
  cases e with
  | send rand data =>
    replace h : s.send o rand data = some s' := h
    unfold Stack.send at h
    split at h
    · exact .inl (Option.some.inj h ▸ rfl)
    · unfold Stack.sendCodec at h
      split at h
      · exact .inl (Option.some.inj h ▸ rfl)
      · obtain ⟨⟨cups, result⟩, hsend, rfl⟩ := Option.map_eq_some_iff.mp h
        exact .inr (.inl ⟨_, result, hsend⟩)
  | flush timer =>
    replace h : s.flush o timer = some s' := h
    unfold Stack.flush at h
    split at h
    · obtain ⟨⟨cups, result⟩, hsend, rfl⟩ := Option.map_eq_some_iff.mp h
      exact .inr (.inl ⟨_, result, hsend⟩)
    · exact .inl (Option.some.inj h ▸ rfl)
    · cases h
  | take i => exact .inr (.inr ⟨i, Option.some.inj h ▸ rfl⟩)

theorem routed_of_reachable {o : Options} {s : Stack n} (h : (stack o n).Reachable s) :
    Routed s.cups := by
  refine EventSystem.Reachable.invariant (I := fun s => Routed s.cups) routed_start ?_ h
  intro s e s' hs hstep
  rcases stack_step_cups hstep with hsame | ⟨frame, result, hsend⟩ | ⟨i, htake⟩
  · exact hsame ▸ hs
  · exact hs.send hsend
  · exact htake ▸ hs.take i

/-- The bytes that `sealed` makes of a packet, for some nonce. -/
def Seals (o : Options) (pkt item : Bytes) : Prop := ∃ rand, Stack.sealed o rand pkt = .ok item

/-- `frame` carries `pkt`: it is a batch with what the packet was sealed to, or that compressed. -/
def Carries (o : Options) (pkt frame : Bytes) : Prop :=
  ∃ item, Seals o pkt item ∧
    match o.codec with
    | .batched => ∃ batch, item ∈ batch ∧ frame = encodeBatch o.zstd batch
    | .legacy => frame = compress o.lz4 item

/-- No frame of a codec looks like an IPv4 packet. -/
theorem extractFlowKey_codec {o : Options} {pkt frame : Bytes} (h : Carries o pkt frame) :
    extractFlowKey frame = zeroKey := by
  obtain ⟨item, -, hframe⟩ := h
  split at hframe
  · obtain ⟨batch, -, rfl⟩ := hframe
    unfold encodeBatch
    dsimp only
    split_ifs
    · exact extractFlowKey_of_version (by decide)
    · exact extractFlowKey_of_version (by decide)
  · rw [hframe]
    unfold compress
    dsimp only
    split_ifs
    · exact extractFlowKey_of_version (by decide)
    · exact extractFlowKey_of_version (by decide)
    · exact extractFlowKey_of_version (by decide)

/-- **One room for all**: in every run of the stack, a frame that carries a packet is on the room of
the packet's flow, which is the 5-tuple of a TCP or UDP packet, exactly when the hash of that flow
names the room of the zero key. -/
theorem room_eq_flowHash_iff {o : Options} {s : Stack n} (h : (stack o n).Reachable s) {i : Fin n}
    {frame pkt : Bytes} (hqueued : frame ∈ s.cups.queues i) (hcarries : Carries o pkt frame) :
    (i.val = (flowHash (extractFlowKey pkt)).toNat % n ↔
      (flowHash (extractFlowKey pkt)).toNat % n = (flowHash zeroKey).toNat % n) ∧
    (FlowPacket pkt → (i.val = (flowHash (fiveTuple pkt)).toNat % n ↔
      (flowHash (fiveTuple pkt)).toNat % n = (flowHash zeroKey).toNat % n)) := by
  have hroom := (routed_of_reachable h).queues i frame hqueued
  rw [extractFlowKey_codec hcarries] at hroom
  have hiff : i.val = (flowHash (extractFlowKey pkt)).toNat % n ↔
      (flowHash (extractFlowKey pkt)).toNat % n = (flowHash zeroKey).toNat % n := by
    rw [hroom]
    exact eq_comm
  exact ⟨hiff, fun hpkt => extractFlowKey_of_flowPacket hpkt ▸ hiff⟩

/-- The default codec without encryption. -/
def sampleOptions : Options where
  codec := .batched
  zstd := storeZstd
  lz4 := ⟨id, .ok⟩
  batching := .default
  crypto := ⟨id, fun _ => id, fun _ _ _ _ _ _ => .ok [], fun _ _ data _ => data,
    fun _ _ data _ => some data⟩
  encryption := none
  cups := .default

/-- A UDP packet from 10.10.10.2:49152 to 1.1.1.1:53. -/
def dnsPacket : Bytes :=
  [0x45, 0, 0, 28, 0, 0, 0x40, 0, 64, 17, 0, 0, 10, 10, 10, 2, 1, 1, 1, 1,
    0xC0, 0, 0, 53, 0, 8, 0, 0]

/-- The packet is sent, waits for the timer and leaves in a batch of its own. -/
def dnsRun : List (Stack.Event 4) :=
  [.flush false, .send (.ok ⟨List.replicate 12 0, rfl⟩) dnsPacket, .flush false, .flush false,
    .flush true, .flush false]

/-- The transport after `dnsRun`. -/
def dnsCups : CupsonlineTransport 4 where
  flows := Function.update (fun _ => none) zeroKey (some 1)
  queues := Function.update (fun _ => []) 1 [encodeBatch storeZstd [dnsPacket]]

theorem carries_dnsPacket : Carries sampleOptions dnsPacket (encodeBatch storeZstd [dnsPacket]) :=
  ⟨dnsPacket, ⟨.error "", rfl⟩, [dnsPacket], List.mem_singleton_self _, rfl⟩

theorem send_dnsPacket :
    (.start : CupsonlineTransport 4).send .default (encodeBatch storeZstd [dnsPacket]) =
      some (dnsCups, .ok ()) := by
  have hroom : (.start : CupsonlineTransport 4).room (by decide) zeroKey = 1 := by decide +kernel
  rw [send_of_pos _ (by decide), extractFlowKey_codec carries_dnsPacket, hroom]
  rfl

theorem reachable_dns : (stack sampleOptions 4).Reachable { pc := .inSend, cups := dnsCups } := by
  have hlast : Stack.flush (n := 4) sampleOptions { pc := .emit [dnsPacket] } false =
      some { pc := .inSend, cups := dnsCups } := by
    simp only [Stack.flush, sampleOptions, Batched.flushStep, send_dnsPacket, Option.map_some]
  exact ⟨dnsRun, hlast⟩

theorem flowPacket_dnsPacket : FlowPacket dnsPacket :=
  ⟨by decide, by decide, by decide, by decide⟩

/-- A DNS query of four rooms' stack, whose flow hashes to room 3, is queued on room 1. -/
theorem dns_in_wrong_room : ∃ s, (stack sampleOptions 4).Reachable s ∧ FlowPacket dnsPacket ∧
    ∃ i frame, frame ∈ s.cups.queues i ∧ Carries sampleOptions dnsPacket frame ∧
      i.val ≠ (flowHash (fiveTuple dnsPacket)).toNat % 4 :=
  ⟨_, reachable_dns, flowPacket_dnsPacket, 1, _, List.mem_singleton_self _, carries_dnsPacket,
    by decide +kernel⟩

theorem room_eq_flowHash_iff_dns :
    (1 : Fin 4).val = (flowHash (fiveTuple dnsPacket)).toNat % 4 ↔
      (flowHash (fiveTuple dnsPacket)).toNat % 4 = (flowHash zeroKey).toNat % 4 :=
  (room_eq_flowHash_iff reachable_dns (List.mem_singleton_self _) carries_dnsPacket).2
    flowPacket_dnsPacket

end OpenFlux.Transport.Cupsonline
