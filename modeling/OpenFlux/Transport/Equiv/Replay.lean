import OpenFlux.Transport.Equiv.Encrypted

/-!
# Replay protection of the encryption layer

The comment on `EncryptedTransport` says that a captured packet cannot be replayed.  The window
forgets, so that is true of exactly some runs of the receive path.  The nonces of the packets that
open go through the duplicate filter (`map_packetNonce_receiveAll`); so every packet is handed
over at most once as long as each repetition of a nonce comes while it is among the last
`maxSeenNonces` distinct ones, and when the packets that open are the peer's, with fresh nonces,
in no other run (`handed_at_most_once_iff`).
-/

namespace OpenFlux.Transport.Encrypted

variable {c : Crypto}

/-- The nonces of the packets that open. -/
def openNonces (c : Crypto) (e : EncryptedTransport) (packets : List Bytes) : List Bytes :=
  packets.filterMap fun packet => (e.openPacket c packet).map Prod.fst

/-! ### The receive path -/

theorem receive_of_none {e : EncryptedTransport} {packet : Bytes}
    (h : e.openPacket c packet = none) : e.receive c packet = (e, none) := by
  simp only [EncryptedTransport.receive, h]

theorem receive_of_some {e : EncryptedTransport} {packet : Bytes} {r : Bytes × Bytes}
    (h : e.openPacket c packet = some r) :
    e.receive c packet = ({ e with window := (e.window.rememberNonce r.1).1 },
      if (e.window.rememberNonce r.1).2 then some r.2 else none) := by
  simp only [EncryptedTransport.receive, h]

/-- Whatever `Receive` did before, the keys and directions are as they were. -/
theorem openPacket_receive (e : EncryptedTransport) (packet : Bytes) :
    (e.receive c packet).1.openPacket c = e.openPacket c := by
  cases h : e.openPacket c packet with
  | none => rw [receive_of_none h]
  | some r =>
    rw [receive_of_some h]
    rfl

/-- What `Receive` hands over is the plaintext of a packet that opens with a nonce not in the
window. -/
theorem receive_snd_eq_some_iff {e : EncryptedTransport} {packet p : Bytes} :
    (e.receive c packet).2 = some p ↔
      ∃ nonce, e.openPacket c packet = some (nonce, p) ∧ nonce ∉ e.window.seenOrder := by
  cases h : e.openPacket c packet with
  | none => simp [receive_of_none h]
  | some r =>
    obtain ⟨nonce, plaintext⟩ := r
    rw [receive_of_some h]
    constructor
    · intro hsome
      rw [Option.ite_none_right_eq_some] at hsome
      exact ⟨nonce, by rw [← Option.some.inj hsome.2],
        ReplayWindow.rememberNonce_new.mp hsome.1⟩
    · rintro ⟨nonce', heq, hnew⟩
      cases heq
      exact if_pos (ReplayWindow.rememberNonce_new.mpr hnew)

theorem receiveAll_cons (e : EncryptedTransport) (packet : Bytes) (packets : List Bytes) :
    (e.receiveAll c (packet :: packets)).2 =
      ((e.receive c packet).2.map fun p => (packet, p)).toList ++
        ((e.receive c packet).1.receiveAll c packets).2 := by
  rw [EncryptedTransport.receiveAll]
  cases (e.receive c packet).2 <;> rfl

theorem receiveAll_append (e : EncryptedTransport) (packets packets' : List Bytes) :
    e.receiveAll c (packets ++ packets') =
      (((e.receiveAll c packets).1.receiveAll c packets').1,
        (e.receiveAll c packets).2 ++ ((e.receiveAll c packets).1.receiveAll c packets').2) := by
  induction packets generalizing e with
  | nil => rfl
  | cons packet packets ih =>
    rw [List.cons_append, EncryptedTransport.receiveAll, EncryptedTransport.receiveAll, ih]
    cases (e.receive c packet).2 <;> rfl

/-- Nothing is handed over exactly when every packet that opens has a nonce in the window. -/
theorem receiveAll_eq_nil_iff {e : EncryptedTransport} {packets : List Bytes} :
    (e.receiveAll c packets).2 = [] ↔ ∀ packet ∈ packets, ∀ nonce p,
      e.openPacket c packet = some (nonce, p) → nonce ∈ e.window.seenOrder := by
  induction packets with
  | nil => simp [EncryptedTransport.receiveAll]
  | cons packet packets ih =>
    have hhead : (e.receive c packet).2 = none ↔ ∀ nonce p,
        e.openPacket c packet = some (nonce, p) → nonce ∈ e.window.seenOrder := by
      rw [Option.eq_none_iff_forall_ne_some]
      simp only [ne_eq, receive_snd_eq_some_iff]
      constructor
      · intro h nonce p hopen
        by_contra hnew
        exact h p ⟨nonce, hopen, hnew⟩
      · rintro h p ⟨nonce, hopen, hnew⟩
        exact hnew (h nonce p hopen)
    have hsame : (e.receive c packet).2 = none → (e.receive c packet).1 = e := by
      intro hnone
      cases hopen : e.openPacket c packet with
      | none => rw [receive_of_none hopen]
      | some r =>
        have hold := hhead.mp hnone r.1 r.2 hopen
        rw [receive_of_some hopen, ReplayWindow.rememberNonce_of_mem hold]
    rw [receiveAll_cons, List.append_eq_nil_iff, List.forall_mem_cons, ← hhead, ← ih]
    constructor
    · rintro ⟨hnil, hrest⟩
      have hnone : (e.receive c packet).2 = none := by
        cases hsnd : (e.receive c packet).2 with
        | none => rfl
        | some p => simp [hsnd] at hnil
      rw [hsame hnone] at hrest
      exact ⟨hnone, hrest⟩
    · rintro ⟨hnone, hrest⟩
      rw [hsame hnone, hnone]
      exact ⟨rfl, hrest⟩

theorem openPacket_of_mem_receiveAll {e : EncryptedTransport} {packets : List Bytes}
    {h : Bytes × Bytes} (hmem : h ∈ (e.receiveAll c packets).2) :
    h.1 ∈ packets ∧ ∃ nonce, e.openPacket c h.1 = some (nonce, h.2) := by
  induction packets generalizing e with
  | nil => cases hmem
  | cons packet packets ih =>
    rw [receiveAll_cons, List.mem_append] at hmem
    rcases hmem with hnew | hrest
    · simp only [Option.mem_toList, Option.map_eq_some_iff] at hnew
      obtain ⟨p, hp, rfl⟩ := hnew
      obtain ⟨nonce, hopen, -⟩ := receive_snd_eq_some_iff.mp hp
      exact ⟨List.mem_cons_self .., nonce, hopen⟩
    · obtain ⟨hin, nonce, hopen⟩ := ih hrest
      rw [openPacket_receive] at hopen
      exact ⟨List.mem_cons_of_mem _ hin, nonce, hopen⟩

/-- **The receive path is the duplicate filter** on the nonces of the packets that open. -/
theorem map_packetNonce_receiveAll (e : EncryptedTransport) (packets : List Bytes) :
    ((e.receiveAll c packets).2.map fun h => packetNonce h.1) =
      DuplicateFilter.passed maxSeenNonces e.window.seenOrder (openNonces c e packets) := by
  induction packets generalizing e with
  | nil => rfl
  | cons packet packets ih =>
    have hrest : openNonces c (e.receive c packet).1 packets = openNonces c e packets := by
      unfold openNonces
      rw [openPacket_receive]
    rw [receiveAll_cons, List.map_append, ih, hrest]
    cases hopen : e.openPacket c packet with
    | none =>
      have hnonces : openNonces c e (packet :: packets) = openNonces c e packets := by
        simp [openNonces, hopen]
      rw [receive_of_none hopen, hnonces]
      rfl
    | some r =>
      obtain ⟨nonce, p⟩ := r
      have hnonces : openNonces c e (packet :: packets) = nonce :: openNonces c e packets := by
        simp [openNonces, hopen]
      rw [receive_of_some hopen, hnonces, DuplicateFilter.passed, e.window.remember_seenOrder]
      cases hnew : (e.window.rememberNonce nonce).2 with
      | true =>
        simp only [if_true, Option.map_some, Option.toList_some, List.map_cons, List.map_nil,
          List.singleton_append, packetNonce_of_openPacket hopen]
      | false =>
        have hold : nonce ∈ e.window.seenOrder := by
          by_contra h
          rw [ReplayWindow.rememberNonce_new.mpr h] at hnew
          cases hnew
        rw [ReplayWindow.rememberNonce_of_mem hold]
        rfl

theorem receiveAll_cons_fst (e : EncryptedTransport) (packet : Bytes) (packets : List Bytes) :
    (e.receiveAll c (packet :: packets)).1 = ((e.receive c packet).1.receiveAll c packets).1 := by
  rw [EncryptedTransport.receiveAll]
  cases (e.receive c packet).2 <;> rfl

/-- The window after a sequence is the memory of the filter. -/
theorem seenOrder_receiveAll (e : EncryptedTransport) (packets : List Bytes) :
    (e.receiveAll c packets).1.window.seenOrder =
      DuplicateFilter.memoryAfter maxSeenNonces e.window.seenOrder (openNonces c e packets) := by
  induction packets generalizing e with
  | nil => rfl
  | cons packet packets ih =>
    have hrest : openNonces c (e.receive c packet).1 packets = openNonces c e packets := by
      unfold openNonces
      rw [openPacket_receive]
    rw [receiveAll_cons_fst, ih, hrest]
    cases hopen : e.openPacket c packet with
    | none =>
      have hnonces : openNonces c e (packet :: packets) = openNonces c e packets := by
        simp [openNonces, hopen]
      rw [receive_of_none hopen, hnonces]
    | some r =>
      obtain ⟨nonce, p⟩ := r
      have hnonces : openNonces c e (packet :: packets) = nonce :: openNonces c e packets := by
        simp [openNonces, hopen]
      have hremember := e.window.remember_seenOrder nonce
      rw [receive_of_some hopen, hnonces, DuplicateFilter.memoryAfter, DuplicateFilter.memoryAfter,
        List.foldl_cons, hremember]
      cases hnew : (e.window.rememberNonce nonce).2 with
      | true => rfl
      | false =>
        have hold : nonce ∈ e.window.seenOrder := by
          rw [hnew, if_neg Bool.false_ne_true] at hremember
          exact DuplicateFilter.remember_eq_none_iff.mp hremember
        rw [ReplayWindow.rememberNonce_of_mem hold]
        rfl

/-- **What is refused**: of the packets that open, exactly those whose nonce is among the last
`maxSeenNonces` that were handed over. -/
theorem receive_eq_some_iff_last {e : EncryptedTransport} (hwindow : e.window = .empty)
    (packets : List Bytes) (packet p : Bytes) :
    ((e.receiveAll c packets).1.receive c packet).2 = some p ↔
      ∃ nonce, (e.receiveAll c packets).1.openPacket c packet = some (nonce, p) ∧
        nonce ∉ ((e.receiveAll c packets).2.map fun h => packetNonce h.1).rtake maxSeenNonces := by
  have hempty : e.window.seenOrder = [] := by rw [hwindow]; rfl
  rw [receive_snd_eq_some_iff, seenOrder_receiveAll, map_packetNonce_receiveAll, hempty,
    DuplicateFilter.memoryAfter_eq_rtake]

/-- A sequence within the window hands nothing over twice. -/
theorem nodup_receiveAll_of_within {e : EncryptedTransport} (hwindow : e.window = .empty)
    {packets : List Bytes} (h : DuplicateFilter.Within maxSeenNonces (openNonces c e packets)) :
    ((e.receiveAll c packets).2.map Prod.fst).Nodup := by
  have hpassed := DuplicateFilter.passed_nodup_iff.mpr h
  have hmap := map_packetNonce_receiveAll (c := c) e packets
  rw [hwindow] at hmap
  rw [show ReplayWindow.empty.seenOrder = [] from rfl] at hmap
  rw [← hmap, ← Function.comp_def packetNonce Prod.fst, ← List.map_map] at hpassed
  exact hpassed.of_map

/-- The packets `peer` made of the `Send` calls. -/
def packetsOf (c : Crypto) (peer : EncryptedTransport) (calls : List (Nonce × Bytes)) :
    List Bytes :=
  calls.map fun call => peer.sealPacket c call.1 call.2

/-- Packets of the peer's with nonces that are new and distinct are all handed over. -/
theorem receiveAll_packetsOf (hc : c.Lawful) {peer : EncryptedTransport}
    {calls : List (Nonce × Bytes)} (hfresh : (calls.map Prod.fst).Nodup) :
    ∀ {e : EncryptedTransport}, Paired peer e →
      (∀ call ∈ calls, call.1.bytes ∉ e.window.seenOrder) →
      (e.receiveAll c (packetsOf c peer calls)).2.map Prod.snd = calls.map Prod.snd := by
  induction calls with
  | nil => intro e _ _; rfl
  | cons call calls ih =>
    intro e hpaired hnew
    obtain ⟨hcall, hcalls⟩ := List.nodup_cons.mp hfresh
    have hopen := openPacket_sealPacket hc hpaired call.1 call.2
    have hsome : (e.receive c (peer.sealPacket c call.1 call.2)).2 = some call.2 :=
      receive_snd_eq_some_iff.mpr ⟨_, hopen, hnew call (List.mem_cons_self ..)⟩
    have hrest := ih hcalls (e := (e.receive c (peer.sealPacket c call.1 call.2)).1) ?_ ?_
    · show (e.receiveAll c (peer.sealPacket c call.1 call.2 :: packetsOf c peer calls)).2.map _ = _
      rw [receiveAll_cons, List.map_append, hrest, hsome]
      rfl
    · rw [receive_of_some hopen]
      exact ⟨hpaired.key_eq, hpaired.direction_eq⟩
    · intro call' hmem hin
      rw [receive_of_some hopen] at hin
      rcases ReplayWindow.mem_rememberNonce hin with hold | heq
      · exact hnew call' (List.mem_cons_of_mem _ hmem) hold
      · exact hcall (Nonce.ext_bytes heq ▸ List.mem_map_of_mem hmem)

/-- If the packets that open are the peer's, with fresh nonces, nothing but a sequence within the
window hands each of them over at most once. -/
theorem within_of_count_le_one {e peer : EncryptedTransport} (hwindow : e.window = .empty)
    {calls : List (Nonce × Bytes)} {packets : List Bytes}
    (hfresh : (calls.map Prod.fst).Nodup)
    (hideal : ∀ packet ∈ packets,
      c.Unforged (calls.map fun call => peer.sealCall call.1 call.2) e packet)
    (h : ∀ packet ∈ packetsOf c peer calls,
      ((e.receiveAll c packets).2.map Prod.fst).count packet ≤ 1) :
    DuplicateFilter.Within maxSeenNonces (openNonces c e packets) := by
  -- what is handed over is the peer's
  have hpeer : ∀ packet ∈ (e.receiveAll c packets).2.map Prod.fst,
      packet ∈ packetsOf c peer calls := by
    intro packet hmem
    obtain ⟨r, hr, rfl⟩ := List.mem_map.mp hmem
    obtain ⟨hin, nonce, hopen⟩ := openPacket_of_mem_receiveAll hr
    obtain ⟨call, hcall, -, -, hpacket⟩ := eq_sealPacket_of_unforged (hideal _ hin) hopen
    exact List.mem_map.mpr ⟨call, hcall, hpacket.symm⟩
  have hnodup : ((e.receiveAll c packets).2.map Prod.fst).Nodup := by
    rw [List.nodup_iff_count_le_one]
    intro packet
    by_cases hmem : packet ∈ (e.receiveAll c packets).2.map Prod.fst
    · exact h packet (hpeer packet hmem)
    · rw [List.count_eq_zero_of_not_mem hmem]
      exact Nat.zero_le 1
  -- fresh nonces tell the peer's packets apart
  have hinj : ∀ packet ∈ packetsOf c peer calls, ∀ packet' ∈ packetsOf c peer calls,
      packetNonce packet = packetNonce packet' → packet = packet' := by
    intro packet hmem packet' hmem' heq
    obtain ⟨call, hcall, rfl⟩ := List.mem_map.mp hmem
    obtain ⟨call', hcall', rfl⟩ := List.mem_map.mp hmem'
    rw [packetNonce_sealPacket, packetNonce_sealPacket] at heq
    rw [List.inj_on_of_nodup_map hfresh hcall hcall' (Nonce.ext_bytes heq)]
  have hnonces := hnodup.map_on fun packet hmem packet' hmem' =>
    hinj packet (hpeer packet hmem) packet' (hpeer packet' hmem')
  rw [List.map_map] at hnonces
  rw [← DuplicateFilter.passed_nodup_iff]
  have hmap := map_packetNonce_receiveAll (c := c) e packets
  rw [hwindow] at hmap
  rw [show ([] : List Bytes) = ReplayWindow.empty.seenOrder from rfl, ← hmap]
  exact hnonces

/-- Each packet the peer made of a `Send` call is handed over at most once. -/
def HandedAtMostOnce (c : Crypto) (e peer : EncryptedTransport) (calls : List (Nonce × Bytes))
    (packets : List Bytes) : Prop :=
  ∀ packet ∈ packetsOf c peer calls, ((e.receiveAll c packets).2.map Prod.fst).count packet ≤ 1

theorem openNonces_packetsOf (hc : c.Lawful) {peer e : EncryptedTransport} (h : Paired peer e)
    (calls : List (Nonce × Bytes)) :
    openNonces c e (packetsOf c peer calls) = calls.map fun call => call.1.bytes := by
  induction calls with
  | nil => rfl
  | cons call calls ih =>
    have hcons : openNonces c e (packetsOf c peer (call :: calls)) =
        call.1.bytes :: openNonces c e (packetsOf c peer calls) := by
      simp [openNonces, packetsOf, openPacket_sealPacket hc h]
    rw [hcons, ih, List.map_cons]

/-- A packet comes back after `maxSeenNonces` others: it is handed over again. -/
theorem not_handedAtMostOnce_of_le (hc : c.Lawful) {peer e : EncryptedTransport}
    (hpaired : Paired peer e) (hwindow : e.window = .empty) {call : Nonce × Bytes}
    {calls : List (Nonce × Bytes)} (hfresh : ((call :: calls).map Prod.fst).Nodup)
    (hlen : maxSeenNonces ≤ calls.length) :
    ¬ HandedAtMostOnce c e peer (call :: calls) (packetsOf c peer (call :: calls ++ [call])) := by
  intro honce
  have hideal : ∀ packet ∈ packetsOf c peer (call :: calls ++ [call]),
      c.Unforged ((call :: calls).map fun call => peer.sealCall call.1 call.2) e packet := by
    intro packet hmem
    obtain ⟨call', hcall, rfl⟩ := List.mem_map.mp hmem
    refine unforged_sealPacket hc hpaired ?_
    rcases List.mem_append.mp hcall with hold | hnew
    · exact hold
    · exact List.mem_singleton.mp hnew ▸ List.mem_cons_self ..
  have hwithin := within_of_count_le_one hwindow hfresh hideal honce
  rw [openNonces_packetsOf hc hpaired, List.map_append] at hwithin
  refine DuplicateFilter.not_within_of_nodup ?_ ?_ hwithin
  · have hnonces := hfresh.map (f := Nonce.bytes) fun _ _ => Nonce.ext_bytes
    rwa [List.map_map] at hnonces
  · rwa [List.length_map]

/-! ### Sample runs -/

/-- The nonce that counts to `i`. -/
def countingNonce (i : ℕ) : Nonce := ⟨List.replicate 10 0 ++ putUint16 (UInt16.ofNat i), rfl⟩

theorem countingNonce_injOn {i j : ℕ} (hi : i < 65536) (hj : j < 65536)
    (h : countingNonce i = countingNonce j) : i = j := by
  have hput := List.append_cancel_left (congrArg Nonce.bytes h)
  have hbe := congrArg (fun b : Bytes => beUint16 (b.getD 0 0) (b.getD 1 0)) hput
  simp only [putUint16, List.getD_cons_zero, List.getD_cons_succ, beUint16_putUint16] at hbe
  have hval := congrArg UInt16.toNat hbe
  rw [UInt16.toNat_ofNat', UInt16.toNat_ofNat', Nat.mod_eq_of_lt hi, Nat.mod_eq_of_lt hj] at hval
  exact hval

/-- `Send` calls with the counting nonces from `1` on. -/
def countingCalls (n : ℕ) : List (Nonce × Bytes) :=
  (List.range n).map fun i => (countingNonce (i + 1), [])

theorem nodup_countingCalls {n : ℕ} (hn : n < 65536) :
    (((countingNonce 0, []) :: countingCalls n).map Prod.fst).Nodup := by
  have hrange : ((countingNonce 0, []) :: countingCalls n).map Prod.fst =
      (List.range (n + 1)).map countingNonce := by
    rw [List.range_succ_eq_map, countingCalls, List.map_cons, List.map_cons, List.map_map,
      List.map_map]
    rfl
  rw [hrange]
  refine List.Nodup.map_on ?_ List.nodup_range
  intro i hi j hj heq
  rw [List.mem_range] at hi hj
  exact countingNonce_injOn (by omega) (by omega) heq

/-! ### The replay protection -/

/-- **When no captured packet can be replayed**: in the runs in which each repetition of a nonce
comes while it is among the last `maxSeenNonces` distinct ones, and in no other run with fresh
nonces and no forgeries. -/
theorem handed_at_most_once_iff {τ : Type*} {inner : Option τ} {secret context : Bytes}
    {exitNode : Bool} {e : EncryptedTransport}
    (he : newEncryptedTransport c inner secret context exitNode = .ok e)
    (peer : EncryptedTransport) (calls : List (Nonce × Bytes)) (packets : List Bytes) :
    (DuplicateFilter.Within maxSeenNonces (openNonces c e packets) →
        HandedAtMostOnce c e peer calls packets) ∧
      ((calls.map Prod.fst).Nodup →
        (∀ packet ∈ packets,
          c.Unforged (calls.map fun call => peer.sealCall call.1 call.2) e packet) →
        HandedAtMostOnce c e peer calls packets →
        DuplicateFilter.Within maxSeenNonces (openNonces c e packets)) := by
  obtain ⟨-, -, -, -, -, -, hwindow⟩ := newEncryptedTransport_eq_ok he
  constructor
  · intro hwithin packet _
    have hnodup := nodup_receiveAll_of_within hwindow hwithin
    exact List.nodup_iff_count_le_one.mp hnodup packet
  · intro hfresh hideal honce
    exact within_of_count_le_one hwindow hfresh hideal honce

theorem handed_at_most_once_repeat :
    HandedAtMostOnce checksumCrypto (sampleTransport true) (sampleTransport false)
      [(countingNonce 0, [1]), (countingNonce 1, [2])]
      (packetsOf checksumCrypto (sampleTransport false)
        [(countingNonce 0, [1]), (countingNonce 1, [2]), (countingNonce 0, [1])]) := by
  refine (handed_at_most_once_iff (newEncryptedTransport_sample true) _ _ _).1 ?_
  have hpaired : Paired (sampleTransport false) (sampleTransport true) := paired_sample false
  rw [openNonces_packetsOf checksumCrypto_lawful hpaired]
  exact DuplicateFilter.passed_nodup_iff.mp (by decide)

/-- The exit receives 4097 packets of the client and then the first of them once more. -/
theorem replayed_after_maxSeenNonces :
    newEncryptedTransport checksumCrypto (some ()) (literal "correct horse battery")
        (literal "oneme") true = .ok (sampleTransport true) ∧
      newEncryptedTransport checksumCrypto (some ()) (literal "correct horse battery")
        (literal "oneme") false = .ok (sampleTransport false) ∧
      ¬ HandedAtMostOnce checksumCrypto (sampleTransport true) (sampleTransport false)
        ((countingNonce 0, []) :: countingCalls 4096)
        (packetsOf checksumCrypto (sampleTransport false)
          ((countingNonce 0, []) :: countingCalls 4096 ++ [(countingNonce 0, [])])) := by
  refine ⟨newEncryptedTransport_sample true, newEncryptedTransport_sample false, ?_⟩
  refine not_handedAtMostOnce_of_le checksumCrypto_lawful (paired_sample false) rfl
    (nodup_countingCalls (by omega)) ?_
  rw [countingCalls, List.length_map, List.length_range]
  exact Nat.le_refl _

end OpenFlux.Transport.Encrypted
